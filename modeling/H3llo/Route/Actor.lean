import H3llo.Basis.Runs
import H3llo.Route.Sync

/-! The route actor, on a host whose operations may fail.

A failed operation is only logged and is not tried again before the next request. What a
request has left undone is its debt: stale routes that are still there and desired prefixes
that are not.
-/

set_option autoImplicit false

namespace H3llo.RouteSync
open H3llo.Net H3llo.Runs

variable {Attrs Host : Type}

/-! ## Hosts that refuse operations -/

/-- The routes of a host are changed by its operations only, and a refused operation has no effect.
`refused` counts the refused changes. -/
structure RouteHandle.Honest (handle : RouteHandle Attrs Host)
    (table : Host → Multiset (Route Attrs)) (refused : Host → Nat) : Prop where
  list : ∀ host, table (handle.list host).2 = table host ∧
    refused (handle.list host).2 = refused host ∧
    ∀ routes, (handle.list host).1 = .ok routes → (routes : Multiset (Route Attrs)) = table host
  add : ∀ route host, let after := (handle.add route host).2
    (handle.add route host).1 = .ok () ∧ table after = route ::ₘ table host ∧
      refused after = refused host ∨
      (∃ error, (handle.add route host).1 = .error error) ∧ table after = table host ∧
        refused after = refused host + 1
  delete : ∀ route host, let after := (handle.delete route host).2
    (handle.delete route host).1 = .ok () ∧ route ::ₘ table after = table host ∧
      refused after = refused host ∨
      (∃ error, (handle.delete route host).1 = .error error) ∧ table after = table host ∧
        refused after = refused host + 1

namespace RouteHandle.Honest

variable {handle : RouteHandle Attrs Host} {table : Host → Multiset (Route Attrs)}
  {refused : Host → Nat}

theorem deleteAll (honest : handle.Honest table refused) (routes : List (Route Attrs))
    (host : Host) :
    ∃ removed : List (Route Attrs), removed.Sublist routes ∧
      table (RouteSync.deleteAll handle routes host) + removed = table host ∧
      refused (RouteSync.deleteAll handle routes host) + removed.length =
        refused host + routes.length := by
  induction routes generalizing host with
  | nil => exact ⟨[], .slnil, by simp [RouteSync.deleteAll], rfl⟩
  | cons route rest ih =>
    obtain ⟨removed, among, balance, count⟩ := ih (handle.delete route host).2
    rcases honest.delete route host with ⟨_, gone, same⟩ | ⟨_, same, more⟩
    · refine ⟨route :: removed, among.cons_cons route, ?_, ?_⟩
      · rw [← gone, ← balance, ← Multiset.cons_coe, Multiset.add_cons]
        rfl
      · rw [same] at count
        simp only [List.length_cons, ← Nat.add_assoc]
        exact congrArg (· + 1) count
    · refine ⟨removed, among.cons route, balance.trans same, count.trans ?_⟩
      rw [more, List.length_cons]
      omega

theorem addAll (honest : handle.Honest table refused) (routes : List (Route Attrs)) (host : Host) :
    ∃ added : List (Route Attrs), added.Sublist routes ∧
      table (RouteSync.addAll handle routes host) = table host + added ∧
      refused (RouteSync.addAll handle routes host) + added.length =
        refused host + routes.length := by
  induction routes generalizing host with
  | nil => exact ⟨[], .slnil, by simp [RouteSync.addAll], rfl⟩
  | cons route rest ih =>
    obtain ⟨added, among, balance, count⟩ := ih (handle.add route host).2
    rcases honest.add route host with ⟨_, stored, same⟩ | ⟨_, same, more⟩
    · refine ⟨route :: added, among.cons_cons route, balance.trans ?_, ?_⟩
      · rw [stored, ← Multiset.cons_coe, Multiset.cons_add, Multiset.add_cons]
      · rw [same] at count
        simp only [List.length_cons, ← Nat.add_assoc]
        exact congrArg (· + 1) count
    · refine ⟨added, among.cons route, balance.trans (by rw [same]), count.trans ?_⟩
      rw [more, List.length_cons]
      omega

end RouteHandle.Honest

/-! ## Debts -/

structure SyncRequest where
  tunIfindex : UInt32
  tunAddrs : List IpNet
  allowed : List IpNet
  deriving DecidableEq, Repr

namespace SyncRequest

variable (request : SyncRequest)

def desired : Finset IpNet := desiredRoutes request.tunAddrs request.allowed

def IsStale (route : Route Attrs) : Prop :=
  RouteSync.IsStale request.tunIfindex request.desired (tunV4KernelRoutes request.tunAddrs) route

instance : DecidablePred (request.IsStale : Route Attrs → Prop) := fun route =>
  inferInstanceAs (Decidable (RouteSync.IsStale _ _ _ route))

def missing (table : Multiset (Route Attrs)) : Finset IpNet :=
  request.desired.filter fun net => ∀ route ∈ table, tunPrefix request.tunIfindex route ≠ some net

def debt (table : Multiset (Route Attrs)) : Nat :=
  (table.filter request.IsStale).card + (request.missing table).card

variable {request}

theorem not_desired_of_isStale {route : Route Attrs} (stale : request.IsStale route) {net : IpNet}
    (found : tunPrefix request.tunIfindex route = some net) : net ∉ request.desired := by
  obtain ⟨other, same, undesired, _⟩ := stale
  cases found.symm.trans same
  exact undesired

theorem settled_of_debt {table : Multiset (Route Attrs)} (none : request.debt table = 0) :
    (∀ route ∈ table, ¬ request.IsStale route) ∧
      ∀ net ∈ request.desired, ∃ route ∈ table, tunPrefix request.tunIfindex route = some net := by
  obtain ⟨fresh, complete⟩ := Nat.add_eq_zero_iff.mp none
  refine ⟨Multiset.filter_eq_nil.mp (Multiset.card_eq_zero.mp fresh), fun net wanted => ?_⟩
  by_contra absent
  have member : net ∈ request.missing table :=
    Finset.mem_filter.mpr ⟨wanted, fun route inside same => absent ⟨route, inside, same⟩⟩
  rw [Finset.card_eq_zero.mp complete] at member
  exact Finset.notMem_empty net member

theorem toFinset_walk {walk : List IpNet} (walks : (walk : Multiset IpNet) = request.desired.val)
    {routes : List (Route Attrs)} {table : Multiset (Route Attrs)}
    (lists : (routes : Multiset (Route Attrs)) = table) :
    (walk.filter (· ∉ present request.tunIfindex routes ∩ request.desired)).toFinset =
      request.missing table := by
  subst lists
  ext net
  have walked : net ∈ walk ↔ net ∈ request.desired := by
    rw [← Multiset.mem_coe, walks, Finset.mem_val]
  simp only [List.toFinset_filter, Finset.mem_filter, List.mem_toFinset, walked, missing,
    decide_eq_true_eq, Finset.mem_inter, mem_present, Multiset.mem_coe]
  refine and_congr_right fun wanted => ?_
  constructor
  · exact fun absent route inside found => absent ⟨⟨route, inside, found⟩, wanted⟩
  · rintro absent ⟨⟨route, inside, found⟩, _⟩
    exact absent route inside found

variable [Inhabited Attrs]

/-- A change of the table that a request accounts for: some of its stale routes are removed and some
of the missing ones added. -/
structure Adjusts (request : SyncRequest) (before after : Multiset (Route Attrs))
    (removed : Multiset (Route Attrs)) (added : List IpNet) : Prop where
  balance : after + removed =
    before + (added.map (tunRoute request.tunIfindex) : List (Route Attrs))
  stale : ∀ route ∈ removed, request.IsStale route
  nodup : added.Nodup
  missing : added.toFinset ⊆ request.missing before

namespace Adjusts

variable {before after removed : Multiset (Route Attrs)} {added : List IpNet}

theorem desired (adjusts : request.Adjusts before after removed added) {net : IpNet}
    (member : net ∈ added) : net ∈ request.desired :=
  (Finset.mem_filter.mp (adjusts.missing (List.mem_toFinset.mpr member))).1

theorem not_stale (adjusts : request.Adjusts before after removed added) :
    ∀ route ∈ ((added.map (tunRoute request.tunIfindex) : List (Route Attrs)) : Multiset
      (Route Attrs)), ¬ request.IsStale route := by
  intro route member stale
  obtain ⟨net, inside, rfl⟩ := List.mem_map.mp (Multiset.mem_coe.mp member)
  exact not_desired_of_isStale stale (tunPrefix_tunRoute _ net) (adjusts.desired inside)

theorem card_stale (adjusts : request.Adjusts before after removed added) :
    (after.filter request.IsStale).card + removed.card = (before.filter request.IsStale).card := by
  have filtered := congrArg (Multiset.filter request.IsStale) adjusts.balance
  rw [Multiset.filter_add, Multiset.filter_add, Multiset.filter_eq_self.mpr adjusts.stale,
    Multiset.filter_eq_nil.mpr adjusts.not_stale, Multiset.add_zero] at filtered
  rw [← Multiset.card_add, filtered]

theorem missing_after (adjusts : request.Adjusts before after removed added) :
    request.missing after = request.missing before \ added.toFinset := by
  have balance (route : Route Attrs) : route ∈ after ∨ route ∈ removed ↔
      route ∈ before ∨ route ∈ added.map (tunRoute request.tunIfindex) := by
    rw [← Multiset.mem_add, adjusts.balance, Multiset.mem_add, Multiset.mem_coe]
  ext net
  simp only [SyncRequest.missing, Finset.mem_sdiff, Finset.mem_filter, List.mem_toFinset, and_assoc]
  refine and_congr_right fun wanted => ?_
  constructor
  · intro absent
    have gone (route : Route Attrs) (inside : route ∈ after ∨ route ∈ removed) :
        tunPrefix request.tunIfindex route ≠ some net := by
      intro found
      rcases inside with kept | lost
      · exact absent route kept found
      · exact not_desired_of_isStale (adjusts.stale route lost) found wanted
    refine ⟨fun route inside => gone route ((balance route).mpr (.inl inside)), fun member => ?_⟩
    exact gone _ ((balance _).mpr (.inr (List.mem_map_of_mem member))) (tunPrefix_tunRoute _ net)
  · rintro ⟨absent, unadded⟩ route inside found
    rcases (balance route).mp (.inl inside) with old | new
    · exact absent route old found
    · obtain ⟨other, member, rfl⟩ := List.mem_map.mp new
      rw [tunPrefix_tunRoute, Option.some.injEq] at found
      exact unadded (found ▸ member)

theorem debt (adjusts : request.Adjusts before after removed added) :
    request.debt after + removed.card + added.length = request.debt before := by
  have missing : (request.missing after).card + added.length = (request.missing before).card := by
    rw [adjusts.missing_after, ← List.toFinset_card_of_nodup adjusts.nodup]
    exact Finset.card_sdiff_add_card_eq_card adjusts.missing
  have stale := adjusts.card_stale
  unfold SyncRequest.debt
  omega

/-- Routes that are neither stale nor desired ones of the interface are not touched. -/
theorem untouched (adjusts : request.Adjusts before after removed added)
    {watch : Route Attrs → Bool}
    (unconcerned : ∀ route, watch route → ¬ request.IsStale route ∧ ∀ net ∈ request.desired,
      route ≠ tunRoute request.tunIfindex net) :
    after.filter (watch ·) = before.filter (watch ·) := by
  have filtered := congrArg (Multiset.filter (watch ·)) adjusts.balance
  rw [Multiset.filter_add, Multiset.filter_add] at filtered
  have kept : removed.filter (watch ·) = 0 :=
    Multiset.filter_eq_nil.mpr fun route member watched =>
      (unconcerned route watched).1 (adjusts.stale route member)
  have foreign : Multiset.filter (watch ·)
      ((added.map (tunRoute request.tunIfindex) : List (Route Attrs)) : Multiset (Route Attrs)) =
      0 := by
    apply Multiset.filter_eq_nil.mpr
    intro route member watched
    obtain ⟨net, inside, rfl⟩ := List.mem_map.mp (Multiset.mem_coe.mp member)
    exact (unconcerned _ watched).2 net (adjusts.desired inside) rfl
  rwa [kept, foreign, Multiset.add_zero, Multiset.add_zero] at filtered

end Adjusts

end SyncRequest

/-- A synchronisation adjusts the table, and what it does not adjust was refused. -/
theorem RouteHandle.Honest.sync [Inhabited Attrs] {handle : RouteHandle Attrs Host}
    {table : Host → Multiset (Route Attrs)} {refused : Host → Nat}
    (honest : handle.Honest table refused) {request : SyncRequest} {walk : List IpNet}
    (walks : (walk : Multiset IpNet) = request.desired.val)
    (resolve : String → Except RouteSyncError UInt32) (tunIf : String)
    (resolves : resolve tunIf = .ok request.tunIfindex) {host : Host}
    {routes : List (Route Attrs)} (lists : (handle.list host).1 = .ok routes) :
    let after := (syncTunRoutes handle resolve tunIf request.tunAddrs request.allowed walk host).2
    ∃ removed added, request.Adjusts (table host) (table after) removed added ∧
      refused after + Multiset.card removed + added.length =
        refused host + request.debt (table host) := by
  obtain ⟨sameTable, sameRefused, complete⟩ := honest.list host
  have listed := complete routes lists
  rw [syncTunRoutes_ok resolves lists]
  -- First the stale routes go, then the missing ones are added; each operation is done or refused.
  obtain ⟨removed, among, deleted, refusedDeletes⟩ :=
    honest.deleteAll (deletions request.tunIfindex request.tunAddrs request.allowed routes)
      (handle.list host).2
  obtain ⟨stored, within, grown, refusedAdds⟩ := honest.addAll
    (additions request.tunIfindex walk (present request.tunIfindex routes ∩ request.desired))
    (RouteSync.deleteAll handle
      (deletions request.tunIfindex request.tunAddrs request.allowed routes) (handle.list host).2)
  obtain ⟨added, chosen, rfl⟩ := List.sublist_map_iff.mp within
  have nodup : walk.Nodup := by
    rw [← Multiset.coe_nodup, walks]
    exact request.desired.nodup
  have covers := SyncRequest.toFinset_walk walks listed
  refine ⟨removed, added, ⟨?_, ?_, ?_, ?_⟩, ?_⟩
  · refine (congrArg (· + (removed : Multiset (Route Attrs))) grown).trans ?_
    rw [Multiset.add_assoc, Multiset.add_comm (Multiset.ofList _), ← Multiset.add_assoc, deleted,
      sameTable]
  · intro route member
    have stale := among.subset (Multiset.mem_coe.mp member)
    exact of_decide_eq_true (List.mem_filter.mp stale).2
  · exact (nodup.filter _).sublist chosen
  · rw [← covers]
    exact fun net member => List.mem_toFinset.mpr (chosen.subset (List.mem_toFinset.mp member))
  -- All of the debt is asked for: every stale route is deleted or refused, and every missing prefix
  -- is added or refused.
  · have stale : (deletions request.tunIfindex request.tunAddrs request.allowed routes).length =
        ((table host).filter request.IsStale).card := by
      rw [← listed, Multiset.filter_coe]
      rfl
    have missing : (additions request.tunIfindex walk
        (present request.tunIfindex routes ∩ request.desired) :
        List (Route Attrs)).length = (request.missing (table host)).card := by
      rw [additions, List.length_map, ← covers, List.toFinset_card_of_nodup (nodup.filter _)]
    rw [List.length_map, missing] at refusedAdds
    rw [stale, sameRefused] at refusedDeletes
    rw [Multiset.coe_card, SyncRequest.debt, Nat.add_right_comm]
    refine (congrArg (· + removed.length) refusedAdds).trans ?_
    omega

/-! ## The actor -/

inductive RouteMessage where
  | syncRoutes (tunAddrs allowed : List IpNet)
  | stop
  | other
  deriving DecidableEq, Repr

/-- One turn of the actor's loop; `none` where it returns. -/
def handleMessage [Inhabited Attrs] (handle : RouteHandle Attrs Host)
    (resolve : String → Except RouteSyncError UInt32) (tunIf : String) (walk : List IpNet)
    (host : Host) :
    RouteMessage → Option Host
  -- A failure is logged, and the loop goes on.
  | .syncRoutes tunAddrs allowed =>
      some (syncTunRoutes handle resolve tunIf tunAddrs allowed walk host).2
  | .stop => none
  | .other => some host

def carriedOut (handle : RouteHandle Attrs Host) (resolved : Except RouteSyncError UInt32)
    (host : Host) :
    RouteMessage → Option SyncRequest
  | .syncRoutes tunAddrs allowed =>
      match resolved, (handle.list host).1 with
      | .ok tunIfindex, .ok _ => some ⟨tunIfindex, tunAddrs, allowed⟩
      | _, _ => none
  | .stop | .other => none

structure RouteLoop (Attrs Host : Type) where
  host : Host
  running : Bool
  /-- The last request that was carried out, and how many of its changes were refused. -/
  last : Option (SyncRequest × Nat)
  /-- The watched routes, as other programs have left them. -/
  watched : Multiset (Route Attrs)

inductive RouteTurn (Host : Type) where
  /-- A message with what the interface resolves to and the order in which the desired prefixes are
  walked. -/
  | message (message : RouteMessage) (walk : List IpNet) (resolved : Except RouteSyncError UInt32)
  /-- Another program changes the routes. -/
  | outside (host : Host)

namespace RouteLoop

variable (handle : RouteHandle Attrs Host) (table : Host → Multiset (Route Attrs))
  (refused : Host → Nat) (tunIf : String)
variable (watch : Route Attrs → Bool)

def start (host : Host) : RouteLoop Attrs Host := ⟨host, true, none, (table host).filter (watch ·)⟩

def step [Inhabited Attrs] (turn : RouteTurn Host) (state : RouteLoop Attrs Host) :
    Option (RouteLoop Attrs Host) :=
  match turn with
  | .outside host =>
      some { state with host, last := none, watched := (table host).filter (watch ·) }
  | .message message walk resolved =>
      if !state.running then none
      else
        match handleMessage handle (fun _ => resolved) tunIf walk state.host message with
        | none => some { state with running := false }
        | some host =>
            some { state with
              host
              last := match carriedOut handle resolved state.host message with
                | some request => some (request, refused host - refused state.host)
                | none => state.last }

/-- The walk enumerates the desired prefixes, and no request is about a watched route. -/
def Proper [Inhabited Attrs] (_ : RouteLoop Attrs Host) : RouteTurn Host → Prop
  | .message (.syncRoutes tunAddrs allowed) walk resolved =>
      (walk : Multiset IpNet) = (desiredRoutes tunAddrs allowed).val ∧
        ∀ tunIfindex, resolved = .ok tunIfindex → ∀ route, watch route →
          ¬ SyncRequest.IsStale ⟨tunIfindex, tunAddrs, allowed⟩ route ∧
          ∀ net ∈ desiredRoutes tunAddrs allowed, route ≠ tunRoute tunIfindex net
  | _ => True

/-- What is owed to the last request is what was refused in it, and watched routes are as other
programs have left them. -/
structure Settled (state : RouteLoop Attrs Host) : Prop where
  owed : ∀ request count, state.last = some (request, count) →
    request.debt (table state.host) = count
  watched : (table state.host).filter (watch ·) = state.watched

end RouteLoop

section Reconciliation

variable {handle : RouteHandle Attrs Host} {table : Host → Multiset (Route Attrs)}
  {refused : Host → Nat} {tunIf : String}
variable {watch : Route Attrs → Bool} {resolved : Except RouteSyncError UInt32}
  {message : RouteMessage} {walk : List IpNet}

theorem carriedOut_eq_some {host : Host} {request : SyncRequest}
    (carried : carriedOut handle resolved host message = some request) :
    message = .syncRoutes request.tunAddrs request.allowed ∧ resolved = .ok request.tunIfindex ∧
      ∃ routes, (handle.list host).1 = .ok routes := by
  cases message with
  | stop => cases carried
  | other => cases carried
  | syncRoutes tunAddrs allowed =>
    unfold carriedOut at carried
    simp only at carried
    split at carried
    next tunIfindex routes lists =>
      cases carried
      exact ⟨rfl, rfl, routes, lists⟩
    next => cases carried

variable [Inhabited Attrs]

theorem table_of_idle (honest : handle.Honest table refused) {host after : Host}
    (idle : carriedOut handle resolved host message = none)
    (handled : handleMessage handle (fun _ => resolved) tunIf walk host message = some after) :
    table after = table host := by
  cases message with
  | stop => cases handled
  | other =>
    cases handled
    rfl
  | syncRoutes tunAddrs allowed =>
    cases handled
    unfold syncTunRoutes
    cases resolved with
    | error error => rfl
    | ok tunIfindex =>
      have kept := (honest.list host).1
      cases lists : handle.list host with
      | mk result listed =>
        rw [lists] at kept
        cases result with
        | error error => exact kept
        | ok routes => simp [carriedOut, lists] at idle

theorem adjusts_of_carriedOut (honest : handle.Honest table refused)
    {state : RouteLoop Attrs Host} {after : Host} {request : SyncRequest}
    (proper : RouteLoop.Proper watch state (.message message walk resolved))
    (carried : carriedOut handle resolved state.host message = some request)
    (handled : handleMessage handle (fun _ => resolved) tunIf walk state.host message =
      some after) :
    (∃ removed added, request.Adjusts (table state.host) (table after) removed added) ∧
      request.debt (table after) = refused after - refused state.host ∧
      (table after).filter (watch ·) = (table state.host).filter (watch ·) := by
  obtain ⟨rfl, rfl, routes, lists⟩ := carriedOut_eq_some carried
  obtain ⟨walks, unconcerned⟩ := proper
  cases handled
  obtain ⟨removed, added, adjusts, count⟩ :=
    honest.sync walks (fun _ => .ok request.tunIfindex) tunIf rfl lists
  refine ⟨⟨removed, added, adjusts⟩, ?_, adjusts.untouched (unconcerned request.tunIfindex rfl)⟩
  have debt := adjusts.debt
  omega

namespace RouteLoop

variable {state next : RouteLoop Attrs Host}

theorem settled_of_step (honest : handle.Honest table refused)
    (settled : Settled table watch state) {turn : RouteTurn Host}
    (proper : Proper watch state turn)
    (taken : step handle table refused tunIf watch turn state = some next) :
    Settled table watch next := by
  cases turn with
  | outside host =>
    cases taken
    exact ⟨nofun, rfl⟩
  | message message walk resolved =>
    unfold step at taken
    simp only [Option.ite_none_left_eq_some] at taken
    obtain ⟨_, taken⟩ := taken
    cases handled : handleMessage handle (fun _ => resolved) tunIf walk state.host message with
    | none =>
      rw [handled] at taken
      cases taken
      exact ⟨settled.owed, settled.watched⟩
    | some host =>
      rw [handled] at taken
      cases taken
      cases carried : carriedOut handle resolved state.host message with
      | none =>
        have same := table_of_idle honest carried handled
        refine ⟨fun request count last => ?_, ?_⟩
        · rw [same]
          exact settled.owed request count last
        · rw [same]
          exact settled.watched
      | some request =>
        obtain ⟨_, debt, kept⟩ := adjusts_of_carriedOut honest proper carried handled
        refine ⟨?_, kept.trans settled.watched⟩
        rintro _ _ ⟨⟩
        exact debt

theorem debt_of_step (honest : handle.Honest table refused) {request : SyncRequest}
    (proper : Proper watch state (.message message walk resolved))
    (taken : step handle table refused tunIf watch (.message message walk resolved) state =
      some next)
    (carried : carriedOut handle resolved state.host message = some request) :
    request.debt (table next.host) ≤ request.debt (table state.host) := by
  unfold step at taken
  simp only [Option.ite_none_left_eq_some] at taken
  obtain ⟨_, taken⟩ := taken
  cases handled : handleMessage handle (fun _ => resolved) tunIf walk state.host message with
  | none =>
    rw [handled] at taken
    cases taken
    exact le_refl _
  | some host =>
    rw [handled] at taken
    cases taken
    obtain ⟨⟨removed, added, adjusts⟩, _⟩ := adjusts_of_carriedOut honest proper carried handled
    have debt := adjusts.debt
    change request.debt (table host) ≤ _
    omega

end RouteLoop

end Reconciliation

/-! ### A host that refuses some changes -/

structure FlakyHost where
  routes : List (Route Unit)
  /-- Whether each of the next changes is made. -/
  outcomes : List Bool
  refused : Nat

def flakyHandle : RouteHandle Unit FlakyHost where
  list host := (.ok host.routes, host)
  add route host :=
    if host.outcomes.headD true then
      (.ok (), ⟨host.routes ++ [route], host.outcomes.tail, host.refused⟩)
    else (.error "no buffer space", ⟨host.routes, host.outcomes.tail, host.refused + 1⟩)
  delete route host :=
    if host.outcomes.headD true ∧ route ∈ host.routes then
      (.ok (), ⟨host.routes.erase route, host.outcomes.tail, host.refused⟩)
    else (.error "no such process", ⟨host.routes, host.outcomes.tail, host.refused + 1⟩)

def FlakyHost.table (host : FlakyHost) : Multiset (Route Unit) := host.routes

theorem honest_flakyHandle : flakyHandle.Honest FlakyHost.table FlakyHost.refused where
  list host := ⟨rfl, rfl, fun routes lists => congrArg _ (Except.ok.inj lists).symm⟩
  add route host := by
    by_cases made : host.outcomes.headD true
    · simp only [flakyHandle, if_pos made]
      exact .inl ⟨trivial, Multiset.coe_eq_coe.mpr (List.perm_append_singleton _ _), trivial⟩
    · simp only [flakyHandle, if_neg made]
      exact .inr ⟨⟨_, rfl⟩, rfl, trivial⟩
  delete route host := by
    by_cases made : host.outcomes.headD true ∧ route ∈ host.routes
    · simp only [flakyHandle, if_pos made]
      exact .inl ⟨trivial, Multiset.coe_eq_coe.mpr (List.perm_cons_erase made.2).symm, trivial⟩
    · simp only [flakyHandle, if_neg made]
      exact .inr ⟨⟨_, rfl⟩, rfl, trivial⟩

def isForeign (tunIfindex : UInt32) (route : Route Unit) : Bool :=
  decide (route.ifIndex ≠ some tunIfindex)

theorem foreign_unconcerned (request : SyncRequest) (route : Route Unit)
    (foreign : isForeign request.tunIfindex route) :
    ¬ request.IsStale route ∧ ∀ net ∈ request.desired, route ≠ tunRoute request.tunIfindex net := by
  have elsewhere : route.ifIndex ≠ some request.tunIfindex := of_decide_eq_true foreign
  refine ⟨?_, ?_⟩
  · rintro ⟨net, found, _⟩
    rw [tunPrefix, if_neg elsewhere] at found
    cases found
  · rintro net _ rfl
    exact elsewhere rfl

def flakyRequest : SyncRequest := ⟨7, [.ofV4 0x0a090001 24], [.ofV4 0x0a000000 24, .ofV4 0 0]⟩

def flakyTurn : RouteTurn FlakyHost :=
  .message (.syncRoutes flakyRequest.tunAddrs flakyRequest.allowed)
    [.ofV4 0x0a000000 24, .half .v4 false, .half .v4 true] (.ok 7)

def flakyStep :
    RouteTurn FlakyHost → RouteLoop Unit FlakyHost → Option (RouteLoop Unit FlakyHost) :=
  RouteLoop.step flakyHandle FlakyHost.table FlakyHost.refused "h3llo0" (isForeign 7)

def flakyStart : RouteLoop Unit FlakyHost :=
  .start FlakyHost.table (isForeign 7) ⟨sampleTable, [false], 0⟩

end H3llo.RouteSync
