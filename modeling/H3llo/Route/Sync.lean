import H3llo.Net.Subnets
import Mathlib.Data.Multiset.Filter
import Mathlib.Data.Finset.Dedup
import Mathlib.Data.Finset.Filter

/-! Synchronisation of the host's routes with the allowed prefixes.

The host is known by its operations only. Their failures are logged and change nothing
else in the code, so the operations that a synchronisation issues depend on the listed
routes alone.
-/

set_option autoImplicit false

namespace H3llo.RouteSync
open H3llo.Net

structure Route (Attrs : Type) where
  destination : IpAddr
  prefixLen : Nat
  ifIndex : Option UInt32
  attrs : Attrs
  deriving DecidableEq, Repr

variable {Attrs Host : Type}

namespace Route

def new [Inhabited Attrs] (destination : IpAddr) (prefixLen : Nat) : Route Attrs :=
  ⟨destination, prefixLen, none, default⟩

def withIfIndex (ifIndex : UInt32) (route : Route Attrs) : Route Attrs :=
  { route with ifIndex := some ifIndex }

end Route

structure RouteHandle (Attrs Host : Type) where
  list : Host → Except String (List (Route Attrs)) × Host
  add : Route Attrs → Host → Except String Unit × Host
  delete : Route Attrs → Host → Except String Unit × Host

inductive RouteSyncError where
  | interfaceLookup (interface error : String)
  | listFailed (error : String)
  deriving DecidableEq, Repr

/-! ## Classification of prefixes -/

def splitDefaultPrefix (net : IpNet) : Option (IpNet × IpNet) :=
  if net.prefixLen ≠ 0 then none
  else
    match net.subnets 1 with
    | some (lower :: upper :: _) => some (lower, upper)
    | _ => none

/-- Prefixes to route, with default ones split; the rest is taken as written. -/
def expandAllowedPrefixes (allowed : List IpNet) : Finset IpNet :=
  (allowed.flatMap fun net =>
    if net.prefixLen = 0 then
      match splitDefaultPrefix net with
      | some (lower, upper) => [lower, upper]
      | none => [net]
    else [net]).toFinset

def desiredRoutes (tunAddrs allowed : List IpNet) : Finset IpNet :=
  let tunPrefixes := tunAddrs.map IpNet.trunc
  (expandAllowedPrefixes allowed).filter fun net => ¬ ∃ tun ∈ tunPrefixes, tun.Covers net

def limitedBroadcast : IpAddr := .v4 (BitVec.allOnes 32)

def kernelRoutes (addr : IpNet) : List IpNet :=
  let network := addr.trunc
  [network, .host addr.addr] ++
    match network.addr.family with
    | .v4 => if network.prefixLen ≤ 30 then [.host network.addr, .host network.last] else []
    | .v6 => []

def tunV4KernelRoutes (tunAddrs : List IpNet) : Finset IpNet :=
  insert (.host limitedBroadcast) (tunAddrs.flatMap kernelRoutes).toFinset

def isIpv6KernelRoute (net : IpNet) : Bool :=
  match net.trunc.addr with
  | ⟨.v4, _⟩ => false
  | ⟨.v6, network⟩ =>
      -- `fe80::/10` and `ff00::/8`
      decide (network.extractLsb' 118 10 = 0b1111111010#10) ||
        decide (network.extractLsb' 120 8 = 0xff#8)

def ipnetFromRoute (route : Route Attrs) : Option IpNet :=
  if bound : route.prefixLen ≤ route.destination.family.width then
    some ⟨route.destination, route.prefixLen, bound⟩
  else none

/-! ## The synchronisation -/

namespace RouteHandle

variable (handle : RouteHandle Attrs Host) (tunIfindex : UInt32) (desired kernel : Finset IpNet)

def sweep : List (Route Attrs) → Finset IpNet → Host → Finset IpNet × Host
  | [], existing, host => (existing, host)
  | route :: rest, existing, host =>
      match ipnetFromRoute route with
      | none => sweep rest existing host
      | some net =>
          if route.ifIndex = some tunIfindex then
            if net ∈ desired then sweep rest (insert net existing) host
            else if net ∈ kernel ∨ isIpv6KernelRoute net then sweep rest existing host
            -- A failed deletion is only logged.
            else sweep rest existing (handle.delete route host).2
          else sweep rest existing host

def install [Inhabited Attrs] (existing : Finset IpNet) : List IpNet → Host → Host
  | [], host => host
  | net :: rest, host =>
      if net ∈ existing then install existing rest host
      else install existing rest
        (handle.add ((Route.new net.addr net.prefixLen).withIfIndex tunIfindex) host).2

end RouteHandle

/-- `walk` lists the desired prefixes in the order of their hash set. -/
def syncTunRoutes [Inhabited Attrs] (handle : RouteHandle Attrs Host)
    (resolve : String → Except RouteSyncError UInt32) (tunIf : String)
    (tunAddrs allowed walk : List IpNet) (host : Host) : Except RouteSyncError Unit × Host :=
  match resolve tunIf with
  | .error error => (.error error, host)
  | .ok tunIfindex =>
      match handle.list host with
      | (.error error, host) => (.error (.listFailed error), host)
      | (.ok routes, host) =>
          let (existing, host) :=
            handle.sweep tunIfindex (desiredRoutes tunAddrs allowed)
              (tunV4KernelRoutes tunAddrs) routes ∅ host
          (.ok (), handle.install tunIfindex existing walk host)

/-! ## What a synchronisation issues -/

inductive Op (Attrs : Type) where
  | add (route : Route Attrs)
  | delete (route : Route Attrs)
  deriving DecidableEq, Repr

def RouteHandle.recorded (handle : RouteHandle Attrs Host) :
    RouteHandle Attrs (Host × List (Op Attrs)) where
  list state := ((handle.list state.1).1, (handle.list state.1).2, state.2)
  add route state := ((handle.add route state.1).1, (handle.add route state.1).2,
    state.2 ++ [.add route])
  delete route state := ((handle.delete route state.1).1, (handle.delete route state.1).2,
    state.2 ++ [.delete route])

def issued [Inhabited Attrs] (handle : RouteHandle Attrs Host)
    (resolve : String → Except RouteSyncError UInt32) (tunIf : String)
    (tunAddrs allowed walk : List IpNet) (host : Host) : List (Op Attrs) :=
  (syncTunRoutes handle.recorded resolve tunIf tunAddrs allowed walk (host, [])).2.2

section Plan

variable (tunIfindex : UInt32) (desired kernel : Finset IpNet)

def tunPrefix (route : Route Attrs) : Option IpNet :=
  if route.ifIndex = some tunIfindex then ipnetFromRoute route else none

/-- A route of the interface that is neither desired nor made by the host. -/
def IsStale (route : Route Attrs) : Prop :=
  ∃ net ∈ tunPrefix tunIfindex route, net ∉ desired ∧ ¬ (net ∈ kernel ∨ isIpv6KernelRoute net)

instance : DecidablePred (IsStale tunIfindex desired kernel : Route Attrs → Prop) := fun _ =>
  inferInstanceAs (Decidable (∃ net ∈ tunPrefix _ _, _))

def present (routes : List (Route Attrs)) : Finset IpNet :=
  (routes.filterMap (tunPrefix tunIfindex)).toFinset

def tunRoute [Inhabited Attrs] (net : IpNet) : Route Attrs :=
  (Route.new net.addr net.prefixLen).withIfIndex tunIfindex

def deleteAll (handle : RouteHandle Attrs Host) (routes : List (Route Attrs))
    (host : Host) : Host :=
  routes.foldl (fun host route => (handle.delete route host).2) host

def addAll (handle : RouteHandle Attrs Host) (routes : List (Route Attrs)) (host : Host) : Host :=
  routes.foldl (fun host route => (handle.add route host).2) host

theorem sweep_eq (handle : RouteHandle Attrs Host) (routes : List (Route Attrs))
    (existing : Finset IpNet) (host : Host) :
    handle.sweep tunIfindex desired kernel routes existing host =
      (existing ∪ present tunIfindex routes ∩ desired,
        deleteAll handle (routes.filter fun route => IsStale tunIfindex desired kernel route)
          host) := by
  induction routes generalizing existing host with
  | nil => simp [RouteHandle.sweep, present, deleteAll]
  | cons route rest ih =>
    unfold RouteHandle.sweep
    cases converted : ipnetFromRoute route with
    | none => simp [ih, present, IsStale, tunPrefix, converted]
    | some net =>
      by_cases ours : route.ifIndex = some tunIfindex
      · have own : tunPrefix tunIfindex route = some net := by simp [tunPrefix, ours, converted]
        by_cases wanted : net ∈ desired
        · have kept : ¬ IsStale tunIfindex desired kernel route := by simp [IsStale, own, wanted]
          simp only [ours, wanted, ih, present, List.filterMap_cons, own, List.toFinset_cons, kept,
            decide_false, List.filter_cons, if_true, Bool.false_eq_true, if_false, Prod.mk.injEq,
            and_true]
          rw [Finset.insert_inter_of_mem wanted, Finset.insert_union, Finset.union_insert]
        · by_cases made : net ∈ kernel ∨ isIpv6KernelRoute net
          · have kept : ¬ IsStale tunIfindex desired kernel route := by
              rintro ⟨other, found, _, foreign⟩
              cases own.symm.trans found
              exact foreign made
            simp [ours, wanted, made, ih, present, own, kept, Finset.insert_inter_of_notMem]
          · have stale : IsStale tunIfindex desired kernel route := ⟨net, own, wanted, made⟩
            simp [ours, wanted, made, ih, present, own, stale, deleteAll,
              Finset.insert_inter_of_notMem]
      · simp [ours, ih, present, IsStale, tunPrefix]

theorem install_eq [Inhabited Attrs] (handle : RouteHandle Attrs Host) (existing : Finset IpNet)
    (walk : List IpNet) (host : Host) :
    handle.install tunIfindex existing walk host =
      addAll handle ((walk.filter (· ∉ existing)).map (tunRoute tunIfindex)) host := by
  induction walk generalizing host with
  | nil => rfl
  | cons net rest ih =>
    unfold RouteHandle.install
    by_cases found : net ∈ existing
    · simp [found, ih]
    · simp [found, ih, addAll, tunRoute]

theorem deleteAll_recorded (handle : RouteHandle Attrs Host) (routes : List (Route Attrs))
    (host : Host) (ops : List (Op Attrs)) :
    deleteAll handle.recorded routes (host, ops) =
      (deleteAll handle routes host, ops ++ routes.map .delete) := by
  induction routes generalizing host ops with
  | nil => simp [deleteAll]
  | cons route rest ih => exact (ih _ _).trans (by simp [deleteAll])

theorem addAll_recorded (handle : RouteHandle Attrs Host) (routes : List (Route Attrs))
    (host : Host) (ops : List (Op Attrs)) :
    addAll handle.recorded routes (host, ops) =
      (addAll handle routes host, ops ++ routes.map .add) := by
  induction routes generalizing host ops with
  | nil => simp [addAll]
  | cons route rest ih => exact (ih _ _).trans (by simp [addAll])

end Plan

section Outcome

variable [Inhabited Attrs] {handle : RouteHandle Attrs Host}
  {resolve : String → Except RouteSyncError UInt32} {tunIf : String}
variable {tunIfindex : UInt32} {routes : List (Route Attrs)}

def deletions (tunIfindex : UInt32) (tunAddrs allowed : List IpNet)
    (routes : List (Route Attrs)) : List (Route Attrs) :=
  routes.filter fun route => IsStale tunIfindex (desiredRoutes tunAddrs allowed)
    (tunV4KernelRoutes tunAddrs) route

def additions (tunIfindex : UInt32) (walk : List IpNet)
    (existing : Finset IpNet) : List (Route Attrs) :=
  (walk.filter (· ∉ existing)).map (tunRoute tunIfindex)

theorem syncTunRoutes_ok (resolves : resolve tunIf = .ok tunIfindex) {host : Host}
    (lists : (handle.list host).1 = .ok routes) (tunAddrs allowed walk : List IpNet) :
    syncTunRoutes handle resolve tunIf tunAddrs allowed walk host =
      (.ok (), addAll handle
        (additions tunIfindex walk (present tunIfindex routes ∩ desiredRoutes tunAddrs allowed))
        (deleteAll handle (deletions tunIfindex tunAddrs allowed routes)
          (handle.list host).2)) := by
  have listed : handle.list host = (.ok routes, (handle.list host).2) := Prod.ext lists rfl
  unfold syncTunRoutes
  rw [resolves, listed]
  simp [sweep_eq, install_eq, deletions, additions]

theorem issued_ok (resolves : resolve tunIf = .ok tunIfindex) {host : Host}
    (lists : (handle.list host).1 = .ok routes) (tunAddrs allowed walk : List IpNet) :
    issued handle resolve tunIf tunAddrs allowed walk host =
      (deletions tunIfindex tunAddrs allowed routes).map .delete ++
        (additions tunIfindex walk (present tunIfindex routes ∩ desiredRoutes tunAddrs allowed)).map
          .add := by
  have recorded : (handle.recorded.list (host, [])).1 = .ok routes := lists
  rw [issued, syncTunRoutes_ok resolves recorded, RouteHandle.recorded]
  exact congrArg Prod.snd ((congrArg _ (deleteAll_recorded handle _ _ [])).trans
    (addAll_recorded handle _ _ _))

theorem issued_failed {host : Host} (tunAddrs allowed walk : List IpNet)
    (fails : (∃ error, resolve tunIf = .error error) ∨ ∃ error,
      (handle.list host).1 = .error error) :
    issued handle resolve tunIf tunAddrs allowed walk host = [] := by
  unfold issued syncTunRoutes
  cases resolves : resolve tunIf with
  | error error => rfl
  | ok tunIfindex =>
    obtain ⟨error, unresolved⟩ | ⟨error, unlisted⟩ := fails
    · rw [resolves] at unresolved
      cases unresolved
    · have recorded : handle.recorded.list (host, []) = (.error error, (handle.list host).2, []) :=
        Prod.ext unlisted rfl
      simp only [recorded]

end Outcome

/-! ## Hosts that store routes -/

section Stores

variable [DecidableEq Attrs]

/-- Every operation succeeds; `store` says what becomes of an added route. Of equal routes a
deletion may remove one or all. -/
structure RouteHandle.Stores (handle : RouteHandle Attrs Host)
    (table : Host → Multiset (Route Attrs)) (store : Route Attrs → Route Attrs) : Prop where
  list : ∀ host, ∃ routes : List (Route Attrs),
    (handle.list host).1 = .ok routes ∧ (routes : Multiset (Route Attrs)) = table host ∧
      table (handle.list host).2 = table host
  add : ∀ route host, (handle.add route host).1 = .ok () ∧
    table (handle.add route host).2 = store route ::ₘ table host
  delete : ∀ route host, (handle.delete route host).1 = .ok () ∧
    (table (handle.delete route host).2).count route ≤ (table host).count route - 1 ∧
    ∀ other, other ≠ route → (table (handle.delete route host).2).count other =
      (table host).count other

namespace RouteHandle.Stores

variable {handle : RouteHandle Attrs Host} {table : Host → Multiset (Route Attrs)}
  {store : Route Attrs → Route Attrs}

theorem addAll (stores : handle.Stores table store) (routes : List (Route Attrs)) (host : Host) :
    table (RouteSync.addAll handle routes host) =
      table host + (routes.map store : List (Route Attrs)) := by
  induction routes generalizing host with
  | nil => simp [RouteSync.addAll]
  | cons route rest ih =>
    refine (ih _).trans ?_
    rw [(stores.add route host).2, List.map_cons, ← Multiset.cons_coe, Multiset.cons_add,
      Multiset.add_cons]

theorem deleteAll (stores : handle.Stores table store) (routes : List (Route Attrs)) (host : Host)
    (often : ∀ route ∈ routes, (table host).count route ≤ routes.count route) :
    table (RouteSync.deleteAll handle routes host) = (table host).filter (· ∉ routes) := by
  induction routes generalizing host with
  | nil => simp [RouteSync.deleteAll]
  | cons route rest ih =>
    obtain ⟨_, fewer, others⟩ := stores.delete route host
    have first := often route List.mem_cons_self
    rw [List.count_cons_self] at first
    have remaining : ∀ other ∈ rest, (table (handle.delete route host).2).count other ≤
        rest.count other := by
      intro other member
      by_cases same : other = route
      · subst same
        omega
      · rw [others other same, ← List.count_cons_of_ne (Ne.symm same)]
        exact often other (List.mem_cons_of_mem _ member)
    refine (ih _ remaining).trans ?_
    ext other
    by_cases same : other = route
    · subst same
      by_cases again : other ∈ rest
      · simp [again]
      · -- the one deletion took the only occurrence
        rw [List.count_eq_zero_of_not_mem again] at first
        have gone : (table (handle.delete other host).2).count other = 0 := by omega
        simp [again, gone]
    · simp [Multiset.count_filter, same, others other same]

theorem syncTunRoutes [Inhabited Attrs] (stores : handle.Stores table store)
    {resolve : String → Except RouteSyncError UInt32} {tunIf : String} {tunIfindex : UInt32}
    (resolves : resolve tunIf = .ok tunIfindex) (tunAddrs allowed walk : List IpNet) (host : Host) :
    ∃ routes : List (Route Attrs), (handle.list host).1 = .ok routes ∧
      (routes : Multiset (Route Attrs)) = table host ∧
      table (RouteSync.syncTunRoutes handle resolve tunIf tunAddrs allowed walk host).2 =
        (table host).filter (fun route =>
          ¬ IsStale tunIfindex (desiredRoutes tunAddrs allowed)
            (tunV4KernelRoutes tunAddrs) route) +
        ((additions tunIfindex walk (present tunIfindex routes ∩
          desiredRoutes tunAddrs allowed)).map store :
          List (Route Attrs)) := by
  obtain ⟨routes, lists, same, untouched⟩ := stores.list host
  refine ⟨routes, lists, same, ?_⟩
  rw [syncTunRoutes_ok resolves lists, stores.addAll, stores.deleteAll, untouched]
  · congr 1
    refine Multiset.filter_congr fun route member => not_congr ?_
    rw [← same, Multiset.mem_coe] at member
    simp [deletions, member]
  · intro route stale
    have counted : (deletions tunIfindex tunAddrs allowed routes).count route =
        routes.count route :=
      List.count_filter (by exact (List.mem_filter.mp stale).2)
    rw [untouched, ← same, Multiset.coe_count, counted]

end RouteHandle.Stores
end Stores

/-! ## The declared state -/

/-- An allowed prefix, or half of an allowed default one, outside the interface's own networks. -/
def IsDesired (tunAddrs allowed : List IpNet) (net : IpNet) : Prop :=
  ((net ∈ allowed ∧ net.prefixLen ≠ 0) ∨
    ∃ default ∈ allowed, default.prefixLen = 0 ∧
      (net = .half default.addr.family false ∨ net = .half default.addr.family true)) ∧
  ∀ tun ∈ tunAddrs, ¬ tun.trunc.Covers net

/-- `fe80::/10` and `ff00::/8`, for the links and the groups of IPv6. -/
def linkLocal : IpNet := .ofV6 (0xfe80#128 <<< 112) 10
def multicast : IpNet := .ofV6 (0xff00#128 <<< 112) 8

/-- A prefix that the host manages itself. Of IPv6 these are the networks that start with a
link-local or a multicast address, so that `fe80::/9` is one of them. -/
def IsProtected (tunAddrs : List IpNet) (net : IpNet) : Prop :=
  (∃ tun ∈ tunAddrs, net = tun.trunc ∨ net = .host tun.addr ∨
    (tun.addr.family = .v4 ∧ tun.prefixLen ≤ 30 ∧
      (net = .host tun.trunc.addr ∨ net = .host tun.trunc.last))) ∨
  net = .host limitedBroadcast ∨ linkLocal.Contains net.trunc.addr ∨
    multicast.Contains net.trunc.addr

instance (tunAddrs allowed : List IpNet) (net : IpNet) :
    Decidable (IsDesired tunAddrs allowed net) :=
  inferInstanceAs (Decidable (_ ∧ _))

instance (tunAddrs : List IpNet) (net : IpNet) : Decidable (IsProtected tunAddrs net) :=
  inferInstanceAs (Decidable (_ ∨ _))

theorem splitDefaultPrefix_eq {net : IpNet} (default : net.prefixLen = 0) :
    splitDefaultPrefix net = some (.half net.addr.family false, .half net.addr.family true) := by
  rw [splitDefaultPrefix, if_neg (not_not.mpr default), IpNet.subnets_default default]

theorem mem_expandAllowedPrefixes {allowed : List IpNet} {net : IpNet} :
    net ∈ expandAllowedPrefixes allowed ↔ (net ∈ allowed ∧ net.prefixLen ≠ 0) ∨
      ∃ default ∈ allowed, default.prefixLen = 0 ∧
        (net = .half default.addr.family false ∨ net = .half default.addr.family true) := by
  simp only [expandAllowedPrefixes, List.mem_toFinset, List.mem_flatMap]
  constructor
  · rintro ⟨source, listed, member⟩
    by_cases default : source.prefixLen = 0
    · rw [if_pos default, splitDefaultPrefix_eq default] at member
      exact .inr ⟨source, listed, default, by simpa using member⟩
    · rw [if_neg default, List.mem_singleton] at member
      subst member
      exact .inl ⟨listed, default⟩
  · rintro (⟨listed, proper⟩ | ⟨source, listed, default, halves⟩)
    · exact ⟨net, listed, by simp [proper]⟩
    · refine ⟨source, listed, ?_⟩
      rw [if_pos default, splitDefaultPrefix_eq default]
      simpa using halves

theorem mem_desiredRoutes {tunAddrs allowed : List IpNet} {net : IpNet} :
    net ∈ desiredRoutes tunAddrs allowed ↔ IsDesired tunAddrs allowed net := by
  simp only [desiredRoutes, Finset.mem_filter, mem_expandAllowedPrefixes, IsDesired, List.mem_map]
  exact and_congr_right fun _ =>
    ⟨fun free tun listed covers => free ⟨tun.trunc, ⟨tun, listed, rfl⟩, covers⟩,
    fun free ⟨_, ⟨tun, listed, same⟩, covers⟩ => free tun listed (same ▸ covers)⟩

theorem mem_kernelRoutes {addr net : IpNet} :
    net ∈ kernelRoutes addr ↔ net = addr.trunc ∨ net = .host addr.addr ∨
      (addr.addr.family = .v4 ∧ addr.prefixLen ≤ 30 ∧
        (net = .host addr.trunc.addr ∨ net = .host addr.trunc.last)) := by
  have family : addr.trunc.addr.family = addr.addr.family := rfl
  have len : addr.trunc.prefixLen = addr.prefixLen := rfl
  simp only [kernelRoutes, family, len, List.mem_append, List.mem_cons, List.not_mem_nil, or_false,
    or_assoc]
  cases addr.addr.family with
  | v4 =>
    by_cases broad : addr.prefixLen ≤ 30
    · simp [broad]
    · simp [broad]
  | v6 => simp

theorem isIpv6KernelRoute_iff {net : IpNet} : isIpv6KernelRoute net = true ↔
    linkLocal.Contains net.trunc.addr ∨ multicast.Contains net.trunc.addr := by
  unfold isIpv6KernelRoute
  generalize net.trunc.addr = addr
  obtain ⟨family, network⟩ := addr
  cases family with
  | v4 =>
    refine iff_of_false Bool.false_ne_true ?_
    rintro (inside | inside)
    · cases inside.family
    · cases inside.family
  | v6 =>
    have link : linkLocal.Contains (.v6 network) ↔ network.extractLsb' 118 10 = 0b1111111010#10 :=
      IpNet.contains_ofV6 (by decide)
    have group : multicast.Contains (.v6 network) ↔ network.extractLsb' 120 8 = 0xff#8 :=
      IpNet.contains_ofV6 (by decide)
    change _ ↔ linkLocal.Contains (.v6 network) ∨ multicast.Contains (.v6 network)
    rw [link, group]
    simp only [Bool.or_eq_true, decide_eq_true_iff]

theorem protected_iff {tunAddrs : List IpNet} {net : IpNet} :
    (net ∈ tunV4KernelRoutes tunAddrs ∨ isIpv6KernelRoute net) ↔ IsProtected tunAddrs net := by
  simp only [tunV4KernelRoutes, Finset.mem_insert, List.mem_toFinset, List.mem_flatMap,
    mem_kernelRoutes, isIpv6KernelRoute_iff, IsProtected]
  constructor
  · rintro ((limited | own) | local6)
    · exact .inr (.inl limited)
    · exact .inl own
    · exact .inr (.inr local6)
  · rintro (own | limited | local6)
    · exact .inl (.inr own)
    · exact .inl (.inl limited)
    · exact .inr local6

@[simp] theorem ipnetFromRoute_tunRoute [Inhabited Attrs] (tunIfindex : UInt32) (net : IpNet) :
    ipnetFromRoute (tunRoute tunIfindex net : Route Attrs) = some net := by
  simp [ipnetFromRoute, tunRoute, Route.new, Route.withIfIndex, net.bound]

@[simp] theorem tunPrefix_tunRoute [Inhabited Attrs] (tunIfindex : UInt32) (net : IpNet) :
    tunPrefix tunIfindex (tunRoute tunIfindex net : Route Attrs) = some net := by
  have ours : (tunRoute tunIfindex net : Route Attrs).ifIndex = some tunIfindex := rfl
  rw [tunPrefix, if_pos ours, ipnetFromRoute_tunRoute]

theorem mem_present {tunIfindex : UInt32} {routes : List (Route Attrs)} {net : IpNet} :
    net ∈ present tunIfindex routes ↔ ∃ route ∈ routes, tunPrefix tunIfindex route = some net := by
  simp [present]

theorem desired_covers {tunAddrs allowed : List IpNet} {net : IpNet} (listed : net ∈ allowed)
    {addr : IpAddr} (inside : net.Contains addr) :
    (∃ wanted, IsDesired tunAddrs allowed wanted ∧ wanted.Contains addr) ∨ ∃ tun ∈ tunAddrs,
    tun.trunc.Contains addr := by
  have expanded : ∃ wanted ∈ expandAllowedPrefixes allowed, wanted.Contains addr := by
    by_cases default : net.prefixLen = 0
    · refine ⟨.half addr.family addr.bits.msb, ?_, IpNet.contains_half addr⟩
      refine mem_expandAllowedPrefixes.mpr (.inr ⟨net, listed, default, ?_⟩)
      rw [inside.family]
      cases addr.bits.msb with
      | false => exact .inl rfl
      | true => exact .inr rfl
    · exact ⟨net, mem_expandAllowedPrefixes.mpr (.inl ⟨listed, default⟩), inside⟩
  obtain ⟨wanted, member, contains⟩ := expanded
  by_cases own : ∃ tun ∈ tunAddrs, tun.trunc.Covers wanted
  · obtain ⟨tun, known, covers⟩ := own
    exact .inr ⟨tun, known, covers.contains contains⟩
  · refine .inl ⟨wanted, ⟨mem_expandAllowedPrefixes.mp member, ?_⟩, contains⟩
    exact fun tun known covers => own ⟨tun, known, covers⟩

section Declared

variable [DecidableEq Attrs] [Inhabited Attrs]

structure Synchronised (tunIfindex : UInt32) (tunAddrs allowed : List IpNet)
    (before after : Multiset (Route Attrs)) : Prop where
  onTun : ∃ missing : Finset IpNet,
    (∀ net, net ∈ missing ↔ IsDesired tunAddrs allowed net ∧ ∀ route ∈ before,
      tunPrefix tunIfindex route ≠ some net) ∧
    after.filter (fun route => route.ifIndex = some tunIfindex) =
      before.filter (fun route => route.ifIndex = some tunIfindex ∧
        ∀ net ∈ ipnetFromRoute route, IsDesired tunAddrs allowed net ∨ IsProtected tunAddrs net) +
      missing.val.map (tunRoute tunIfindex)
  elsewhere : after.filter (fun route => route.ifIndex ≠ some tunIfindex) =
    before.filter fun route => route.ifIndex ≠ some tunIfindex
  covered : ∀ net ∈ allowed, ∀ addr, net.Contains addr →
    (∃ route ∈ after, ∃ other, tunPrefix tunIfindex route = some other ∧ other.Contains addr) ∨
      ∃ tun ∈ tunAddrs, tun.trunc.Contains addr

variable {handle : RouteHandle Attrs Host} {table : Host → Multiset (Route Attrs)}
  {store : Route Attrs → Route Attrs}
variable {resolve : String → Except RouteSyncError UInt32} {tunIf : String} {tunIfindex : UInt32}
variable {tunAddrs allowed walk : List IpNet}

omit [DecidableEq Attrs] [Inhabited Attrs] in
theorem isStale_iff {route : Route Attrs} :
    IsStale tunIfindex (desiredRoutes tunAddrs allowed) (tunV4KernelRoutes tunAddrs) route ↔
      route.ifIndex = some tunIfindex ∧
        ∃ net ∈ ipnetFromRoute route,
        ¬ (IsDesired tunAddrs allowed net ∨ IsProtected tunAddrs net) := by
  simp only [IsStale, mem_desiredRoutes, protected_iff, tunPrefix, not_or]
  by_cases ours : route.ifIndex = some tunIfindex
  · simp [ours]
  · simp [ours]

theorem routed_of_desired (stores : handle.Stores table store)
    (resolves : resolve tunIf = .ok tunIfindex)
    (walks : (walk : Multiset IpNet) = (desiredRoutes tunAddrs allowed).val) (host : Host)
    {net : IpNet} (wanted : IsDesired tunAddrs allowed net)
    (found : tunPrefix tunIfindex (store (tunRoute tunIfindex net)) = some net) :
    ∃ route ∈ table (syncTunRoutes handle resolve tunIf tunAddrs allowed walk host).2,
      tunPrefix tunIfindex route = some net := by
  obtain ⟨routes, _, same, after⟩ := stores.syncTunRoutes resolves tunAddrs allowed walk host
  simp only [after, Multiset.mem_add, Multiset.mem_filter]
  by_cases exists' : net ∈ present tunIfindex routes
  · obtain ⟨route, listed, prefixed⟩ := mem_present.mp exists'
    rw [← Multiset.mem_coe, same] at listed
    refine ⟨route, .inl ⟨listed, ?_⟩, prefixed⟩
    rintro ⟨other, located, unwanted, _⟩
    cases prefixed.symm.trans located
    exact unwanted (mem_desiredRoutes.mpr wanted)
  · refine ⟨store (tunRoute tunIfindex net), .inr ?_, found⟩
    have walked : net ∈ walk := by
      rw [← Multiset.mem_coe, walks, Finset.mem_val]
      exact mem_desiredRoutes.mpr wanted
    rw [Multiset.mem_coe, additions, List.map_map, List.mem_map]
    exact ⟨net, List.mem_filter.mpr ⟨walked, by simp [exists']⟩, rfl⟩

theorem synchronised (stores : handle.Stores table id) (resolves : resolve tunIf = .ok tunIfindex)
    (walks : (walk : Multiset IpNet) = (desiredRoutes tunAddrs allowed).val) (host : Host) :
    Synchronised tunIfindex tunAddrs allowed (table host)
      (table (syncTunRoutes handle resolve tunIf tunAddrs allowed walk host).2) := by
  obtain ⟨routes, lists, same, after⟩ := stores.syncTunRoutes resolves tunAddrs allowed walk host
  let missing := (desiredRoutes tunAddrs allowed).filter
    (· ∉ present tunIfindex routes ∩ desiredRoutes tunAddrs allowed)
  have added :
      (((additions tunIfindex walk (present tunIfindex routes ∩ desiredRoutes tunAddrs allowed)).map
        id :
      List (Route Attrs)) : Multiset (Route Attrs)) = missing.val.map (tunRoute tunIfindex) := by
    rw [List.map_id, additions, ← Multiset.map_coe, ← Multiset.filter_coe, walks]
    rfl
  rw [added] at after
  -- On the TUN: what was not stale and what was missing; elsewhere: what was there.
  refine ⟨⟨missing, fun net => ?_, ?_⟩, ?_, ?_⟩
  · rw [Finset.mem_filter, mem_desiredRoutes, Finset.mem_inter, mem_desiredRoutes, mem_present]
    refine and_congr_right fun wanted => ?_
    simp only [wanted, and_true, not_exists, not_and, ← Multiset.mem_coe, same, ne_eq]
  · rw [after, Multiset.filter_add, Multiset.filter_filter]
    congr 1
    · refine Multiset.filter_congr fun route _ => and_congr_right fun ours => ?_
      simp [isStale_iff, ours, or_iff_not_imp_left]
    · rw [Multiset.filter_eq_self]
      intro route member
      obtain ⟨net, _, rfl⟩ := Multiset.mem_map.mp member
      rfl
  · rw [after, Multiset.filter_add, Multiset.filter_filter]
    have none : (missing.val.map (tunRoute tunIfindex)).filter
        (fun route : Route Attrs => route.ifIndex ≠ some tunIfindex) = 0 := by
      rw [Multiset.filter_eq_nil]
      intro route member other
      obtain ⟨net, _, rfl⟩ := Multiset.mem_map.mp member
      exact other rfl
    rw [none, Multiset.add_zero]
    refine Multiset.filter_congr fun route _ => and_iff_left_of_imp fun other stale => ?_
    exact other (isStale_iff.mp stale).1
  · intro net listed addr inside
    refine (desired_covers listed inside).imp_left ?_
    rintro ⟨wanted, desired, contains⟩
    obtain ⟨route, member, located⟩ := routed_of_desired stores resolves walks host desired
      (tunPrefix_tunRoute tunIfindex wanted)
    exact ⟨route, member, wanted, located, contains⟩

/-- Synchronisation reaches the declared state, never adds a default route, and asks nothing of
the host if the interface or the routes cannot be read. -/
theorem sync_declared (handle : RouteHandle Attrs Host)
    (resolve : String → Except RouteSyncError UInt32) (tunIf : String)
    (tunAddrs allowed walk : List IpNet)
    (walks : (walk : Multiset IpNet) = (desiredRoutes tunAddrs allowed).val) (host : Host) :
    (∀ table tunIfindex, handle.Stores table id → resolve tunIf = .ok tunIfindex →
      (syncTunRoutes handle resolve tunIf tunAddrs allowed walk host).1 = .ok () ∧
      Synchronised tunIfindex tunAddrs allowed (table host)
        (table (syncTunRoutes handle resolve tunIf tunAddrs allowed walk host).2)) ∧
    (∀ route, .add route ∈ issued handle resolve tunIf tunAddrs allowed walk host →
      route.prefixLen ≠ 0) ∧
    ((∃ error, resolve tunIf = .error error) ∨ (∃ error, (handle.list host).1 = .error error) →
      issued handle resolve tunIf tunAddrs allowed walk host = []) := by
  refine ⟨fun table tunIfindex stores resolves => ⟨?_, synchronised stores resolves walks host⟩, ?_,
    issued_failed _ _ _⟩
  · obtain ⟨routes, lists, _⟩ := stores.list host
    rw [syncTunRoutes_ok resolves lists]
  · intro route asked
    cases resolves : resolve tunIf with
    | error error =>
      rw [issued_failed _ _ _ (.inl ⟨error, resolves⟩)] at asked
      cases asked
    | ok tunIfindex =>
      cases lists : (handle.list host).1 with
      | error error =>
        rw [issued_failed _ _ _ (.inr ⟨error, lists⟩)] at asked
        cases asked
      | ok routes =>
        rw [issued_ok resolves lists] at asked
        simp only [additions, List.mem_append, List.mem_map, reduceCtorEq, and_false, exists_false,
          false_or, Op.add.injEq, exists_eq_right] at asked
        obtain ⟨net, walked, rfl⟩ := asked
        have wanted : IsDesired tunAddrs allowed net := by
          rw [← mem_desiredRoutes, ← Finset.mem_val, ← walks]
          exact (List.mem_filter.mp walked).1
        -- A default route is split before it is desired, so that no prefix has length zero.
        obtain ⟨⟨_, proper⟩ | ⟨_, _, _, rfl | rfl⟩, _⟩ := wanted
        · exact proper
        · exact Nat.one_ne_zero
        · exact Nat.one_ne_zero

end Declared

/-! ## A host in memory -/

def memoryHandle [DecidableEq Attrs] (store : Route Attrs → Route Attrs) :
    RouteHandle Attrs (List (Route Attrs)) where
  list table := (.ok table, table)
  add route table := (.ok (), table ++ [store route])
  delete route table := (.ok (), table.erase route)

theorem stores_memoryHandle [DecidableEq Attrs] (store : Route Attrs → Route Attrs) :
    (memoryHandle store).Stores (fun table => (table : Multiset (Route Attrs))) store where
  list table := ⟨table, rfl, rfl, rfl⟩
  add route table := ⟨rfl, Multiset.coe_eq_coe.mpr (List.perm_append_singleton _ _)⟩
  delete route table := by
    refine ⟨rfl, ?_, fun other different => ?_⟩
    · simp [memoryHandle]
    · simp [memoryHandle, List.count_erase_of_ne different]

def sampleTable : List (Route Unit) :=
  [tunRoute 7 (.ofV4 0x0a050000 16), tunRoute 7 (.ofV4 0x0a000000 24),
    tunRoute 2 (.ofV4 0x0a000100 24)]

theorem sync_declared_sample :
    let tunAddrs := [IpNet.ofV4 0x0a090001 24]
    let allowed := [IpNet.ofV4 0x0a000000 24, .ofV4 0 0]
    let after := (syncTunRoutes (memoryHandle id) (fun _ => .ok 7) "h3llo0" tunAddrs allowed
      [.ofV4 0x0a000000 24, .half .v4 false, .half .v4 true] sampleTable).2
    after = [tunRoute 7 (.ofV4 0x0a000000 24), tunRoute 2 (.ofV4 0x0a000100 24),
      tunRoute 7 (.half .v4 false),
      tunRoute 7 (.half .v4 true)] ∧
    Synchronised 7 tunAddrs allowed (sampleTable : Multiset (Route Unit)) after := by
  refine ⟨by decide +kernel, ?_⟩
  have walks : (([.ofV4 0x0a000000 24, .half .v4 false, .half .v4 true] : List IpNet) :
      Multiset IpNet) =
      (desiredRoutes [.ofV4 0x0a090001 24] [.ofV4 0x0a000000 24, .ofV4 0 0]).val := by
    decide +kernel
  exact ((sync_declared (memoryHandle id) (fun _ => .ok 7) "h3llo0" _ _ _ walks sampleTable).1 _ 7
    (stores_memoryHandle id) rfl).2

end H3llo.RouteSync
