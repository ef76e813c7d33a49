import H3llo.Orch.Orchestrator
import H3llo.Route.Sync

/-! Synchronisation against a host that cuts destinations to their networks.

Prefixes are compared as they are written. The host lists networks only, so an allowed
prefix with host bits is never found again: each synchronisation deletes the route of
the one before and adds it anew.
-/

set_option autoImplicit false

namespace H3llo.RouteSync
open H3llo.Net H3llo.Config H3llo.Orch H3llo.Router

variable {Attrs Host : Type}

def Route.trunc (route : Route Attrs) : Route Attrs :=
  { route with destination := route.destination.trunc route.prefixLen }

/-- Allowed prefixes with host bits lie inside the interface's own networks, or are default ones. -/
def HostBitsCovered (tunAddrs allowed : List IpNet) : Prop :=
  ∀ net ∈ allowed, net.prefixLen ≠ 0 → ¬ net.IsNetwork → ∃ tun ∈ tunAddrs, tun.trunc.Covers net

instance (tunAddrs allowed : List IpNet) : Decidable (HostBitsCovered tunAddrs allowed) :=
  inferInstanceAs (Decidable (∀ _ ∈ _, _))

namespace HostBitsCovered

variable {tunAddrs allowed : List IpNet}

theorem isNetwork (covered : HostBitsCovered tunAddrs allowed) {net : IpNet}
    (wanted : IsDesired tunAddrs allowed net) : net.IsNetwork := by
  obtain ⟨⟨listed, proper⟩ | ⟨default, _, _, rfl | rfl⟩, free⟩ := wanted
  · by_contra bits
    obtain ⟨tun, known, covers⟩ := covered net listed proper bits
    exact free tun known covers
  · exact IpNet.isNetwork_half _ _
  · exact IpNet.isNetwork_half _ _

/-- Cutting the allowed prefixes does not change what is desired. -/
theorem isDesired_trunc (covered : HostBitsCovered tunAddrs allowed) {net : IpNet} :
    IsDesired tunAddrs (allowed.map IpNet.trunc) net ↔ IsDesired tunAddrs allowed net := by
  have halves : (∃ default ∈ allowed.map IpNet.trunc, default.prefixLen = 0 ∧
      (net = .half default.addr.family false ∨ net = .half default.addr.family true)) ↔
      ∃ default ∈ allowed, default.prefixLen = 0 ∧
        (net = .half default.addr.family false ∨ net = .half default.addr.family true) := by
    simp only [List.mem_map, exists_exists_and_eq_and]
    rfl
  unfold IsDesired
  rw [halves]
  refine and_congr_left fun free => or_congr_left ?_
  constructor
  · rintro ⟨cut, proper⟩
    obtain ⟨source, listed, rfl⟩ := List.mem_map.mp cut
    -- a source with host bits would be covered, and its network with it
    have network : source.trunc = source := by
      by_contra bits
      obtain ⟨tun, known, covers⟩ := covered source listed proper bits
      exact free tun known (IpNet.covers_trunc.mpr covers)
    rw [network]
    exact ⟨listed, proper⟩
  · rintro ⟨listed, proper⟩
    have network := covered.isNetwork ⟨.inl ⟨listed, proper⟩, free⟩
    exact ⟨List.mem_map.mpr ⟨net, listed, network⟩, proper⟩

theorem desiredRoutes_trunc (covered : HostBitsCovered tunAddrs allowed) :
    desiredRoutes tunAddrs (allowed.map IpNet.trunc) = desiredRoutes tunAddrs allowed := by
  ext net
  rw [mem_desiredRoutes, mem_desiredRoutes, covered.isDesired_trunc]

end HostBitsCovered

theorem trunc_tunRoute_iff [Inhabited Attrs] {tunIfindex : UInt32} {net : IpNet} :
    (tunRoute tunIfindex net : Route Attrs).trunc = tunRoute tunIfindex net ↔ net.IsNetwork := by
  simp [Route.trunc, tunRoute, Route.new, Route.withIfIndex, IpNet.IsNetwork, IpNet.ext_iff,
    IpNet.trunc]

theorem isNetwork_of_tunPrefix {tunIfindex : UInt32} {route : Route Attrs} {net : IpNet}
    (network : route.trunc = route)
    (found : tunPrefix tunIfindex route = some net) : net.IsNetwork := by
  simp only [tunPrefix, ipnetFromRoute, Option.ite_none_right_eq_some,
    Option.dite_none_right_eq_some, Option.some.injEq] at found
  obtain ⟨_, _, rfl⟩ := found
  exact IpNet.ext (congrArg Route.destination network) rfl

section Runs

variable [Inhabited Attrs]

/-- The synchronisation depends on the networks that the allowed prefixes denote, and settles. -/
structure NetworksOnly (handle : RouteHandle Attrs Host)
    (resolve : String → Except RouteSyncError UInt32) (tunIf : String)
    (tunAddrs allowed : List IpNet) (host : Host) : Prop where
  same : ∀ walk cutWalk : List IpNet, (walk : Multiset IpNet) =
    (desiredRoutes tunAddrs allowed).val →
    (cutWalk : Multiset IpNet) = (desiredRoutes tunAddrs (allowed.map IpNet.trunc)).val →
    ∀ op, op ∈ issued handle resolve tunIf tunAddrs allowed walk host ↔
      op ∈ issued handle resolve tunIf tunAddrs (allowed.map IpNet.trunc) cutWalk host
  networks : ∀ walk : List IpNet, (walk : Multiset IpNet) = (desiredRoutes tunAddrs allowed).val →
    ∀ route, .add route ∈ issued handle resolve tunIf tunAddrs allowed walk host →
      route.trunc = route
  settles : ∀ walk again : List IpNet, (walk : Multiset IpNet) =
    (desiredRoutes tunAddrs allowed).val →
    (again : Multiset IpNet) = (desiredRoutes tunAddrs allowed).val →
    issued handle resolve tunIf tunAddrs allowed again
      (syncTunRoutes handle resolve tunIf tunAddrs allowed walk host).2 = []

variable {handle : RouteHandle Attrs Host} {table : Host → Multiset (Route Attrs)}
variable {resolve : String → Except RouteSyncError UInt32} {tunIf : String} {tunIfindex : UInt32}
variable {tunAddrs allowed walk : List IpNet} {routes : List (Route Attrs)}

theorem mem_additions (walks : (walk : Multiset IpNet) = (desiredRoutes tunAddrs allowed).val)
    {route : Route Attrs} :
    route ∈ additions tunIfindex walk (present tunIfindex routes ∩ desiredRoutes tunAddrs allowed) ↔
      ∃ net, IsDesired tunAddrs allowed net ∧ net ∉ present tunIfindex routes ∧
        tunRoute tunIfindex net = route := by
  simp only [additions, List.mem_map, List.mem_filter, ← Multiset.mem_coe (l := walk), walks,
    Finset.mem_val, mem_desiredRoutes, Finset.mem_inter, decide_eq_true_eq, not_and_or, and_assoc]
  constructor
  · rintro ⟨net, wanted, absent | unwanted, built⟩
    · exact ⟨net, wanted, absent, built⟩
    · exact absurd wanted unwanted
  · rintro ⟨net, wanted, absent, built⟩
    exact ⟨net, wanted, .inl absent, built⟩

theorem HostBitsCovered.same_issued (covered : HostBitsCovered tunAddrs allowed)
    (resolves : resolve tunIf = .ok tunIfindex) {host : Host}
    (lists : (handle.list host).1 = .ok routes) {cutWalk : List IpNet}
    (walks : (walk : Multiset IpNet) = (desiredRoutes tunAddrs allowed).val)
    (cutWalks : (cutWalk : Multiset IpNet) = (desiredRoutes tunAddrs (allowed.map IpNet.trunc)).val)
    (op : Op Attrs) :
    op ∈ issued handle resolve tunIf tunAddrs allowed walk host ↔
      op ∈ issued handle resolve tunIf tunAddrs (allowed.map IpNet.trunc) cutWalk host := by
  rw [issued_ok resolves lists, issued_ok resolves lists, List.mem_append, List.mem_append]
  refine or_congr ?_ ?_
  · rw [deletions, deletions, covered.desiredRoutes_trunc]
  · simp only [List.mem_map, mem_additions walks, mem_additions cutWalks, covered.isDesired_trunc]

theorem HostBitsCovered.networks_issued (covered : HostBitsCovered tunAddrs allowed)
    (resolves : resolve tunIf = .ok tunIfindex) {host : Host}
    (lists : (handle.list host).1 = .ok routes)
    (walks : (walk : Multiset IpNet) = (desiredRoutes tunAddrs allowed).val) {route : Route Attrs}
    (asked : .add route ∈ issued handle resolve tunIf tunAddrs allowed walk host) :
    route.trunc = route := by
  rw [issued_ok resolves lists, List.mem_append, List.mem_map, List.mem_map] at asked
  obtain ⟨_, _, other⟩ | ⟨added, member, same⟩ := asked
  · cases other
  · cases same
    obtain ⟨net, wanted, _, rfl⟩ := (mem_additions walks).mp member
    exact trunc_tunRoute_iff.mpr (covered.isNetwork wanted)

variable [DecidableEq Attrs]

theorem HostBitsCovered.settled (covered : HostBitsCovered tunAddrs allowed)
    (stores : handle.Stores table Route.trunc) (resolves : resolve tunIf = .ok tunIfindex)
    (host : Host) {again : List IpNet}
    (walks : (walk : Multiset IpNet) = (desiredRoutes tunAddrs allowed).val)
    (walksAgain : (again : Multiset IpNet) = (desiredRoutes tunAddrs allowed).val) :
    issued handle resolve tunIf tunAddrs allowed again
      (syncTunRoutes handle resolve tunIf tunAddrs allowed walk host).2 = [] := by
  obtain ⟨left, listsLeft, tableLeft, _⟩ :=
    stores.list (syncTunRoutes handle resolve tunIf tunAddrs allowed walk host).2
  have found (net : IpNet) (wanted : IsDesired tunAddrs allowed net) :
      tunPrefix tunIfindex (tunRoute tunIfindex net : Route Attrs).trunc = some net := by
    rw [trunc_tunRoute_iff.mpr (covered.isNetwork wanted), tunPrefix_tunRoute]
  rw [issued_ok resolves listsLeft, List.append_eq_nil_iff, List.map_eq_nil_iff,
    List.map_eq_nil_iff]
  constructor
  · rw [deletions, List.filter_eq_nil_iff]
    intro route member
    rw [decide_eq_true_eq]
    obtain ⟨routes, _, _, after⟩ := stores.syncTunRoutes resolves tunAddrs allowed walk host
    rw [← Multiset.mem_coe, tableLeft, after, Multiset.mem_add, Multiset.mem_filter,
      Multiset.mem_coe, List.mem_map] at member
    obtain ⟨_, fresh⟩ | ⟨added, member, rfl⟩ := member
    · exact fresh
    · obtain ⟨net, wanted, _, rfl⟩ := (mem_additions walks).mp member
      rintro ⟨other, located, unwanted, _⟩
      cases (found net wanted).symm.trans located
      exact unwanted (mem_desiredRoutes.mpr wanted)
  · rw [List.eq_nil_iff_forall_not_mem]
    intro route member
    obtain ⟨net, wanted, absent, _⟩ := (mem_additions walksAgain).mp member
    obtain ⟨there, stored, located⟩ := routed_of_desired stores resolves walks host wanted
      (found net wanted)
    rw [← tableLeft, Multiset.mem_coe] at stored
    exact absent (mem_present.mpr ⟨there, stored, located⟩)

/-- A host that lists networks only is asked for the same changes whatever host bits the allowed
prefixes carry, and for none the next time, exactly if such prefixes need no route. -/
theorem networksOnly_iff (stores : handle.Stores table Route.trunc)
    (resolves : resolve tunIf = .ok tunIfindex) (tunAddrs allowed : List IpNet) {host : Host}
    (canonical : ∀ route ∈ table host, route.trunc = route) :
    NetworksOnly handle resolve tunIf tunAddrs allowed host ↔ HostBitsCovered tunAddrs allowed := by
  obtain ⟨routes, lists, same, _⟩ := stores.list host
  constructor
  · intro only net listed proper bits
    by_contra uncovered
    have wanted : IsDesired tunAddrs allowed net := by
      refine ⟨.inl ⟨listed, proper⟩, fun tun known covers => uncovered ⟨tun, known, covers⟩⟩
    have walks : ((desiredRoutes tunAddrs allowed).val.toList : Multiset IpNet) =
        (desiredRoutes tunAddrs allowed).val :=
      Multiset.coe_toList _
    -- the prefix is not listed, since what is listed has no host bits
    have absent : net ∉ present tunIfindex routes := by
      intro found
      obtain ⟨route, member, located⟩ := mem_present.mp found
      rw [← Multiset.mem_coe, same] at member
      exact bits (isNetwork_of_tunPrefix (canonical route member) located)
    have asked : .add (tunRoute tunIfindex net) ∈ issued handle resolve tunIf tunAddrs allowed
        (desiredRoutes tunAddrs allowed).val.toList host := by
      rw [issued_ok resolves lists]
      exact List.mem_append_right _
        (List.mem_map_of_mem ((mem_additions walks).mpr ⟨net, wanted, absent, rfl⟩))
    exact bits (trunc_tunRoute_iff.mp (only.networks _ walks _ asked))
  · intro covered
    exact ⟨fun walk cutWalk walks cutWalks => covered.same_issued resolves lists walks cutWalks,
      fun walk walks route asked => covered.networks_issued resolves lists walks asked,
      fun walk again walks walksAgain => covered.settled stores resolves host walks walksAgain⟩

end Runs

theorem networksOnly_covered :
    let peers := [RoutingInput.samplePeer "east" [.ofV4 0x0a090005 30],
      RoutingInput.samplePeer "west" [.ofV4 0x0a010000 16]]
    validatePeers peers = .ok () ∧
    NetworksOnly (memoryHandle Route.trunc) (fun _ => .ok 7) "h3llo0" [.ofV4 0x0a090001 24]
      (collectAllowedIps peers)
      sampleTable := by
  refine ⟨by decide +kernel, ?_⟩
  exact (networksOnly_iff (stores_memoryHandle Route.trunc) rfl _ _ (by decide)).mpr
    (by decide +kernel)

/-- `10.1.0.1/16` is accepted, and its route is deleted and added by every synchronisation. -/
theorem networksOnly_fails :
    let peers := [RoutingInput.samplePeer "east" [.ofV4 0x0a010001 16]]
    let handle : RouteHandle Unit (List (Route Unit)) := memoryHandle Route.trunc
    let allowed := collectAllowedIps peers
    let sync := syncTunRoutes handle (fun _ => .ok 7) "h3llo0" [.ofV4 0x0a090001 24] allowed allowed
    validatePeers peers = .ok () ∧
    issued handle (fun _ => .ok 7) "h3llo0" [.ofV4 0x0a090001 24] allowed allowed (sync []).2 =
      [.delete (tunRoute 7 (.ofV4 0x0a010000 16)), .add (tunRoute 7 (.ofV4 0x0a010001 16))] ∧
    (sync (sync []).2).2 = (sync []).2 ∧
    ¬ NetworksOnly handle (fun _ => .ok 7) "h3llo0" [.ofV4 0x0a090001 24] allowed [] := by
  refine ⟨by decide +kernel, by decide +kernel, by decide +kernel, ?_⟩
  intro only
  have walks :
      ((collectAllowedIps [RoutingInput.samplePeer "east" [.ofV4 0x0a010001 16]] : List IpNet) :
        Multiset IpNet) =
      (desiredRoutes [.ofV4 0x0a090001 24]
        (collectAllowedIps [RoutingInput.samplePeer "east" [.ofV4 0x0a010001 16]])).val := by
    decide +kernel
  have settled := only.settles _ _ walks walks
  revert settled
  decide +kernel

end H3llo.RouteSync
