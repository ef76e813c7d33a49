import H3llo.Basis.Ranking
import H3llo.Config.Peers
import H3llo.Route.Sync

/-! The interface that a socket is bound to.

Routes of the host that contain the target are ranked as the host would choose among them.
The interface of the TUN is left out, so that packets of the tunnel never enter it again.
-/

set_option autoImplicit false

namespace H3llo.Bind
open H3llo.Net H3llo.Ranking H3llo.RouteSync

inductive Platform where
  | linux
  | macos
  | windows
  | other (os : String)
  deriving DecidableEq, Repr

structure RouteAttrs where
  table : UInt8
  metric : Option UInt32
  deriving DecidableEq, Repr

def rtTableMain : UInt8 := 254

structure RouteMatch where
  prefixLen : Nat
  isMain : Bool
  metric : Option UInt32
  ifindex : UInt32
  deriving DecidableEq, Repr

/-! ## Ranking of routes -/

def routeMatch (platform : Platform) (target : IpAddr)
    (route : Route RouteAttrs) : Option RouteMatch :=
  match route.ifIndex with
  | none => none
  | some ifindex =>
      match ipnetFromRoute route with
      | none => none
      | some net =>
          if ¬ net.Contains target then none
          else
            some
              { prefixLen := route.prefixLen
                -- Other platforms know one table only.
                isMain := match platform with
                  | .linux => route.attrs.table = rtTableMain
                  | .macos | .windows | .other _ => true
                metric := match platform with
                  | .linux | .windows => route.attrs.metric
                  | .macos | .other _ => none
                ifindex }

/-- Longer prefixes first, then the main table, then smaller metrics; no metric counts as zero. -/
def compareMatches (first second : RouteMatch) : Ordering :=
  (compare second.prefixLen first.prefixLen).then
    ((compare second.isMain first.isMain).then
      (compare (first.metric.getD 0) (second.metric.getD 0)))

def matchingRouteIndexes (platform : Platform) (routes : List (Route RouteAttrs))
    (target : IpAddr) (tunIndex : Option UInt32) : List UInt32 :=
  let matched := routes.filterMap (routeMatch platform target)
  -- The sort is stable.
  let sorted := matched.mergeSort fun first second => (compareMatches first second).isLE
  firsts id ∅ ((sorted.map RouteMatch.ifindex).filter fun index => tunIndex ≠ some index)

/-! ## Probing -/

inductive RouteProbeError where
  | probe (error : String)
  | interfaceLookup (ifindex : UInt32) (error : String)
  | unsupportedPlatform (platform : String)
  deriving DecidableEq, Repr

structure Host where
  platform : Platform
  lookupIfindex : String → Option UInt32
  listRoutes : Except String (List (Route RouteAttrs))
  ifindexToName : UInt32 → Except String String

abbrev RouteProbe := IpAddr → Option String → Except RouteProbeError (List String)

namespace Host

variable (host : Host)

def names : List UInt32 → Except RouteProbeError (List String)
  | [] => .ok []
  | ifindex :: rest =>
      match host.ifindexToName ifindex with
      | .error error => .error (.interfaceLookup ifindex error)
      | .ok name => (names rest).map (name :: ·)

def probeInterfaces : RouteProbe := fun target tunIf =>
  match host.platform with
  | .other os => .error (.unsupportedPlatform os)
  | .linux | .macos | .windows =>
      match host.listRoutes with
      | .error error => .error (.probe error)
      | .ok routes =>
          host.names (matchingRouteIndexes host.platform routes target
            (tunIf.bind host.lookupIfindex))

end Host

def filterPreferredInterfaces (names : List String)
    (preferredIfs : Option (List String)) : List String :=
  match preferredIfs with
  | none => names
  | some preferred =>
      let allowed := ((preferred.map Config.trim).filter fun iface => iface ≠ "").toFinset
      if allowed = ∅ then [] else names.filter fun name => name ∈ allowed

/-- The first candidate is chosen; a preference narrows the candidates if it names one. -/
def selectBindInterface (probe : RouteProbe) (target : IpAddr)
    (tunIf preferredIf : Option String) : Option String :=
  match probe target tunIf with
  | .error _ => none
  | .ok interfaces =>
      if interfaces.isEmpty then none
      else
        let candidates :=
          match preferredIf with
          | some preferred =>
              let filtered := filterPreferredInterfaces interfaces (some [preferred])
              if filtered.isEmpty then interfaces else filtered
          | none => interfaces
        candidates.head?

/-! ## The order of the interfaces -/

def RouteMatch.cost (found : RouteMatch) : Nat := (found.metric.getD 0).toNat

theorem compare_toNat (first second : UInt32) :
    compare first second = compare first.toNat second.toNat := by
  simp only [compare, compareOfLessAndEq, UInt32.lt_iff_toNat_lt, ← UInt32.toNat_inj]

theorem isLE_compareMatches (first second : RouteMatch) : (compareMatches first second).isLE ↔
    second.prefixLen < first.prefixLen ∨ second.prefixLen = first.prefixLen ∧
      (second.isMain.toNat < first.isMain.toNat ∨
        second.isMain.toNat = first.isMain.toNat ∧ first.cost ≤ second.cost) := by
  have main : compare second.isMain first.isMain =
      compare second.isMain.toNat first.isMain.toNat := by
    cases first.isMain <;> cases second.isMain <;> rfl
  have metric : compare (first.metric.getD 0) (second.metric.getD 0) =
      compare first.cost second.cost := compare_toNat _ _
  rw [compareMatches, main, metric, Ordering.isLE_then_iff_or, Ordering.isLE_then_iff_or,
    Nat.isLE_compare, Nat.compare_eq_lt, Nat.compare_eq_eq, Nat.compare_eq_lt, Nat.compare_eq_eq]

theorem compareMatches_trans (first second third : RouteMatch)
    (left : (compareMatches first second).isLE) (right : (compareMatches second third).isLE) :
    (compareMatches first third).isLE := by
  rw [isLE_compareMatches] at left right ⊢
  omega

theorem compareMatches_total (first second : RouteMatch) :
    ((compareMatches first second).isLE || (compareMatches second first).isLE) = true := by
  rw [Bool.or_eq_true, isLE_compareMatches, isLE_compareMatches]
  omega

/-- The comparison of matches, with the earlier position between equal ones. -/
def Outranks (first second : RouteMatch × Nat) : Prop :=
  second.1.prefixLen < first.1.prefixLen ∨ first.1.prefixLen = second.1.prefixLen ∧
    (first.1.isMain = true ∧ second.1.isMain = false ∨ first.1.isMain = second.1.isMain ∧
      (first.1.cost < second.1.cost ∨ first.1.cost = second.1.cost ∧ first.2 < second.2))

theorem precedes_iff {first second : RouteMatch × Nat} :
    Precedes (fun first second => (compareMatches first second).isLE) first second ↔
      Outranks first second := by
  unfold Precedes Outranks
  rw [isLE_compareMatches, isLE_compareMatches]
  cases first.1.isMain <;> cases second.1.isMain <;>
    simp only [Bool.toNat_true, Bool.toNat_false] <;> simp <;> omega

/-! ### Routes by their own data -/

/-- The route goes out by the interface, and its destination network contains the target. -/
def Reaches (target : IpAddr) (index : UInt32) (route : Route RouteAttrs) : Prop :=
  route.ifIndex = some index ∧ route.prefixLen ≤ route.destination.family.width ∧
    target.trunc route.prefixLen = route.destination.trunc route.prefixLen

/-- Only Linux has more tables than the main one, which is number 254. -/
def InMainTable (platform : Platform) (route : Route RouteAttrs) : Prop :=
  platform = .linux → route.attrs.table = 254

def ownMetric (platform : Platform) (route : Route RouteAttrs) : Nat :=
  if platform = .linux ∨ platform = .windows then (route.attrs.metric.getD 0).toNat else 0

/-- A longer prefix, then the main table, then the smaller metric, then the earlier route. -/
def Better (platform : Platform) (first second : Route RouteAttrs × Nat) : Prop :=
  second.1.prefixLen < first.1.prefixLen ∨ first.1.prefixLen = second.1.prefixLen ∧
    (InMainTable platform first.1 ∧ ¬ InMainTable platform second.1 ∨
      (InMainTable platform first.1 ↔ InMainTable platform second.1) ∧
        (ownMetric platform first.1 < ownMetric platform second.1 ∨
          ownMetric platform first.1 = ownMetric platform second.1 ∧ first.2 < second.2))

/-- The best route of an interface to the target, with its position in the list. -/
structure BestRoute (platform : Platform) (routes : List (Route RouteAttrs)) (target : IpAddr)
    (index : UInt32) (best : Route RouteAttrs × Nat) : Prop where
  listed : routes[best.2]? = some best.1
  reaches : Reaches target index best.1
  best : ∀ other : Route RouteAttrs × Nat, routes[other.2]? = some other.1 →
    Reaches target index other.1 → other = best ∨ Better platform best other

structure Describes (platform : Platform) (target : IpAddr) (route : Route RouteAttrs)
    (found : RouteMatch) : Prop where
  reaches : Reaches target found.ifindex route
  prefixLen : found.prefixLen = route.prefixLen
  isMain : found.isMain = true ↔ InMainTable platform route
  cost : found.cost = ownMetric platform route

theorem describes_of_match {platform : Platform} {target : IpAddr} {route : Route RouteAttrs}
    {found : RouteMatch} (matched : routeMatch platform target route = some found) :
    Describes platform target route found := by
  unfold routeMatch at matched
  split at matched
  next => cases matched
  next ifindex out =>
    unfold ipnetFromRoute at matched
    split at matched
    next => cases matched
    next net converted =>
      obtain ⟨bound, same⟩ := Option.dite_none_right_eq_some.mp converted
      cases same
      split at matched
      next => cases matched
      next inside =>
        cases matched
        refine ⟨⟨out, bound, not_not.mp inside⟩, rfl, ?_, ?_⟩
        · cases platform with
          | linux =>
            rw [decide_eq_true_iff]
            simp [InMainTable, rtTableMain]
          | macos | windows | other => simp [InMainTable]
        · cases platform <;> simp [RouteMatch.cost, ownMetric]

theorem match_of_reaches (platform : Platform) {target : IpAddr} {route : Route RouteAttrs}
    {index : UInt32} (reaches : Reaches target index route) :
    ∃ found, routeMatch platform target route = some found ∧ found.ifindex = index := by
  obtain ⟨out, bound, inside⟩ := reaches
  have contained : (⟨route.destination, route.prefixLen, bound⟩ : IpNet).Contains target := inside
  simp [routeMatch, out, ipnetFromRoute, bound, contained]

theorem Describes.better_iff {platform : Platform} {target : IpAddr}
    {first second : Route RouteAttrs} {better worse : RouteMatch}
    (left : Describes platform target first better)
    (right : Describes platform target second worse) (i j : Nat) :
    Outranks (better, i) (worse, j) ↔ Better platform (first, i) (second, j) := by
  unfold Outranks Better
  simp only [left.prefixLen, right.prefixLen, left.cost, right.cost, ← left.isMain,
    ← right.isMain, Bool.not_eq_true, Bool.coe_iff_coe]

/-- The route at a position, as it matches the target. -/
def MatchAt (platform : Platform) (routes : List (Route RouteAttrs)) (target : IpAddr)
    (found : RouteMatch × Nat) : Prop :=
  ∃ route, routes[found.2]? = some route ∧ routeMatch platform target route = some found.1

section Order

variable (platform : Platform) (routes : List (Route RouteAttrs)) (target : IpAddr)

def numbered : List (RouteMatch × Nat) :=
  routes.zipIdx.filterMap fun route => (routeMatch platform target route.1).map fun found =>
    (found, route.2)

variable {platform routes target}

theorem numbered_fst :
    (numbered platform routes target).map Prod.fst = routes.filterMap
      (routeMatch platform target) := by
  have forget (route : Route RouteAttrs × Nat) :
      ((routeMatch platform target route.1).map fun found => (found, route.2)).map Prod.fst =
        routeMatch platform target route.1 := by
    simp [Function.comp_def]
  rw [numbered, List.map_filterMap]
  simp only [forget]
  conv_rhs => rw [← List.zipIdx_map_fst 0 routes, List.filterMap_map]
  rfl

theorem mem_numbered {found : RouteMatch × Nat} :
    found ∈ numbered platform routes target ↔ MatchAt platform routes target found := by
  obtain ⟨found, position⟩ := found
  simp only [numbered, List.mem_filterMap, Option.map_eq_some_iff, Prod.mk.injEq, MatchAt,
    List.mem_zipIdx_iff_getElem?]
  constructor
  · rintro ⟨route, listed, _, matched, rfl, rfl⟩
    exact ⟨route.1, listed, matched⟩
  · rintro ⟨route, listed, matched⟩
    exact ⟨(route, position), listed, found, matched, rfl, rfl⟩

theorem numbered_increasing :
    (numbered platform routes target).Pairwise fun first second => first.2 < second.2 := by
  have positions : routes.zipIdx.Pairwise fun first second => first.2 < second.2 := by
    rw [← List.pairwise_map (f := Prod.snd) (R := fun first second => first < second),
      List.zipIdx_map_snd]
    exact List.pairwise_lt_range'
  rw [numbered, List.pairwise_filterMap]
  apply positions.imp
  intro first second before found matched other otherMatched
  obtain ⟨_, _, rfl⟩ := Option.map_eq_some_iff.mp matched
  obtain ⟨_, _, rfl⟩ := Option.map_eq_some_iff.mp otherMatched
  exact before

variable (platform routes target) (tunIndex : Option UInt32)

def ranked : List (RouteMatch × Nat) :=
  ((numbered platform routes target).mergeSort fun first second =>
    (compareMatches first.1 second.1).isLE).filter
    fun found => tunIndex ≠ some found.1.ifindex

theorem matchingRouteIndexes_eq : matchingRouteIndexes platform routes target tunIndex =
    firsts id ∅ ((ranked platform routes target tunIndex).map fun found => found.1.ifindex) := by
  have sorted : (routes.filterMap (routeMatch platform target)).mergeSort
      (fun first second => (compareMatches first second).isLE) =
      ((numbered platform routes target).mergeSort fun first second =>
        (compareMatches first.1 second.1).isLE).map Prod.fst := by
    rw [← numbered_fst]
    apply Eq.symm
    apply List.map_mergeSort
    intro _ _ _ _
    rfl
  simp only [matchingRouteIndexes, ranked]
  rw [sorted, List.map_map, List.filter_map]
  rfl

variable {platform routes target tunIndex}

theorem mem_ranked {found : RouteMatch × Nat} :
    found ∈ ranked platform routes target tunIndex ↔ MatchAt platform routes target found ∧
    tunIndex ≠ some found.1.ifindex := by
  rw [ranked, List.mem_filter, List.mem_mergeSort, mem_numbered, decide_eq_true_iff]

theorem pairwise_ranked : (ranked platform routes target tunIndex).Pairwise Outranks := by
  have increasing : (numbered platform routes target).Pairwise fun first second =>
      first.2 < second.2 := numbered_increasing
  have sorted := pairwise_mergeSort_precedes compareMatches_trans compareMatches_total increasing
  apply (sorted.filter _).imp
  intro first second before
  exact precedes_iff.mp before

theorem bestRoute_of_leads {best : RouteMatch × Nat}
    (leads : Leads (fun found => found.1.ifindex) Outranks
      (ranked platform routes target tunIndex) best) :
    ∃ route, Describes platform target route best.1 ∧
      BestRoute platform routes target best.1.ifindex (route, best.2) := by
  obtain ⟨⟨route, listed, matched⟩, apart⟩ := mem_ranked.mp leads.1
  have described := describes_of_match matched
  refine ⟨route, described, listed, described.reaches, fun other otherListed reaches => ?_⟩
  obtain ⟨found, otherMatched, same⟩ := match_of_reaches platform reaches
  have isRanked : (found, other.2) ∈ ranked platform routes target tunIndex :=
    mem_ranked.mpr ⟨⟨other.1, otherListed, otherMatched⟩, by rwa [same]⟩
  rcases leads.2 (found, other.2) isRanked same with equal | before
  · left
    have position : other.2 = best.2 := congrArg Prod.snd equal
    rw [position, listed] at otherListed
    exact Prod.ext (Option.some.inj otherListed).symm position
  · right
    exact (described.better_iff (describes_of_match otherMatched) best.2 other.2).mp before

theorem mem_matchingRouteIndexes {index : UInt32} :
    index ∈ matchingRouteIndexes platform routes target tunIndex ↔
      tunIndex ≠ some index ∧ ∃ route ∈ routes, Reaches target index route := by
  rw [matchingRouteIndexes_eq, mem_firsts_id, List.mem_map]
  constructor
  · rintro ⟨⟨found, member, rfl⟩, _⟩
    obtain ⟨⟨route, listed, matched⟩, apart⟩ := mem_ranked.mp member
    exact ⟨apart, route, List.mem_of_getElem? listed, (describes_of_match matched).reaches⟩
  · rintro ⟨apart, route, listed, reaches⟩
    obtain ⟨found, matched, rfl⟩ := match_of_reaches platform reaches
    obtain ⟨position, placed⟩ := List.mem_iff_getElem?.mp listed
    refine ⟨⟨(found, position), mem_ranked.mpr ⟨⟨route, placed, matched⟩, apart⟩, rfl⟩, ?_⟩
    exact Finset.notMem_empty _

theorem pairwise_matchingRouteIndexes :
    (matchingRouteIndexes platform routes target tunIndex).Pairwise fun first second =>
      ∃ better worse, BestRoute platform routes target first better ∧
        BestRoute platform routes target second worse ∧ Better platform better worse := by
  rw [matchingRouteIndexes_eq]
  apply (pairwise_firsts pairwise_ranked ∅).imp
  rintro _ _ ⟨better, worse, betterLeads, rfl, worseLeads, rfl, before⟩
  obtain ⟨route, described, best⟩ := bestRoute_of_leads betterLeads
  obtain ⟨other, otherDescribed, otherBest⟩ := bestRoute_of_leads worseLeads
  exact ⟨_, _, best, otherBest, (described.better_iff otherDescribed _ _).mp before⟩

end Order

/-! ## The chosen interface -/

/-- Different interfaces have different names, and every name has a character. -/
structure Host.Naming (host : Host) : Prop where
  injective : ∀ first second name, host.ifindexToName first = .ok name →
    host.ifindexToName second = .ok name → first = second
  nonempty : ∀ index name, host.ifindexToName index = .ok name → name ≠ ""

namespace Host

variable {host : Host}

theorem names_ok {indexes : List UInt32} {names : List String}
    (named : host.names indexes = .ok names) :
    List.Forall₂ (fun index name => host.ifindexToName index = .ok name) indexes names := by
  induction indexes generalizing names with
  | nil =>
    cases named
    exact .nil
  | cons index rest ih =>
    unfold Host.names at named
    split at named
    next => cases named
    next name found =>
      cases later : host.names rest with
      | error error =>
        rw [later] at named
        cases named
      | ok others =>
        rw [later] at named
        cases named
        exact .cons found (ih later)

theorem probeInterfaces_ok {target : IpAddr} {tunIf : Option String} {names : List String}
    (probed : host.probeInterfaces target tunIf = .ok names) :
    ∃ routes, host.listRoutes = .ok routes ∧
      List.Forall₂ (fun index name => host.ifindexToName index = .ok name)
        (matchingRouteIndexes host.platform routes target (tunIf.bind host.lookupIfindex))
          names := by
  unfold probeInterfaces at probed
  split at probed
  next => cases probed
  all_goals
    split at probed
    next => cases probed
    next platform _ routes listed =>
      refine ⟨routes, listed, ?_⟩
      exact names_ok probed

theorem index_of_mem {indexes : List UInt32} {names : List String}
    (named : List.Forall₂ (fun index name => host.ifindexToName index = .ok name) indexes names)
    {name : String} (member : name ∈ names) :
    ∃ index ∈ indexes, host.ifindexToName index = .ok name := by
  induction named with
  | nil => cases member
  | cons found _ ih =>
    rcases List.mem_cons.mp member with rfl | member
    · exact ⟨_, List.mem_cons_self, found⟩
    · obtain ⟨index, listed, named⟩ := ih member
      exact ⟨index, List.mem_cons_of_mem _ listed, named⟩

end Host

theorem filterPreferredInterfaces_single (names : List String) (preferred : String) :
    filterPreferredInterfaces names (some [preferred]) =
      if Config.trim preferred = "" then [] else names.filter fun name =>
        name = Config.trim preferred := by
  unfold filterPreferredInterfaces
  by_cases blank : Config.trim preferred = ""
  · simp [blank]
  · simp [blank]

section Selection

variable {probe : RouteProbe} {target : IpAddr} {tunIf : Option String} {names : List String}

theorem selectBindInterface_ok (probed : probe target tunIf = .ok names)
    (preferredIf : Option String) :
    selectBindInterface probe target tunIf preferredIf =
      match preferredIf with
      | none => names.head?
      | some preferred =>
          if Config.trim preferred ≠ "" ∧ Config.trim preferred ∈ names then
            some (Config.trim preferred)
          else names.head? := by
  unfold selectBindInterface
  rw [probed]
  cases names with
  | nil => cases preferredIf <;> simp
  | cons first rest =>
    cases preferredIf with
    | none => rfl
    | some preferred =>
      have own : ((first :: rest).filter fun name => name = Config.trim preferred) =
          List.replicate ((first :: rest).count (Config.trim preferred)) (Config.trim preferred) :=
        List.filter_eq _
      simp only [List.isEmpty_cons, Bool.false_eq_true, if_false, filterPreferredInterfaces_single]
      by_cases blank : Config.trim preferred = ""
      · simp [blank]
      · rw [if_neg blank, own]
        by_cases listed : Config.trim preferred ∈ first :: rest
        · have counted := List.count_pos_iff.mpr listed
          simp only [List.isEmpty_replicate, Nat.ne_of_gt counted, decide_false, Bool.false_eq_true,
            if_false, List.head?_replicate, blank, listed, ne_eq, not_false_eq_true, and_self,
            if_true]
        · have counted := List.count_eq_zero.mpr listed
          simp only [counted, List.replicate_zero, List.isEmpty_nil, if_true, listed, and_false,
            if_false]

theorem mem_of_selected (probed : probe target tunIf = .ok names) {preferredIf : Option String}
    {name : String}
    (selected : selectBindInterface probe target tunIf preferredIf = some name) : name ∈ names := by
  rw [selectBindInterface_ok probed] at selected
  cases preferredIf with
  | none => exact List.mem_of_mem_head? selected
  | some preferred =>
    simp only at selected
    split at selected
    next listed =>
      cases selected
      exact listed.2
    next => exact List.mem_of_mem_head? selected

theorem selected_eq_none {preferredIf : Option String} :
    selectBindInterface probe target tunIf preferredIf = none ↔
    (∃ error, probe target tunIf = .error error) ∨ probe target tunIf = .ok [] := by
  cases probed : probe target tunIf with
  | error error => simp [selectBindInterface, probed]
  | ok names =>
    rw [selectBindInterface_ok probed]
    cases names with
    | nil => cases preferredIf <;> simp
    | cons first rest =>
      cases preferredIf with
      | none => simp
      | some preferred =>
        simp only
        split <;> simp

end Selection

/-- Matching interfaces are listed once each, without the TUN, in the order of their best routes.
A socket is bound to the preferred one if it is among them and to the first one otherwise. -/
theorem egress_choice :
    (∀ platform routes target tunIndex,
      (matchingRouteIndexes platform routes target tunIndex).Nodup ∧
      (∀ index, index ∈ matchingRouteIndexes platform routes target tunIndex ↔
        tunIndex ≠ some index ∧ ∃ route ∈ routes, Reaches target index route) ∧
      (matchingRouteIndexes platform routes target tunIndex).Pairwise fun first second =>
        ∃ better worse, BestRoute platform routes target first better ∧
          BestRoute platform routes target second worse ∧ Better platform better worse) ∧
    ∀ host : Host, host.Naming → ∀ tunIf tunIndex, host.lookupIfindex tunIf = some tunIndex →
      ∀ target preferredIf,
      (∀ name, selectBindInterface host.probeInterfaces target (some tunIf) preferredIf =
        some name →
        host.ifindexToName tunIndex ≠ .ok name ∧
        (host.ifindexToName tunIndex = .ok tunIf → name ≠ tunIf)) ∧
      (∀ names, host.probeInterfaces target (some tunIf) = .ok names →
        (∃ routes, host.listRoutes = .ok routes ∧
          List.Forall₂ (fun index name => host.ifindexToName index = .ok name)
            (matchingRouteIndexes host.platform routes target (some tunIndex)) names) ∧
        (∀ preferred ∈ preferredIf, Config.trim preferred ∈ names →
          selectBindInterface host.probeInterfaces target (some tunIf) preferredIf =
            some (Config.trim preferred)) ∧
        ((∀ preferred ∈ preferredIf, Config.trim preferred ∉ names) →
          selectBindInterface host.probeInterfaces target (some tunIf) preferredIf = names.head?)) ∧
      (selectBindInterface host.probeInterfaces target (some tunIf) preferredIf = none →
        (∃ error, host.probeInterfaces target (some tunIf) = .error error) ∨
          host.probeInterfaces target (some tunIf) = .ok []) := by
  constructor
  · intro platform routes target tunIndex
    refine ⟨?_, fun index => mem_matchingRouteIndexes, pairwise_matchingRouteIndexes⟩
    rw [matchingRouteIndexes_eq]
    exact nodup_firsts_id ∅ _
  · intro host naming tunIf tunIndex resolves target preferredIf
    refine ⟨fun name selected => ?_, fun names probed => ?_, selected_eq_none.mp⟩
    · have apart : host.ifindexToName tunIndex ≠ .ok name := by
        intro isTun
        -- The selected name is one of a listed index, and names belong to one index each.
        cases probed : host.probeInterfaces target (some tunIf) with
        | error error => simp [selectBindInterface, probed] at selected
        | ok names =>
          obtain ⟨routes, _, named⟩ := Host.probeInterfaces_ok probed
          obtain ⟨index, listed, found⟩ := Host.index_of_mem named (mem_of_selected probed selected)
          have same := naming.injective index tunIndex name found isTun
          exact (mem_matchingRouteIndexes.mp listed).1 (by rw [Option.bind_some, resolves, same])
      refine ⟨apart, fun own same => apart ?_⟩
      rw [same, own]
    · obtain ⟨routes, listed, named⟩ := Host.probeInterfaces_ok probed
      rw [Option.bind_some, resolves] at named
      refine ⟨⟨routes, listed, named⟩, fun preferred given member => ?_, fun absent => ?_⟩
      · obtain ⟨index, _, found⟩ := Host.index_of_mem named member
        -- A preferred name that is listed is the name of an interface, so it is not blank.
        rw [selectBindInterface_ok probed, Option.mem_def.mp given]
        exact if_pos ⟨naming.nonempty index _ found, member⟩
      · rw [selectBindInterface_ok probed]
        cases preferredIf with
        | none => rfl
        | some preferred => exact if_neg fun listed => absent preferred rfl listed.2

def sampleRoutes : List (Route RouteAttrs) :=
  [⟨.v4 0#32, 0, some 2, ⟨254, some 100⟩⟩, ⟨.v4 0#32, 0, some 3, ⟨254, none⟩⟩,
    ⟨.v4 0x0a000000#32, 8, some 7, ⟨254, none⟩⟩]

def sampleHost : Host where
  platform := .linux
  lookupIfindex name := if name = "tun0" then some 7 else none
  listRoutes := .ok sampleRoutes
  ifindexToName index :=
    if index = 2 then
      .ok "eth0"
    else if index = 3 then
      .ok "wlan0"
    else if index = 7 then .ok "tun0" else .error "no such device"

theorem sampleHost_naming : sampleHost.Naming := by
  constructor
  · intro first second name firstNamed secondNamed
    simp only [sampleHost] at firstNamed secondNamed
    grind
  · intro index name named
    simp only [sampleHost] at named
    grind

theorem sampleHost_candidates :
    sampleHost.probeInterfaces (.v4 0x0a010203#32) (some "tun0") = .ok ["wlan0", "eth0"] := by
  have matched : sampleRoutes.filterMap (routeMatch .linux (.v4 0x0a010203#32)) =
      [⟨0, true, some 100, 2⟩, ⟨0, true, none, 3⟩, ⟨8, true, none, 7⟩] := by decide +kernel
  have sorted : (sampleRoutes.filterMap (routeMatch .linux (.v4 0x0a010203#32))).mergeSort
      (fun first second => (compareMatches first second).isLE) =
        [⟨8, true, none, 7⟩, ⟨0, true, none, 3⟩, ⟨0, true, some 100, 2⟩] := by
    have metric : compareMatches ⟨0, true, some 100, 2⟩ ⟨0, true, none, 3⟩ = .gt := by decide
    have longer : compareMatches ⟨0, true, none, 3⟩ ⟨8, true, none, 7⟩ = .gt := by decide
    rw [matched]
    simp [List.mergeSort, metric, longer]
  change sampleHost.names (matchingRouteIndexes .linux sampleRoutes (.v4 0x0a010203#32) (some 7)) =
    _
  rw [matchingRouteIndexes, sorted]
  decide +kernel

theorem egress_choice_sample :
    selectBindInterface sampleHost.probeInterfaces (.v4 0x0a010203#32) (some "tun0")
      (some " eth0 ") = some "eth0" ∧
    selectBindInterface sampleHost.probeInterfaces (.v4 0x0a010203#32) (some "tun0") (some "tun0") =
      some "wlan0" := by
  have trimmed : Config.trim " eth0 " = "eth0" := by decide +kernel
  have choice (preferredIf : Option String) :=
    ((egress_choice.2 sampleHost sampleHost_naming "tun0" 7 (by decide)
    (.v4 0x0a010203#32) preferredIf).2.1 _ sampleHost_candidates).2
  constructor
  · rw [← trimmed]
    exact (choice (some " eth0 ")).1 _ rfl (by decide +kernel)
  · refine (choice (some "tun0")).2 fun preferred given => ?_
    cases given
    decide +kernel

end H3llo.Bind
