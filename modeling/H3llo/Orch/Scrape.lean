import H3llo.Metrics
import H3llo.Orch.System

/-! The metrics that a scrape of the management API shows.

Actors report their counters to the orchestrator again and again. It keeps the newest report
of each direction of a connection beside the connection, and those of the other actors in a
map of their own; a scrape puts both together. Connections of one peer to the same address
share their reports, which stand beside the first of them. Leaving the reports out gives back
the orchestrator that has none.
-/

set_option autoImplicit false

namespace H3llo.Orch
open H3llo.Net H3llo.Config H3llo.Dns H3llo.Router H3llo.Runs

inductive Source where
  | tun | bareUdp | http3 | router
  deriving DecidableEq, Repr

inductive Direction where
  | rx | tx
  deriving DecidableEq, Repr

structure Labels where
  source : Source
  direction : Direction
  peerId : Option String
  remoteAddr : Option SocketAddr
  deriving DecidableEq, Repr

structure Metrics where
  labels : Labels
  stats : Stats

/-- The latest metrics of a connection; a new one has none. -/
structure ConnMetrics where
  rxMetrics : Option Metrics
  txMetrics : Option Metrics

instance : Inhabited ConnMetrics := ⟨⟨none, none⟩⟩

structure Metered where
  orch : Orchestrator ConnMetrics
  nonPeerMetrics : HashMap Labels Metrics

/-! ## Handlers -/

def modifyFirst {α : Type} (test : α → Bool) (change : α → α) : List α → List α
  | [] => []
  | value :: rest =>
      if test value then change value :: rest else value :: modifyFirst test change rest

namespace ConnMetrics

def get (reports : ConnMetrics) : Direction → Option Metrics
  | .rx => reports.rxMetrics
  | .tx => reports.txMetrics

def set (metrics : Metrics) (reports : ConnMetrics) : ConnMetrics :=
  match metrics.labels.direction with
  | .rx => { reports with rxMetrics := some metrics }
  | .tx => { reports with txMetrics := some metrics }

theorem get_set (metrics : Metrics) (reports : ConnMetrics) (direction : Direction) :
    (reports.set metrics).get direction =
      if direction = metrics.labels.direction then some metrics else reports.get direction := by
  cases own : metrics.labels.direction with
  | rx => cases direction <;> simp [set, get, own]
  | tx => cases direction <;> simp [set, get, own]

@[simp] theorem get_default (direction : Direction) :
    (default : ConnMetrics).get direction = none := by
  cases direction <;> rfl

end ConnMetrics

def ActiveConn.store (metrics : Metrics) (bound : ActiveConn ConnMetrics) :
    ActiveConn ConnMetrics :=
  { bound with reports := bound.reports.set metrics }

def storeAt (addr : SocketAddr) (metrics : Metrics) :
    List (ActiveConn ConnMetrics) → List (ActiveConn ConnMetrics) :=
  modifyFirst (fun bound => decide (bound.dest = addr)) (·.store metrics)

namespace Metered

def handleMetrics (metrics : Metrics) (state : Metered) : Metered :=
  match metrics.labels.peerId, metrics.labels.remoteAddr with
  | some peerId, some addr =>
      match state.orch.peers.lookup peerId with
      | none => state
      | some entry =>
          let entry := { entry with bounds := storeAt addr metrics entry.bounds }
          { state with orch := { state.orch with peers := state.orch.peers.insert peerId entry } }
  | _, _ => { state with nonPeerMetrics := state.nonPeerMetrics.insert metrics.labels metrics }

def connMetrics (listed : List (PeerEntry ConnMetrics)) : List Metrics :=
  ((listed.flatMap PeerEntry.bounds).flatMap fun bound =>
    [bound.reports.rxMetrics, bound.reports.txMetrics]).filterMap id

def collectMetricsSnapshot (listed : List (PeerEntry ConnMetrics)) (state : Metered) :
    HashMap Labels Metrics :=
  (connMetrics listed).foldl (fun snapshot metrics => snapshot.insert metrics.labels metrics)
    state.nonPeerMetrics

end Metered

/-! ## The orchestrator without reports -/

section Plain

variable {Reports : Type}

def ActiveConn.plain (bound : ActiveConn Reports) : ActiveConn :=
  ⟨bound.endpoint, bound.dest, bound.tx, ()⟩

namespace PeerEntry

def plain (entry : PeerEntry Reports) : PeerEntry :=
  ⟨entry.config, entry.bounds.map ActiveConn.plain, entry.resolvedIps, entry.dials⟩

theorem preferredTx_plain (entry : PeerEntry Reports) :
    entry.plain.preferredTx = entry.preferredTx := by
  simp only [preferredTx, plain, List.head?_map, Option.map_map]
  rfl

theorem prune_plain (isClosed : Sender → Bool) (entry : PeerEntry Reports) :
    entry.plain.prune isClosed = ((entry.prune isClosed).1.plain, (entry.prune isClosed).2) := by
  have kept : entry.plain.bounds.filter (entry.plain.keeps isClosed) =
      (entry.bounds.filter (entry.keeps isClosed)).map ActiveConn.plain := List.filter_map ..
  have first : entry.plain.bounds.head? = entry.bounds.head?.map ActiveConn.plain := List.head?_map
  simp only [prune, kept, first, List.head?_map]
  refine Prod.ext rfl ?_
  cases entry.bounds.head? with
  | none => cases (entry.bounds.filter (entry.keeps isClosed)).head? <;> rfl
  | some bound => cases (entry.bounds.filter (entry.keeps isClosed)).head? <;> rfl

theorem uncovered_plain (now : Nat) (entry : PeerEntry Reports) :
    entry.plain.uncovered now = entry.uncovered now := by
  have covered : entry.plain.coveredIps = entry.coveredIps := by
    simp only [coveredIps, plain, List.map_map]
    rfl
  simp only [uncovered, covered]
  rfl

theorem maintain_plain (isClosed : Sender → Bool) (now : Nat) (entry : PeerEntry Reports) :
    entry.plain.maintain isClosed now =
      ((entry.maintain isClosed now).1.plain, (entry.maintain isClosed now).2) := by
  simp only [maintain, prune_plain, tryConnect, uncovered_plain]
  rfl

end PeerEntry

namespace Orchestrator

def plain (orch : Orchestrator Reports) : Orchestrator :=
  { orch with peers := orch.peers.map fun _ entry => entry.plain }

variable (orch : Orchestrator Reports)

@[simp] theorem lookup_plain (id : String) :
    orch.plain.peers.lookup id = (orch.peers.lookup id).map PeerEntry.plain := by
  simp [plain]

theorem peerConfigs_plain : orch.plain.peerConfigs = orch.peerConfigs := by
  apply Finmap.ext_lookup
  intro id
  simp only [peerConfigs, HashMap.lookup_map, lookup_plain, Option.map_map]
  rfl

theorem peerTxs_plain : orch.plain.peerTxs = orch.peerTxs := by
  apply Finmap.ext_lookup
  intro id
  simp only [peerTxs, HashMap.lookup_filterMap, lookup_plain, Option.bind_map, Function.comp_def,
    PeerEntry.preferredTx_plain]

theorem peerTokens_plain : orch.plain.peerTokens = orch.peerTokens := by
  apply Finmap.ext_lookup
  intro id
  simp only [peerTokens, HashMap.lookup_filterMap, lookup_plain, Option.bind_map]
  rfl

theorem acceptedIps_plain : orch.plain.acceptedIps = orch.acceptedIps := by
  have keys : orch.plain.peers.keys = orch.peers.keys := HashMap.keys_map ..
  unfold acceptedIps
  rw [keys]
  congr 1
  funext id
  rw [lookup_plain]
  cases orch.peers.lookup id <;> rfl

variable {Trie : Type → Type}

theorem updateAcceptedSources_plain :
    (orch.plain.updateAcceptedSources : Mail Trie) = orch.updateAcceptedSources := by
  simp only [updateAcceptedSources, acceptedIps_plain]
  rfl

theorem syncPeersToActors_plain :
    (orch.plain.syncPeersToActors : Mail Trie) = orch.syncPeersToActors := by
  simp only [syncPeersToActors, peerTokens_plain, peerConfigs_plain]
  rfl

variable [PrefixTrie Trie]

theorem updateRouting_plain (listed : List Peer) :
    (orch.plain.updateRouting listed : Mail Trie) = orch.updateRouting listed := by
  simp only [updateRouting, makeRouting, peerTxs_plain]
  rfl

end Orchestrator

variable {Trie : Type → Type}

def Reaction.plain (reaction : Reaction Trie Reports) : Reaction Trie :=
  ⟨reaction.orch.plain, reaction.mail, reaction.dials⟩

namespace Orchestrator

theorem plain_insert (orch : Orchestrator Reports) (id : String) (entry : PeerEntry Reports) :
    { orch with peers := orch.peers.insert id entry }.plain =
      { orch.plain with peers := orch.plain.peers.insert id entry.plain } := by
  unfold plain
  congr 1
  apply Finmap.ext_lookup
  intro other
  by_cases same : other = id
  · subst same
    simp
  · simp [same]

theorem plain_eraseAll (orch : Orchestrator Reports) (ids : List String) :
    { orch with peers := ids.foldl (fun peers id => peers.erase id) orch.peers }.plain =
      { orch.plain with peers := ids.foldl (fun peers id => peers.erase id) orch.plain.peers } := by
  unfold plain
  congr 1
  apply Finmap.ext_lookup
  intro id
  rw [HashMap.lookup_map, lookup_eraseAll, lookup_eraseAll, HashMap.lookup_map]
  split <;> rfl

theorem plain_upsertPeers (peers : List Peer) (orch : Orchestrator Reports) :
    { orch with peers := peers.foldl upsertPeer orch.peers }.plain =
      { orch.plain with peers := peers.foldl upsertPeer orch.plain.peers } := by
  induction peers generalizing orch with
  | nil => rfl
  | cons peer rest ih =>
    have first : { orch with peers := upsertPeer orch.peers peer }.plain =
        { orch.plain with peers := upsertPeer orch.plain.peers peer } := by
      unfold upsertPeer
      rw [lookup_plain]
      cases orch.peers.lookup peer.id with
      | none => exact orch.plain_insert peer.id (.new peer)
      | some existing => exact orch.plain_insert peer.id { existing with config := peer }
    have later := ih { orch with peers := upsertPeer orch.peers peer }
    rw [first] at later
    exact later

variable [PrefixTrie Trie] (env : Env) (orch : Orchestrator Reports)

theorem maintainAll_plain (update : PeerEntry Reports → PeerEntry Reports)
    (plainUpdate : PeerEntry → PeerEntry)
    (same : ∀ entry, plainUpdate entry.plain = (update entry).plain) :
    orch.plain.maintainAll env plainUpdate =
      ((orch.maintainAll env update).1.plain, (orch.maintainAll env update).2) := by
  refine Prod.ext ?_ ?_
  · simp only [maintainAll, plain]
    congr 1
    apply Finmap.ext_lookup
    intro id
    simp only [HashMap.lookup_map, Option.map_map, Function.comp_def, same,
      PeerEntry.maintain_plain]
  · simp only [maintainAll, plain, HashMap.values_map, Multiset.bind_map, same,
      PeerEntry.maintain_plain]

theorem reconcile_plain :
    (orch.plain.reconcile env : Reaction Trie) =
      (orch.reconcile env : Reaction Trie Reports).plain := by
  have changed : (orch.plain.peers.any fun _ entry => (entry.prune env.isClosed).2) =
      orch.peers.any fun _ entry => (entry.prune env.isClosed).2 := by
    simp only [plain, HashMap.any_map, PeerEntry.prune_plain]
  have pass := orch.maintainAll_plain env id id fun _ => rfl
  simp only [reconcile, changed, pass, updateRouting_plain]
  rfl

theorem handleDnsSnapshot_plain (state : DnsSnapshot) :
    (orch.plain.handleDnsSnapshot env state : Reaction Trie) =
    (orch.handleDnsSnapshot env state : Reaction Trie Reports).plain := by
  have pass := orch.maintainAll_plain env (resolve state) (resolve state) fun _ => rfl
  simp only [handleDnsSnapshot, pass, updateRouting_plain, updateAcceptedSources_plain]
  rfl

theorem updateBound_plain [Inhabited Reports] (peerId : String) (endpoint : Option Endpoint)
    (dest : SocketAddr) (tx : Sender) :
    (orch.plain.updateBound env peerId endpoint dest tx : Reaction Trie) =
      (orch.updateBound env peerId endpoint dest tx : Reaction Trie Reports).plain := by
  unfold updateBound
  rw [lookup_plain]
  cases orch.peers.lookup peerId with
  | none => rfl
  | some entry =>
    have pushed : pushBound endpoint dest tx entry.plain =
        (pushBound endpoint dest tx entry).plain := by
      simp only [pushBound, PeerEntry.plain, List.map_append, List.map_singleton]
      rfl
    have first : entry.plain.bounds.isEmpty = entry.bounds.isEmpty := List.isEmpty_map
    simp only [Option.map_some, pushed, PeerEntry.prune_plain, first, ← plain_insert,
      updateRouting_plain]
    rfl

omit [PrefixTrie Trie] in
theorem handleDialFailed_plain (peerId : String) (ip : IpAddr) :
    (orch.plain.handleDialFailed env peerId ip : Reaction Trie) =
    (orch.handleDialFailed env peerId ip : Reaction Trie Reports).plain := by
  unfold handleDialFailed
  rw [lookup_plain]
  cases orch.peers.lookup peerId with
  | none => rfl
  | some entry =>
    simp only [Option.map_some, show entry.plain.dials = entry.dials from rfl]
    cases entry.dials.lookup ip with
    | none => rfl
    | some state =>
      have inserted := orch.plain_insert peerId
        { entry with dials := entry.dials.insert ip (state.recordFailure orch.backoff env.now) }
      exact congrArg idle inserted.symm

theorem handleEvent_plain [Inhabited Reports] (event : Event) :
    (orch.plain.handleEvent env event : Option (Reaction Trie)) =
    (orch.handleEvent env event : Option (Reaction Trie Reports)).map Reaction.plain := by
  cases event with
  | stop => rfl
  | other => rfl
  | actorExited policy =>
    cases policy with
    | critical => rfl
    | detached => rfl
    | restartable => exact congrArg some (orch.reconcile_plain env)
  | dns state => exact congrArg some (orch.handleDnsSnapshot_plain env state)
  | postConfig peers =>
    simp only [handleEvent, handlePostConfig]
    cases validatePeers env.listed with
    | error errors => rfl
    | ok accepted =>
      simp only [Option.map_some, ← plain_upsertPeers, syncPeersToActors_plain]
      rfl
  | deleteConfig peerIds =>
    have before : orch.plain.peers.keys = orch.peers.keys := HashMap.keys_map ..
    have after : (peerIds.foldl (fun peers id => peers.erase id) orch.plain.peers).keys =
        (peerIds.foldl (fun peers id => peers.erase id) orch.peers).keys :=
      (congrArg (fun next => next.peers.keys) (orch.plain_eraseAll peerIds).symm).trans
        (HashMap.keys_map ..)
    simp only [handleEvent, handleDeleteConfig, before, after, Option.map_some]
    simp only [← plain_eraseAll, syncPeersToActors_plain]
    rfl
  | connected peerId remoteAddr tx endpoint =>
    exact congrArg some (orch.updateBound_plain env peerId endpoint remoteAddr tx)
  | dialFailed peerId ip => exact congrArg some (orch.handleDialFailed_plain env peerId ip)

end Orchestrator
end Plain

namespace Metered

/-! ## Reports and their connections -/

/-- What a report belongs to: one direction of the connections to an address, or an actor that has
none. -/
inductive Slot where
  | conn (peerId : String) (addr : SocketAddr) (direction : Direction)
  | plain (labels : Labels)
  deriving DecidableEq

def slotOf (labels : Labels) : Slot :=
  match labels.peerId, labels.remoteAddr with
  | some peerId, some addr => .conn peerId addr labels.direction
  | _, _ => .plain labels

theorem slotOf_cases (labels : Labels) :
    (∃ peerId addr, labels.peerId = some peerId ∧ labels.remoteAddr = some addr ∧
      slotOf labels = .conn peerId addr labels.direction) ∨ slotOf labels = .plain labels := by
  cases own : labels.peerId with
  | none => exact .inr (by simp [slotOf, own])
  | some peerId =>
    cases remote : labels.remoteAddr with
    | none => exact .inr (by simp [slotOf, own, remote])
    | some addr => exact .inl ⟨peerId, addr, rfl, rfl, by simp [slotOf, own, remote]⟩

def latest (history : List Metrics) (slot : Slot) : Option Metrics :=
  history.reverse.find? fun metrics => decide (slotOf metrics.labels = slot)

theorem latest_append (history : List Metrics) (metrics : Metrics) (slot : Slot) :
    latest (history ++ [metrics]) slot =
      if slotOf metrics.labels = slot then some metrics else latest history slot := by
  simp only [latest, List.reverse_append, List.reverse_singleton, List.singleton_append,
    List.find?_cons]
  split <;> simp_all

theorem labels_of_latest {history : List Metrics} {slot : Slot} {metrics : Metrics}
    (found : latest history slot = some metrics) : slotOf metrics.labels = slot := by
  simpa using List.find?_some found

def boundsOf (orch : Orchestrator ConnMetrics) (peerId : String) : List (ActiveConn ConnMetrics) :=
  ((orch.peers.lookup peerId).map PeerEntry.bounds).getD []

def Lives (state : Metered) (peerId : String) (conn : ActiveConn) : Prop :=
  ∃ bound ∈ boundsOf state.orch peerId, bound.plain = conn

def Attached (state : Metered) (peerId : String) (conn : ActiveConn) (metrics : Metrics) : Prop :=
  ∃ bound ∈ boundsOf state.orch peerId, bound.plain = conn ∧
    bound.reports.get metrics.labels.direction = some metrics

/-- Every report stands beside the first connection to its address, and is the newest of its slot.
-/
structure Tidy (history : List Metrics) (peerId : String)
    (bounds : List (ActiveConn ConnMetrics)) : Prop where
  first : bounds.Pairwise fun earlier later =>
    earlier.dest = later.dest → ∀ direction, later.reports.get direction = none
  current : ∀ bound ∈ bounds, ∀ direction metrics, bound.reports.get direction = some metrics →
    slotOf metrics.labels = .conn peerId bound.dest direction ∧
      latest history (.conn peerId bound.dest direction) = some metrics

/-! ## Steps that store nothing -/

/-- New connections come last and have no reports yet; which of all go, their reports do not decide.
-/
def Sheds (before after : List (ActiveConn ConnMetrics)) : Prop :=
  ∃ (keep : ActiveConn → Bool) (opened : List (ActiveConn ConnMetrics)),
    after = (before ++ opened).filter (fun bound => keep bound.plain) ∧
      ∀ bound ∈ opened, ∀ direction, bound.reports.get direction = none

theorem Sheds.refl (bounds : List (ActiveConn ConnMetrics)) : Sheds bounds bounds :=
  ⟨fun _ => true, [], by simp, fun _ member => absurd member List.not_mem_nil⟩

theorem Sheds.nil (bounds : List (ActiveConn ConnMetrics)) : Sheds bounds [] :=
  ⟨fun _ => false, [], by simp, fun _ member => absurd member List.not_mem_nil⟩

theorem Sheds.stays {before after : List (ActiveConn ConnMetrics)}
    {bound : ActiveConn ConnMetrics} (sheds : Sheds before after) (member : bound ∈ before)
    (lives : ∃ other ∈ after, other.plain = bound.plain) : bound ∈ after := by
  obtain ⟨keep, opened, rfl, -⟩ := sheds
  obtain ⟨other, kept, same⟩ := lives
  have keeps := (List.mem_filter.mp kept).2
  rw [same] at keeps
  exact List.mem_filter.mpr ⟨List.mem_append_left opened member, keeps⟩

theorem Tidy.sheds {history : List Metrics} {peerId : String}
    {before after : List (ActiveConn ConnMetrics)} (tidy : Tidy history peerId before)
    (sheds : Sheds before after) : Tidy history peerId after := by
  obtain ⟨keep, opened, rfl, silent⟩ := sheds
  constructor
  · refine List.Pairwise.filter _ (List.pairwise_append.mpr ⟨tidy.first, ?_, ?_⟩)
    · exact List.pairwise_of_forall_mem_list fun earlier _ later member _ => silent later member
    · exact fun earlier _ later member _ => silent later member
  · intro bound member direction metrics held
    rcases List.mem_append.mp (List.mem_of_mem_filter member) with old | new
    · exact tidy.current bound old direction metrics held
    · rw [silent bound new direction] at held
      cases held

theorem sheds_maintain (isClosed : Sender → Bool) (now : Nat) (entry : PeerEntry ConnMetrics) :
    Sheds entry.bounds (entry.maintain isClosed now).1.bounds :=
  ⟨entry.plain.keeps isClosed, [], by rw [List.append_nil]; rfl,
    fun _ member => absurd member List.not_mem_nil⟩

theorem sheds_connected (isClosed : Sender → Bool) (endpoint : Option Endpoint)
    (dest : SocketAddr) (tx : Sender) (entry : PeerEntry ConnMetrics) :
    Sheds entry.bounds ((Orchestrator.pushBound endpoint dest tx entry).prune
      isClosed).1.bounds := by
  refine ⟨entry.plain.keeps isClosed, [⟨endpoint, dest, tx, default⟩], rfl,
    fun bound member direction => ?_⟩
  rw [List.mem_singleton.mp member]
  exact ConnMetrics.get_default direction

section Orchestrator

variable {Trie : Type → Type} [PrefixTrie Trie] {env : Env} {orch : Orchestrator ConnMetrics}

theorem boundsOf_upsertPeers (peers : List Peer) (orch : Orchestrator ConnMetrics) (id : String) :
    boundsOf { orch with peers := peers.foldl Orchestrator.upsertPeer orch.peers } id =
      boundsOf orch id := by
  induction peers generalizing orch with
  | nil => rfl
  | cons peer rest ih =>
    have first : boundsOf { orch with peers := Orchestrator.upsertPeer orch.peers peer } id =
        boundsOf orch id := by
      unfold boundsOf
      rw [Orchestrator.lookup_upsertPeer]
      by_cases same : id = peer.id
      · rw [if_pos same]
        cases orch.peers.lookup id <;> rfl
      · rw [if_neg same]
    exact (ih { orch with peers := Orchestrator.upsertPeer orch.peers peer }).trans first

theorem sheds_of_lookup {next : Orchestrator ConnMetrics} {id : String}
    {change : PeerEntry ConnMetrics → PeerEntry ConnMetrics}
    (changed : next.peers.lookup id = (orch.peers.lookup id).map change)
    (sheds : ∀ entry, Sheds entry.bounds (change entry).bounds) :
    Sheds (boundsOf orch id) (boundsOf next id) := by
  unfold boundsOf
  rw [changed]
  cases orch.peers.lookup id with
  | none => exact .refl []
  | some entry => exact sheds entry

theorem sheds_reconcile (id : String) :
    Sheds (boundsOf orch id) (boundsOf (orch.reconcile env : Reaction Trie ConnMetrics).orch id) :=
  sheds_of_lookup (HashMap.lookup_map ..) (sheds_maintain env.isClosed env.now)

theorem sheds_handleEvent {event : Event} {reaction : Reaction Trie ConnMetrics}
    (handled : orch.handleEvent env event = some reaction) (id : String) :
    Sheds (boundsOf orch id) (boundsOf reaction.orch id) := by
  cases Orchestrator.reacts_of_handleEvent handled with
  | exited => exact .refl _
  | rejected peers => exact .refl _
  | ignored => exact .refl _
  | reconciled => exact sheds_reconcile id
  | resolved state =>
    exact sheds_of_lookup (Orchestrator.lookup_handleDnsSnapshot env state orch id)
      fun entry => sheds_maintain env.isClosed env.now (Orchestrator.resolve state entry)
  | posted peers accepted updated =>
    rw [updated, boundsOf_upsertPeers]
    exact .refl _
  | deleted peerIds =>
    unfold boundsOf Orchestrator.handleDeleteConfig
    rw [Orchestrator.lookup_eraseAll]
    split
    · exact .nil _
    · exact .refl _
  | connected peerId remoteAddr tx endpoint =>
    refine sheds_of_lookup
      (Orchestrator.lookup_updateBound env peerId endpoint remoteAddr tx orch id) fun entry => ?_
    split
    · exact sheds_connected env.isClosed endpoint remoteAddr tx entry
    · exact .refl _
  | failed peerId ip =>
    refine sheds_of_lookup (Orchestrator.lookup_handleDialFailed env peerId ip orch id) fun entry =>
      ?_
    split
    · unfold Orchestrator.failDial
      split <;> exact .refl _
    · exact .refl _

end Orchestrator

/-! ## Storing a report -/

section Store

variable {history : List Metrics} {peerId : String} {addr : SocketAddr} {metrics : Metrics}
  {bounds : List (ActiveConn ConnMetrics)} {bound : ActiveConn ConnMetrics}

/-- A connection is changed only if it is the first one to its address. -/
theorem mem_storeAt (member : bound ∈ storeAt addr metrics bounds) :
    bound ∈ bounds ∧ (bound.dest = addr → ∃ earlier ∈ bounds, earlier.dest = addr ∧
      ∃ before after, bounds = before ++ earlier :: after ∧ bound ∈ after) ∨
    ∃ old ∈ bounds, old.dest = addr ∧ bound = old.store metrics := by
  induction bounds with
  | nil => cases member
  | cons head rest ih =>
    simp only [storeAt, modifyFirst, decide_eq_true_eq] at member
    split at member
    next here =>
      rcases List.mem_cons.mp member with changed | kept
      · exact .inr ⟨head, List.mem_cons_self, here, changed⟩
      · refine .inl ⟨List.mem_cons_of_mem head kept, fun _ =>
          ⟨head, List.mem_cons_self, here, [], rest, rfl, kept⟩⟩
    next elsewhere =>
      rcases List.mem_cons.mp member with same | later
      · subst same
        exact .inl ⟨List.mem_cons_self, fun here => absurd here elsewhere⟩
      · rcases ih later with ⟨old, shadowed⟩ | ⟨old, among, here, changed⟩
        · refine .inl ⟨List.mem_cons_of_mem head old, fun here => ?_⟩
          obtain ⟨earlier, among, same, before, after, split, behind⟩ := shadowed here
          exact ⟨earlier, List.mem_cons_of_mem head among, same, head :: before,
            after, by rw [split]; rfl, behind⟩
        · exact .inr ⟨old, List.mem_cons_of_mem head among, here, changed⟩

theorem storeAt_mem (member : bound ∈ bounds) :
    bound ∈ storeAt addr metrics bounds ∨ bound.dest = addr ∧
    bound.store metrics ∈ storeAt addr metrics bounds := by
  induction bounds with
  | nil => cases member
  | cons head rest ih =>
    simp only [storeAt, modifyFirst, decide_eq_true_eq]
    split
    next here =>
      rcases List.mem_cons.mp member with same | later
      · exact .inr ⟨same ▸ here, by simp [same]⟩
      · exact .inl (List.mem_cons_of_mem _ later)
    next elsewhere =>
      rcases List.mem_cons.mp member with same | later
      · exact .inl (by simp [same])
      · exact (ih later).imp (List.mem_cons_of_mem head) fun stored =>
          ⟨stored.1, List.mem_cons_of_mem head stored.2⟩

theorem first_storeAt (first : bounds.Pairwise fun earlier later =>
      earlier.dest = later.dest → ∀ direction, later.reports.get direction = none) :
    (storeAt addr metrics bounds).Pairwise
      fun earlier later => earlier.dest = later.dest → ∀ direction,
      later.reports.get direction = none := by
  induction bounds with
  | nil => exact .nil
  | cons head rest ih =>
    obtain ⟨above, below⟩ := List.pairwise_cons.mp first
    simp only [storeAt, modifyFirst, decide_eq_true_eq]
    split
    next here => exact List.pairwise_cons.mpr ⟨above, below⟩
    next elsewhere =>
      refine List.pairwise_cons.mpr ⟨fun later member same => ?_, ih below⟩
      rcases mem_storeAt member with ⟨old, -⟩ | ⟨old, -, here, rfl⟩
      · exact above later old same
      · exact absurd (Eq.trans same here) elsewhere

theorem tidy_stored (tidy : Tidy history peerId bounds) (own : metrics.labels.peerId = some peerId)
    (remote : metrics.labels.remoteAddr = some addr) :
    Tidy (history ++ [metrics]) peerId (storeAt addr metrics bounds) := by
  have slot : slotOf metrics.labels = .conn peerId addr metrics.labels.direction := by
    simp [slotOf, own, remote]
  refine ⟨first_storeAt tidy.first, fun bound member direction held isHeld => ?_⟩
  rw [latest_append, slot]
  rcases mem_storeAt member with ⟨old, shadowed⟩ | ⟨old, among, here, rfl⟩
  · obtain ⟨labelled, current⟩ := tidy.current bound old direction held isHeld
    refine ⟨labelled, ?_⟩
    rw [if_neg, current]
    -- behind the first connection to the address there are no reports
    intro same
    have here : bound.dest = addr := (Slot.conn.inj same).2.1.symm
    obtain ⟨earlier, -, isAddr, before, after, split, behind⟩ := shadowed here
    have pairs := tidy.first
    rw [split, List.pairwise_append, List.pairwise_cons] at pairs
    have silent := pairs.2.1.1 bound behind (isAddr.trans here.symm) direction
    rw [silent] at isHeld
    cases isHeld
  · change slotOf held.labels = .conn peerId old.dest direction ∧ _ = _
    rw [show (old.store metrics).dest = addr from here, here]
    rw [ActiveConn.store, ConnMetrics.get_set] at isHeld
    by_cases same : direction = metrics.labels.direction
    · rw [if_pos same] at isHeld
      cases isHeld
      subst same
      exact ⟨slot, if_pos rfl⟩
    · rw [if_neg same] at isHeld
      obtain ⟨labelled, current⟩ := tidy.current old among direction held isHeld
      rw [here] at labelled current
      refine ⟨labelled, ?_⟩
      rw [if_neg (fun eq => same (Slot.conn.inj eq).2.2.symm), current]

theorem tidy_other (tidy : Tidy history peerId bounds)
    (other : ∀ addr direction, slotOf metrics.labels ≠ .conn peerId addr direction) :
    Tidy (history ++ [metrics]) peerId bounds := by
  refine ⟨tidy.first, fun bound member direction held isHeld => ?_⟩
  obtain ⟨labelled, current⟩ := tidy.current bound member direction held isHeld
  exact ⟨labelled, by rw [latest_append, if_neg (other _ _), current]⟩

variable {state : Metered}

theorem lookup_handleMetrics (own : metrics.labels.peerId = some peerId)
    (remote : metrics.labels.remoteAddr = some addr) (id : String) :
    (state.handleMetrics metrics).orch.peers.lookup id =
      (state.orch.peers.lookup id).map fun entry =>
      if id = peerId then { entry with bounds := storeAt addr metrics entry.bounds }
        else entry := by
  simp only [handleMetrics, own, remote]
  by_cases same : id = peerId
  · subst same
    cases found : state.orch.peers.lookup id with
    | none => simp [found]
    | some entry => simp
  · cases found : state.orch.peers.lookup peerId with
    | none => simp [same]
    | some entry => simp [same]

theorem boundsOf_handleMetrics (own : metrics.labels.peerId = some peerId)
    (remote : metrics.labels.remoteAddr = some addr) (id : String) :
    boundsOf (state.handleMetrics metrics).orch id =
      if id = peerId then storeAt addr metrics (boundsOf state.orch id)
        else boundsOf state.orch id := by
  rw [boundsOf, lookup_handleMetrics own remote]
  unfold boundsOf
  cases state.orch.peers.lookup id with
  | none => simp [storeAt, modifyFirst]
  | some entry =>
    by_cases same : id = peerId
    · simp [same]
    · simp [same]

theorem handleMetrics_plain (plain : slotOf metrics.labels = .plain metrics.labels) :
    state.handleMetrics metrics =
      { state with nonPeerMetrics := state.nonPeerMetrics.insert metrics.labels metrics } := by
  unfold handleMetrics
  split
  next peerId addr own remote => simp [slotOf, own, remote] at plain
  next => rfl

theorem nonPeerMetrics_handleMetrics (own : metrics.labels.peerId = some peerId)
    (remote : metrics.labels.remoteAddr = some addr) :
    (state.handleMetrics metrics).nonPeerMetrics = state.nonPeerMetrics := by
  simp only [handleMetrics, own, remote]
  split <;> rfl

theorem attached_of_other {conn : ActiveConn} {stored : Metrics}
    (other : slotOf metrics.labels ≠ slotOf stored.labels)
    (labelled : slotOf stored.labels = .conn peerId conn.dest stored.labels.direction)
    (attached : Attached state peerId conn stored) :
    Attached (state.handleMetrics metrics) peerId conn stored := by
  rcases slotOf_cases metrics.labels with ⟨own, addr, isOwn, remote, slot⟩ | plain
  · unfold Attached
    rw [boundsOf_handleMetrics isOwn remote]
    by_cases same : peerId = own
    · subst same
      rw [if_pos rfl]
      obtain ⟨bound, member, rfl, held⟩ := attached
      rcases storeAt_mem member with kept | ⟨here, changed⟩
      · exact ⟨bound, kept, rfl, held⟩
      · refine ⟨_, changed, rfl, ?_⟩
        rw [ActiveConn.store, ConnMetrics.get_set, if_neg, held]
        intro direction
        apply other
        rw [slot, labelled, ← direction, ← here]
        rfl
    · rwa [if_neg same]
  · rwa [handleMetrics_plain plain]

theorem attached_handleMetrics (own : metrics.labels.peerId = some peerId)
    (remote : metrics.labels.remoteAddr = some addr) {conn : ActiveConn}
    (lives : Lives state peerId conn) (isAddr : conn.dest = addr) :
    ∃ first, first.dest = addr ∧ Attached (state.handleMetrics metrics) peerId first metrics := by
  obtain ⟨bound, member, rfl⟩ := lives
  unfold Attached
  rw [boundsOf_handleMetrics own remote, if_pos rfl]
  generalize boundsOf state.orch peerId = bounds at member
  induction bounds with
  | nil => cases member
  | cons head rest ih =>
    by_cases here : head.dest = addr
    · refine ⟨head.plain, here, head.store metrics, by simp [storeAt, modifyFirst, here], rfl, ?_⟩
      rw [ActiveConn.store, ConnMetrics.get_set, if_pos rfl]
    · rcases List.mem_cons.mp member with same | later
      · exact absurd (same ▸ isAddr) here
      · obtain ⟨first, dest, stored, among, is, held⟩ := ih later
        exact ⟨first, dest, stored, by simpa [storeAt, modifyFirst, here] using .inr among, is,
          held⟩

theorem plain_handleMetrics (metrics : Metrics) (state : Metered) :
    (state.handleMetrics metrics).orch.plain = state.orch.plain := by
  have conns (addr : SocketAddr) (bounds : List (ActiveConn ConnMetrics)) :
      (storeAt addr metrics bounds).map ActiveConn.plain = bounds.map ActiveConn.plain := by
    induction bounds with
    | nil => rfl
    | cons head rest ih =>
      simp only [storeAt, modifyFirst] at ih ⊢
      split
      · rfl
      · simp [ih]
  rcases slotOf_cases metrics.labels with ⟨peerId, addr, own, remote, -⟩ | plain
  · simp only [handleMetrics, own, remote]
    cases found : state.orch.peers.lookup peerId with
    | none => rfl
    | some entry =>
      simp only [Orchestrator.plain_insert, PeerEntry.plain, conns]
      have same : state.orch.plain.peers.insert peerId entry.plain = state.orch.plain.peers := by
        apply Finmap.ext_lookup
        intro id
        by_cases same : id = peerId
        · subst same
          simp [found]
        · simp [same]
      exact congrArg (fun peers => { state.orch.plain with peers }) same
  · rw [handleMetrics_plain plain]

end Store

end Metered

/-! ## Whole runs -/

structure Scraped where
  state : Metered
  history : List Metrics

inductive ScrapeInput where
  | event (env : Env) (event : Event)
  | reconcile (env : Env)
  | metrics (metrics : Metrics)

open Metered

def ScrapeInput.Renews (slot : Slot) : ScrapeInput → Prop
  | .metrics report => slotOf report.labels = slot
  | .event _ _ | .reconcile _ => False

namespace Scraped

def start (orch : Orchestrator ConnMetrics) (peers : List Peer) : Scraped :=
  ⟨⟨{ orch with peers := Orchestrator.initialPeers peers }, ∅⟩, []⟩

section Steps

variable (Trie : Type → Type) [PrefixTrie Trie]

def step (input : ScrapeInput) (scraped : Scraped) : Option Scraped :=
  match input with
  | .event env event =>
      (scraped.state.orch.handleEvent env event : Option (Reaction Trie ConnMetrics)).map
        fun reaction =>
        { scraped with state := { scraped.state with orch := reaction.orch } }
  | .reconcile env =>
      let reaction : Reaction Trie ConnMetrics := scraped.state.orch.reconcile env
      some { scraped with state := { scraped.state with orch := reaction.orch } }
  | .metrics metrics => some ⟨scraped.state.handleMetrics metrics, scraped.history ++ [metrics]⟩

def plainStep (input : ScrapeInput) (orch : Orchestrator) : Option Orchestrator :=
  match input with
  | .event env event => (orch.handleEvent env event : Option (Reaction Trie)).map Reaction.orch
  | .reconcile env => some (orch.reconcile env : Reaction Trie).orch
  | .metrics _ => some orch

end Steps

variable {Trie : Type → Type} [PrefixTrie Trie] {scraped next : Scraped} {input : ScrapeInput}
  {metrics : Metrics}

/-- What a step does: a report is stored, or connections come and go. -/
theorem sheds_of_step (taken : step Trie input scraped = some next) :
    (∃ metrics, input = .metrics metrics ∧
      next = ⟨scraped.state.handleMetrics metrics, scraped.history ++ [metrics]⟩) ∨
      ∃ orch, next = { scraped with state := { scraped.state with orch } } ∧
        ∀ id, Sheds (boundsOf scraped.state.orch id) (boundsOf orch id) := by
  cases input with
  | event env event =>
    obtain ⟨reaction, handled, rfl⟩ := Option.map_eq_some_iff.mp taken
    exact .inr ⟨reaction.orch, rfl, sheds_handleEvent handled⟩
  | reconcile env =>
    cases taken
    exact .inr ⟨_, rfl, sheds_reconcile⟩
  | metrics metrics =>
    cases taken
    exact .inl ⟨metrics, rfl, rfl⟩

structure Sound (scraped : Scraped) : Prop where
  plain : ∀ labels, scraped.state.nonPeerMetrics.lookup labels =
    if slotOf labels = .plain labels then latest scraped.history (.plain labels) else none
  tidy : ∀ id, Tidy scraped.history id (boundsOf scraped.state.orch id)

theorem sound_start (orch : Orchestrator ConnMetrics) (peers : List Peer) :
    Sound (start orch peers) where
  plain labels := by simp [start, latest]
  tidy id := by
    have bounds : boundsOf (start orch peers).state.orch id = [] := by
      unfold boundsOf
      rw [show (start orch peers).state.orch.peers = Orchestrator.initialPeers peers from rfl,
        Orchestrator.lookup_initialPeers]
      cases Orchestrator.lastFor peers id <;> rfl
    rw [bounds]
    exact ⟨.nil, fun _ member => absurd member List.not_mem_nil⟩

theorem sound_handleMetrics (sound : Sound scraped) (metrics : Metrics) :
    Sound ⟨scraped.state.handleMetrics metrics, scraped.history ++ [metrics]⟩ := by
  rcases slotOf_cases metrics.labels with ⟨peerId, addr, own, remote, slot⟩ | plain
  · constructor
    · intro labels
      rw [nonPeerMetrics_handleMetrics own remote, sound.plain, latest_append, slot]
      simp
    · intro id
      rw [boundsOf_handleMetrics own remote]
      by_cases same : id = peerId
      · subst same
        rw [if_pos rfl]
        exact tidy_stored (sound.tidy id) own remote
      · rw [if_neg same]
        refine tidy_other (sound.tidy id) fun other direction eq => ?_
        rw [slot] at eq
        exact same (Slot.conn.inj eq).1.symm
  · rw [handleMetrics_plain plain]
    constructor
    · intro labels
      rw [latest_append, plain]
      by_cases same : labels = metrics.labels
      · subst same
        simp [plain]
      · rw [Finmap.lookup_insert_of_ne _ same, sound.plain, if_neg fun eq =>
          same (Slot.plain.inj eq).symm]
    · intro id
      refine tidy_other (sound.tidy id) fun addr direction eq => ?_
      rw [plain] at eq
      cases eq

theorem sound_of_reaches {orch : Orchestrator ConnMetrics} {peers : List Peer}
    (reached : Reaches (step Trie) (fun _ _ => True) (start orch peers) scraped) : Sound scraped :=
  reached.invariant (sound_start orch peers) fun before input after sound _ taken => by
    rcases sheds_of_step taken with ⟨metrics, -, rfl⟩ | ⟨orch, rfl, sheds⟩
    · exact sound_handleMetrics sound metrics
    · exact ⟨sound.plain, fun id => (sound.tidy id).sheds (sheds id)⟩

theorem labelled_of_attached {peerId : String} {conn : ActiveConn} (sound : Sound scraped)
    (attached : Attached scraped.state peerId conn metrics) :
    slotOf metrics.labels = .conn peerId conn.dest metrics.labels.direction ∧
      latest scraped.history (slotOf metrics.labels) = some metrics := by
  obtain ⟨bound, member, rfl, held⟩ := attached
  obtain ⟨slot, current⟩ := (sound.tidy peerId).current bound member _ metrics held
  exact ⟨slot, by rw [slot, current]⟩

theorem attached_of_step {peerId : String} {conn : ActiveConn} (sound : Sound scraped)
    (attached : Attached scraped.state peerId conn metrics)
    (taken : step Trie input scraped = some next) (kept : ¬ input.Renews (slotOf metrics.labels))
    (lives : Lives next.state peerId conn) : Attached next.state peerId conn metrics := by
  rcases sheds_of_step taken with ⟨newer, rfl, rfl⟩ | ⟨orch, rfl, sheds⟩
  · exact attached_of_other kept (labelled_of_attached sound attached).1 attached
  · obtain ⟨bound, member, rfl, held⟩ := attached
    exact ⟨bound, (sheds peerId).stays member lives, rfl, held⟩

theorem attached_of_reaches {peerId : String} {conn : ActiveConn} (sound : Sound scraped)
    (attached : Attached scraped.state peerId conn metrics)
    (continued : Reaches (step Trie) (fun before input => Lives before.state peerId conn ∧
      ¬ input.Renews (slotOf metrics.labels)) scraped next)
    (lives : Lives next.state peerId conn) :
    Sound next ∧ Attached next.state peerId conn metrics := by
  induction continued with
  | refl => exact ⟨sound, attached⟩
  | next _ permitted taken ih =>
    obtain ⟨sound, attached⟩ := ih permitted.1
    have stays := attached_of_step sound attached taken permitted.2 lives
    rcases sheds_of_step taken with ⟨newer, -, rfl⟩ | ⟨orch, rfl, sheds⟩
    · exact ⟨sound_handleMetrics sound newer, stays⟩
    · exact ⟨⟨sound.plain, fun id => (sound.tidy id).sheds (sheds id)⟩, stays⟩

/-! ## Scrapes -/

theorem lookup_insertMetrics (values : List Metrics) (map : HashMap Labels Metrics)
    (labels : Labels) :
    (values.foldl (fun snapshot metrics => snapshot.insert metrics.labels metrics) map).lookup
      labels =
      (values.reverse.find? fun metrics => decide (metrics.labels = labels)).or
        (map.lookup labels) := by
  induction values generalizing map with
  | nil => rfl
  | cons metrics rest ih =>
    rw [List.foldl_cons, ih, List.reverse_cons, List.find?_append, Option.or_assoc,
      List.find?_singleton]
    by_cases same : metrics.labels = labels
    · subst same
      simp
    · simp [same, Finmap.lookup_insert_of_ne map (Ne.symm same)]

variable {listed : List (PeerEntry ConnMetrics)}

theorem mem_connMetrics : metrics ∈ connMetrics listed ↔
    ∃ entry ∈ listed, ∃ bound ∈ entry.bounds, ∃ direction,
    bound.reports.get direction = some metrics := by
  simp only [connMetrics, List.mem_filterMap, List.mem_flatMap, List.mem_cons, List.not_mem_nil,
    or_false, id]
  constructor
  · rintro ⟨report, ⟨bound, ⟨entry, listed, member⟩, received | sent⟩, held⟩
    · exact ⟨entry, listed, bound, member, .rx, received.symm.trans held⟩
    · exact ⟨entry, listed, bound, member, .tx, sent.symm.trans held⟩
  · rintro ⟨entry, listed, bound, member, direction, held⟩
    refine ⟨some metrics, ⟨bound, ⟨entry, listed, member⟩, ?_⟩, rfl⟩
    cases direction with
    | rx => exact .inl held.symm
    | tx => exact .inr held.symm

theorem attached_of_mem (sound : Sound scraped)
    (lists : HashMap.Enumerates listed scraped.state.orch.peers)
    (member : metrics ∈ connMetrics listed) :
    ∃ peerId conn, metrics.labels.peerId = some peerId ∧
      metrics.labels.remoteAddr = some conn.dest ∧ Attached scraped.state peerId conn metrics ∧
      latest scraped.history (slotOf metrics.labels) = some metrics := by
  obtain ⟨entry, isListed, bound, among, direction, held⟩ := mem_connMetrics.mp member
  obtain ⟨peerId, known⟩ := lists.mem_iff.mp isListed
  have bounds : boundsOf scraped.state.orch peerId = entry.bounds := by simp [boundsOf, known]
  rw [← bounds] at among
  obtain ⟨slot, current⟩ := (sound.tidy peerId).current bound among direction metrics held
  rcases slotOf_cases metrics.labels with ⟨own, addr, isOwn, isAddr, isSlot⟩ | plain
  · rw [isSlot] at slot
    obtain ⟨rfl, rfl, rfl⟩ := Slot.conn.inj slot
    exact ⟨own, bound.plain, isOwn, isAddr, ⟨bound, among, rfl, held⟩, by rw [isSlot, current]⟩
  · rw [plain] at slot
    cases slot

theorem mem_of_attached (lists : HashMap.Enumerates listed scraped.state.orch.peers)
    {peerId : String} {conn : ActiveConn} (attached : Attached scraped.state peerId conn metrics) :
    metrics ∈ connMetrics listed := by
  obtain ⟨bound, among, -, held⟩ := attached
  unfold boundsOf at among
  cases known : scraped.state.orch.peers.lookup peerId with
  | none => simp [known] at among
  | some entry =>
    rw [known] at among
    exact mem_connMetrics.mpr ⟨entry, lists.mem_iff.mpr ⟨peerId, known⟩, bound, among, _, held⟩

theorem lookup_snapshot (sound : Sound scraped)
    (lists : HashMap.Enumerates listed scraped.state.orch.peers) (labels : Labels) :
    (scraped.state.collectMetricsSnapshot listed).lookup labels = some metrics ↔
      metrics.labels = labels ∧ latest scraped.history (slotOf labels) = some metrics ∧
        ∀ peerId addr, labels.peerId = some peerId → labels.remoteAddr = some addr →
          ∃ conn, conn.dest = addr ∧ Attached scraped.state peerId conn metrics := by
  rw [collectMetricsSnapshot, lookup_insertMetrics]
  -- Reports of connections are inserted last, so that one of them is shown if there is one with
  -- these labels.
  cases found : (connMetrics listed).reverse.find? fun metrics =>
    decide (metrics.labels = labels) with
  | some shown =>
    have isShown : shown.labels = labels := by simpa using List.find?_some found
    obtain ⟨peerId, conn, own, remote, attached, current⟩ :=
      attached_of_mem sound lists (List.mem_reverse.mp (List.mem_of_find?_eq_some found))
    rw [isShown] at own remote current
    constructor
    · intro is
      cases is
      refine ⟨isShown, current, fun other addr isOther isAddr => ⟨conn, ?_, ?_⟩⟩
      · exact Option.some.inj (remote.symm.trans isAddr)
      · cases own.symm.trans isOther
        exact attached
    · rintro ⟨-, also, -⟩
      exact current.symm.trans also
  | none =>
    rw [Option.none_or, sound.plain]
    rcases slotOf_cases labels with ⟨peerId, addr, own, remote, slot⟩ | plain
    -- Labels of a connection are not among the others, and none is attached.
    · simp only [slot, reduceCtorEq, if_false, false_iff, not_and]
      intro isLabels _ attached
      obtain ⟨conn, -, attached⟩ := attached peerId addr own remote
      have member := List.mem_reverse.mpr (mem_of_attached lists attached)
      exact absurd isLabels (by simpa using List.find?_eq_none.mp found metrics member)
    · rw [plain, if_pos rfl]
      constructor
      · intro shown
        have slot := labels_of_latest shown
        refine ⟨?_, shown, fun peerId addr own remote => by simp [slotOf, own, remote] at plain⟩
        rcases slotOf_cases metrics.labels with ⟨_, _, _, _, other⟩ | same
        · rw [other] at slot
          cases slot
        · exact Slot.plain.inj (same.symm.trans slot)
      · exact fun shown => shown.2.1

theorem shown_of_attached {peerId : String} {conn : ActiveConn} (sound : Sound scraped)
    (attached : Attached scraped.state peerId conn metrics)
    (lists : HashMap.Enumerates listed scraped.state.orch.peers) :
    (scraped.state.collectMetricsSnapshot listed).lookup metrics.labels = some metrics := by
  obtain ⟨slot, current⟩ := labelled_of_attached sound attached
  refine (lookup_snapshot sound lists metrics.labels).mpr
    ⟨rfl, current, fun other addr own remote => ⟨conn, ?_, ?_⟩⟩
  · rw [slotOf, own, remote] at slot
    exact (Slot.conn.inj slot).2.1.symm
  · rw [slotOf, own, remote] at slot
    cases (Slot.conn.inj slot).1
    exact attached

theorem plain_of_reaches {before after : Scraped}
    (reached : Reaches (step Trie) (fun _ _ => True) before after) :
    Reaches (plainStep Trie) (fun _ _ => True) before.state.orch.plain after.state.orch.plain := by
  induction reached with
  | refl => exact .refl
  | @next middle after input _ _ taken ih =>
    refine .next ih trivial (?_ : plainStep Trie input _ = _)
    cases input with
    | event env event =>
      obtain ⟨reaction, handled, rfl⟩ := Option.map_eq_some_iff.mp taken
      simp only [plainStep, Orchestrator.handleEvent_plain, handled]
      rfl
    | reconcile env =>
      cases taken
      simp only [plainStep, Orchestrator.reconcile_plain]
      rfl
    | metrics metrics =>
      cases taken
      exact congrArg some (plain_handleMetrics metrics middle.state).symm

def sampleAddr : SocketAddr := ⟨.v4 0xc0000201#32, 443⟩

def sampleReport (source : Source) (peerId : Option String) (addr : Option SocketAddr)
    (packets : Nat) : Metrics :=
  ⟨⟨source, .rx, peerId, addr⟩, Stats.new.recordSuccess packets 0⟩

def sampleInputs : List ScrapeInput :=
  [.event ⟨0, fun _ => false, []⟩ (.connected "relay" sampleAddr ⟨7⟩ none),
   .metrics (sampleReport .router none none 3),
   .metrics (sampleReport .http3 (some "relay") (some sampleAddr) 1),
   .metrics (sampleReport .http3 (some "relay") (some sampleAddr) 2)]

def sampleStart : Scraped := start ⟨∅, ⟨1, 60⟩, ⟨[]⟩, ⟨0⟩, true, true, true⟩ [System.relay]

def sampleScraped : Scraped := (run (step AssocTrie) sampleInputs sampleStart).get rfl

theorem reaches_sampleScraped :
    Reaches (step AssocTrie) (fun _ _ => True) sampleStart sampleScraped :=
  have executed : run (step AssocTrie) sampleInputs sampleStart = some sampleScraped := rfl
  reaches_of_run (fun _ _ _ => trivial) executed

end Scraped
end H3llo.Orch
