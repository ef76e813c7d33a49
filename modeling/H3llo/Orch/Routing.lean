import H3llo.Orch.System

/-! Routing converges to the configuration.

Only some handlers rebuild the routing table. The others either keep what the table
is made from, or ask the resolver for a snapshot, whose handler rebuilds it.
-/

set_option autoImplicit false

namespace H3llo.Orch
open H3llo.Net H3llo.Config H3llo.Dns H3llo.Router H3llo.Runs

variable {Trie : Type → Type} [PrefixTrie Trie]

namespace Orchestrator

def routingInput (orch : Orchestrator) (listed : List Peer) : RoutingInput :=
  ⟨listed, orch.peerTxs, orch.localTun, orch.inputTx⟩

/-- The table looks up every address as any table of the current peers does. -/
def Describes (orch : Orchestrator) (routing : RoutingTable Trie) : Prop :=
  ∀ listed (table : RoutingTable Trie), HashMap.Enumerates listed orch.peerConfigs →
    orch.makeRouting listed = .ok table →
    ∀ addr, (routing.lookup addr).map RouteMatch.canonical =
      (table.lookup addr).map RouteMatch.canonical

theorem routingInput_alike (orch : Orchestrator) {first second : List Peer}
    (left : HashMap.Enumerates first orch.peerConfigs)
    (right : HashMap.Enumerates second orch.peerConfigs) :
    RoutingInput.Alike (orch.routingInput first) (orch.routingInput second) where
  claims := RoutingInput.peerClaims_perm (left.perm right)
  hosts _ := Iff.rfl
  inputTx := rfl

/-! ## Effect of a handler on routing -/

/-- A handler rebuilds the table, or keeps its inputs, or asks for a snapshot. -/
inductive RoutingEffect (orch : Orchestrator) (listed : List Peer)
    (reaction : Reaction Trie) : Prop where
  | rebuilt (lists : HashMap.Enumerates listed reaction.orch.peerConfigs)
      (sent : reaction.mail.router = (reaction.orch.updateRouting listed : Mail Trie).router)
  | kept (configs : reaction.orch.peerConfigs = orch.peerConfigs)
      (txs : reaction.orch.peerTxs = orch.peerTxs)
      (localTun : reaction.orch.localTun = orch.localTun)
      (inputTx : reaction.orch.inputTx = orch.inputTx) (quiet : reaction.mail.router = [])
  | requested (asked : reaction.mail.dns ≠ [])

theorem RoutingEffect.idle (orch : Orchestrator) (listed : List Peer) :
    RoutingEffect orch listed (orch.idle : Reaction Trie) := .kept rfl rfl rfl rfl rfl

omit [PrefixTrie Trie] in
theorem peerConfigs_maintainAll (env : Env) (update : PeerEntry → PeerEntry) (orch : Orchestrator)
    (keeps : ∀ entry, (update entry).config = entry.config) :
    (orch.maintainAll env update).1.peerConfigs = orch.peerConfigs := by
  apply Finmap.ext_lookup
  intro id
  simp only [maintainAll, peerConfigs, HashMap.lookup_map, Option.map_map]
  congr 1
  funext entry
  exact keeps entry

theorem peerTxs_maintainAll {env : Env} {orch : Orchestrator}
    (unchanged : (orch.peers.any fun _ entry => (entry.prune env.isClosed).2) = false) :
    (orch.maintainAll env id).1.peerTxs = orch.peerTxs := by
  apply Finmap.ext_lookup
  intro id
  simp only [maintainAll, peerTxs, HashMap.lookup_map, HashMap.lookup_filterMap, Option.bind_map]
  cases found : orch.peers.lookup id with
  | none => rfl
  | some entry =>
    apply PeerEntry.prune_preferredTx
    by_contra changed
    rw [Bool.not_eq_false] at changed
    rw [HashMap.any_eq_true.mpr ⟨id, entry, found, changed⟩] at unchanged
    cases unchanged

theorem reconcile_routing {env : Env} {orch : Orchestrator}
    (lists : HashMap.Enumerates env.listed orch.peerConfigs) :
    RoutingEffect orch env.listed (orch.reconcile env : Reaction Trie) := by
  have configs := orch.peerConfigs_maintainAll env id fun _ => rfl
  cases changed : orch.peers.any fun _ entry => (entry.prune env.isClosed).2 with
  | true =>
    apply RoutingEffect.rebuilt
    · rw [← configs] at lists
      exact lists
    · simp only [reconcile, changed]
      rfl
  | false =>
    exact .kept configs (peerTxs_maintainAll changed) rfl rfl
      (by simp [reconcile, changed, Mail.none])

variable (Trie) in
theorem handleDnsSnapshot_routing (env : Env) {orch : Orchestrator} (state : DnsSnapshot)
    (lists : HashMap.Enumerates env.listed orch.peerConfigs) :
    let reaction : Reaction Trie := orch.handleDnsSnapshot env state
    HashMap.Enumerates env.listed reaction.orch.peerConfigs ∧
      reaction.mail.router = (reaction.orch.updateRouting env.listed : Mail Trie).router := by
  have configs := orch.peerConfigs_maintainAll env (resolve state) fun _ => rfl
  rw [← configs] at lists
  exact ⟨lists, rfl⟩

theorem peerConfigs_insert {orch : Orchestrator} {peerId : String} {old new : PeerEntry}
    (found : orch.peers.lookup peerId = some old) (same : new.config = old.config) :
    ({ orch with peers := orch.peers.insert peerId new } : Orchestrator).peerConfigs =
      orch.peerConfigs := by
  apply Finmap.ext_lookup
  intro id
  by_cases this : id = peerId
  · subst this
    simp [peerConfigs, found, same]
  · simp [peerConfigs, this]

theorem peerTxs_insert {orch : Orchestrator} {peerId : String} {old new : PeerEntry}
    (found : orch.peers.lookup peerId = some old) (same : new.preferredTx = old.preferredTx) :
    ({ orch with peers := orch.peers.insert peerId new } : Orchestrator).peerTxs =
      orch.peerTxs := by
  apply Finmap.ext_lookup
  intro id
  by_cases this : id = peerId
  · subst this
    simp [peerTxs, found, same]
  · simp [peerTxs, this]

theorem updateBound_routing {env : Env} {orch : Orchestrator} (peerId : String)
    (endpoint : Option Endpoint) (dest : SocketAddr) (tx : Sender)
    (lists : HashMap.Enumerates env.listed orch.peerConfigs) :
    RoutingEffect orch env.listed
      (orch.updateBound env peerId endpoint dest tx : Reaction Trie) := by
  unfold updateBound
  cases found : orch.peers.lookup peerId with
  | none => exact .idle orch env.listed
  | some entry =>
    have configs := peerConfigs_insert found
      (show ((pushBound endpoint dest tx entry).prune env.isClosed).1.config =
        entry.config from rfl)
    simp only
    split
    next =>
      rw [← configs] at lists
      exact .rebuilt lists rfl
    next quiet =>
      rw [Bool.not_eq_true, Bool.or_eq_false_iff] at quiet
      obtain ⟨connected, unchanged⟩ := quiet
      -- there was a bound before, and the new one stands behind it
      have first : (pushBound endpoint dest tx entry).preferredTx = entry.preferredTx := by
        cases bounds : entry.bounds with
        | nil => simp [bounds] at connected
        | cons head tail => simp [PeerEntry.preferredTx, pushBound, bounds]
      have txs := peerTxs_insert found ((PeerEntry.prune_preferredTx unchanged).trans first)
      exact .kept configs txs rfl rfl rfl

theorem handleDialFailed_routing (env : Env) (peerId : String) (ip : IpAddr) (orch : Orchestrator) :
    RoutingEffect orch env.listed (orch.handleDialFailed env peerId ip : Reaction Trie) := by
  unfold handleDialFailed
  split
  next => exact .idle orch env.listed
  next entry found =>
    split
    next => exact .idle orch env.listed
    next state dialed =>
      exact .kept (peerConfigs_insert found rfl) (peerTxs_insert found rfl) rfl rfl rfl

theorem eraseAll_of_card {ids : List String} {peers : HashMap String PeerEntry}
    (same : ¬ (ids.foldl (fun peers id => peers.erase id) peers).keys.card < peers.keys.card) :
    ids.foldl (fun peers id => peers.erase id) peers = peers := by
  have shrinks : (ids.foldl (fun peers id => peers.erase id) peers).keys ⊆ peers.keys := by
    intro id member
    rw [Finmap.mem_keys, ← Finmap.lookup_isSome, lookup_eraseAll] at member
    rw [Finmap.mem_keys, ← Finmap.lookup_isSome]
    split at member
    · cases member
    · exact member
  have keys := Finset.eq_of_subset_of_card_le shrinks (Nat.le_of_not_lt same)
  apply Finmap.ext_lookup
  intro id
  rw [lookup_eraseAll]
  split
  next erased =>
    have absent : id ∉ peers.keys := by
      rw [← keys, Finmap.mem_keys, ← Finmap.lookup_isSome, lookup_eraseAll, if_pos erased]
      simp
    rw [Finmap.mem_keys, ← Finmap.lookup_isSome, Option.not_isSome_iff_eq_none] at absent
    exact absent.symm
  next => rfl

theorem handleDeleteConfig_routing (listed : List Peer) (peerIds : List String)
    (orch : Orchestrator) :
    RoutingEffect orch listed (orch.handleDeleteConfig peerIds : Reaction Trie) := by
  unfold handleDeleteConfig
  simp only
  split
  next => exact .requested (by simp [syncPeersToActors])
  next same =>
    have peers := eraseAll_of_card same
    exact .kept (by simp [peers]) (by simp [peers]) rfl rfl rfl

theorem handleEvent_routing {env : Env} {event : Event} {orch : Orchestrator}
    {reaction : Reaction Trie} (lists : HashMap.Enumerates env.listed (orch.listedBy event))
    (reacts : orch.handleEvent env event = some reaction) :
    RoutingEffect orch env.listed reaction := by
  cases reacts_of_handleEvent reacts with
  | exited => exact .idle orch env.listed
  | reconciled => exact reconcile_routing lists
  | resolved state =>
    obtain ⟨configs, sent⟩ := handleDnsSnapshot_routing Trie env state lists
    exact .rebuilt configs sent
  | rejected peers => exact .idle orch env.listed
  | posted peers accepted updated => exact .requested (by simp [syncPeersToActors])
  | deleted peerIds => exact handleDeleteConfig_routing env.listed peerIds orch
  | connected peerId remoteAddr tx endpoint =>
    exact updateBound_routing peerId endpoint remoteAddr tx lists
  | failed peerId ip => exact handleDialFailed_routing env peerId ip orch
  | ignored => exact .idle orch env.listed

/-! ## Tables on their way to the router -/

theorem describes_updateRouting {orch : Orchestrator} {listed : List Peer}
    (lists : HashMap.Enumerates listed orch.peerConfigs) (earlier : List (RoutingTable Trie))
    (router : RoutingTable Trie) :
    orch.Describes ((earlier ++ (orch.updateRouting listed : Mail Trie).router).getLast?.getD
      router) := by
  intro other table otherLists made addr
  have alike := orch.routingInput_alike lists otherLists
  -- success does not depend on the order, so this list gives a table as well
  have succeeds : ((orch.routingInput listed).make Trie).isOk = true := by
    have otherMade : (orch.routingInput other).make Trie = .ok table := made
    rw [alike.isOk, otherMade]
    rfl
  cases built : (orch.makeRouting listed : Except RoutingError (RoutingTable Trie)) with
  | error error =>
    have failed : (orch.routingInput listed).make Trie = .error error := built
    rw [failed] at succeeds
    cases succeeds
  | ok routing =>
    simp only [updateRouting, built, List.getLast?_append, List.getLast?_singleton, Option.some_or,
      Option.getD_some]
    exact alike.lookup built made addr

theorem Describes.congr {before after : Orchestrator} {routing : RoutingTable Trie}
    (describes : before.Describes routing) (configs : after.peerConfigs = before.peerConfigs)
    (txs : after.peerTxs = before.peerTxs) (localTun : after.localTun = before.localTun)
    (inputTx : after.inputTx = before.inputTx) : after.Describes routing := by
  intro listed table lists made
  rw [configs] at lists
  rw [makeRouting, txs, localTun, inputTx] at made
  exact describes listed table lists made

end Orchestrator

namespace System

def latestRouting (sys : System Trie) : RoutingTable Trie :=
  sys.mail.router.getLast?.getD sys.router

/-- A snapshot is on its way to the orchestrator, or will be once the resolver reads its inbox. -/
def SnapshotDue (sys : System Trie) : Prop :=
  sys.mail.dns ≠ [] ∨ ∃ envelope ∈ sys.inbox, envelope.event.IsSnapshot

def Converging (sys : System Trie) : Prop := sys.SnapshotDue ∨ sys.orch.Describes sys.latestRouting

/-- What is due or known does not change while the two inboxes and the orchestrator do not;
messages that are no snapshots may come and go. -/
theorem Converging.frame {sys after : System Trie} (converging : sys.Converging)
    (orch : after.orch = sys.orch) (dns : after.mail.dns = sys.mail.dns)
    (routers : after.mail.router = sys.mail.router) (router : after.router = sys.router)
    (keeps : ∀ envelope ∈ sys.inbox, envelope.event.IsSnapshot → envelope ∈ after.inbox) :
      after.Converging := by
  rcases converging with (pending | ⟨envelope, queued, snapshot⟩) | describes
  · left; left
    rwa [dns]
  · exact .inl (.inr ⟨envelope, keeps envelope queued snapshot, snapshot⟩)
  · right
    rwa [latestRouting, orch, routers, router]

theorem describes_absorb {sys : System Trie} {listed : List Peer} {reaction : Reaction Trie}
    (lists : HashMap.Enumerates listed reaction.orch.peerConfigs)
    (sent : reaction.mail.router = (reaction.orch.updateRouting listed : Mail Trie).router) :
    reaction.orch.Describes (sys.absorb reaction).latestRouting := by
  unfold latestRouting
  simp only [System.absorb, Mail.append, sent]
  exact Orchestrator.describes_updateRouting lists sys.mail.router sys.router

theorem Converging.absorb {sys : System Trie} {listed : List Peer} {reaction : Reaction Trie}
    (converging : sys.Converging) (effect : Orchestrator.RoutingEffect sys.orch listed reaction) :
    (sys.absorb reaction).Converging := by
  cases effect with
  | rebuilt lists sent => exact .inr (describes_absorb lists sent)
  | requested asked =>
    left; left
    simp [System.absorb, Mail.append, asked]
  | kept configs txs localTun inputTx quiet =>
    rcases converging with (pending | ⟨envelope, queued, snapshot⟩) | describes
    · left; left
      simp [System.absorb, Mail.append, pending]
    · exact .inl (.inr ⟨envelope, queued, snapshot⟩)
    · right
      unfold latestRouting
      simp only [System.absorb, Mail.append, quiet, List.append_nil]
      exact describes.congr configs txs localTun inputTx

theorem Converging.remember {sys : System Trie} (event : Event) (converging : sys.Converging) :
    (sys.remember event).Converging := by
  rw [remember_eq]
  exact converging.frame rfl rfl rfl rfl fun _ queued _ => queued

theorem Converging.popped {sys after : System Trie} {envelope : Envelope} {rest : List Envelope}
    (converging : sys.Converging) (queued : sys.inbox = envelope :: rest)
    (plain : ¬ envelope.event.IsSnapshot) (orch : after.orch = sys.orch)
    (mail : after.mail = sys.mail) (router : after.router = sys.router)
    (left : after.inbox = rest) : after.Converging := by
  refine converging.frame orch (by rw [mail]) (by rw [mail]) router ?_
  intro other member snapshot
  rw [queued] at member
  rcases List.mem_cons.mp member with rfl | member
  · exact absurd snapshot plain
  · rwa [left]

theorem Converging.handled {sys : System Trie} {now : Nat} {listed : List Peer}
    {envelope : Envelope} {rest : List Envelope} {reaction : Reaction Trie}
    (converging : sys.Converging) (queued : sys.inbox = envelope :: rest)
    (lists : HashMap.Enumerates listed (sys.orch.listedBy envelope.event))
    (reacts : sys.orch.handleEvent ⟨now, sys.isClosed, listed⟩ envelope.event = some reaction) :
    ({ sys with inbox := rest, clock := now }.absorb reaction).Converging := by
  by_cases snapshot : envelope.event.IsSnapshot
  · -- the handled snapshot is no longer due, but its handler has rebuilt the table
    obtain ⟨state, same⟩ := Event.eq_dns_of_isSnapshot snapshot
    rw [same] at lists reacts
    cases reacts
    obtain ⟨configs, sent⟩ := Orchestrator.handleDnsSnapshot_routing Trie
      ⟨now, sys.isClosed, listed⟩ state lists
    exact .inr (describes_absorb configs sent)
  · have popped : ({ sys with inbox := rest, clock := now } : System Trie).Converging :=
      converging.popped queued snapshot rfl rfl rfl rfl
    exact popped.absorb (Orchestrator.handleEvent_routing lists reacts)

theorem Converging.step {tuning : DnsTuning} {action : Action} {sys after : System Trie}
    (converging : sys.Converging)
    (taken : sys.step tuning action = some after) : after.Converging := by
  have longer (sent : List Envelope) : ∀ envelope ∈ sys.inbox, envelope.event.IsSnapshot →
      envelope ∈ sys.inbox ++ sent :=
    fun _ queued _ => List.mem_append_left sent queued
  cases moves_of_step taken with
  | handled queued running later lists reacts =>
    exact (converging.handled queued lists reacts).remember _
  | @stopped now listed envelope rest queued leaves =>
    have plain := Event.not_isSnapshot_of_leaves leaves
    exact converging.popped queued plain rfl rfl rfl rfl
  | reconciled running later lists =>
    have waited : ({ sys with clock := _ } : System Trie).Converging :=
      converging.frame rfl rfl rfl rfl fun _ queued _ => queued
    exact waited.absorb (Orchestrator.reconcile_routing lists)
  | registered queued later iterated =>
    rw [DnsActor.iterate_setHostnames, Option.some.injEq, Prod.mk.injEq] at iterated
    obtain ⟨rfl, rfl⟩ := iterated
    left; right
    exact ⟨_, List.mem_append_right _ (List.mem_singleton_self _), trivial⟩
  | resolved other later iterated => exact converging.frame rfl rfl rfl rfl (longer _)
  | @routed routing rest queued =>
    rcases converging with due | describes
    · exact .inl due
    · right
      unfold latestRouting at describes ⊢
      rw [queued] at describes
      -- the table received was the newest one, or a newer one is still queued
      cases rest with
      | nil => exact describes
      | cons next later =>
        rw [List.getLast?_cons_cons] at describes
        simpa [List.getLast?_cons] using describes
  | filtered queued => exact converging.frame rfl rfl rfl rfl fun _ member _ => member
  | authorised queued => exact converging.frame rfl rfl rfl rfl fun _ member _ => member
  | synced queued => exact converging.frame rfl rfl rfl rfl fun _ member _ => member
  | connected dialed runs fresh => exact converging.frame rfl rfl rfl rfl (longer _)
  | failed runs => exact converging.frame rfl rfl rfl rfl (longer _)
  | aborted runs => exact converging.frame rfl rfl rfl rfl fun _ queued _ => queued
  | arrived plain fresh => exact converging.frame rfl rfl rfl rfl (longer _)
  | closed => exact converging.frame rfl rfl rfl rfl fun _ queued _ => queued

theorem converging_new (orch : Orchestrator) (peers : List Peer) :
    (new orch peers : System Trie).Converging :=
  .inl (.inl (by simp [new, Orchestrator.syncPeersToActors]))

/-- With nothing under way, the router knows the routes of the current peers and no others. -/
theorem routing_converges (tuning : DnsTuning) (orch : Orchestrator) (peers : List Peer)
    {sys : System Trie} (reached : Reaches (step tuning) (fun _ _ => True) (new orch peers) sys)
    (hosts : sys.mail.dns = []) (snapshots : ∀ envelope ∈ sys.inbox, ¬ envelope.event.IsSnapshot)
    (tables : sys.mail.router = []) {listed : List Peer}
    (lists : HashMap.Enumerates listed sys.orch.peerConfigs) {table : RoutingTable Trie}
    (made : sys.orch.makeRouting listed = .ok table) :
    (∀ addr, (sys.router.lookup addr).map RouteMatch.canonical =
      (table.lookup addr).map RouteMatch.canonical) ∧
    ∀ addr found, sys.router.lookup addr = some found →
      found.entry = ⟨localPeerId, sys.orch.inputTx⟩ ∨
        ∃ entry, sys.orch.peers.lookup found.peerId = some entry ∧
          entry.preferredTx = some found.tx := by
  have converging : sys.Converging :=
    reached.invariant (converging_new orch peers) fun _ _ _ before _ taken => before.step taken
  rcases converging with (pending | ⟨envelope, queued, snapshot⟩) | describes
  · exact absurd hosts pending
  · exact absurd snapshot (snapshots envelope queued)
  have latest : sys.latestRouting = sys.router := by simp [latestRouting, tables]
  rw [latest] at describes
  have same := describes listed table lists made
  refine ⟨same, fun addr found matched => ?_⟩
  have agrees := same addr
  rw [matched, Option.map_some, eq_comm, Option.map_eq_some_iff] at agrees
  obtain ⟨current, currentMatched, canonical⟩ := agrees
  obtain ⟨_, peerId, tx⟩ := RouteMatch.mk.inj canonical
  have input : (sys.orch.routingInput listed).make Trie = .ok table := made
  obtain ⟨net, _, route, _⟩ := RoutingInput.lookup_longest input currentMatched
  -- a match is a route of the current peers, so its owner and TX are current too
  rcases route with ⟨peer, _, _, id, connected⟩ | ⟨_, isLocal, _⟩
  · right
    simp only [Orchestrator.routingInput, Orchestrator.peerTxs,
      HashMap.lookup_filterMap] at connected
    obtain ⟨entry, present, preferred⟩ := Option.bind_eq_some_iff.mp connected
    have owner : found.peerId = peer.id := by
      rw [← peerId]
      exact id
    rw [owner]
    exact ⟨entry, present, by rw [preferred, ← tx]; rfl⟩
  · left
    have entry : found.entry = current.entry := by simp [RouteMatch.entry, peerId, tx]
    rw [entry, isLocal]
    rfl

def connectRelay : List Action :=
  [.dnsReceive 1, .handle 2 [relay], .routerReceive,
    .external (.connected "relay" ⟨.v4 0xc0000201#32, 6635⟩ ⟨7⟩ none), .handle 3 [relay],
      .routerReceive]

theorem routing_converges_relay : ∃ sys : System AssocTrie,
    run (step sampleTuning) connectRelay (new sampleOrch [relay]) = some sys ∧
      (sys.router.lookup (.v4 0x0a010203#32)).isSome ∧
      ∀ found, sys.router.lookup (.v4 0x0a010203#32) = some found →
        found.entry = ⟨localPeerId, sys.orch.inputTx⟩ ∨
          ∃ entry, sys.orch.peers.lookup found.peerId = some entry ∧
            entry.preferredTx = some found.tx := by
  have executes : (run (step sampleTuning) connectRelay
      (new sampleOrch [relay] : System AssocTrie)).any (fun sys =>
      sys.mail.dns = [] ∧ sys.inbox.isEmpty ∧ sys.mail.router.isEmpty ∧
        HashMap.Enumerates [relay] sys.orch.peerConfigs ∧
        (sys.orch.makeRouting [relay] : Except RoutingError (RoutingTable AssocTrie)).isOk ∧
        (sys.router.lookup (.v4 0x0a010203#32)).isSome) = true := by
    decide +kernel
  rw [Option.any_eq_true] at executes
  obtain ⟨sys, executed, quiet⟩ := executes
  simp only [decide_eq_true_eq, List.isEmpty_iff] at quiet
  obtain ⟨hosts, inbox, tables, lists, succeeds, matched⟩ := quiet
  cases made : (sys.orch.makeRouting [relay] : Except RoutingError (RoutingTable AssocTrie)) with
  | error error =>
    rw [made] at succeeds
    cases succeeds
  | ok table =>
    have reached := reaches_of_run (fun _ _ _ => trivial) executed
    exact ⟨sys, executed, matched,
      (routing_converges sampleTuning sampleOrch [relay] reached hosts
        (by simp [inbox]) tables lists made).2 _⟩

end System

/-! ## Accepted peers and their routes -/

def NoSharedNetwork (peers : List Peer) (peerTxs : HashMap String Sender) : Prop :=
  ∀ first ∈ peers, ∀ second ∈ peers, (peerTxs.lookup first.id).isSome →
    (peerTxs.lookup second.id).isSome →
    first ≠ second → ∀ net ∈ first.tun.allowedIps, ∀ other ∈ second.tun.allowedIps, ¬ net.Same other

theorem consistent_iff_noSharedNetwork {peers : List Peer} (ids : (peers.map Peer.id).Nodup)
    (peerTxs : HashMap String Sender) :
    Consistent (peerClaims peerTxs peers) ↔ NoSharedNetwork peers peerTxs := by
  constructor
  · intro consistent first member second otherMember connected otherConnected different net claimed
      other otherClaimed same
    obtain ⟨tx, found⟩ := Option.isSome_iff_exists.mp connected
    obtain ⟨otherTx, otherFound⟩ := Option.isSome_iff_exists.mp otherConnected
    have owners : first.id = second.id :=
      consistent (net, ⟨first.id, tx⟩) (mem_peerClaims.mpr ⟨first, member, claimed, rfl, found⟩)
        (other, ⟨second.id, otherTx⟩)
          (mem_peerClaims.mpr ⟨second, otherMember, otherClaimed, rfl, otherFound⟩) same
    exact different (List.inj_on_of_nodup_map ids member otherMember owners)
  · intro apart ⟨net, entry⟩ claimed ⟨other, otherEntry⟩ otherClaimed same
    obtain ⟨first, member, listed, id, found⟩ := mem_peerClaims.mp claimed
    obtain ⟨second, otherMember, otherListed, otherId, otherFound⟩ := mem_peerClaims.mp otherClaimed
    by_contra different
    apply apart first member second otherMember (by simp [found])
      (by simp [otherFound]) _ net listed other otherListed same
    intro equal
    apply different
    rw [id, otherId, equal]

/-- Accepted peers can be routed exactly while no two of those connected share a network. -/
theorem accepted_routable_iff {peers : List Peer} (accepted : validatePeers peers = .ok ()) :
    (∀ peerTxs localTun inputTx,
      (RoutingTable.make peers peerTxs localTun inputTx : Except RoutingError
        (RoutingTable Trie)).isOk ↔
        NoSharedNetwork peers peerTxs) ∧
    ∀ orch : Orchestrator, (orch.updateRouting peers : Mail Trie).router ≠ [] ↔
      NoSharedNetwork peers orch.peerTxs := by
  have ids := validatePeers_ids_nodup accepted
  have builds (peerTxs : HashMap String Sender) (localTun : LocalTun) (inputTx : Sender) :
      (RoutingTable.make peers peerTxs localTun inputTx : Except RoutingError
        (RoutingTable Trie)).isOk ↔
        NoSharedNetwork peers peerTxs := by
    rw [← consistent_iff_noSharedNetwork ids]
    exact RoutingInput.make_isOk_iff ⟨peers, peerTxs, localTun, inputTx⟩
  refine ⟨builds, fun orch => ?_⟩
  rw [← builds orch.peerTxs orch.localTun orch.inputTx]
  unfold Orchestrator.updateRouting Orchestrator.makeRouting
  cases (RoutingTable.make peers orch.peerTxs orch.localTun orch.inputTx : Except RoutingError
    (RoutingTable Trie)) with
  | error error => simp [Except.isOk, Except.toBool]
  | ok routing => simp [Except.isOk, Except.toBool]

theorem accepted_routable_single :
    let shared : IpNet := ⟨.v4 0x0a010000#32, 16, by decide⟩
    let peers := [RoutingInput.samplePeer "east" [shared], RoutingInput.samplePeer "west" [shared]]
    validatePeers peers = .ok () ∧
      ((RoutingTable.make peers (Finmap.insert "east" ⟨1⟩ ∅) RoutingInput.sampleInput.localTun ⟨0⟩ :
        Except RoutingError (RoutingTable AssocTrie)).isOk ↔
          NoSharedNetwork peers (Finmap.insert "east" ⟨1⟩ ∅)) := by
  intro shared peers
  have accepted : validatePeers peers = .ok () := by decide +kernel
  exact ⟨accepted, (accepted_routable_iff accepted).1 _ _ _⟩

/-- Once both are connected no table can be built, although the peers were accepted. -/
theorem accepted_unroutable :
    let shared : IpNet := ⟨.v4 0x0a010000#32, 16, by decide⟩
    let peers := [RoutingInput.samplePeer "east" [shared], RoutingInput.samplePeer "west" [shared]]
    let peerTxs : HashMap String Sender := (Finmap.insert "east" ⟨1⟩ ∅).insert "west" ⟨2⟩
    validatePeers peers = .ok () ∧
      ¬ (RoutingTable.make peers peerTxs RoutingInput.sampleInput.localTun ⟨0⟩ :
        Except RoutingError (RoutingTable AssocTrie)).isOk := by
  decide +kernel

end H3llo.Orch
