import H3llo.Orch.Routing

/-! Updates of the peer set through the management API.

An update is validated on a merged copy of the configurations and then applied to
the live map. The two agree, so the live map always passes its own validation.
-/

set_option autoImplicit false

namespace H3llo.Orch
open H3llo.Net H3llo.Config H3llo.Dns H3llo.Router H3llo.Runs

variable {Trie : Type → Type} [PrefixTrie Trie]

/-! ## Valid peer sets -/

def PeersKeyed (configs : HashMap String Peer) : Prop :=
  ∀ id peer, configs.lookup id = some peer → peer.id = id

/-- Peers under their own ids, each sound and with a token of its own. -/
structure PeersValid (configs : HashMap String Peer) : Prop where
  keyed : PeersKeyed configs
  sound : ∀ id peer, configs.lookup id = some peer → PeerOk peer
  tokens : ∀ first second token, (configs.lookup first).bind Peer.token? = some token →
    (configs.lookup second).bind Peer.token? = some token → first = second

theorem nodup_tokens_iff {peers : List Peer} (distinct : (peers.map Peer.id).Nodup) :
    (peers.filterMap Peer.token?).Nodup ↔
      ∀ first ∈ peers, ∀ second ∈ peers, ∀ token, first.token? = some token →
        second.token? = some token →
        first = second := by
  have nodup : peers.Nodup := distinct.of_map
  rw [List.Nodup, List.pairwise_filterMap]
  constructor
  · intro apart first isFirst second isSecond token left right
    by_contra different
    have symmetric : Std.Symm fun a b : Peer => ∀ x, a.token? = some x → ∀ y,
        b.token? = some y → x ≠ y :=
      ⟨fun a b apart x ofB y ofA same => apart y ofA x ofB same.symm⟩
    exact (apart.forall isFirst isSecond different) token left token right rfl
  · intro unique
    refine (List.Pairwise.and_mem.mp nodup).imp ?_
    rintro first second ⟨isFirst, isSecond, different⟩ token left other right rfl
    exact different (unique first isFirst second isSecond token left right)

theorem validatePeers_iff_of_enumerates {configs : HashMap String Peer} {listed : List Peer}
    (keyed : PeersKeyed configs) (lists : HashMap.Enumerates listed configs) :
    validatePeers listed = .ok () ↔ PeersValid configs := by
  have distinct := lists.nodup_map keyed
  rw [validatePeers_ok_iff, nodup_tokens_iff distinct]
  constructor
  · intro ⟨sound, _, tokens⟩
    refine ⟨keyed, fun id peer found => sound peer (lists.mem_iff.mpr ⟨id, found⟩), ?_⟩
    intro first second token left right
    obtain ⟨firstPeer, firstFound, firstToken⟩ := Option.bind_eq_some_iff.mp left
    obtain ⟨secondPeer, secondFound, secondToken⟩ := Option.bind_eq_some_iff.mp right
    have same := tokens firstPeer (lists.mem_iff.mpr ⟨first, firstFound⟩) secondPeer
      (lists.mem_iff.mpr ⟨second, secondFound⟩) token firstToken secondToken
    rw [← keyed first firstPeer firstFound, ← keyed second secondPeer secondFound, same]
  · intro valid
    refine ⟨fun peer member => ?_, distinct, ?_⟩
    · obtain ⟨id, found⟩ := lists.mem_iff.mp member
      exact valid.sound id peer found
    · intro first isFirst second isSecond token left right
      obtain ⟨firstId, firstFound⟩ := lists.mem_iff.mp isFirst
      obtain ⟨secondId, secondFound⟩ := lists.mem_iff.mp isSecond
      obtain rfl := valid.tokens firstId secondId token (by simp [firstFound, left])
        (by simp [secondFound, right])
      rw [firstFound] at secondFound
      exact Option.some.inj secondFound

theorem PeersValid.of_lookup {before after : HashMap String Peer} (valid : PeersValid before)
    (fewer : ∀ id peer, after.lookup id = some peer → before.lookup id = some peer) :
      PeersValid after where
  keyed id peer found := valid.keyed id peer (fewer id peer found)
  sound id peer found := valid.sound id peer (fewer id peer found)
  tokens first second token left right := by
    obtain ⟨firstPeer, firstFound, firstToken⟩ := Option.bind_eq_some_iff.mp left
    obtain ⟨secondPeer, secondFound, secondToken⟩ := Option.bind_eq_some_iff.mp right
    exact valid.tokens first second token (by simp [fewer first firstPeer firstFound, firstToken])
      (by simp [fewer second secondPeer secondFound, secondToken])

/-! ## Updates -/

namespace Orchestrator

theorem lookup_mergedPeers (newPeers : List Peer) (orch : Orchestrator) (id : String) :
    (orch.mergedPeers newPeers).lookup id = (lastFor newPeers id).or
      (orch.peerConfigs.lookup id) := by
  simpa [mergedPeers] using lookup_insertAll (fun peer => peer) newPeers orch.peerConfigs id

/-- The entry after an update; one that is known keeps everything but its configuration. -/
def reconfigured (peer : Peer) (old : Option PeerEntry) : PeerEntry :=
  (old.map fun existing => { existing with config := peer }).getD (.new peer)

@[simp] theorem config_reconfigured (peer : Peer) (old : Option PeerEntry) :
    (reconfigured peer old).config = peer := by
  cases old <;> rfl

@[simp] theorem reconfigured_again (peer other : Peer) (old : Option PeerEntry) :
    reconfigured peer (some (reconfigured other old)) = reconfigured peer old := by
  cases old <;> rfl

theorem lookup_upsertPeers (newPeers : List Peer) (peers : HashMap String PeerEntry) (id : String) :
    (newPeers.foldl upsertPeer peers).lookup id =
      match lastFor newPeers id with
      | some peer => some (reconfigured peer (peers.lookup id))
      | none => peers.lookup id := by
  induction newPeers generalizing peers with
  | nil => rfl
  | cons peer rest ih =>
    have updated : (upsertPeer peers peer).lookup id =
        if id = peer.id then some (reconfigured peer (peers.lookup id)) else peers.lookup id :=
      lookup_upsertPeer peers peer id
    rw [List.foldl_cons, ih, lastFor_cons, updated]
    by_cases same : peer.id = id
    · subst same
      cases lastFor rest peer.id <;> simp
    · cases lastFor rest id <;> simp [same, Ne.symm same]

theorem peerConfigs_upsertPeers (newPeers : List Peer) (orch : Orchestrator) :
    ({ orch with peers := newPeers.foldl upsertPeer orch.peers } : Orchestrator).peerConfigs =
      orch.mergedPeers newPeers := by
  apply Finmap.ext_lookup
  intro id
  rw [lookup_mergedPeers, peerConfigs, HashMap.lookup_map, lookup_upsertPeers]
  cases lastFor newPeers id <;> simp [peerConfigs]

theorem upsertPeers_again (newPeers : List Peer) (peers : HashMap String PeerEntry) :
    newPeers.foldl upsertPeer (newPeers.foldl upsertPeer peers) =
      newPeers.foldl upsertPeer peers := by
  apply Finmap.ext_lookup
  intro id
  rw [lookup_upsertPeers, lookup_upsertPeers]
  cases lastFor newPeers id <;> simp

theorem keyed_mergedPeers {orch : Orchestrator} (keyed : PeersKeyed orch.peerConfigs)
    (newPeers : List Peer) : PeersKeyed (orch.mergedPeers newPeers) := by
  intro id peer found
  rw [lookup_mergedPeers] at found
  cases last : lastFor newPeers id with
  | some other =>
    rw [last, Option.some_or, Option.some.injEq] at found
    rw [← found]
    exact lastFor_id last
  | none =>
    rw [last, Option.none_or] at found
    exact keyed id peer found

/-! ## What a handler does to the configurations -/

/-- A handler keeps the configurations and tells nobody, or it applies a request
and tells the actors about the result. -/
inductive ConfigEffect (orch : Orchestrator) (listed : List Peer) :
    Event → Reaction Trie → Prop where
  | kept {event : Event} {reaction : Reaction Trie}
      (configs : reaction.orch.peerConfigs = orch.peerConfigs) (hosts : reaction.mail.dns = [])
      (tokens : reaction.mail.h3Listener = []) :
        ConfigEffect orch listed event reaction
  | posted {peers : List Peer} {next : Orchestrator} (accepted : validatePeers listed = .ok ())
      (updated : next = { orch with peers := peers.foldl upsertPeer orch.peers }) :
      ConfigEffect orch listed (.postConfig peers) ⟨next, next.syncPeersToActors, 0⟩
  | deleted {ids : List String} {next : Orchestrator}
      (updated : next =
        { orch with peers := ids.foldl (fun peers id => peers.erase id) orch.peers }) :
      ConfigEffect orch listed (.deleteConfig ids) ⟨next, next.syncPeersToActors, 0⟩

theorem reconcile_configs (env : Env) (orch : Orchestrator) (event : Event) :
    ConfigEffect orch env.listed event (orch.reconcile env : Reaction Trie) := by
  refine .kept (orch.peerConfigs_maintainAll env id fun _ => rfl) ?_ ?_
  all_goals
    unfold reconcile
    simp only
    split <;> rfl

theorem updateBound_configs (env : Env) (peerId : String) (endpoint : Option Endpoint)
    (dest : SocketAddr) (tx : Sender) (orch : Orchestrator) (event : Event) :
    ConfigEffect orch env.listed event
      (orch.updateBound env peerId endpoint dest tx : Reaction Trie) := by
  unfold updateBound
  split
  next => exact .kept rfl rfl rfl
  next entry found =>
    refine .kept (peerConfigs_insert found rfl) ?_ ?_
    all_goals
      simp only
      split <;> rfl

omit [PrefixTrie Trie] in
theorem handleDialFailed_configs (env : Env) (peerId : String) (ip : IpAddr) (orch : Orchestrator)
    (event : Event) :
    ConfigEffect orch env.listed event (orch.handleDialFailed env peerId ip : Reaction Trie) := by
  unfold handleDialFailed
  split
  next => exact .kept rfl rfl rfl
  next entry found =>
    split
    next => exact .kept rfl rfl rfl
    next => exact .kept (peerConfigs_insert found rfl) rfl rfl

theorem handleEvent_configs {env : Env} {event : Event} {orch : Orchestrator}
    {reaction : Reaction Trie} (reacts : orch.handleEvent env event = some reaction) :
    ConfigEffect orch env.listed event reaction := by
  cases reacts_of_handleEvent reacts with
  | exited => exact .kept rfl rfl rfl
  | reconciled => exact reconcile_configs env orch _
  | resolved state =>
    exact .kept (orch.peerConfigs_maintainAll env (resolve state) fun _ => rfl) rfl rfl
  | rejected peers => exact .kept rfl rfl rfl
  | posted peers accepted updated => exact .posted accepted updated
  | deleted ids =>
    unfold handleDeleteConfig
    simp only
    split
    next => exact .deleted rfl
    next same =>
      have peers := eraseAll_of_card same
      exact .kept (by simp [peers]) rfl rfl
  | connected peerId remoteAddr tx endpoint =>
    exact updateBound_configs env peerId endpoint remoteAddr tx orch _
  | failed peerId ip => exact handleDialFailed_configs env peerId ip orch _
  | ignored => exact .kept rfl rfl rfl

end Orchestrator

theorem Orchestrator.peerConfigs_eraseAll {orch : Orchestrator} {ids : List String} {id : String}
    {peer : Peer}
    (found : ({ orch with peers := ids.foldl (fun peers id => peers.erase id) orch.peers } :
      Orchestrator).peerConfigs.lookup id = some peer) :
    orch.peerConfigs.lookup id = some peer := by
  simp only [peerConfigs, HashMap.lookup_map, lookup_eraseAll] at found ⊢
  split at found
  · cases found
  · exact found

omit [PrefixTrie Trie] in
theorem PeersKeyed.effect {orch : Orchestrator} (keyed : PeersKeyed orch.peerConfigs)
    {listed : List Peer} {event : Event} {reaction : Reaction Trie}
    (effect : Orchestrator.ConfigEffect orch listed event reaction) :
    PeersKeyed reaction.orch.peerConfigs := by
  cases effect with
  | kept configs hosts tokens =>
    rw [configs]
    exact keyed
  | posted accepted updated =>
    subst updated
    rw [Orchestrator.peerConfigs_upsertPeers]
    exact Orchestrator.keyed_mergedPeers keyed _
  | deleted updated =>
    subst updated
    exact fun id peer found => keyed id peer (Orchestrator.peerConfigs_eraseAll found)

omit [PrefixTrie Trie] in
theorem PeersValid.effect {orch : Orchestrator} (valid : PeersValid orch.peerConfigs)
    {listed : List Peer} {event : Event} {reaction : Reaction Trie}
    (lists : HashMap.Enumerates listed (orch.listedBy event))
    (effect : Orchestrator.ConfigEffect orch listed event reaction) :
    PeersValid reaction.orch.peerConfigs := by
  cases effect with
  | kept configs hosts tokens =>
    rw [configs]
    exact valid
  | posted accepted updated =>
    subst updated
    rw [Orchestrator.peerConfigs_upsertPeers]
    exact (validatePeers_iff_of_enumerates (Orchestrator.keyed_mergedPeers valid.keyed _) lists).mp
      accepted
  | deleted updated =>
    subst updated
    exact valid.of_lookup fun id peer found => Orchestrator.peerConfigs_eraseAll found

theorem Orchestrator.lookup_initialConfigs {orch : Orchestrator} {peers : List Peer} {id : String}
    {peer : Peer}
    (found : ({ orch with peers := initialPeers peers } : Orchestrator).peerConfigs.lookup id =
      some peer) :
    peer ∈ peers ∧ peer.id = id := by
  simp only [peerConfigs, HashMap.lookup_map, lookup_initialPeers, Option.map_map] at found
  obtain ⟨config, last, rfl⟩ := Option.map_eq_some_iff.mp found
  exact ⟨lastFor_mem last, lastFor_id last⟩

theorem peersValid_initialPeers (orch : Orchestrator) {peers : List Peer}
    (accepted : validatePeers peers = .ok ()) :
    PeersValid ({ orch with peers := Orchestrator.initialPeers peers } :
      Orchestrator).peerConfigs := by
  obtain ⟨sound, distinct, tokens⟩ := validatePeers_ok_iff.mp accepted
  refine ⟨fun id peer found => (Orchestrator.lookup_initialConfigs found).2,
    fun id peer found => sound peer (Orchestrator.lookup_initialConfigs found).1, ?_⟩
  intro first second token left right
  obtain ⟨firstPeer, firstFound, firstToken⟩ := Option.bind_eq_some_iff.mp left
  obtain ⟨secondPeer, secondFound, secondToken⟩ := Option.bind_eq_some_iff.mp right
  obtain ⟨isFirst, rfl⟩ := Orchestrator.lookup_initialConfigs firstFound
  obtain ⟨isSecond, rfl⟩ := Orchestrator.lookup_initialConfigs secondFound
  rw [(nodup_tokens_iff distinct).mp tokens firstPeer isFirst secondPeer isSecond token firstToken
    secondToken]

namespace System

omit [PrefixTrie Trie] in
@[simp] theorem orch_remember (event : Event) (sys : System Trie) :
    (sys.remember event).orch = sys.orch := by
  cases event <;> rfl

theorem configEffect_of_step {tuning : DnsTuning} {action : Action} {sys after : System Trie}
    (taken : sys.step tuning action = some after) :
    after.orch.peerConfigs = sys.orch.peerConfigs ∨
      ∃ listed event, ∃ reaction : Reaction Trie,
      HashMap.Enumerates listed (sys.orch.listedBy event) ∧
        Orchestrator.ConfigEffect sys.orch listed event reaction ∧ after.orch = reaction.orch := by
  cases moves_of_step taken with
  | handled queued running later lists reacts =>
    rw [orch_remember]
    exact .inr ⟨_, _, _, lists, Orchestrator.handleEvent_configs reacts, rfl⟩
  | @reconciled now listed running later lists =>
    exact .inl (sys.orch.peerConfigs_maintainAll ⟨now, sys.isClosed, listed⟩ id fun _ => rfl)
  | stopped | registered | resolved | routed | filtered | authorised | synced | connected | failed
  | aborted | arrived
  | closed => exact .inl rfl

theorem peersKeyed_of_reaches {tuning : DnsTuning} {orch : Orchestrator} {peers : List Peer}
    {sys : System Trie} (reached : Reaches (step tuning) (fun _ _ => True) (new orch peers) sys) :
    PeersKeyed sys.orch.peerConfigs := by
  induction reached with
  | refl => exact fun id peer found => (Orchestrator.lookup_initialConfigs found).2
  | next _ _ taken keyed =>
    rcases configEffect_of_step taken with same | ⟨listed, event, reaction, lists, effect, same⟩
    · rwa [same]
    · rw [same]
      exact keyed.effect effect

theorem peersValid_of_reaches {tuning : DnsTuning} {orch : Orchestrator} {peers : List Peer}
    (accepted : validatePeers peers = .ok ()) {sys : System Trie}
    (reached : Reaches (step tuning) (fun _ _ => True) (new orch peers) sys) :
    PeersValid sys.orch.peerConfigs := by
  induction reached with
  | refl => exact peersValid_initialPeers orch accepted
  | next _ _ taken valid =>
    rcases configEffect_of_step taken with same | ⟨listed, event, reaction, lists, effect, same⟩
    · rwa [same]
    · rw [same]
      exact valid.effect lists effect

end System

/-! ## Requests -/

namespace Orchestrator

/-- What a successful update does to the peers: the last entry for an id gives its
configuration, and nothing else of a known peer changes. -/
structure Upserted (newPeers : List Peer) (before after : HashMap String PeerEntry) : Prop where
  configs : ∀ id, (after.lookup id).map PeerEntry.config =
    (lastFor newPeers id).or ((before.lookup id).map PeerEntry.config)
  kept : ∀ id old, before.lookup id = some old → ∃ entry, after.lookup id = some entry ∧
    entry.bounds = old.bounds ∧ entry.resolvedIps = old.resolvedIps ∧ entry.dials = old.dials
  untouched : ∀ id, lastFor newPeers id = none → after.lookup id = before.lookup id

theorem upserted_upsertPeers (newPeers : List Peer) (peers : HashMap String PeerEntry) :
    Upserted newPeers peers (newPeers.foldl upsertPeer peers) where
  configs id := by
    rw [lookup_upsertPeers]
    cases lastFor newPeers id <;> simp
  kept id old found := by
    rw [lookup_upsertPeers, found]
    cases lastFor newPeers id with
    | none => exact ⟨old, rfl, rfl, rfl, rfl⟩
    | some peer => exact ⟨_, rfl, rfl, rfl, rfl⟩
  untouched id unlisted := by
    rw [lookup_upsertPeers, unlisted]

theorem handleEvent_of_refused {env : Env} {newPeers : List Peer} {orch : Orchestrator}
    {text : String}
    (refused : (orch.handlePostConfig env newPeers : Except String (Reaction Trie)) = .error text) :
    orch.handleEvent env (.postConfig newPeers) = some (orch.idle : Reaction Trie) := by
  simp [handleEvent, refused]

omit [PrefixTrie Trie] in
theorem peers_handlePostConfig {env : Env} {newPeers : List Peer} {orch : Orchestrator}
    {reaction : Reaction Trie} (posted : orch.handlePostConfig env newPeers = .ok reaction) :
    reaction.orch = { orch with peers := newPeers.foldl upsertPeer orch.peers } ∧
      validatePeers env.listed = .ok () := by
  unfold handlePostConfig at posted
  split at posted
  next => cases posted
  next accepted =>
    cases posted
    exact ⟨rfl, accepted⟩

omit [PrefixTrie Trie] in
theorem handlePostConfig_again {env again : Env} {newPeers : List Peer} {orch : Orchestrator}
    {reaction : Reaction Trie} (valid : PeersValid orch.peerConfigs)
    (lists : HashMap.Enumerates env.listed (orch.mergedPeers newPeers))
    (posted : orch.handlePostConfig env newPeers = .ok reaction)
    (relists : HashMap.Enumerates again.listed (reaction.orch.mergedPeers newPeers)) :
    ∃ repeated : Reaction Trie, reaction.orch.handlePostConfig again newPeers = .ok repeated ∧
      repeated.orch.peers = reaction.orch.peers := by
  obtain ⟨next, accepted⟩ := peers_handlePostConfig posted
  have keyed := keyed_mergedPeers valid.keyed newPeers
  have merged : reaction.orch.mergedPeers newPeers = orch.mergedPeers newPeers := by
    rw [← peerConfigs_upsertPeers, ← peerConfigs_upsertPeers newPeers orch, next]
    simp only [upsertPeers_again]
  rw [merged] at relists
  have revalidated : validatePeers again.listed = .ok () := by
    rw [validatePeers_iff_of_enumerates keyed relists,
      ← validatePeers_iff_of_enumerates keyed lists]
    exact accepted
  refine ⟨_, by rw [handlePostConfig, revalidated], ?_⟩
  rw [next]
  exact upsertPeers_again newPeers orch.peers

omit [PrefixTrie Trie] in
theorem handleDeleteConfig_absent {ids : List String} {orch : Orchestrator}
    (absent : ∀ id ∈ ids, orch.peers.lookup id = none) :
    (orch.handleDeleteConfig ids : Reaction Trie).mail = .none := by
  have same : ids.foldl (fun peers id => peers.erase id) orch.peers = orch.peers := by
    apply Finmap.ext_lookup
    intro id
    rw [lookup_eraseAll]
    split
    next listed => exact (absent id listed).symm
    next => rfl
  simp [handleDeleteConfig, same]

end Orchestrator

/-- In every state of a run from an accepted configuration, whatever else happens between
the requests: the peers pass the validation in every order and stand under their own ids; a
refused update has no effect; an accepted one overrides the peers by the payload and can
be repeated; a deletion removes the listed peers and is silent if there are none. -/
theorem System.config_transactions (tuning : DnsTuning) (orch : Orchestrator) {peers : List Peer}
    (accepted : validatePeers peers = .ok ()) {sys : System Trie}
    (reached : Reaches (step tuning) (fun _ _ => True) (new orch peers) sys) :
    (∀ listed, HashMap.Enumerates listed sys.orch.peerConfigs → validatePeers listed = .ok ()) ∧
    (∀ id entry, sys.orch.peers.lookup id = some entry → entry.config.id = id) ∧
    (∀ env newPeers text, (sys.orch.handlePostConfig env newPeers : Except String (Reaction Trie)) =
      .error text →
      sys.orch.handleEvent env (.postConfig newPeers) = some (sys.orch.idle : Reaction Trie)) ∧
    (∀ (env : Env) newPeers (reaction : Reaction Trie),
      HashMap.Enumerates env.listed (sys.orch.mergedPeers newPeers) →
      sys.orch.handlePostConfig env newPeers = .ok reaction →
        sys.orch.handleEvent env (.postConfig newPeers) = some reaction ∧
        Orchestrator.Upserted newPeers sys.orch.peers reaction.orch.peers ∧
        ∀ again : Env, HashMap.Enumerates again.listed (reaction.orch.mergedPeers newPeers) →
          ∃ repeated : Reaction Trie, reaction.orch.handlePostConfig again newPeers = .ok repeated ∧
            repeated.orch.peers = reaction.orch.peers) ∧
    ∀ env ids, ∃ reaction : Reaction Trie, sys.orch.handleEvent env (.deleteConfig ids) =
      some reaction ∧
      (∀ id, reaction.orch.peers.lookup id = if id ∈ ids then none else sys.orch.peers.lookup id) ∧
      ((∀ id ∈ ids, sys.orch.peers.lookup id = none) → reaction.mail = .none) := by
  have valid := peersValid_of_reaches accepted reached
  refine ⟨fun listed lists => ?_, fun id entry found => ?_,
    fun env newPeers text => Orchestrator.handleEvent_of_refused,
    fun env newPeers reaction lists posted => ⟨?_, ?_, fun again => ?_⟩,
      fun env ids => ⟨_, rfl, fun id => ?_, ?_⟩⟩
  · exact (validatePeers_iff_of_enumerates valid.keyed lists).mpr valid
  · exact valid.keyed id entry.config (by simp [Orchestrator.peerConfigs, found])
  · simp [Orchestrator.handleEvent, posted]
  · rw [(Orchestrator.peers_handlePostConfig posted).1]
    exact Orchestrator.upserted_upsertPeers newPeers sys.orch.peers
  · exact Orchestrator.handlePostConfig_again valid lists posted
  · exact Orchestrator.lookup_eraseAll ids sys.orch.peers id
  · exact Orchestrator.handleDeleteConfig_absent

def System.replaceRelay : List Action :=
  let rejected := { relay with transport := .h3 ⟨none, "short", none, none⟩ }
  [.external (.postConfig [rejected]), .external (.postConfig [rejected, fixedRelay]),
    .handle 1 [rejected], .handle 2 [fixedRelay]]

theorem System.config_transactions_relay : ∃ sys : System AssocTrie,
    run (step sampleTuning) replaceRelay (new sampleOrch [relay]) = some sys ∧
      sys.orch.peerConfigs.lookup "relay" = some fixedRelay ∧
      validatePeers [fixedRelay] = .ok () := by
  have executes : (run (step sampleTuning) replaceRelay
      (new sampleOrch [relay] : System AssocTrie)).any (fun sys =>
      HashMap.Enumerates [fixedRelay] sys.orch.peerConfigs ∧
        sys.orch.peerConfigs.lookup "relay" = some fixedRelay) = true := by decide +kernel
  obtain ⟨sys, executed, facts⟩ := (Option.any_eq_true ..).mp executes
  obtain ⟨lists, replaced⟩ := of_decide_eq_true facts
  have reached : Reaches (step sampleTuning) (fun _ _ => True) (new sampleOrch [relay]) sys :=
    reaches_of_run (fun _ _ _ => trivial) executed
  obtain ⟨validated, _⟩ := config_transactions sampleTuning sampleOrch (by decide +kernel) reached
  exact ⟨sys, executed, replaced, validated [fixedRelay] lists⟩

end H3llo.Orch
