import H3llo.Api.Management
import H3llo.Config.PeerText

/-! The peers of a configuration that is fetched and sent back.

A configuration holds only peers that were once read, from the file at the start or from a
payload. So the peers that the API returns can be written, read again and posted, and this
changes nothing.
-/

set_option autoImplicit false

namespace H3llo.Api
open H3llo.Config H3llo.Orch H3llo.Net H3llo.Runs
open H3llo.Orch.System (sampleOrch fixedRelay)

variable {Trie : Type → Type} [PrefixTrie Trie] {parseUrl : UrlParser}

/-- The peers of a payload were read from a document. -/
def Operation.IsRead (parseUrl : UrlParser) : Operation → Prop
  | .postConfig peers => ∀ peer ∈ peers, Readable parseUrl peer
  | .getConfig | .deleteConfig _ | .getMetrics => True

def ReadsPayloads (parseUrl : UrlParser) (_ : Management) : Action → Prop
  | .call operation => operation.IsRead parseUrl
  | _ => True

structure Exportable (parseUrl : UrlParser) (api : Management) : Prop where
  valid : PeersValid api.orch.peerConfigs
  readable : ∀ id peer, api.orch.peerConfigs.lookup id = some peer → Readable parseUrl peer
  inbox : ∀ call ∈ api.inbox, call.2.IsRead parseUrl

/-! ## What a call adds -/

section Effect

variable {orch : Orchestrator} {reaction : Reaction Trie} {listed : List Peer}

omit [PrefixTrie Trie] in
theorem readable_of_effect
    (readable : ∀ id peer, orch.peerConfigs.lookup id = some peer → Readable parseUrl peer)
    {operation : Operation} (isRead : operation.IsRead parseUrl)
    (effect : Orchestrator.ConfigEffect orch listed operation.event reaction) :
    ∀ id peer, reaction.orch.peerConfigs.lookup id = some peer → Readable parseUrl peer := by
  generalize sent : operation.event = event at effect
  cases effect with
  | kept configs hosts tokens =>
    rw [configs]
    exact readable
  | deleted updated =>
    subst updated
    exact fun id peer found => readable id peer (Orchestrator.peerConfigs_eraseAll found)
  | @posted peers next accepted updated =>
    subst updated
    cases operation with
    | getConfig => cases sent
    | deleteConfig peerIds => cases sent
    | getMetrics => cases sent
    | postConfig payload =>
      cases sent
      intro id peer found
      rw [Orchestrator.peerConfigs_upsertPeers, Orchestrator.lookup_mergedPeers] at found
      cases last : Orchestrator.lastFor peers id with
      | none =>
        rw [last] at found
        exact readable id peer found
      | some newest =>
        rw [last] at found
        cases found
        exact isRead peer (Orchestrator.lastFor_mem last)

end Effect

namespace Exportable

variable {api after : Management} (exportable : Exportable parseUrl api)
include exportable

theorem handle {env : Env} {id : Nat} {operation : Operation} {rest : List (Nat × Operation)}
    (oldest : api.inbox = (id, operation) :: rest)
    (lists : Management.lists env operation.event api.orch = true) (replies : List (Nat × Reply)) :
    Exportable parseUrl
      { api with
        orch := (handleCall env api.orch operation : Reaction Trie × Reply).1.orch
        inbox := rest
        replies } := by
  have queued := exportable.inbox
  rw [oldest] at queued
  have effect := Orchestrator.handleEvent_configs
    (handleEvent_handleCall Trie env api.orch operation)
  exact ⟨exportable.valid.effect (of_decide_eq_true lists) effect,
    readable_of_effect exportable.readable (queued _ List.mem_cons_self) effect,
    fun call member => queued call (List.mem_cons_of_mem _ member)⟩

theorem step {action : Action} (reads : ReadsPayloads parseUrl api action)
    (taken : api.step Trie action = some after) : Exportable parseUrl after := by
  cases action with
  | call operation =>
    simp only [Management.step] at taken
    cases phase : api.phase with
    | running | stopping =>
      simp only [phase, Option.some.injEq] at taken
      subst taken
      -- A payload is readable because it was read.
      refine ⟨exportable.valid, exportable.readable, fun call member => ?_⟩
      rcases List.mem_append.mp member with old | new
      · exact exportable.inbox call old
      · obtain rfl := List.mem_singleton.mp new
        exact reads
    | gone =>
      simp only [phase, Option.some.injEq] at taken
      subst taken
      exact ⟨exportable.valid, exportable.readable, exportable.inbox⟩
  | handle env =>
    simp only [Management.step] at taken
    split at taken
    next id operation rest _ oldest =>
      split at taken
      next lists =>
        cases taken
        exact exportable.handle oldest lists _
      next => cases taken
    next => cases taken
  | other env event =>
    simp only [Management.step] at taken
    split at taken
    next allowed =>
      cases reacts : (api.orch.handleEvent env event : Option (Reaction Trie)) with
      | none =>
        simp only [reacts, Option.some.injEq] at taken
        subst taken
        exact ⟨exportable.valid, exportable.readable, exportable.inbox⟩
      | some reaction =>
        simp only [reacts, Option.some.injEq] at taken
        subst taken
        -- Only POST and DELETE touch configurations.
        have same := peerConfigs_foreign allowed.2.1 reacts
        exact ⟨same ▸ exportable.valid, same ▸ exportable.readable, exportable.inbox⟩
    next => cases taken
  | stop =>
    simp only [Management.step] at taken
    split at taken <;> cases taken
    exact ⟨exportable.valid, exportable.readable, exportable.inbox⟩
  | dropInbox =>
    simp only [Management.step] at taken
    split at taken <;> cases taken
    exact ⟨exportable.valid, exportable.readable, exportable.inbox⟩
  | answer index =>
    obtain ⟨reply, _, rfl⟩ := Option.map_eq_some_iff.mp taken
    exact ⟨exportable.valid, exportable.readable, exportable.inbox⟩
  | fail index =>
    simp only [Management.step] at taken
    split at taken
    next =>
      obtain ⟨call, _, rfl⟩ := Option.map_eq_some_iff.mp taken
      exact ⟨exportable.valid, exportable.readable, fun other member =>
        exportable.inbox other (List.mem_of_mem_eraseIdx member)⟩
    next => cases taken

end Exportable

/-! ## Sending peers back -/

theorem exportable_new (orch : Orchestrator) {peers : List Peer}
    (accepted : validatePeers peers = .ok ()) (loaded : ∀ peer ∈ peers, Readable parseUrl peer) :
    Exportable parseUrl (.new orch peers) :=
  ⟨peersValid_initialPeers orch accepted,
    fun _ peer found => loaded peer (Orchestrator.lookup_initialConfigs found).1, nofun⟩

theorem upsertPeers_current {orch : Orchestrator} {posted : List Peer}
    (current : ∀ peer ∈ posted, orch.peerConfigs.lookup peer.id = some peer) :
    posted.foldl Orchestrator.upsertPeer orch.peers = orch.peers := by
  apply Finmap.ext_lookup
  intro id
  rw [Orchestrator.lookup_upsertPeers]
  cases last : Orchestrator.lastFor posted id with
  | none => rfl
  | some peer =>
    have found := current peer (Orchestrator.lastFor_mem last)
    rw [Orchestrator.lastFor_id last, Orchestrator.peerConfigs, HashMap.lookup_map] at found
    obtain ⟨entry, registered, rfl⟩ := Option.map_eq_some_iff.mp found
    rw [registered]
    rfl

theorem mapM_read_write (standard : FollowsStandard parseUrl) {exported : List Peer}
    (readable : ∀ peer ∈ exported, Readable parseUrl peer) :
    (exported.mapM fun peer => peer.write.read parseUrl) = .ok exported := by
  induction exported with
  | nil => rfl
  | cons peer rest ih =>
    have first := (readable peer List.mem_cons_self).read_write standard
    have others := ih fun other member => readable other (List.mem_cons_of_mem peer member)
    rw [List.mapM_cons, first, others]
    rfl

/-- After any calls and events, every part of the configured peers can be written, read as a payload
and posted: it is read as it was, accepted, and leaves configurations, connections, addresses and
dials of all peers as they are. -/
theorem config_reposted (standard : FollowsStandard parseUrl) {orch : Orchestrator}
    {peers : List Peer} (accepted : validatePeers peers = .ok ())
    (loaded : ∀ peer ∈ peers, Readable parseUrl peer) {api : Management}
    (reached : Reaches (Management.step Trie) (ReadsPayloads parseUrl) (.new orch peers) api)
    {exported : List Peer}
    (current : ∀ peer ∈ exported, api.orch.peerConfigs.lookup peer.id = some peer) :
    (exported.mapM fun peer => peer.write.read parseUrl) = .ok exported ∧
      ∀ env : Env, HashMap.Enumerates env.listed (api.orch.mergedPeers exported) →
        ∃ reaction : Reaction Trie, api.orch.handlePostConfig env exported = .ok reaction ∧
          reaction.orch.peers = api.orch.peers := by
  have exportable : Exportable parseUrl api :=
    reached.invariant (exportable_new orch accepted loaded)
    fun _ _ _ exportable reads taken => exportable.step reads taken
  refine ⟨mapM_read_write standard fun peer member =>
    exportable.readable peer.id peer (current peer member), ?_⟩
  intro env lists
  have same := upsertPeers_current current
  have merged : api.orch.mergedPeers exported = api.orch.peerConfigs := by
    rw [← Orchestrator.peerConfigs_upsertPeers, same]
  rw [merged] at lists
  have validated := (validatePeers_iff_of_enumerates exportable.valid.keyed lists).mpr
    exportable.valid
  exact ⟨_, by rw [Orchestrator.handlePostConfig, validated], same⟩

def relayDocument : PeerDocument :=
  ⟨"relay", none, some ⟨"udp://192.0.2.1:6635", none⟩, fixedRelay.tun⟩

theorem config_reposted_sample :
    ∃ api, run (Management.step AssocTrie) [.call .getConfig,
      .handle ⟨1, fun _ => false, [fixedRelay]⟩]
      (.new sampleOrch [fixedRelay]) = some api ∧
    ([fixedRelay].mapM fun peer => peer.write.read parsePlain) = .ok [fixedRelay] ∧
    ∃ reaction : Reaction AssocTrie, api.orch.handlePostConfig ⟨2, fun _ => false, [fixedRelay]⟩
      [fixedRelay] = .ok reaction ∧
      reaction.orch.peers = api.orch.peers := by
  have ran : (run (Management.step AssocTrie) [.call .getConfig,
      .handle ⟨1, fun _ => false, [fixedRelay]⟩]
      (.new sampleOrch [fixedRelay])).any (fun api =>
        decide (api.orch.peerConfigs.lookup fixedRelay.id = some fixedRelay ∧
          HashMap.Enumerates [fixedRelay] (api.orch.mergedPeers [fixedRelay]))) = true := by
    decide +kernel
  obtain ⟨api, executed, checked⟩ := (Option.any_eq_true ..).mp ran
  obtain ⟨current, lists⟩ := of_decide_eq_true checked
  have readable : Readable parsePlain fixedRelay := ⟨relayDocument, by decide +kernel⟩
  have reached : Reaches (Management.step AssocTrie) (ReadsPayloads parsePlain)
      (.new sampleOrch [fixedRelay]) api :=
    reaches_of_run (fun _ action member => by
      simp only [List.mem_cons, List.not_mem_nil, or_false] at member
      rcases member with rfl | rfl <;> trivial) executed
  obtain ⟨read, posted⟩ := config_reposted parsePlain_followsStandard (by decide +kernel)
    (List.forall_mem_singleton.mpr readable) reached (List.forall_mem_singleton.mpr current)
  exact ⟨api, executed, read, posted _ lists⟩

end H3llo.Api
