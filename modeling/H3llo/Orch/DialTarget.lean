import H3llo.Orch.System

/-! Where dials go.

The addresses of a peer belong to the hostname that it had when the last snapshot was
handled. A new configuration replaces the hostname at once, the addresses only with the
next snapshot; a reconcile in between dials the old addresses for the new configuration.
-/

set_option autoImplicit false

namespace H3llo.Orch
open H3llo.Net H3llo.Config H3llo.Dns H3llo.Router H3llo.Runs

variable {Trie : Type → Type}

/-- The snapshot lists the dialed address for the hostname of the dial's own transport. -/
def Dial.Resolves (snapshot : DnsSnapshot) (dial : Dial) : Prop :=
  ∃ host ips, transportHostname dial.transport = some host ∧ snapshot.lookup host = some ips ∧
    dial.dialIp ∈ ips

namespace Orchestrator

def resolution (state : DnsSnapshot) (host : Option String) : Finset IpAddr :=
  (host.bind fun host => state.lookup host).getD ∅

theorem resolvedIps_resolve (state : DnsSnapshot) (entry : PeerEntry) :
    (resolve state entry).resolvedIps = resolution state (peerDnsHostname entry.config) := rfl

theorem mem_resolution {state : DnsSnapshot} {host : Option String} {ip : IpAddr}
    (member : ip ∈ resolution state host) :
    ∃ name ips, host = some name ∧ state.lookup name = some ips ∧ ip ∈ ips := by
  unfold resolution at member
  cases host with
  | none => simp at member
  | some name =>
    cases found : state.lookup name with
    | none => simp [found] at member
    | some ips => exact ⟨name, ips, rfl, found, by simpa [found] using member⟩

theorem mem_maintainAll {env : Env} {update : PeerEntry → PeerEntry} {orch : Orchestrator}
    {dial : Dial} (started : dial ∈ (orch.maintainAll env update).2) :
    ∃ id entry, orch.peers.lookup id = some entry ∧ dial.transport =
      (update entry).config.transport ∧
      dial.dialIp ∈ (update entry).resolvedIps := by
  obtain ⟨entry, listed, dialed⟩ := Multiset.mem_bind.mp started
  obtain ⟨id, found⟩ := HashMap.mem_values.mp listed
  obtain ⟨_, transport, uncovered⟩ := PeerEntry.mem_tryConnect.mp dialed
  have resolved := PeerEntry.uncovered_resolved uncovered
  rw [PeerEntry.prune_resolvedIps] at resolved
  exact ⟨id, entry, found, transport, resolved⟩

/-- Each peer's addresses are those of the hostname that it had at the snapshot. -/
def ResolvedBy (snapshot : DnsSnapshot) (hosts : HashMap String String)
    (orch : Orchestrator) : Prop :=
  ∀ id entry, orch.peers.lookup id = some entry →
    entry.resolvedIps = ∅ ∨ entry.resolvedIps = resolution snapshot (hosts.lookup id)

/-- No peer with addresses has changed its hostname since the snapshot. -/
def HostsKept (hosts : HashMap String String) (orch : Orchestrator) : Prop :=
  ∀ id entry, orch.peers.lookup id = some entry →
    entry.resolvedIps = ∅ ∨ peerDnsHostname entry.config = hosts.lookup id

theorem lookup_hostnames (orch : Orchestrator) (id : String) :
    orch.hostnames.lookup id = (orch.peers.lookup id).bind fun entry =>
      peerDnsHostname entry.config := by
  simp [hostnames]

namespace ResolvedBy

variable {snapshot : DnsSnapshot} {hosts : HashMap String String} {orch : Orchestrator}

theorem congr (resolved : orch.ResolvedBy snapshot hosts) {next : Orchestrator}
    (addresses : ∀ id entry, next.peers.lookup id = some entry → entry.resolvedIps = ∅ ∨
      ∃ old, orch.peers.lookup id = some old ∧ entry.resolvedIps = old.resolvedIps) :
    next.ResolvedBy snapshot hosts := by
  intro id entry found
  rcases addresses id entry found with empty | ⟨old, before, same⟩
  · exact .inl empty
  · rw [same]
    exact resolved id old before

theorem reconcile [PrefixTrie Trie] (resolved : orch.ResolvedBy snapshot hosts) (env : Env) :
    (orch.reconcile env : Reaction Trie).orch.ResolvedBy snapshot hosts := by
  apply resolved.congr
  intro id entry found
  simp only [Orchestrator.reconcile, maintainAll, HashMap.lookup_map,
    Option.map_eq_some_iff] at found
  obtain ⟨old, before, rfl⟩ := found
  exact .inr ⟨old, before, rfl⟩

theorem dials_reconcile [PrefixTrie Trie] (resolved : orch.ResolvedBy snapshot hosts)
    (kept : orch.HostsKept hosts) (env : Env) :
    ∀ dial ∈ (orch.reconcile env : Reaction Trie).dials, dial.Resolves snapshot := by
  intro dial started
  obtain ⟨id, entry, found, transport, member⟩ := mem_maintainAll started
  -- a dialed entry has addresses, and they and its hostname are those of the snapshot
  have nonempty : entry.resolvedIps ≠ ∅ := Finset.ne_empty_of_mem member
  have addresses := (resolved id entry found).resolve_left nonempty
  have hostname := (kept id entry found).resolve_left nonempty
  change dial.dialIp ∈ entry.resolvedIps at member
  rw [addresses] at member
  obtain ⟨name, ips, host, mapped, listed⟩ := mem_resolution member
  refine ⟨name, ips, ?_, mapped, listed⟩
  rw [transport, ← host, ← hostname]
  rfl

theorem upsertPeers (resolved : orch.ResolvedBy snapshot hosts) (peers : List Peer) :
    ({ orch with peers := peers.foldl Orchestrator.upsertPeer orch.peers } :
      Orchestrator).ResolvedBy snapshot hosts := by
  induction peers generalizing orch with
  | nil => exact resolved
  | cons peer rest ih =>
    have updated : ({ orch with peers := Orchestrator.upsertPeer orch.peers peer } :
        Orchestrator).ResolvedBy
        snapshot hosts := by
      apply resolved.congr
      intro id entry found
      rw [lookup_upsertPeer] at found
      split at found
      next same =>
        cases before : orch.peers.lookup id with
        | none =>
          simp only [before, Option.map_none, Option.getD_none, Option.some.injEq] at found
          subst found
          exact .inl rfl
        | some old =>
          simp only [before, Option.map_some, Option.getD_some, Option.some.injEq] at found
          subst found
          exact .inr ⟨old, rfl, rfl⟩
      next => exact .inr ⟨entry, found, rfl⟩
    exact ih updated

theorem eraseAll (resolved : orch.ResolvedBy snapshot hosts) (peerIds : List String) :
    ({ orch with peers := peerIds.foldl (fun peers id => peers.erase id) orch.peers } :
      Orchestrator).ResolvedBy
      snapshot hosts := by
  apply resolved.congr
  intro id entry found
  rw [lookup_eraseAll] at found
  split at found
  · cases found
  · exact .inr ⟨entry, found, rfl⟩

theorem map (resolved : orch.ResolvedBy snapshot hosts) {next : Orchestrator}
    {change : String → PeerEntry → PeerEntry}
    (peers : ∀ id, next.peers.lookup id = (orch.peers.lookup id).map (change id))
    (addresses : ∀ id entry, (change id entry).resolvedIps = entry.resolvedIps) :
    next.ResolvedBy snapshot hosts := by
  apply resolved.congr
  intro id entry found
  rw [peers, Option.map_eq_some_iff] at found
  obtain ⟨old, before, rfl⟩ := found
  exact .inr ⟨old, before, addresses id old⟩

end ResolvedBy

/-- What a handler leaves behind and what it starts agree with one snapshot. -/
structure Targets (snapshot : DnsSnapshot) (hosts : HashMap String String)
    (reaction : Reaction Trie) : Prop where
  resolved : reaction.orch.ResolvedBy snapshot hosts
  dials : ∀ dial ∈ reaction.dials, dial.Resolves snapshot

theorem Targets.quiet {snapshot : DnsSnapshot} {hosts : HashMap String String}
    {reaction : Reaction Trie} (resolved : reaction.orch.ResolvedBy snapshot hosts)
    (none : reaction.dials = 0) : Targets snapshot hosts reaction where
  resolved := resolved
  dials dial started := by
    rw [none] at started
    exact absurd started (Multiset.notMem_zero dial)

section Handlers

variable [PrefixTrie Trie] {env : Env} {orch : Orchestrator}

variable (Trie) in
theorem targets_handleDnsSnapshot (env : Env) (state : DnsSnapshot) (orch : Orchestrator) :
    let reaction : Reaction Trie := orch.handleDnsSnapshot env state
    Targets state reaction.orch.hostnames reaction := by
  refine ⟨fun id entry found => ?_, fun dial started => ?_⟩
  · right
    rw [lookup_hostnames, found, Option.bind_some]
    rw [lookup_handleDnsSnapshot, Option.map_eq_some_iff] at found
    obtain ⟨old, before, rfl⟩ := found
    exact resolvedIps_resolve state old
  · obtain ⟨id, entry, found, transport, member⟩ := mem_maintainAll started
    rw [resolvedIps_resolve] at member
    obtain ⟨name, ips, host, mapped, listed⟩ := mem_resolution member
    refine ⟨name, ips, ?_, mapped, listed⟩
    rw [transport]
    exact host

theorem targets_handleEvent {event : Event} {reaction : Reaction Trie} {snapshot : DnsSnapshot}
    {hosts : HashMap String String} (plain : ¬ event.IsSnapshot)
    (resolved : orch.ResolvedBy snapshot hosts)
    (kept : event = .actorExited .restartable → orch.HostsKept hosts)
    (reacts : orch.handleEvent env event = some reaction) : Targets snapshot hosts reaction := by
  cases reacts_of_handleEvent reacts with
  | exited => exact .quiet resolved rfl
  | reconciled => exact ⟨resolved.reconcile env, resolved.dials_reconcile (kept rfl) env⟩
  | resolved state => exact absurd trivial plain
  | rejected peers => exact .quiet resolved rfl
  | posted peers accepted updated =>
    subst updated
    exact .quiet (resolved.upsertPeers peers) rfl
  | deleted peerIds => exact .quiet (resolved.eraseAll peerIds) rfl
  | connected peerId remoteAddr tx endpoint =>
    apply Targets.quiet _ (dials_updateBound env peerId endpoint remoteAddr tx orch)
    apply resolved.map (lookup_updateBound env peerId endpoint remoteAddr tx orch)
    intro id entry
    split <;> rfl
  | failed peerId ip =>
    apply Targets.quiet _ (dials_handleDialFailed env peerId ip orch)
    apply resolved.map (lookup_handleDialFailed env peerId ip orch)
    intro id entry
    unfold failDial
    split
    · split <;> rfl
    · rfl
  | ignored => exact .quiet resolved rfl

end Handlers
end Orchestrator

namespace System

/-- The action makes no reconcile while a peer with addresses has a new hostname. -/
def ReconcilesKept (sys : System Trie) : Action → Prop
  | .reconcile _ _ => sys.orch.HostsKept sys.lastHosts
  | .handle _ _ =>
      ∀ envelope ∈ sys.inbox.head?, envelope.event = .actorExited .restartable →
        sys.orch.HostsKept sys.lastHosts
  | _ => True

def Resolved (sys : System Trie) : Prop := sys.orch.ResolvedBy sys.lastSnapshot sys.lastHosts

/-- The tasks that a step starts go where the last handled snapshot says. -/
def StartsResolved (sys after : System Trie) : Prop :=
  ∀ task ∈ after.dialTasks - sys.dialTasks, task.dial.Resolves after.lastSnapshot

theorem startsResolved_of_le {sys after : System Trie} (fewer : after.dialTasks ≤ sys.dialTasks) :
    sys.StartsResolved after := by
  intro task started
  have none : after.dialTasks - sys.dialTasks ≤ 0 := by
    rwa [Multiset.sub_le_iff_le_add', add_zero]
  exact absurd (Multiset.mem_of_le none started) (Multiset.notMem_zero task)

theorem startsResolved_absorb {sys before : System Trie} {reaction : Reaction Trie}
    {snapshot : DnsSnapshot} {hosts : HashMap String String}
    (targets : Orchestrator.Targets snapshot hosts reaction)
    (tasks : before.dialTasks = sys.dialTasks) :
    ∀ task ∈ (before.absorb reaction).dialTasks - sys.dialTasks, task.dial.Resolves snapshot := by
  intro task started
  change task ∈ before.dialTasks + _ - sys.dialTasks at started
  rw [tasks, Multiset.add_comm, Multiset.add_sub_cancel_right] at started
  obtain ⟨dial, listed, rfl⟩ := Multiset.mem_map.mp started
  exact targets.dials dial listed

variable [PrefixTrie Trie]

theorem Resolved.handled {sys : System Trie} {now : Nat} {listed : List Peer} {event : Event}
    {rest : List Envelope} {reaction : Reaction Trie} (resolved : sys.Resolved)
    (kept : event = .actorExited .restartable → sys.orch.HostsKept sys.lastHosts)
    (reacts : sys.orch.handleEvent ⟨now, sys.isClosed, listed⟩ event = some reaction) :
    let after := ({ sys with inbox := rest, clock := now }.absorb reaction).remember event
    after.Resolved ∧ sys.StartsResolved after := by
  by_cases snapshot : event.IsSnapshot
  · cases event with
    | dns state =>
      cases reacts
      -- the new history is the handled snapshot with the hostnames of that moment
      have targets := Orchestrator.targets_handleDnsSnapshot Trie
        ⟨now, sys.isClosed, listed⟩ state sys.orch
      exact ⟨targets.resolved, startsResolved_absorb targets rfl⟩
    | _ => cases snapshot
  · have targets := Orchestrator.targets_handleEvent snapshot resolved kept reacts
    have history : ∀ before : System Trie, before.remember event = before := by
      intro before
      cases event with
      | dns state => exact absurd trivial snapshot
      | _ => rfl
    rw [history]
    exact ⟨targets.resolved, startsResolved_absorb targets rfl⟩

theorem Resolved.step {tuning : DnsTuning} {action : Action} {sys after : System Trie}
    (resolved : sys.Resolved) (kept : sys.ReconcilesKept action)
    (taken : sys.step tuning action = some after) : after.Resolved ∧ sys.StartsResolved after := by
  cases moves_of_step taken with
  | handled queued running later lists reacts =>
    exact resolved.handled (kept _ (by rw [queued]; rfl)) reacts
  | @reconciled now listed running later lists =>
    have targets : Orchestrator.Targets sys.lastSnapshot sys.lastHosts
        (sys.orch.reconcile ⟨now, sys.isClosed, listed⟩ : Reaction Trie) :=
      ⟨resolved.reconcile _, resolved.dials_reconcile kept _⟩
    exact ⟨targets.resolved, startsResolved_absorb targets rfl⟩
  | stopped queued leaves => exact ⟨resolved, startsResolved_of_le (le_refl _)⟩
  | registered queued later iterated => exact ⟨resolved, startsResolved_of_le (le_refl _)⟩
  | resolved other later iterated => exact ⟨resolved, startsResolved_of_le (le_refl _)⟩
  | routed queued => exact ⟨resolved, startsResolved_of_le (le_refl _)⟩
  | filtered queued => exact ⟨resolved, startsResolved_of_le (le_refl _)⟩
  | authorised queued => exact ⟨resolved, startsResolved_of_le (le_refl _)⟩
  | synced queued => exact ⟨resolved, startsResolved_of_le (le_refl _)⟩
  | connected dialed runs fresh => exact ⟨resolved, startsResolved_of_le (Multiset.erase_le _ _)⟩
  | failed runs => exact ⟨resolved, startsResolved_of_le (Multiset.erase_le _ _)⟩
  | aborted runs => exact ⟨resolved, startsResolved_of_le (Multiset.erase_le _ _)⟩
  | arrived plain fresh => exact ⟨resolved, startsResolved_of_le (le_refl _)⟩
  | closed => exact ⟨resolved, startsResolved_of_le (le_refl _)⟩

theorem resolved_new (orch : Orchestrator) (peers : List Peer) :
    (new orch peers : System Trie).Resolved := by
  intro id entry found
  obtain ⟨peer, rfl, _⟩ := Orchestrator.fresh_initialPeers found
  exact .inl rfl

/-- In runs without such a reconcile, every dial goes to an address that the last handled
snapshot lists for the dialed hostname. -/
theorem dials_resolve (tuning : DnsTuning) (orch : Orchestrator) (peers : List Peer)
    {sys after : System Trie}
    (reached : Reaches (step tuning) ReconcilesKept (new orch peers) sys) {action : Action}
    (kept : sys.ReconcilesKept action) (taken : sys.step tuning action = some after) :
    ∀ task ∈ after.dialTasks - sys.dialTasks, task.dial.Resolves after.lastSnapshot := by
  have resolved : sys.Resolved := reached.invariant (resolved_new orch peers)
    fun _ _ _ before permitted taken => (before.step permitted taken).1
  exact (resolved.step kept taken).2

theorem dials_resolve_relay : ∃ sys after : System AssocTrie,
    step sampleTuning (.dnsReceive 1) (new sampleOrch [fixedRelay]) = some sys ∧
      step sampleTuning (.handle 2 [fixedRelay]) sys = some after ∧
      (⟨⟨"relay", fixedRelayIp, fixedRelay.transport⟩, 0⟩ : DialTask) ∈
        after.dialTasks - sys.dialTasks ∧
      Dial.Resolves after.lastSnapshot ⟨"relay", fixedRelayIp, fixedRelay.transport⟩ := by
  have executes :
      ((step sampleTuning (.dnsReceive 1) (new sampleOrch [fixedRelay] : System AssocTrie)).any
        fun sys =>
      sys.inbox.all (fun envelope => decide envelope.event.IsSnapshot) &&
        (step sampleTuning (.handle 2 [fixedRelay]) sys).any fun after =>
          decide (⟨⟨"relay", fixedRelayIp, fixedRelay.transport⟩, 0⟩ ∈
            after.dialTasks - sys.dialTasks)) = true := by
    decide +kernel
  rw [Option.any_eq_true] at executes
  obtain ⟨sys, first, second⟩ := executes
  rw [Bool.and_eq_true, List.all_eq_true, Option.any_eq_true] at second
  obtain ⟨snapshots, after, handled, started⟩ := second
  have kept : sys.ReconcilesKept (.handle 2 [fixedRelay]) := by
    intro envelope head exited
    have snapshot := of_decide_eq_true (snapshots envelope (List.mem_of_mem_head? head))
    rw [exited] at snapshot
    cases snapshot
  have reached : Reaches (step sampleTuning) ReconcilesKept (new sampleOrch [fixedRelay]) sys := by
    apply Reaches.single _ first
    exact trivial
  exact ⟨sys, after, first, handled, of_decide_eq_true started,
    dials_resolve sampleTuning sampleOrch [fixedRelay] reached kept handled _
      (of_decide_eq_true started)⟩

/-- An HTTP/3 peer; the first dial to its address fails, then it moves to another one. -/
def tokenPeer (host token : String) : Peer :=
  { relay with transport := .h3 ⟨some ⟨host, 443, "/masque"⟩, token, none, none⟩ }

def oldPeer : Peer := tokenPeer "192.0.2.1" "first-token-of-relay"

def movedPeer : Peer := tokenPeer "203.0.113.5" "second-token-of-relay"

def moveRelay : List Action :=
  [.dnsReceive 1, .handle 2 [oldPeer], .dialFailed ⟨⟨"relay", fixedRelayIp, oldPeer.transport⟩, 0⟩,
    .handle 3 [oldPeer],
    .external (.postConfig [movedPeer]), .handle 4 [movedPeer]]

theorem dials_old_address : ∃ sys after : System AssocTrie,
    Reaches (step sampleTuning) (fun _ _ => True) (new sampleOrch [oldPeer]) sys ∧
      step sampleTuning (.reconcile (5 * nanosPerSec) [movedPeer]) sys = some after ∧
      ∃ task ∈ after.dialTasks - sys.dialTasks,
        task.dial.dialIp = fixedRelayIp ∧ task.dial.transport = movedPeer.transport ∧
          ¬ task.dial.Resolves after.lastSnapshot := by
  have executes :
      ((run (step sampleTuning) moveRelay (new sampleOrch [oldPeer] : System AssocTrie)).any
        fun sys =>
      (step sampleTuning (.reconcile (5 * nanosPerSec) [movedPeer]) sys).any fun after =>
        decide (⟨⟨"relay", fixedRelayIp, movedPeer.transport⟩, 1⟩ ∈
          after.dialTasks - sys.dialTasks) &&
          (after.lastSnapshot.lookup "203.0.113.5").isNone) = true := by
    decide +kernel
  rw [Option.any_eq_true] at executes
  obtain ⟨sys, executed, reconciles⟩ := executes
  rw [Option.any_eq_true] at reconciles
  obtain ⟨after, reconciled, started⟩ := reconciles
  rw [Bool.and_eq_true, decide_eq_true_eq, Option.isNone_iff_eq_none] at started
  refine ⟨sys, after, reaches_of_run (fun _ _ _ => trivial) executed, reconciled, _, started.1,
    rfl, rfl, ?_⟩
  rintro ⟨host, ips, hostname, mapped, _⟩
  -- the last snapshot is older than the move and does not list the new host
  have other : transportHostname movedPeer.transport = some "203.0.113.5" := by decide +kernel
  rw [other, Option.some.injEq] at hostname
  rw [← hostname, started.2] at mapped
  cases mapped

end System
end H3llo.Orch
