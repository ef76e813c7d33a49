import H3llo.Orch.SingleFlight
import H3llo.Orch.Transactions

/-! The orchestrator seen from one peer.

Every handler treats its peers one by one. For one peer an event is a function of the
peer's entry, together with the addresses that it dials; what the other peers do does
not enter.
-/

set_option autoImplicit false

namespace H3llo.Orch
open H3llo.Net H3llo.Config H3llo.Dns H3llo.Router H3llo.Runs

variable {Trie : Type → Type}

namespace Orchestrator

/-- The entry of a peer after an event; `none` stands for a peer that is not known. -/
def entryAfter (env : Env) (backoff : Backoff) (id : String) (event : Event)
    (entry : Option PeerEntry) : Option PeerEntry :=
  match event with
  | .actorExited .restartable => entry.map fun entry => (entry.maintain env.isClosed env.now).1
  | .dns state => entry.map fun entry => ((resolve state entry).maintain env.isClosed env.now).1
  | .postConfig peers =>
      match validatePeers env.listed, lastFor peers id with
      | .ok (), some peer => some (reconfigured peer entry)
      | _, _ => entry
  | .deleteConfig peerIds => if id ∈ peerIds then none else entry
  | .connected peerId remoteAddr tx endpoint =>
      if peerId = id then
        entry.map fun entry => ((pushBound endpoint remoteAddr tx entry).prune env.isClosed).1
      else entry
  | .dialFailed peerId ip => if peerId = id then entry.map (failDial backoff env.now ip) else entry
  | .stop | .actorExited .critical | .actorExited .detached | .other => entry

def dialsAfter (env : Env) (event : Event) (entry : Option PeerEntry) : Finset IpAddr :=
  match event with
  | .actorExited .restartable =>
      entry.elim ∅ fun entry => (entry.prune env.isClosed).1.uncovered env.now
  | .dns state =>
      entry.elim ∅ fun entry => ((resolve state entry).prune env.isClosed).1.uncovered env.now
  | _ => ∅

theorem dialsAfter_report {event : Event} {reported : String × IpAddr}
    (reports : event.report = some reported) (env : Env) (entry : Option PeerEntry) :
    dialsAfter env event entry = ∅ := by
  cases event with
  | actorExited policy => cases reports
  | dns state => cases reports
  | stop | postConfig | deleteConfig | connected | dialFailed | other => rfl

/-- A dial bears the id of its own entry, so only one entry counts. -/
theorem countP_maintainAll {env : Env} {orch : Orchestrator} (keyed : PeersKeyed orch.peerConfigs)
    (update : PeerEntry → PeerEntry) (same : ∀ entry, (update entry).config = entry.config)
    (id : String) (ip : IpAddr) :
    (orch.maintainAll env update).2.countP (Dial.IsFor id ip) =
      if ip ∈ (orch.peers.lookup id).elim ∅ fun entry =>
        ((update entry).prune env.isClosed).1.uncovered env.now then 1
      else 0 := by
  have configured (key : String) (entry : PeerEntry) (stored : orch.peers.lookup key = some entry) :
      entry.config.id = key :=
    keyed key entry.config (by simp [peerConfigs, stored])
  have alone : (orch.maintainAll env update).2.countP (Dial.IsFor id ip) =
      ((orch.peers.lookup id).map fun entry =>
        ((update entry).maintain env.isClosed env.now).2.countP (Dial.IsFor id ip)).getD 0 := by
    apply HashMap.countP_bind_values
    intro key entry stored other dial member isFor
    apply other
    rw [← isFor.1, (PeerEntry.mem_tryConnect.mp member).1, ← configured key entry stored,
      ← same entry]
    rfl
  rw [alone]
  cases found : orch.peers.lookup id with
  | none => simp
  | some entry =>
    have own : ((update entry).prune env.isClosed).1.config.id = id :=
      (congrArg Peer.id (same entry)).trans (configured id entry found)
    have counted := PeerEntry.countP_tryConnect env.now ((update entry).prune env.isClosed).1 ip
    rw [own] at counted
    exact counted

variable [PrefixTrie Trie]

theorem lookup_reconcile (env : Env) (orch : Orchestrator) (id : String) :
    (orch.reconcile env : Reaction Trie).orch.peers.lookup id =
      entryAfter env orch.backoff id (.actorExited .restartable) (orch.peers.lookup id) := by
  simp [reconcile, maintainAll, entryAfter]

theorem lookup_handleEvent {env : Env} {event : Event} {orch : Orchestrator}
    {reaction : Reaction Trie} (reacts : orch.handleEvent env event = some reaction) (id : String) :
    reaction.orch.peers.lookup id = entryAfter env orch.backoff id event
      (orch.peers.lookup id) := by
  cases reacts_of_handleEvent reacts with
  | exited => rfl
  | reconciled => exact lookup_reconcile env orch id
  | resolved state => exact lookup_handleDnsSnapshot env state orch id
  | rejected peers =>
    cases validated : validatePeers env.listed with
    | error errors => simp [entryAfter, validated, idle]
    | ok =>
      -- an accepted update is not answered by the unchanged state, unless it changes nothing
      simp only [handleEvent, handlePostConfig, validated, Option.some.injEq] at reacts
      have same := congrArg (fun reaction : Reaction Trie => reaction.orch.peers.lookup id) reacts
      simp only [lookup_upsertPeers] at same
      rw [← same]
      simp only [entryAfter, validated]
      cases lastFor peers id <;> rfl
  | posted peers accepted updated =>
    subst updated
    simp only [entryAfter, accepted, lookup_upsertPeers]
    cases lastFor peers id <;> rfl
  | deleted peerIds => simp [handleDeleteConfig, lookup_eraseAll, entryAfter]
  | connected peerId remoteAddr tx endpoint =>
    rw [lookup_updateBound]
    by_cases same : peerId = id
    · subst same
      simp [entryAfter]
    · simp [entryAfter, same, Ne.symm same]
  | failed peerId ip =>
    rw [lookup_handleDialFailed]
    by_cases same : peerId = id
    · subst same
      simp [entryAfter]
    · simp [entryAfter, same, Ne.symm same]
  | ignored => rfl

theorem backoff_handleEvent {env : Env} {event : Event} {orch : Orchestrator}
    {reaction : Reaction Trie} (reacts : orch.handleEvent env event = some reaction) :
    reaction.orch.backoff = orch.backoff := by
  cases reacts_of_handleEvent reacts with
  | exited | reconciled | resolved | rejected | deleted | ignored => rfl
  | posted peers accepted updated =>
    subst updated
    rfl
  | connected peerId remoteAddr tx endpoint =>
    unfold updateBound
    split <;> rfl
  | failed peerId ip =>
    unfold handleDialFailed
    split
    · rfl
    · split <;> rfl

theorem dials_reconcile (env : Env) (orch : Orchestrator) :
    (orch.reconcile env : Reaction Trie).dials = (orch.maintainAll env fun entry => entry).2 := rfl

theorem dials_handleDnsSnapshot (env : Env) (state : DnsSnapshot) (orch : Orchestrator) :
    (orch.handleDnsSnapshot env state : Reaction Trie).dials =
      (orch.maintainAll env (resolve state)).2 := rfl

theorem countP_handleEvent {env : Env} {event : Event} {orch : Orchestrator}
    (keyed : PeersKeyed orch.peerConfigs) {reaction : Reaction Trie}
    (reacts : orch.handleEvent env event = some reaction) (id : String) (ip : IpAddr) :
    reaction.dials.countP (Dial.IsFor id ip) =
      if ip ∈ dialsAfter env event (orch.peers.lookup id) then 1 else 0 := by
  cases reacts_of_handleEvent reacts with
  | reconciled =>
    rw [dials_reconcile, countP_maintainAll keyed (fun entry => entry) (fun _ => rfl)]
    rfl
  | resolved state =>
    rw [dials_handleDnsSnapshot, countP_maintainAll keyed (resolve state) (fun _ => rfl)]
    rfl
  | exited | rejected | deleted | ignored => simp [dialsAfter, idle, handleDeleteConfig]
  | posted peers accepted updated => simp [dialsAfter]
  | connected peerId remoteAddr tx endpoint => simp [dialsAfter, dials_updateBound]
  | failed peerId ip => simp [dialsAfter, dials_handleDialFailed]

theorem leaves_iff {env : Env} {event : Event} {orch : Orchestrator} :
    (orch.handleEvent env event : Option (Reaction Trie)) = none ↔ event = .stop ∨
    event = .actorExited .critical := by
  constructor
  · intro leaves
    cases event with
    | stop => exact .inl rfl
    | actorExited policy =>
      cases policy with
      | critical => exact .inr rfl
      | restartable => cases leaves
      | detached => cases leaves
    | postConfig peers =>
      simp only [handleEvent] at leaves
      split at leaves <;> cases leaves
    | dns state => cases leaves
    | deleteConfig peerIds => cases leaves
    | connected peerId remoteAddr tx endpoint => cases leaves
    | dialFailed peerId ip => cases leaves
    | other => cases leaves
  · rintro (rfl | rfl) <;> rfl

end Orchestrator

/-! ## Steps of the system -/

namespace System

/-- The event that the orchestrator handles with an action. A reconcile counts as the exit of a
peer actor, which has the same effect. -/
def handled (sys : System Trie) : Action → Option Event
  | .handle _ _ => sys.inbox.head?.map Envelope.event
  | .reconcile _ _ => some (.actorExited .restartable)
  | _ => none

structure EntryReacts (sys after : System Trie) (id : String) (env : Env)
    (event : Event) : Prop where
  closed : env.isClosed = sys.isClosed
  clock : after.clock = env.now
  backoff : after.orch.backoff = sys.orch.backoff
  entry : after.orch.peers.lookup id = Orchestrator.entryAfter env sys.orch.backoff id event
    (sys.orch.peers.lookup id)

structure PeerReacts (sys after : System Trie) (id : String) (env : Env) (event : Event) : Prop
    extends EntryReacts sys after id env event where
  outstanding : ∀ ip, after.outstanding id ip + (if event.report = some (id, ip) then 1 else 0) =
    sys.outstanding id ip +
      if ip ∈ Orchestrator.dialsAfter env event (sys.orch.peers.lookup id) then 1 else 0
  started : ∀ ip, after.started id ip =
    sys.started id ip +
      if ip ∈ Orchestrator.dialsAfter env event (sys.orch.peers.lookup id) then 1 else 0

structure PeerRests (sys after : System Trie) (action : Action) : Prop where
  orch : after.orch = sys.orch
  started : after.started = sys.started
  outstanding : ∀ id ip, after.outstanding id ip ≤ sys.outstanding id ip
  reported : (∀ task, action ≠ .dialAborted task) → after.outstanding = sys.outstanding

theorem PeerRests.of_tasks {sys after : System Trie} {action : Action}
    (orch : after.orch = sys.orch) (started : after.started = sys.started)
    (tasks : after.outstandingTasks = sys.outstandingTasks) : PeerRests sys after action := by
  have same : after.outstanding = sys.outstanding := by
    funext id ip
    rw [System.outstanding, System.outstanding, tasks]
  exact ⟨orch, started, fun id ip => by rw [same], fun _ => same⟩

theorem outstanding_pop {sys : System Trie} {envelope : Envelope} {rest : List Envelope} (now : Nat)
    (queued : sys.inbox = envelope :: rest) (honest : envelope.Honest) (id : String) (ip : IpAddr) :
    sys.outstanding id ip = ({ sys with inbox := rest, clock := now } : System Trie).outstanding id
      ip +
      if envelope.event.report = some (id, ip) then 1 else 0 := by
  rw [outstanding, outstanding, outstandingTasks_pop now queued, Multiset.countP_add, Nat.add_comm,
    honest]
  congr 1
  cases envelope.origin with
  | none => simp
  | some task =>
    have names : some (task.dial.peerId, task.dial.dialIp) = some (id, ip) ↔
        task.dial.IsFor id ip := by simp [Dial.IsFor]
    rw [Option.toList_some, Multiset.coe_singleton, Multiset.countP_eq_card_filter,
      Multiset.filter_singleton, Option.map_some, if_congr names rfl rfl]
    split <;> rfl

variable [PrefixTrie Trie] {tuning : DnsTuning} {action : Action} {sys after : System Trie}

theorem honest_step (honest : ∀ envelope ∈ sys.inbox, envelope.Honest) (own : action.Honest)
    (taken : sys.step tuning action = some after) : ∀ envelope ∈ after.inbox, envelope.Honest := by
  have appended {plain : List Envelope} (all : ∀ envelope ∈ plain, envelope.Honest) :
      ∀ envelope ∈ sys.inbox ++ plain, envelope.Honest :=
    fun envelope member => (List.mem_append.mp member).elim (honest envelope) (all envelope)
  cases moves_of_step taken with
  | @handled now listed envelope rest reaction queued running later lists reacts =>
    rw [remember_eq]
    exact fun other member => honest other (queued ▸ List.mem_cons_of_mem _ member)
  | stopped queued leaves =>
    exact fun other member => honest other (queued ▸ List.mem_cons_of_mem _ member)
  | registered queued later iterated => exact appended (honest_snapshots _)
  | resolved other later iterated => exact appended (honest_snapshots _)
  | connected dialed runs fresh =>
    exact appended fun envelope member => by rw [List.mem_singleton.mp member]; rfl
  | failed runs => exact appended fun envelope member => by rw [List.mem_singleton.mp member]; rfl
  | arrived plain fresh =>
    exact appended fun envelope member => by rw [List.mem_singleton.mp member]; exact own
  | reconciled | routed | filtered | authorised | synced | aborted | closed => exact honest

theorem entryReacts_absorb (id : String) {env : Env} {event : Event} {reaction : Reaction Trie}
    (popped : System Trie) (clock : popped.clock = env.now) (closed : env.isClosed = sys.isClosed)
    (reacts : sys.orch.handleEvent env event = some reaction) :
    EntryReacts sys (popped.absorb reaction) id env event where
  closed := closed
  clock := clock
  backoff := Orchestrator.backoff_handleEvent reacts
  entry := Orchestrator.lookup_handleEvent reacts id

theorem entryReacts_leaves {id : String} {env : Env} {event : Event}
    (closed : env.isClosed = sys.isClosed) (clock : after.clock = env.now)
    (same : after.orch = sys.orch)
    (leaves : (sys.orch.handleEvent env event : Option (Reaction Trie)) = none) :
    EntryReacts sys after id env event where
  closed := closed
  clock := clock
  backoff := by rw [same]
  entry := by
    rw [same]
    rcases Orchestrator.leaves_iff.mp leaves with rfl | rfl <;> rfl

theorem entry_step (taken : sys.step tuning action = some after) (id : String) :
    (∃ event env, sys.handled action = some event ∧ EntryReacts sys after id env event) ∨
      (sys.handled action = none ∧ after.orch = sys.orch) := by
  cases moves_of_step taken with
  | @handled now listed envelope rest reaction queued running later lists reacts =>
    have effect := entryReacts_absorb id { sys with inbox := rest, clock := now } rfl rfl reacts
    refine .inl ⟨envelope.event, ⟨now, sys.isClosed, listed⟩, by simp [System.handled, queued], ?_⟩
    rw [remember_eq]
    exact ⟨effect.closed, effect.clock, effect.backoff, effect.entry⟩
  | @stopped now listed envelope rest queued leaves =>
    refine .inl ⟨envelope.event, ⟨now, sys.isClosed, listed⟩, by simp [System.handled, queued], ?_⟩
    exact entryReacts_leaves rfl rfl rfl leaves
  | @reconciled now listed running later lists =>
    exact .inl ⟨_, ⟨now, sys.isClosed, listed⟩, rfl,
      entryReacts_absorb id { sys with clock := now } rfl rfl rfl⟩
  | registered | resolved | connected | failed | arrived | routed | filtered | authorised | synced
  | aborted | closed =>
    exact .inr ⟨rfl, rfl⟩

theorem peerReacts_absorb {id : String} {env : Env} {event : Event} {reaction : Reaction Trie}
    (popped : System Trie) (keyed : PeersKeyed sys.orch.peerConfigs)
    (started : popped.started = sys.started) (clock : popped.clock = env.now)
    (closed : env.isClosed = sys.isClosed)
    (left : ∀ ip, sys.outstanding id ip =
      popped.outstanding id ip + if event.report = some (id, ip) then 1 else 0)
    (reacts : sys.orch.handleEvent env event = some reaction) :
    PeerReacts sys (popped.absorb reaction) id env event where
  toEntryReacts := entryReacts_absorb id popped clock closed reacts
  outstanding ip := by
    rw [outstanding_absorb, Orchestrator.countP_handleEvent keyed reacts, left ip]
    omega
  started ip := by rw [started_absorb, Orchestrator.countP_handleEvent keyed reacts, started]

/-- A step, seen from one peer: it handles an event, or it is one of another party. -/
theorem peer_step (honest : ∀ envelope ∈ sys.inbox, envelope.Honest)
    (keyed : PeersKeyed sys.orch.peerConfigs) (taken : sys.step tuning action = some after)
    (id : String) :
    (∃ event env, sys.handled action = some event ∧ PeerReacts sys after id env event) ∨
      (sys.handled action = none ∧ PeerRests sys after action) := by
  cases moves_of_step taken with
  | @handled now listed envelope rest reaction queued running later lists reacts =>
    -- The report leaves the inbox, and with it its dial is no longer outstanding.
    have own := honest envelope (by rw [queued]; exact List.mem_cons_self)
    have effect := peerReacts_absorb { sys with inbox := rest, clock := now } keyed rfl rfl rfl
      (outstanding_pop now queued own id) reacts
    refine .inl ⟨envelope.event, ⟨now, sys.isClosed, listed⟩, by simp [System.handled, queued], ?_⟩
    rw [remember_eq]
    exact ⟨⟨effect.closed, effect.clock, effect.backoff, effect.entry⟩, effect.outstanding,
      effect.started⟩
  | @stopped now listed envelope rest queued leaves =>
    have own := honest envelope (by rw [queued]; exact List.mem_cons_self)
    have dials : Orchestrator.dialsAfter ⟨now, sys.isClosed, listed⟩ envelope.event
        (sys.orch.peers.lookup id) = ∅ := by
      rcases Orchestrator.leaves_iff.mp leaves with stop | critical
      · rw [stop]
        rfl
      · rw [critical]
        rfl
    refine .inl ⟨envelope.event, ⟨now, sys.isClosed, listed⟩, by simp [System.handled, queued],
      entryReacts_leaves rfl rfl rfl leaves, fun ip => ?_, fun ip => ?_⟩
    · rw [dials, if_neg (Finset.notMem_empty ip), Nat.add_zero]
      exact (outstanding_pop now queued own id ip).symm
    · rw [dials, if_neg (Finset.notMem_empty ip), Nat.add_zero]
  | @reconciled now listed running later lists =>
    refine .inl ⟨_, ⟨now, sys.isClosed, listed⟩, rfl, ?_⟩
    exact peerReacts_absorb { sys with clock := now } keyed rfl rfl rfl (fun ip => rfl) rfl
  | registered queued later iterated =>
    exact .inr
      ⟨rfl, .of_tasks rfl rfl (outstandingTasks_unreported rfl rfl (unreported_snapshots _))⟩
  | resolved other later iterated =>
    exact .inr
      ⟨rfl, .of_tasks rfl rfl (outstandingTasks_unreported rfl rfl (unreported_snapshots _))⟩
  | connected dialed runs fresh =>
    exact .inr ⟨rfl, .of_tasks rfl rfl (outstandingTasks_reported runs _)⟩
  | failed runs => exact .inr ⟨rfl, .of_tasks rfl rfl (outstandingTasks_reported runs _)⟩
  | arrived plain fresh =>
    exact .inr ⟨rfl, .of_tasks rfl rfl (outstandingTasks_unreported rfl rfl rfl)⟩
  -- A dial without a report is gone for good, and nobody is told.
  | @aborted task runs =>
    refine .inr ⟨rfl, rfl, rfl, fun id ip => ?_, fun kept => absurd rfl (kept task)⟩
    exact Multiset.countP_le_of_le _ (Multiset.add_le_add_right (Multiset.erase_le _ _))
  | routed | filtered | authorised | synced | closed => exact .inr ⟨rfl, .of_tasks rfl rfl rfl⟩

end System

end H3llo.Orch
