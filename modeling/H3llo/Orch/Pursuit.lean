import H3llo.Orch.PeerView

/-! No resolved address is forgotten.

Outcomes of dials carry no identity: one that comes late may end the state of a newer
dial. It never leaves a state marked as running without a task, since every outcome
clears or removes the state that it finds.
-/

set_option autoImplicit false

namespace H3llo.Orch
open H3llo.Net H3llo.Config H3llo.Dns H3llo.Router H3llo.Runs

variable {Trie : Type → Type}

/-! ## One peer -/

namespace PeerEntry

/-- Every dial that is marked as running is one of the `out` outstanding ones for its address. -/
def Backed (out : IpAddr → Nat) (entry : PeerEntry) : Prop :=
  ∀ ip state, entry.dials.lookup ip = some state → state.inFlight = true → 0 < out ip

namespace Backed

variable {out left : IpAddr → Nat} {entry : PeerEntry}

theorem prune (backed : entry.Backed out) (isClosed : Sender → Bool) :
    (entry.prune isClosed).1.Backed out := by
  intro ip state found running
  rw [prune_dials, Option.filter_eq_some_iff] at found
  exact backed ip state found.1 running

theorem tryConnect (backed : entry.Backed out) (now : Nat) :
    (entry.tryConnect now).1.Backed fun ip =>
      out ip + if ip ∈ entry.uncovered now then 1 else 0 := by
  intro ip state found running
  rw [tryConnect_dials] at found
  split at found
  next dialed => simp [dialed]
  next => exact Nat.lt_of_lt_of_le (backed ip state found running) (Nat.le_add_right _ _)

/-- A dialed connection ends the state of its address; one that came in ends none. -/
theorem pushBound (backed : entry.Backed out) (endpoint : Option Endpoint) (dest : SocketAddr)
    (tx : Sender) (fewer : ∀ ip, (endpoint.isSome → ip ≠ dest.ip) → out ip ≤ left ip) :
    (Orchestrator.pushBound endpoint dest tx entry).Backed left := by
  intro ip state found running
  unfold Orchestrator.pushBound at found
  cases endpoint with
  | none => exact Nat.lt_of_lt_of_le (backed ip state found running) (fewer ip (by simp))
  | some endpoint =>
    by_cases same : ip = dest.ip
    · subst same
      simp at found
    · simp only [Option.isSome_some, if_true, Finmap.lookup_erase_ne same] at found
      exact Nat.lt_of_lt_of_le (backed ip state found running) (fewer ip fun _ => same)

theorem failDial (backed : entry.Backed out) (backoff : Backoff) (now : Nat) {failed : IpAddr}
    (fewer : ∀ ip, ip ≠ failed → out ip ≤ left ip) :
    (Orchestrator.failDial backoff now failed entry).Backed left := by
  intro ip state found running
  have other : ip ≠ failed → entry.dials.lookup ip = some state → 0 < left ip :=
    fun different before =>
    Nat.lt_of_lt_of_le (backed ip state before running) (fewer ip different)
  unfold Orchestrator.failDial at found
  by_cases same : ip = failed
  · subst same
    split at found
    next none => simp [none] at found
    next old before =>
      simp only [Finmap.lookup_insert, Option.some.injEq] at found
      subst found
      cases running
  · split at found
    next => exact other same found
    next => exact other same (by simpa [same] using found)

/-- `left` counts the outstanding dials without the one that the event reports. -/
theorem entryAfter {env : Env} {backoff : Backoff} {id : String} {event : Event}
    {before : Option PeerEntry} (backed : ∀ old ∈ before, old.Backed out)
    (fewer : ∀ ip, event.report ≠ some (id, ip) → out ip ≤ left ip)
    (found : Orchestrator.entryAfter env backoff id event before = some entry) :
    entry.Backed fun ip =>
      left ip + if ip ∈ Orchestrator.dialsAfter env event before then 1 else 0 := by
  -- An event without a report takes no dial away, and one without dials adds none.
  have unreported (silent : ∀ ip, event.report ≠ some (id, ip)) {kept : PeerEntry}
      (base : kept.Backed out) :
      kept.Backed left := fun ip state stored running =>
        Nat.lt_of_lt_of_le (base ip state stored running) (fewer ip (silent ip))
  have quiet {kept : PeerEntry} (base : kept.Backed left) :
      kept.Backed fun ip =>
        left ip + if ip ∈ Orchestrator.dialsAfter env event before then 1 else 0 :=
    fun ip state stored running => Nat.lt_of_lt_of_le (base ip state stored running)
      (Nat.le_add_right _ _)
  cases event with
  | stop => exact quiet (unreported (by simp [Event.report]) (backed entry found))
  | other => exact quiet (unreported (by simp [Event.report]) (backed entry found))
  | actorExited policy =>
    cases policy with
    | critical => exact quiet (unreported (by simp [Event.report]) (backed entry found))
    | detached => exact quiet (unreported (by simp [Event.report]) (backed entry found))
    | restartable =>
      obtain ⟨old, stored, rfl⟩ := Option.map_eq_some_iff.mp found
      subst stored
      exact ((unreported (by simp [Event.report]) (backed old rfl)).prune env.isClosed).tryConnect
        env.now
  | dns state =>
    obtain ⟨old, stored, rfl⟩ := Option.map_eq_some_iff.mp found
    subst stored
    have base : (Orchestrator.resolve state old).Backed left :=
      unreported (by simp [Event.report]) (backed old rfl)
    exact (base.prune env.isClosed).tryConnect env.now
  | postConfig peers =>
    refine quiet (unreported (by simp [Event.report]) ?_)
    simp only [Orchestrator.entryAfter] at found
    split at found
    next =>
      cases found
      cases before with
      | none => simp [Backed, Orchestrator.reconfigured, PeerEntry.new]
      | some old => exact backed old rfl
    next => exact backed entry found
  | deleteConfig peerIds =>
    simp only [Orchestrator.entryAfter, Option.ite_none_left_eq_some] at found
    exact quiet (unreported (by simp [Event.report]) (backed entry found.2))
  | connected peerId remoteAddr tx endpoint =>
    refine quiet ?_
    simp only [Orchestrator.entryAfter] at found
    split at found
    next same =>
      subst same
      obtain ⟨old, stored, rfl⟩ := Option.map_eq_some_iff.mp found
      -- The bound takes the place of the dial that has reported; the other dials still run.
      refine Backed.prune ((backed old stored).pushBound endpoint remoteAddr tx fun ip different =>
        fewer ip ?_) env.isClosed
      cases endpoint with
      | none => simp [Event.report]
      | some endpoint => simpa [Event.report, eq_comm] using different rfl
    next other =>
      refine unreported (fun ip => ?_) (backed entry found)
      cases endpoint <;> simp [Event.report, other]
  | dialFailed peerId ip =>
    refine quiet ?_
    simp only [Orchestrator.entryAfter] at found
    split at found
    next same =>
      subst same
      obtain ⟨old, stored, rfl⟩ := Option.map_eq_some_iff.mp found
      -- The failed dial is no longer in flight, so that it need not be outstanding.
      refine (backed old stored).failDial backoff env.now fun other different => fewer other ?_
      simpa [Event.report, eq_comm] using different
    next other => exact unreported (by simp [Event.report, other]) (backed entry found)

end Backed

/-- There is a bound to the address, a dial runs, or the backoff has not elapsed. -/
def Pursues (now : Nat) (ip : IpAddr) (entry : PeerEntry) : Prop :=
  (∃ bound ∈ entry.bounds, bound.dest.ip = ip) ∨
    ∃ state, entry.dials.lookup ip = some state ∧
      (state.inFlight = true ∨ now < state.nextAllowedAt)

theorem pursues_tryConnect (now : Nat) (entry : PeerEntry) {ip : IpAddr}
    (resolved : ip ∈ entry.resolvedIps) : (entry.tryConnect now).1.Pursues now ip := by
  by_cases covered : ip ∈ entry.coveredIps
  · rw [coveredIps, List.mem_toFinset, List.mem_map] at covered
    exact .inl covered
  · refine .inr ?_
    rw [tryConnect_dials]
    by_cases may : entry.mayDial now ip = true
    · have dialed : ip ∈ entry.uncovered now :=
        Finset.mem_filter.mpr ⟨Finset.mem_sdiff.mpr ⟨resolved, covered⟩, may⟩
      exact ⟨entry.dialed now ip, if_pos dialed, .inl (dialed_inFlight now entry ip)⟩
    · have skipped : ip ∉ entry.uncovered now := fun dialed => may (Finset.mem_filter.mp dialed).2
      rw [if_neg skipped]
      unfold mayDial at may
      cases stored : entry.dials.lookup ip with
      | none => simp [stored] at may
      | some state =>
        refine ⟨state, rfl, ?_⟩
        simpa [stored, DialState.blocks, or_iff_not_imp_left] using may

end PeerEntry

/-! ## Runs -/

def Action.Reports : Action → Prop
  | .dialAborted _ => False
  | _ => True

/-- An event with which the orchestrator maintains all its peers. -/
def Event.Maintains : Event → Prop
  | .dns _ => True
  | .actorExited .restartable => True
  | _ => False

namespace System

variable [PrefixTrie Trie]

/-- Messages are honest, entries are stored under their own id, and every running mark has a task.
-/
structure Pursuing (sys : System Trie) : Prop where
  honest : ∀ envelope ∈ sys.inbox, envelope.Honest
  keyed : PeersKeyed sys.orch.peerConfigs
  backed : ∀ id, ∀ entry ∈ sys.orch.peers.lookup id, entry.Backed (sys.outstanding id)

omit [PrefixTrie Trie] in
theorem PeerReacts.backed {sys after : System Trie} {id : String} {env : Env} {event : Event}
    (reacts : PeerReacts sys after id env event)
    (before : ∀ entry ∈ sys.orch.peers.lookup id, entry.Backed (sys.outstanding id))
    {entry : PeerEntry} (found : after.orch.peers.lookup id = some entry) :
    entry.Backed (after.outstanding id) := by
  -- the outstanding dials without the reported one
  let left (ip : IpAddr) : Nat :=
    sys.outstanding id ip - if event.report = some (id, ip) then 1 else 0
  have fewer (ip : IpAddr) (silent : event.report ≠ some (id, ip)) : sys.outstanding id ip ≤
      left ip := by simp [left, silent]
  rw [reacts.entry] at found
  intro ip state stored running
  have counted := PeerEntry.Backed.entryAfter before fewer found ip state stored running
  have total := reacts.outstanding ip
  by_cases reported : event.report = some (id, ip)
  · simp only [Orchestrator.dialsAfter_report reported, Finset.notMem_empty, if_false, reported,
      if_true, left] at counted total
    omega
  · simp only [reported, if_false, left] at counted total
    omega

theorem Pursuing.step {tuning : DnsTuning} {action : Action} {sys after : System Trie}
    (pursuing : sys.Pursuing) (honest : action.Honest) (reports : action.Reports)
    (keyed : PeersKeyed after.orch.peerConfigs)
    (taken : sys.step tuning action = some after) : after.Pursuing := by
  refine ⟨honest_step pursuing.honest honest taken, keyed, fun id entry found => ?_⟩
  rcases peer_step pursuing.honest pursuing.keyed taken id with ⟨event, env, _, reacts⟩ | ⟨_, rests⟩
  · exact reacts.backed (pursuing.backed id) found
  · rw [rests.reported (by rintro task rfl; exact reports)]
    rw [rests.orch] at found
    exact pursuing.backed id entry found

theorem pursues_step {tuning : DnsTuning} {action : Action} {sys after : System Trie}
    (pursuing : sys.Pursuing) (taken : sys.step tuning action = some after) {event : Event}
    (handled : sys.handled action = some event) (maintains : event.Maintains) {id : String}
    {entry : PeerEntry} (found : after.orch.peers.lookup id = some entry) {ip : IpAddr}
    (resolved : ip ∈ entry.resolvedIps) : entry.Pursues after.clock ip := by
  rcases peer_step pursuing.honest pursuing.keyed taken id with
    ⟨seen, env, same, reacts⟩ | ⟨none, _⟩
  · rw [handled, Option.some.injEq] at same
    subst same
    rw [reacts.entry] at found
    rw [reacts.clock]
    cases event with
    | dns state =>
      obtain ⟨old, _, rfl⟩ := Option.map_eq_some_iff.mp found
      exact PeerEntry.pursues_tryConnect env.now _ resolved
    | actorExited policy =>
      cases policy with
      | restartable =>
        obtain ⟨old, _, rfl⟩ := Option.map_eq_some_iff.mp found
        exact PeerEntry.pursues_tryConnect env.now _ resolved
      | critical => exact maintains.elim
      | detached => exact maintains.elim
    | stop | postConfig | deleteConfig | connected | dialFailed | other => exact maintains.elim
  · rw [handled] at none
    cases none

theorem pursuing_of_reaches {tuning : DnsTuning} {orch : Orchestrator} {peers : List Peer}
    {sys : System Trie}
    (reached : Reaches (step tuning) (fun _ action => action.Honest ∧ action.Reports)
      (new orch peers) sys) :
    sys.Pursuing := by
  induction reached with
  | refl =>
    have start : Reaches (step tuning) (fun _ _ => True) (new orch peers)
        (new orch peers : System Trie) := .refl
    refine ⟨by simp [new], peersKeyed_of_reaches start, fun id entry found => ?_⟩
    obtain ⟨peer, rfl, rfl⟩ := Orchestrator.fresh_initialPeers found
    simp [PeerEntry.Backed, PeerEntry.new]
  | next before permitted taken pursuing =>
    have keyed := peersKeyed_of_reaches (.next (before.mono fun _ _ _ => trivial) trivial taken)
    exact pursuing.step permitted.1 permitted.2 keyed taken

/-- If every dial task reports its outcome, a dial that is marked as running has a task or an
unprocessed outcome. After a reconcile or a snapshot, every resolved address has a bound, a
running dial or a backoff that has not elapsed. -/
theorem none_forgotten (tuning : DnsTuning) (orch : Orchestrator) (peers : List Peer)
    {sys : System Trie}
    (reached : Reaches (step tuning) (fun _ action => action.Honest ∧ action.Reports)
      (new orch peers) sys) :
    (∀ id entry ip state, sys.orch.peers.lookup id = some entry →
      entry.dials.lookup ip = some state →
      state.inFlight = true → ∃ task ∈ sys.outstandingTasks, task.dial.IsFor id ip) ∧
    ∀ action after event, sys.step tuning action = some after → sys.handled action = some event →
      event.Maintains →
      ∀ id entry, after.orch.peers.lookup id = some entry → ∀ ip ∈ entry.resolvedIps,
      entry.Pursues after.clock ip := by
  have pursuing := pursuing_of_reaches reached
  refine ⟨fun id entry ip state found stored running => ?_, ?_⟩
  · exact Multiset.countP_pos.mp (pursuing.backed id entry found ip state stored running)
  · intro action after event taken handled maintains id entry found ip resolved
    exact pursues_step pursuing taken handled maintains found resolved

theorem none_forgotten_redial : ∃ sys after : System AssocTrie,
    Reaches (step sampleTuning) (fun _ action => action.Honest ∧ action.Reports)
      (new sampleOrch [fixedRelay]) sys ∧
      step sampleTuning (.reconcile 9 [fixedRelay]) sys = some after ∧
      (∃ task ∈ sys.outstandingTasks, task.dial.IsFor "relay" fixedRelayIp) ∧
      ∃ entry, after.orch.peers.lookup "relay" = some entry ∧
        entry.Pursues after.clock fixedRelayIp := by
  have executes :
      ((run (step sampleTuning) redial (new sampleOrch [fixedRelay] : System AssocTrie)).any
        fun sys =>
      (((sys.orch.peers.lookup "relay").bind fun entry => entry.dials.lookup fixedRelayIp).any
        DialState.inFlight) &&
      (step sampleTuning (.reconcile 9 [fixedRelay]) sys).any fun after =>
        (after.orch.peers.lookup "relay").any fun entry =>
          decide (fixedRelayIp ∈ entry.resolvedIps)) = true := by
    decide +kernel
  rw [Option.any_eq_true] at executes
  obtain ⟨sys, executed, facts⟩ := executes
  rw [Bool.and_eq_true, Option.any_eq_true, Option.any_eq_true] at facts
  obtain ⟨⟨state, stored, running⟩, after, taken, further⟩ := facts
  rw [Option.any_eq_true] at further
  obtain ⟨later, present, resolved⟩ := further
  obtain ⟨entry, found, stored⟩ := Option.bind_eq_some_iff.mp stored
  have reached : Reaches (step sampleTuning) (fun _ action => action.Honest ∧ action.Reports)
      (new sampleOrch [fixedRelay])
      sys := by
    refine reaches_of_run (fun _ action member => ?_) executed
    simp only [redial, List.mem_cons, List.not_mem_nil, or_false] at member
    rcases member with rfl | rfl | rfl | rfl | rfl | rfl | rfl | rfl | rfl | rfl <;>
      constructor <;> trivial
  obtain ⟨backed, pursued⟩ := none_forgotten sampleTuning sampleOrch [fixedRelay] reached
  exact ⟨sys, after, reached, taken, backed "relay" entry fixedRelayIp state found stored running,
    later, present,
    pursued _ after _ taken rfl trivial "relay" later present fixedRelayIp
      (of_decide_eq_true resolved)⟩

end System

end H3llo.Orch
