import H3llo.Orch.DialTracking
import H3llo.Orch.System

/-! Single-flight dialing.

A dial is outstanding while its task runs or its outcome waits in the inbox. The mark of
a running dial is lost when the address leaves the snapshot or the peer is deleted. In
runs that do neither to an outstanding dial, no address is dialed twice.
-/

set_option autoImplicit false

namespace H3llo.Orch
open H3llo.Net H3llo.Config H3llo.Dns H3llo.Router H3llo.Runs

/-- Outcomes of dials are reported by their own tasks. -/
def Envelope.Honest (envelope : Envelope) : Prop :=
  envelope.event.report = envelope.origin.map fun task => (task.dial.peerId, task.dial.dialIp)

def Action.Honest : Action → Prop
  | .external event => event.report = none
  | _ => True

namespace System

variable {Trie : Type → Type}

def outstandingTasks (sys : System Trie) : Multiset DialTask :=
  sys.dialTasks + (sys.inbox.filterMap Envelope.origin : List DialTask)

def outstanding (sys : System Trie) (peerId : String) (ip : IpAddr) : Nat :=
  sys.outstandingTasks.countP fun task => task.dial.IsFor peerId ip

def openBounds (sys : System Trie) (peerId : String) (ip : IpAddr) : Nat :=
  ((sys.orch.peers.lookup peerId).map (PeerEntry.openBounds sys.isClosed ip)).getD 0

/-- The action handles no event that takes the peer or the address of an outstanding dial away. -/
def KeepsDials (sys : System Trie) : Action → Prop
  | .handle _ _ => ∀ envelope ∈ sys.inbox.head?, sys.orch.KeepsDials sys.outstanding envelope.event
  | _ => True

structure SingleFlight (sys : System Trie) : Prop where
  honest : ∀ envelope ∈ sys.inbox, envelope.Honest
  orch : sys.orch.SingleFlight sys.isClosed sys.outstanding
  latest : ∀ task ∈ sys.outstandingTasks, task.generation + 1 =
    sys.started task.dial.peerId task.dial.dialIp

theorem started_absorb (sys : System Trie) (reaction : Reaction Trie) (peerId : String)
    (ip : IpAddr) :
    (sys.absorb reaction).started peerId ip =
      sys.started peerId ip + reaction.dials.countP (Dial.IsFor peerId ip) := rfl

theorem outstanding_absorb (sys : System Trie) (reaction : Reaction Trie) (peerId : String)
    (ip : IpAddr) :
    (sys.absorb reaction).outstanding peerId ip =
      sys.outstanding peerId ip + reaction.dials.countP (Dial.IsFor peerId ip) := by
  have new : (reaction.dials.map fun dial =>
      (⟨dial, sys.started dial.peerId dial.dialIp⟩ : DialTask)).countP
      (fun task => task.dial.IsFor peerId ip) = reaction.dials.countP (Dial.IsFor peerId ip) := by
    rw [Multiset.countP_map, Multiset.countP_eq_card_filter]
  rw [outstanding, outstanding, outstandingTasks, absorb, add_right_comm, Multiset.countP_add, new]
  rfl

/-- The dials of a reaction are the latest for their addresses, since nothing else is outstanding
there. -/
theorem SingleFlight.absorb {sys : System Trie} {reaction : Reaction Trie}
    (honest : ∀ envelope ∈ sys.inbox, envelope.Honest)
    (latest : ∀ task ∈ sys.outstandingTasks, task.generation + 1 =
      sys.started task.dial.peerId task.dial.dialIp)
    (flight : reaction.orch.SingleFlight sys.isClosed fun peerId ip =>
      sys.outstanding peerId ip + reaction.dials.countP (Dial.IsFor peerId ip)) :
    (sys.absorb reaction).SingleFlight where
  honest := honest
  orch := flight.fewer fun peerId ip => Nat.le_of_eq (outstanding_absorb sys reaction peerId ip)
  latest task member := by
    have bounded (peerId : String) (ip : IpAddr) :
        sys.outstanding peerId ip + reaction.dials.countP (Dial.IsFor peerId ip) ≤ 1 := by
      by_contra many
      obtain ⟨entry, found⟩ := Option.isSome_iff_exists.mp (flight.known peerId ip (by omega))
      have single := (flight.each peerId entry found).single ip
      omega
    rw [outstandingTasks, System.absorb, add_right_comm, Multiset.mem_add] at member
    -- where a task is outstanding no dial is started, and where one is started none was outstanding
    rcases member with old | new
    · have counted : 0 < sys.outstanding task.dial.peerId task.dial.dialIp :=
        Multiset.countP_pos.mpr ⟨task, old, rfl, rfl⟩
      have before := latest task old
      have one := bounded task.dial.peerId task.dial.dialIp
      rw [started_absorb]
      omega
    · obtain ⟨dial, started, rfl⟩ := Multiset.mem_map.mp new
      have counted : 0 < reaction.dials.countP (Dial.IsFor dial.peerId dial.dialIp) :=
        Multiset.countP_pos.mpr ⟨dial, started, rfl, rfl⟩
      have one := bounded dial.peerId dial.dialIp
      change sys.started dial.peerId dial.dialIp + 1 =
        (sys.absorb reaction).started dial.peerId dial.dialIp
      rw [started_absorb]
      omega

/-- A step of another party that starts no dial and reports none that is not outstanding. -/
theorem SingleFlight.frame {sys after : System Trie} (flight : sys.SingleFlight)
    (orch : after.orch = sys.orch) (closed : after.closed = sys.closed)
    (started : after.started = sys.started) (honest : ∀ envelope ∈ after.inbox, envelope.Honest)
    (tasks : after.outstandingTasks ≤ sys.outstandingTasks) : after.SingleFlight where
  honest := honest
  orch := by
    have same : after.isClosed = sys.isClosed := by
      funext tx
      rw [isClosed, isClosed, closed]
    rw [orch, same]
    exact flight.orch.fewer fun _ _ => Multiset.countP_le_of_le _ tasks
  latest task member := by
    rw [started]
    exact flight.latest task (Multiset.mem_of_le tasks member)

theorem SingleFlight.close {sys : System Trie} (flight : sys.SingleFlight) (tx : Sender) :
    (sys.close tx).SingleFlight where
  honest := flight.honest
  latest := flight.latest
  orch := by
    refine ⟨flight.orch.known, fun id entry found => ?_⟩
    have each := flight.orch.each id entry found
    refine ⟨each.keyed, fun ip => ?_, each.tracked⟩
    -- a closed channel only lowers the count
    have fewer : entry.openBounds (sys.close tx).isClosed ip ≤
        entry.openBounds sys.isClosed ip := by
      apply List.countP_mono_left
      intro bound _ counted
      simp only [isClosed, System.close, Finset.mem_insert, Bool.and_eq_true, Bool.not_eq_true',
        decide_eq_false_iff_not, not_or] at counted ⊢
      exact ⟨counted.1, counted.2.2⟩
    exact Nat.le_trans (Nat.add_le_add_left fewer _) (each.single ip)

theorem outstandingTasks_pop {sys : System Trie} {envelope : Envelope} {rest : List Envelope}
    (now : Nat) (queued : sys.inbox = envelope :: rest) :
    sys.outstandingTasks =
      envelope.origin.toList + ({ sys with inbox := rest, clock := now } :
        System Trie).outstandingTasks := by
  unfold outstandingTasks
  rw [queued, add_left_comm]
  cases origin : envelope.origin with
  | none => simp [origin]
  | some task => simp [origin]

theorem SingleFlight.remember {sys : System Trie} (event : Event) (flight : sys.SingleFlight) :
    (sys.remember event).SingleFlight := by
  rw [remember_eq]
  exact flight.frame rfl rfl rfl flight.honest (le_refl _)

theorem SingleFlight.stopped {sys : System Trie} {now : Nat} {envelope : Envelope}
    {rest : List Envelope} (flight : sys.SingleFlight) (queued : sys.inbox = envelope :: rest) :
    ({ sys with inbox := rest, clock := now, running := false } : System Trie).SingleFlight := by
  refine flight.frame rfl rfl rfl ?_ ?_
  · intro other member
    apply flight.honest
    rw [queued]
    exact List.mem_cons_of_mem _ member
  · rw [outstandingTasks_pop now queued]
    exact Multiset.le_add_left _ _

theorem outstandingTasks_reported {sys : System Trie} {task : DialTask}
    (runs : task ∈ sys.dialTasks) (event : Event) :
    ({ sys with dialTasks := sys.dialTasks.erase task }.deliver
      ⟨event, some task⟩).outstandingTasks =
      sys.outstandingTasks := by
  have delivered : ((sys.inbox ++ [(⟨event, some task⟩ : Envelope)]).filterMap Envelope.origin :
      Multiset DialTask) =
      task ::ₘ (sys.inbox.filterMap Envelope.origin : List DialTask) := by
    rw [List.filterMap_append]
    exact Multiset.coe_eq_coe.mpr (List.perm_append_singleton _ _)
  unfold outstandingTasks
  change sys.dialTasks.erase task + _ = _
  rw [deliver, delivered, Multiset.add_cons, ← Multiset.cons_add, Multiset.cons_erase runs]

theorem outstandingTasks_unreported {sys after : System Trie} {plain : List Envelope}
    (tasks : after.dialTasks = sys.dialTasks) (inbox : after.inbox = sys.inbox ++ plain)
    (unreported : plain.filterMap Envelope.origin = []) :
    after.outstandingTasks = sys.outstandingTasks := by
  rw [outstandingTasks, outstandingTasks, tasks, inbox, List.filterMap_append, unreported,
    List.append_nil]

theorem unreported_snapshots (emitted : Option DnsSnapshot) :
    (emitted.toList.map fun state => (⟨.dns state, none⟩ : Envelope)).filterMap Envelope.origin =
      [] := by
  cases emitted <;> simp

theorem honest_snapshots (emitted : Option DnsSnapshot) :
    ∀ envelope ∈ emitted.toList.map fun state => (⟨.dns state, none⟩ : Envelope),
    envelope.Honest := by
  intro envelope member
  obtain ⟨state, _, rfl⟩ := List.mem_map.mp member
  rfl

theorem SingleFlight.reported {sys : System Trie} {task : DialTask} {event : Event}
    (flight : sys.SingleFlight) (runs : task ∈ sys.dialTasks)
    (reports : event.report = some (task.dial.peerId, task.dial.dialIp)) :
    ({ sys with dialTasks := sys.dialTasks.erase task }.deliver
      ⟨event, some task⟩).SingleFlight := by
  refine flight.frame rfl rfl rfl ?_ (le_of_eq (outstandingTasks_reported runs event))
  intro envelope member
  rcases List.mem_append.mp member with old | new
  · exact flight.honest envelope old
  · rw [List.mem_singleton.mp new]
    exact reports

variable [PrefixTrie Trie]

theorem SingleFlight.handled {sys : System Trie} {now : Nat} {listed : List Peer}
    {envelope : Envelope} {rest : List Envelope} {reaction : Reaction Trie}
    (flight : sys.SingleFlight) (queued : sys.inbox = envelope :: rest)
    (keeps : sys.orch.KeepsDials sys.outstanding envelope.event)
    (reacts : sys.orch.handleEvent ⟨now, sys.isClosed, listed⟩ envelope.event = some reaction) :
    ({ sys with inbox := rest, clock := now }.absorb reaction).SingleFlight := by
  -- handling a report ends its dial, so the invariant is used without it
  let popped : System Trie := { sys with inbox := rest, clock := now }
  have tasks : sys.outstandingTasks = envelope.origin.toList + popped.outstandingTasks :=
    outstandingTasks_pop now queued
  have fewer (peerId : String) (ip : IpAddr) : popped.outstanding peerId ip ≤
      sys.outstanding peerId ip := by
    rw [outstanding, outstanding, tasks]
    exact Multiset.countP_le_of_le _ (Multiset.le_add_left _ _)
  have honest : ∀ other ∈ envelope :: rest, other.Honest := by
    rw [← queued]
    exact flight.honest
  refine SingleFlight.absorb ?_ ?_ ?_
  · intro other member
    exact honest other (List.mem_cons_of_mem _ member)
  · intro task member
    apply flight.latest
    rw [tasks]
    exact Multiset.mem_add.mpr (.inr member)
  · apply (flight.orch.fewer fewer).handleEvent (keeps.fewer fewer) _ reacts
    -- the reported dial was the only one, so nothing else is outstanding or connected
    intro id ip reports
    have own := honest envelope List.mem_cons_self
    rw [Envelope.Honest, reports, eq_comm, Option.map_eq_some_iff] at own
    obtain ⟨task, origin, same⟩ := own
    have counted : sys.outstanding id ip = 1 + popped.outstanding id ip := by
      have isFor : task.dial.IsFor id ip := ⟨congrArg Prod.fst same, congrArg Prod.snd same⟩
      rw [outstanding, outstanding, tasks, origin, Option.toList_some, Multiset.coe_singleton,
        Multiset.countP_add, Multiset.countP_eq_card_filter _ {task}, Multiset.filter_singleton,
        if_pos isFor, Multiset.card_singleton]
    obtain ⟨entry, found⟩ := Option.isSome_iff_exists.mp (flight.orch.known id ip (by omega))
    have single := (flight.orch.each id entry found).single ip
    refine ⟨by omega, fun other otherFound => ?_⟩
    rw [found, Option.some.injEq] at otherFound
    subst otherFound
    change entry.openBounds sys.isClosed ip = 0
    omega

theorem SingleFlight.step {tuning : DnsTuning} {action : Action} {sys after : System Trie}
    (flight : sys.SingleFlight) (honest : action.Honest) (keeps : sys.KeepsDials action)
    (taken : sys.step tuning action = some after) : after.SingleFlight := by
  have appended {plain : List Envelope} (own : ∀ envelope ∈ plain, envelope.Honest) :
      ∀ envelope ∈ sys.inbox ++ plain, envelope.Honest := by
    intro envelope member
    exact (List.mem_append.mp member).elim (flight.honest envelope) (own envelope)
  cases moves_of_step taken with
  | handled queued running later lists reacts =>
    apply SingleFlight.remember
    exact flight.handled queued (keeps _ (by rw [queued]; rfl)) reacts
  | stopped queued leaves => exact flight.stopped queued
  | @reconciled now listed running later lists =>
    exact .absorb flight.honest flight.latest
      (Orchestrator.SingleFlight.reconcile ⟨now, sys.isClosed, listed⟩ flight.orch)
  | registered queued later iterated =>
    exact flight.frame rfl rfl rfl (appended (honest_snapshots _))
      (le_of_eq (outstandingTasks_unreported rfl rfl (unreported_snapshots _)))
  | resolved other later iterated =>
    exact flight.frame rfl rfl rfl (appended (honest_snapshots _))
      (le_of_eq (outstandingTasks_unreported rfl rfl (unreported_snapshots _)))
  | routed queued => exact flight.frame rfl rfl rfl flight.honest (le_refl _)
  | filtered queued => exact flight.frame rfl rfl rfl flight.honest (le_refl _)
  | authorised queued => exact flight.frame rfl rfl rfl flight.honest (le_refl _)
  | synced queued => exact flight.frame rfl rfl rfl flight.honest (le_refl _)
  | connected dialed runs fresh => exact flight.reported runs rfl
  | failed runs => exact flight.reported runs rfl
  | aborted runs =>
    refine flight.frame rfl rfl rfl flight.honest ?_
    exact Multiset.add_le_add_right (Multiset.erase_le _ _)
  | @arrived event plain fresh =>
    have own : ∀ envelope ∈ [(⟨event, none⟩ : Envelope)], envelope.Honest := by
      intro envelope member
      rw [List.mem_singleton.mp member]
      exact honest
    exact flight.frame rfl rfl rfl (appended own)
      (le_of_eq (outstandingTasks_unreported rfl rfl rfl))
  | closed => exact flight.close _

theorem singleFlight_new (orch : Orchestrator) (peers : List Peer) :
    (new orch peers : System Trie).SingleFlight where
  honest envelope member := absurd member List.not_mem_nil
  latest task member := absurd member (Multiset.notMem_zero task)
  orch := by
    refine ⟨fun id ip positive => absurd positive (Nat.lt_irrefl 0), fun id entry found => ?_⟩
    obtain ⟨peer, rfl, rfl⟩ := Orchestrator.fresh_initialPeers found
    exact PeerEntry.SingleFlight.new peer

/-- The two differ in nothing but the dial state of one address of one peer. -/
structure SameButDial (peerId : String) (ip : IpAddr) (before after : Orchestrator) : Prop where
  settings : after = { before with peers := after.peers }
  others : ∀ id, id ≠ peerId → after.peers.lookup id = before.peers.lookup id
  entry : ∀ old, before.peers.lookup peerId = some old → ∃ dials : HashMap IpAddr DialState,
    after.peers.lookup peerId = some { old with dials } ∧ ∀ other, other ≠ ip →
      dials.lookup other = old.dials.lookup other

omit [PrefixTrie Trie] in
theorem sameButDial_handleDialFailed (env : Env) (peerId : String) (ip : IpAddr)
    (orch : Orchestrator) :
    SameButDial peerId ip orch (orch.handleDialFailed env peerId ip : Reaction Trie).orch where
  settings := by
    unfold Orchestrator.handleDialFailed
    split
    · rfl
    · split <;> rfl
  others id different := by simp [Orchestrator.lookup_handleDialFailed, different]
  entry old found := by
    rw [Orchestrator.lookup_handleDialFailed, found, Option.map_some, if_pos rfl]
    unfold Orchestrator.failDial
    split
    · exact ⟨old.dials, rfl, fun _ _ => rfl⟩
    · exact ⟨_, rfl, fun other different => Finmap.lookup_insert_of_ne _ different⟩

/-- In runs that keep the dials, an address of a peer is dialed or connected once, and a failed
dial changes only the state that it left itself: no later dial to the address was started. -/
theorem single_flight (tuning : DnsTuning) (orch : Orchestrator) (peers : List Peer)
    {sys : System Trie}
    (reached : Reaches (step tuning) (fun sys action => action.Honest ∧ sys.KeepsDials action)
      (new orch peers) sys) :
    (∀ peerId ip, sys.outstanding peerId ip + sys.openBounds peerId ip ≤ 1) ∧
    ∀ envelope rest peerId ip, sys.inbox = envelope :: rest →
      envelope.event = .dialFailed peerId ip →
      ∀ now listed after, sys.step tuning (.handle now listed) = some after →
        SameButDial peerId ip sys.orch after.orch ∧
        ∃ task, envelope.origin = some task ∧ task.dial.IsFor peerId ip ∧
          task.generation + 1 = sys.started peerId ip := by
  have flight : sys.SingleFlight := reached.invariant (singleFlight_new orch peers)
    fun _ _ _ before permitted taken => before.step permitted.1 permitted.2 taken
  refine ⟨fun peerId ip => ?_, fun envelope rest peerId ip queued fails now listed after taken =>
    ⟨?_, ?_⟩⟩
  · rw [openBounds]
    cases found : sys.orch.peers.lookup peerId with
    | some entry => exact (flight.orch.each peerId entry found).single ip
    | none =>
      -- No dial is outstanding for a peer that is not there.
      have idle : ¬ 0 < sys.outstanding peerId ip := by
        intro positive
        have known := flight.orch.known peerId ip positive
        rw [found] at known
        cases known
      rw [Option.map_none, Option.getD_none]
      omega
  · cases moves_of_step taken with
    | handled headed running later lists reacts =>
      rw [queued, List.cons.injEq] at headed
      obtain ⟨rfl, rfl⟩ := headed
      rw [fails] at reacts ⊢
      cases reacts
      exact sameButDial_handleDialFailed _ peerId ip sys.orch
    | stopped headed leaves =>
      rw [queued, List.cons.injEq] at headed
      obtain ⟨rfl, rfl⟩ := headed
      rw [fails] at leaves
      cases leaves
  -- The report comes from the dial itself, and that dial is the latest one.
  · have honest := flight.honest envelope (by simp [queued])
    rw [Envelope.Honest, fails, Event.report, eq_comm, Option.map_eq_some_iff] at honest
    obtain ⟨task, origin, same⟩ := honest
    obtain ⟨rfl, rfl⟩ := Prod.mk.inj same
    refine ⟨task, origin, ⟨rfl, rfl⟩, flight.latest task ?_⟩
    rw [outstandingTasks_pop now queued, origin]
    exact Multiset.mem_add.mpr (.inl (by simp))

theorem single_flight_dialing : ∃ registered dialing : System AssocTrie,
    step sampleTuning (.dnsReceive 1) (new sampleOrch [fixedRelay]) = some registered ∧
      step sampleTuning (.handle 2 [fixedRelay]) registered = some dialing ∧
      dialing.outstanding "relay" fixedRelayIp = 1 ∧
      dialing.outstanding "relay" fixedRelayIp + dialing.openBounds "relay" fixedRelayIp ≤ 1 := by
  have executes :
      ((step sampleTuning (.dnsReceive 1) (new sampleOrch [fixedRelay] : System AssocTrie)).any
        fun registered =>
      decide (registered.outstandingTasks = 0) &&
        (step sampleTuning (.handle 2 [fixedRelay]) registered).any fun dialing =>
          decide (dialing.outstanding "relay" fixedRelayIp = 1)) = true := by
    decide +kernel
  rw [Option.any_eq_true] at executes
  obtain ⟨registered, first, second⟩ := executes
  rw [Bool.and_eq_true, decide_eq_true_eq, Option.any_eq_true] at second
  obtain ⟨idle, dialing, handled, counted⟩ := second
  have none (peerId : String) (ip : IpAddr) : registered.outstanding peerId ip = 0 := by
    simp [outstanding, idle]
  have keeps : registered.KeepsDials (.handle 2 [fixedRelay]) := by
    intro envelope _
    cases envelope.event with
    | deleteConfig peerIds => exact fun id _ ip => none id ip
    | dns state => exact fun id entry ip _ positive => absurd positive (by simp [none])
    | _ => trivial
  have reached : Reaches (step sampleTuning) (fun sys action => action.Honest ∧
      sys.KeepsDials action)
      (new sampleOrch [fixedRelay]) dialing := by
    refine .next (.single ?_ first) ?_ handled
    · exact ⟨trivial, trivial⟩
    · exact ⟨trivial, keeps⟩
  exact ⟨registered, dialing, first, handled, of_decide_eq_true counted,
    (single_flight sampleTuning sampleOrch [fixedRelay] reached).1 _ _⟩

def redial : List Action :=
  [.dnsReceive 1, .handle 2 [fixedRelay],
    .external (.deleteConfig ["relay"]), .handle 3 [fixedRelay],
    .external (.postConfig [fixedRelay]), .handle 4 [fixedRelay],
    .dnsReceive 5, .handle 6 [fixedRelay], .dnsReceive 7, .handle 8 [fixedRelay]]

theorem two_flights : ∃ sys : System AssocTrie,
    Reaches (step sampleTuning) (fun _ action => action.Honest) (new sampleOrch [fixedRelay]) sys ∧
      sys.outstanding "relay" fixedRelayIp = 2 := by
  have executes :
      ((run (step sampleTuning) redial (new sampleOrch [fixedRelay] : System AssocTrie)).any
        fun sys =>
      decide (sys.outstanding "relay" fixedRelayIp = 2)) = true := by
    decide +kernel
  rw [Option.any_eq_true] at executes
  obtain ⟨sys, executed, counted⟩ := executes
  refine ⟨sys, reaches_of_run (fun _ action member => ?_) executed, of_decide_eq_true counted⟩
  simp only [redial, List.mem_cons, List.not_mem_nil, or_false] at member
  rcases member with rfl | rfl | rfl | rfl | rfl | rfl | rfl | rfl | rfl | rfl <;> trivial

end System
end H3llo.Orch
