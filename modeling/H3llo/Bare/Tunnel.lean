import H3llo.Bare.Filter
import H3llo.Ledger
import H3llo.Udp.Link

/-! A BareUDP tunnel from router to router.

The sender stamps every batch of its router with the peer's address and hands it to the UDP
sender. The receiver filters what the UDP receiver reads by its source. Every stage is an actor
that may stop at any point.
-/

set_option autoImplicit false

namespace H3llo.Bare
open H3llo.Net H3llo.Runs H3llo.Udp

def contents (batches : List (SocketAddr × List Packet)) : List Packet := batches.flatMap Prod.snd

theorem contents_cons (remote : SocketAddr) (batch : List Packet)
    (rest : List (SocketAddr × List Packet)) :
    contents ((remote, batch) :: rest) = batch ++ contents rest := rfl

/-! ## The sending adapter -/

structure BareTx where
  running : Bool
  counters : Stats
  sent : List (SocketAddr × List Packet)

/-- `accepted` tells whether the UDP sender's channel takes the batch. -/
inductive BareTxInput where
  | egress (packets : List Packet) (accepted : Bool)
  | egressClosed
  | stop
  | metricsTick (ownerOpen : Bool)
  deriving DecidableEq, Repr

def BareTx.new : BareTx := ⟨true, .new, []⟩

def bareTxStep (destination : SocketAddr) (input : BareTxInput) (state : BareTx) : Option BareTx :=
  if state.running then
    some <| match input with
    | .egress packets accepted =>
        if packets.isEmpty then state
        else
          let (count, bytes) := batchStats packets
          -- A batch that is not taken is not counted at all.
          if accepted then
            { state with
              sent := state.sent ++ [(destination, packets)]
              counters := state.counters.recordSuccess count bytes }
          else { state with running := false }
    | .egressClosed | .stop => { state with running := false }
    | .metricsTick ownerOpen => { state with running := ownerOpen }
  else none

def BareTxInput.passed : BareTxInput → List Packet
  | .egress packets true => packets
  | .egress _ false | .egressClosed | .stop | .metricsTick _ => []

structure BareTx.Passes (destination : SocketAddr) (packets : List Packet)
    (state next : BareTx) : Prop where
  sent : addressed next.sent = addressed state.sent ++ packets.map fun packet =>
    (destination, packet)
  counted : Stats.Adds (.success (batchStats packets)) state.counters next.counters

theorem BareTx.Passes.none {destination : SocketAddr} {state next : BareTx}
    (sent : next.sent = state.sent) (counters : next.counters = state.counters) :
    state.Passes destination [] next :=
  ⟨by rw [sent, List.map_nil, List.append_nil], by rw [counters]; exact .refl _⟩

theorem passes_of_step {destination : SocketAddr} {input : BareTxInput} {state next : BareTx}
    (taken : bareTxStep destination input state = some next) :
    state.Passes destination input.passed next := by
  unfold bareTxStep at taken
  split at taken
  next =>
    cases taken
    cases input with
    | egress packets accepted =>
      simp only
      split
      next empty =>
        have silent : (BareTxInput.egress packets accepted).passed = [] := by
          cases accepted with
          | true => exact List.isEmpty_iff.mp empty
          | false => rfl
        rw [silent]
        exact .none rfl rfl
      next =>
        cases accepted with
        | true =>
          exact ⟨by simp [addressed, BareTxInput.passed],
            .recordSuccess state.counters (batchStats packets)⟩
        | false => exact .none rfl rfl
    | egressClosed => exact .none rfl rfl
    | stop => exact .none rfl rfl
    | metricsTick ownerOpen => exact .none rfl rfl
  next => cases taken

theorem passes_of_run {destination : SocketAddr} {inputs : List BareTxInput} {state last : BareTx}
    (executed : run (bareTxStep destination) inputs state = some last) :
    state.Passes destination (inputs.flatMap BareTxInput.passed) last := by
  induction inputs generalizing state with
  | nil =>
    cases executed
    exact .none rfl rfl
  | cons input rest ih =>
    obtain ⟨middle, taken, remaining⟩ := Option.bind_eq_some_iff.mp executed
    have first := passes_of_step taken
    have later := ih remaining
    constructor
    · rw [later.sent, first.sent, List.flatMap_cons, List.map_append, List.append_assoc]
    · rw [List.flatMap_cons, batchStats_append, Ledger.success_add]
      exact first.counted.trans later.counted

/-! ## The filter -/

def admitted : Finset IpAddr → List FilterInput → List (SocketAddr × List Packet)
  | _, [] => []
  | sources, .received remote batch :: rest =>
      if remote.ip ∈ sources then
        (remote, batch) :: admitted sources rest
      else admitted sources rest
  | _, .updateAcceptedSources sources :: rest => admitted sources rest
  | sources, .udpClosed :: rest | sources, .stop :: rest | sources, .unexpected :: rest
  | sources, .metricsTick _ :: rest =>
      admitted sources rest

def refused : Finset IpAddr → List FilterInput → List (SocketAddr × List Packet)
  | _, [] => []
  | sources, .received remote batch :: rest =>
      if remote.ip ∈ sources then refused sources rest else (remote, batch) :: refused sources rest
  | _, .updateAcceptedSources sources :: rest => refused sources rest
  | sources, .udpClosed :: rest | sources, .stop :: rest | sources, .unexpected :: rest
  | sources, .metricsTick _ :: rest =>
      refused sources rest

def FilterInput.batch : FilterInput → Option (SocketAddr × List Packet)
  | .received remote batch => some (remote, batch)
  | .udpClosed | .updateAcceptedSources _ | .stop | .unexpected | .metricsTick _ => none

theorem admitted_sublist (sources : Finset IpAddr) (inputs : List FilterInput) :
    (admitted sources inputs).Sublist (inputs.filterMap FilterInput.batch) := by
  induction inputs generalizing sources with
  | nil => exact .refl _
  | cons input rest ih =>
    cases input with
    | received remote batch =>
      have kept : (FilterInput.received remote batch).batch = some (remote, batch) := rfl
      rw [admitted, List.filterMap_cons_some kept]
      split
      · exact (ih sources).cons_cons _
      · exact (ih sources).cons _
    | updateAcceptedSources sources => exact ih sources
    | udpClosed | stop | unexpected | metricsTick => exact ih sources

theorem admitted_quiet {input : FilterInput} (none : input.batch = none) (sources : Finset IpAddr)
    (rest : List FilterInput) :
    admitted sources (input :: rest) = admitted (latestSources sources [input]) rest ∧
      refused sources (input :: rest) = refused (latestSources sources [input]) rest := by
  cases input with
  | received remote batch => cases none
  | updateAcceptedSources | udpClosed | stop | unexpected | metricsTick => exact ⟨rfl, rfl⟩

def FilterInput.ends : FilterInput → Bool
  | .udpClosed | .stop | .metricsTick false => true
  | .received .. | .updateAcceptedSources _ | .unexpected | .metricsTick true => false

/-- `placed` has gone to the router, and `lost` met a closed channel. -/
structure Filtered (ingressTx : Sender) (accepts : Nat → Sender → Bool)
    (inputs : List FilterInput) (start state : BareRx)
    (placed lost : List (SocketAddr × List Packet)) : Prop where
  split : admitted start.acceptedSources inputs = placed ++ lost
  opened : ∀ i < placed.length, accepts (start.plane.outlet.attempts + i) ingressTx = true
  last : lost.length ≤ 1
  closed : lost ≠ [] → accepts (start.plane.outlet.attempts + placed.length) ingressTx = false
  stopped : state.running = false ↔ lost ≠ [] ∨ ∃ input ∈ inputs, input.ends = true
  sent : state.plane.outlet.sent =
    start.plane.outlet.sent ++ placed.map fun item => (ingressTx, item.2)
  counted : Stats.Adds (.success (batchStats (contents placed)) +
    .drop .disallowedSource (batchStats (contents (refused start.acceptedSources inputs))) +
    .drop .channelClosed (batchStats (contents lost))) start.plane.stats state.plane.stats

section Filter

variable {ingressTx : Sender} {accepts : Nat → Sender → Bool} {start state : BareRx}

/-- What an input does to the packets. -/
inductive Filters (ingressTx : Sender) (accepts : Nat → Sender → Bool) (start : BareRx) :
    FilterInput → BareRx → Prop where
  | quiet {input : FilterInput} {next : BareRx} (none : input.batch = none)
      (sources : next.acceptedSources = latestSources start.acceptedSources [input])
      (plane : next.plane = start.plane) (running : next.running = !input.ends) :
      Filters ingressTx accepts start input next
  | refused {remote : SocketAddr} {batch : List Packet}
      (unlisted : remote.ip ∉ start.acceptedSources) :
      Filters ingressTx accepts start (.received remote batch)
        { start with
          plane := start.plane.recordDrop .disallowedSource (batchStats batch).1
            (batchStats batch).2 }
  | placed {remote : SocketAddr} {batch : List Packet} {next : BareRx}
      (listed : remote.ip ∈ start.acceptedSources)
      (sources : next.acceptedSources = start.acceptedSources) (running : next.running = true)
      (isOpen : accepts start.plane.outlet.attempts ingressTx = true)
      (outlet : next.plane.outlet =
        ⟨start.plane.outlet.sent ++ [(ingressTx, batch)], start.plane.outlet.attempts + 1⟩)
      (counted : next.plane.stats =
        start.plane.stats.recordSuccess (batchStats batch).1 (batchStats batch).2) :
      Filters ingressTx accepts start (.received remote batch) next
  | lost {remote : SocketAddr} {batch : List Packet} {next : BareRx}
      (listed : remote.ip ∈ start.acceptedSources) (stopped : next.running = false)
      (closed : accepts start.plane.outlet.attempts ingressTx = false)
      (sent : next.plane.outlet.sent = start.plane.outlet.sent)
      (counted : next.plane.stats =
        start.plane.stats.recordDrop .channelClosed (batchStats batch).1 (batchStats batch).2) :
      Filters ingressTx accepts start (.received remote batch) next

theorem filters_of_step {input : FilterInput} {next : BareRx}
    (taken : filterStep ingressTx accepts input start = some next) :
    start.running = true ∧ Filters ingressTx accepts start input next := by
  have sources := acceptedSources_step taken
  unfold filterStep at taken
  split at taken
  next running =>
    refine ⟨running, ?_⟩
    cases input with
    | received remote batch =>
      simp only [Option.some.injEq] at taken
      by_cases listed : remote.ip ∈ start.acceptedSources
      · rw [if_neg (not_not_intro listed)] at taken
        unfold DataPlane.sendAndRecord DataPlane.sendWithBackpressure Outlet.send at taken
        by_cases isOpen : accepts start.plane.outlet.attempts ingressTx = true
        · simp only [isOpen, if_true] at taken
          subst taken
          exact .placed listed rfl rfl isOpen rfl rfl
        · simp only [isOpen, if_false, Bool.false_eq_true] at taken
          subst taken
          exact .lost listed rfl (by simpa using isOpen) rfl rfl
      · rw [if_pos listed] at taken
        subst taken
        exact .refused listed
    | updateAcceptedSources | unexpected =>
      cases taken
      exact .quiet rfl sources rfl running
    | udpClosed | stop =>
      cases taken
      exact .quiet rfl sources rfl rfl
    | metricsTick ownerOpen =>
      cases taken
      exact .quiet rfl sources rfl (by cases ownerOpen <;> rfl)
  next => cases taken

theorem eq_of_stopped (stopped : start.running = false) {inputs : List FilterInput}
    (ran : run (filterStep ingressTx accepts) inputs start = some state) :
    inputs = [] ∧ start = state := by
  cases inputs with
  | nil =>
    cases ran
    exact ⟨rfl, rfl⟩
  | cons input rest => simp [run, filterStep, stopped] at ran

theorem Filtered.nil (running : start.running = true) :
    Filtered ingressTx accepts [] start start [] [] where
  split := rfl
  opened i less := absurd less (Nat.not_lt_zero i)
  last := Nat.zero_le 1
  closed some := absurd rfl some
  stopped := by simp [running]
  sent := (List.append_nil _).symm
  counted := by simpa [contents, Bare.refused] using Stats.Adds.refl start.plane.stats

theorem Filtered.ended (stopped : start.running = false) {input : FilterInput}
    (ends : input.ends = true) {first : BareRx}
    (plane : start.plane = first.plane) (none : input.batch = none) :
    Filtered ingressTx accepts [input] first start [] [] where
  split := by
    rw [(admitted_quiet none first.acceptedSources []).1]
    rfl
  opened i less := absurd less (Nat.not_lt_zero i)
  last := Nat.zero_le 1
  closed some := absurd rfl some
  stopped := by simp [stopped, ends]
  sent := by rw [plane, List.map_nil, List.append_nil]
  counted := by
    rw [(admitted_quiet none first.acceptedSources []).2, plane]
    simpa [contents, Bare.refused] using Stats.Adds.refl first.plane.stats

section Cons

variable {next : BareRx} {input : FilterInput} {rest : List FilterInput}
  {placed lost : List (SocketAddr × List Packet)}

theorem Filtered.quiet (none : input.batch = none)
    (sources : next.acceptedSources = latestSources start.acceptedSources [input])
    (plane : next.plane = start.plane) (goesOn : input.ends = false)
    (later : Filtered ingressTx accepts rest next state placed lost) :
    Filtered ingressTx accepts (input :: rest) start state placed lost := by
  obtain ⟨admits, refuses⟩ := admitted_quiet none start.acceptedSources rest
  rw [← sources] at admits refuses
  refine ⟨?_, ?_, later.last, ?_, ?_, ?_, ?_⟩
  · rw [admits, later.split]
  · rw [← plane]
    exact later.opened
  · rw [← plane]
    exact later.closed
  · rw [later.stopped, List.exists_mem_cons_iff, goesOn]
    simp
  · rw [later.sent, plane]
  · rw [refuses, ← plane]
    exact later.counted

theorem Filtered.refuse {remote : SocketAddr} {batch : List Packet}
    (unlisted : remote.ip ∉ start.acceptedSources)
    (later : Filtered ingressTx accepts rest
      { start with
        plane := start.plane.recordDrop .disallowedSource (batchStats batch).1
          (batchStats batch).2 }
      state placed lost) :
    Filtered ingressTx accepts (.received remote batch :: rest) start state placed lost := by
  refine ⟨?_, later.opened, later.last, later.closed, ?_, later.sent, ?_⟩
  · rw [admitted, if_neg unlisted, ← later.split]
  · rw [later.stopped, List.exists_mem_cons_iff]
    simp [FilterInput.ends]
  · have both := (Stats.Adds.recordDrop start.plane.stats .disallowedSource
      (batchStats batch)).trans later.counted
    rw [← add_assoc, add_left_comm, ← Ledger.drop_add, ← batchStats_append] at both
    rw [Bare.refused, if_neg unlisted, contents_cons]
    exact both

theorem Filtered.place {remote : SocketAddr} {batch : List Packet}
    (listed : remote.ip ∈ start.acceptedSources)
    (sources : next.acceptedSources = start.acceptedSources)
    (isOpen : accepts start.plane.outlet.attempts ingressTx = true)
    (outlet : next.plane.outlet =
      ⟨start.plane.outlet.sent ++ [(ingressTx, batch)], start.plane.outlet.attempts + 1⟩)
    (counted : next.plane.stats =
      start.plane.stats.recordSuccess (batchStats batch).1 (batchStats batch).2)
    (later : Filtered ingressTx accepts rest next state placed lost) :
    Filtered ingressTx accepts (.received remote batch :: rest) start state
      ((remote, batch) :: placed) lost := by
  have attempts : next.plane.outlet.attempts = start.plane.outlet.attempts + 1 := by rw [outlet]
  have shift (i : Nat) : start.plane.outlet.attempts + (i + 1) =
      next.plane.outlet.attempts + i := by
    omega
  refine ⟨?_, fun i less => ?_, later.last, ?_, ?_, ?_, ?_⟩
  · rw [admitted, if_pos listed, ← sources, later.split, List.cons_append]
  · cases i with
    | zero => exact isOpen
    | succ i =>
      rw [shift]
      exact later.opened i (Nat.lt_of_succ_lt_succ less)
  · rw [List.length_cons, shift]
    exact later.closed
  · rw [later.stopped, List.exists_mem_cons_iff]
    simp [FilterInput.ends]
  · rw [later.sent, outlet, List.map_cons, List.append_assoc, List.singleton_append]
  · have both := (Stats.Adds.recordSuccess start.plane.stats (batchStats batch)).trans
      (counted ▸ later.counted)
    rw [← add_assoc, ← add_assoc, ← Ledger.success_add, ← batchStats_append] at both
    rw [Bare.refused, if_pos listed, ← sources, contents_cons]
    exact both

theorem Filtered.lose {remote : SocketAddr} {batch : List Packet}
    (listed : remote.ip ∈ start.acceptedSources) (stopped : next.running = false)
    (closed : accepts start.plane.outlet.attempts ingressTx = false)
    (sent : next.plane.outlet.sent = start.plane.outlet.sent)
    (counted : next.plane.stats =
      start.plane.stats.recordDrop .channelClosed (batchStats batch).1 (batchStats batch).2) :
    Filtered ingressTx accepts [.received remote batch] start next [] [(remote, batch)] where
  split := by
    rw [admitted, if_pos listed]
    rfl
  opened i less := absurd less (Nat.not_lt_zero i)
  last := Nat.le_refl 1
  closed _ := closed
  stopped := by simp [stopped]
  sent := by rw [sent, List.map_nil, List.append_nil]
  counted := by
    rw [Bare.refused, if_pos listed, counted]
    simpa [contents, Bare.refused] using
      Stats.Adds.recordDrop start.plane.stats .channelClosed (batchStats batch)

end Cons

theorem filtered_of_run {inputs : List FilterInput} (running : start.running = true)
    (ran : run (filterStep ingressTx accepts) inputs start = some state) :
    ∃ placed lost, Filtered ingressTx accepts inputs start state placed lost := by
  induction inputs generalizing start with
  | nil =>
    cases ran
    exact ⟨[], [], .nil running⟩
  | cons input rest ih =>
    obtain ⟨middle, taken, remaining⟩ := Option.bind_eq_some_iff.mp ran
    obtain ⟨-, filters⟩ := filters_of_step taken
    cases filters with
    | quiet none sources plane runs =>
      cases ends : input.ends with
      | true =>
        have stopped : middle.running = false := by rw [runs, ends, Bool.not_true]
        obtain ⟨rfl, rfl⟩ := eq_of_stopped stopped remaining
        exact ⟨[], [], .ended stopped ends plane none⟩
      | false =>
        obtain ⟨placed, lost, later⟩ := ih (by rw [runs, ends, Bool.not_false]) remaining
        exact ⟨placed, lost, later.quiet none sources plane ends⟩
    | refused unlisted =>
      obtain ⟨placed, lost, later⟩ := ih (by exact running) remaining
      exact ⟨placed, lost, later.refuse unlisted⟩
    | placed listed sources runs isOpen outlet counted =>
      obtain ⟨placed, lost, later⟩ := ih runs remaining
      exact ⟨_, lost, later.place listed sources isOpen outlet counted⟩
    | lost listed stopped closed sent counted =>
      obtain ⟨rfl, rfl⟩ := eq_of_stopped stopped remaining
      exact ⟨_, _, .lose listed stopped closed sent counted⟩

end Filter

/-- Every run of the filter hands the router the batches of accepted sources, in order and by the
set in force when each one came. Only one that meets a closed channel is lost, and it ends the
filter; without one the filter ends only when it is told to or when its surroundings are gone. The
counters account for every packet, under the reason that applies to it. -/
theorem bare_filter_accounts (ingressTx : Sender) (accepts : Nat → Sender → Bool)
    (sources : Finset IpAddr) (inputs : List FilterInput) (state : BareRx)
    (ran : run (filterStep ingressTx accepts) inputs ⟨sources, ⟨.new, .empty⟩, true⟩ =
      some state) :
    ∃ placed lost, admitted sources inputs = placed ++ lost ∧
      (∀ i < placed.length, accepts i ingressTx = true) ∧ lost.length ≤ 1 ∧
      (lost ≠ [] → accepts placed.length ingressTx = false) ∧
      (state.running = false ↔ lost ≠ [] ∨ ∃ input ∈ inputs, input.ends = true) ∧
      state.plane.outlet.sent = placed.map (fun item => (ingressTx, item.2)) ∧
      (state.plane.stats.Below →
        state.plane.stats.ledger = .success (batchStats (contents placed)) +
          .drop .disallowedSource (batchStats (contents (refused sources inputs))) +
          .drop .channelClosed (batchStats (contents lost))) := by
  obtain ⟨placed, lost, filtered⟩ := filtered_of_run rfl ran
  refine ⟨placed, lost, filtered.split, fun i less => ?_, filtered.last, fun some => ?_,
    filtered.stopped, filtered.sent, filtered.counted.of_new⟩
  · rw [← filtered.opened i less, Outlet.empty, Nat.zero_add]
  · rw [← filtered.closed some, Outlet.empty, Nat.zero_add]

def strangerAddr : SocketAddr := ⟨.v4 0x0a000002#32, 6635⟩

def sampleFiltering : List FilterInput :=
  [.received samplePeerAddr [[1]], .updateAcceptedSources {samplePeerAddr.ip},
    .received samplePeerAddr [[2], [3]],
    .received strangerAddr [[4]], .received samplePeerAddr [[5]]]

def sampleFiltered : BareRx :=
  (run (filterStep ⟨0⟩ fun attempt _ => attempt = 0) sampleFiltering ⟨∅, ⟨.new, .empty⟩, true⟩).get
    rfl

theorem bare_filter_accounts_sample :
    sampleFiltered.plane.outlet.sent = [(⟨0⟩, [[2], [3]])] ∧
    ∃ placed lost, [(samplePeerAddr, [[2], [3]]), (samplePeerAddr, [[5]])] = placed ++ lost ∧
      lost ≠ [] ∧ sampleFiltered.plane.stats.ledger = .success (batchStats (contents placed)) +
        .drop .disallowedSource (2, 2) + .drop .channelClosed (batchStats (contents lost)) := by
  obtain ⟨placed, lost, split, -, -, -, stopped, -, counted⟩ :=
    bare_filter_accounts ⟨0⟩ (fun attempt _ => attempt = 0) ∅ sampleFiltering sampleFiltered rfl
  have goesOn : ∀ input ∈ sampleFiltering, input.ends = false := by decide
  have some : lost ≠ [] := by
    apply (stopped.mp rfl).resolve_right
    rintro ⟨input, member, ends⟩
    rw [goesOn input member] at ends
    cases ends
  exact ⟨rfl, placed, lost, split, some, counted (by decide)⟩

/-! ## From router to router -/

/-- A host that sends to `here`: the run of its adapter, and what its UDP sender meets. -/
structure Origin (here : SocketAddr) where
  inputs : List BareTxInput
  tx : BareTx
  ran : run (bareTxStep here) inputs .new = some tx
  nonempty : ∀ packet ∈ inputs.flatMap BareTxInput.passed, packet ≠ []
  env : SendEnv
  positive : ∀ index, 1 ≤ env.maxGsoSegments index

namespace Origin

variable {here : SocketAddr} (origin : Origin here)

def packets : List Packet := origin.inputs.flatMap BareTxInput.passed

def wired : List Packet := packetsAt here (wire (sendBatches origin.env 0 origin.tx.sent))

theorem addressed_sent :
    addressed origin.tx.sent = origin.packets.map fun packet => (here, packet) :=
  (passes_of_run origin.ran).sent

theorem packetsAt_map (packets : List Packet) :
    packetsAt here (packets.map fun packet => (here, packet)) = packets := by
  simp [packetsAt, List.filterMap_map]

theorem nonempty_sent : ∀ batch ∈ origin.tx.sent, ∀ packet ∈ batch.2, packet ≠ [] := by
  intro batch member packet isPacket
  have listed : (batch.1, packet) ∈ addressed origin.tx.sent :=
    List.mem_flatMap.mpr ⟨batch, member, List.mem_map_of_mem isPacket⟩
  rw [addressed_sent] at listed
  obtain ⟨other, given, same⟩ := List.mem_map.mp listed
  rw [← (Prod.mk.inj same).2]
  exact origin.nonempty other given

theorem wired_sublist : origin.wired.Sublist origin.packets ∧
    ((∀ i, origin.env.Answers i .sent) → origin.wired = origin.packets) := by
  obtain ⟨leaves, whole⟩ := wire_sendBatches origin.positive origin.nonempty_sent 0
  rw [addressed_sent] at leaves whole
  refine ⟨?_, fun succeeds => ?_⟩
  · rw [← packetsAt_map origin.packets]
    exact leaves.filterMap _
  · rw [wired, whole succeeds, packetsAt_map]

end Origin

section Receiver

variable {Buf : Type} [ConsumeBuffer Buf]

theorem packetsAt_placed {ingressTx : Sender} {accepts : Nat → Sender → Bool}
    {inputs : List FilterInput} {start state : BareRx}
    {placed lost : List (SocketAddr × List Packet)}
    (filtered : Filtered ingressTx accepts inputs start state placed lost) {rx : UdpRxActor Buf}
    (channel : inputs.filterMap FilterInput.batch <+: rx.output.map fun (addr, batch) =>
      (addr, batch.map ConsumeBuffer.visible))
    (src : SocketAddr) : (packetsAt src (addressed placed)).Sublist (packetsAt src rx.packets) := by
  have through : placed.Sublist (rx.output.map fun (addr, batch) =>
      (addr, batch.map ConsumeBuffer.visible)) := by
    have first : placed.Sublist (admitted start.acceptedSources inputs) := by
      rw [filtered.split]
      exact List.sublist_append_left placed lost
    exact (first.trans (admitted_sublist _ _)).trans channel.sublist
  have packets : rx.packets = addressed (rx.output.map fun (addr, batch) =>
      (addr, batch.map ConsumeBuffer.visible)) := by
    rw [UdpRxActor.packets, addressed, List.flatMap_map]
    simp only [List.map_map]
    rfl
  rw [packets]
  apply List.Sublist.filterMap
  exact through.flatMap _

end Receiver

def sampleOrigin : Origin sampleHere where
  inputs := [.egress [[1, 2], [3, 4]] true, .egress [] true, .egress [[5]] true]
  tx :=
    (run (bareTxStep sampleHere) [.egress [[1, 2], [3, 4]] true, .egress [] true,
    .egress [[5]] true] .new).get rfl
  ran := rfl
  nonempty := by decide
  env := shrinkingDriver
  positive := shrinkingDriver_positive

def sampleLearning : List FilterInput :=
  [.updateAcceptedSources {sampleSrc.ip}, .received sampleSrc [[1, 2], [3, 4], [5]]]

end H3llo.Bare
