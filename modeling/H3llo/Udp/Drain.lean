import H3llo.Basis.Mpsc
import H3llo.Basis.Runs
import H3llo.Udp.Send

/-! The sending actor and its input channel.

A stop closes the channel to producers, and the actor goes on until it has seen the end of
it. Producers, stops and the actor interleave at every await of the loop.
-/

set_option autoImplicit false

namespace H3llo.Udp
open H3llo.Net H3llo.Runs

/-- Packets for one destination. -/
abbrev Batch := SocketAddr × List (List UInt8)

/-- Messages in the control inbox; the actor discards all but stops. -/
inductive Control where
  | stop
  | other
  deriving DecidableEq, Repr

/-- Where the loop is. -/
inductive TxPhase where
  | selecting
  /-- Receiving in the handler of a stop. -/
  | draining
  | sending (batch : Batch)
  | exited
  | failed (outcome : Outcome)
  deriving DecidableEq, Repr

structure UdpTxActor where
  phase : TxPhase
  inbox : List Control
  input : Mpsc Batch
  /-- Number of transmits so far. -/
  index : Nat
  /-- Stops handled so far. -/
  stops : Nat
  /-- Batches that went through the segmentation loop, oldest first. -/
  processed : List (Batch × Sending)

inductive TxAction where
  | produce (batch : Batch)
  | cloneSender
  | dropSender
  | control (message : Control)
  /-- The select is polled. -/
  | poll
  /-- The receive in the handler of a stop is polled. -/
  | recv
  /-- The segmentation loop ends. -/
  | finish

namespace UdpTxActor

def new (queueDepth : Nat) : UdpTxActor := ⟨.selecting, [], .new queueDepth, 0, 0, []⟩

def receive (actor : UdpTxActor) : Option Batch × Mpsc Batch → UdpTxActor
  | (some batch, input) => { actor with input, phase := .sending batch }
  -- The receiver is dropped with the actor.
  | (none, input) => { actor with input := input.close, phase := .exited }

/-- The branch of the inbox comes first. The inbox itself never closes, since the actor holds its
own address. -/
def select (actor : UdpTxActor) : UdpTxActor :=
  match actor.inbox.dropWhile (· ≠ .stop) with
  | _ :: rest =>
      { actor with
        inbox := rest
        input := actor.input.close
        phase := .draining
        stops := actor.stops + 1 }
  | [] =>
      match actor.input.recv with
      | some received => { actor with inbox := [] }.receive received
      | none => { actor with inbox := [] }

def finish (env : SendEnv) (batch : Batch) (actor : UdpTxActor) : Option UdpTxActor :=
  match sendPackets env batch.1 batch.2.length actor.index batch.2 with
  | none => none
  | some ⟨_, .waiting _⟩ => none
  | some sending =>
      let next := { actor with
        index := actor.index + sending.transmits.length
        processed := actor.processed ++ [(batch, sending)] }
      if sending.outcome.continues then some { next with phase := .selecting }
      else some { next with input := next.input.close, phase := .failed sending.outcome }

def step (env : SendEnv) (action : TxAction) (actor : UdpTxActor) : Option UdpTxActor :=
  match action with
  | .produce batch => (actor.input.send batch).map fun result => { actor with input := result.2 }
  | .cloneSender => actor.input.cloneSender.map fun input => { actor with input }
  | .dropSender => actor.input.dropSender.map fun input => { actor with input }
  | .control message => some { actor with inbox := actor.inbox ++ [message] }
  | .poll => if actor.phase = .selecting then some actor.select else none
  | .recv => if actor.phase = .draining then actor.input.recv.map actor.receive else none
  | .finish =>
      match actor.phase with
      | .sending batch => actor.finish env batch
      | .selecting | .draining | .exited | .failed _ => none

/-! ## What a step can do -/

inductive Moves (env : SendEnv) (actor : UdpTxActor) : UdpTxActor → Prop where
  /-- A producer sends, successfully or not. -/
  | produced {batch : Batch} {accepted : Bool} {input : Mpsc Batch}
      (sent : actor.input.send batch = some (accepted, input)) :
      Moves env actor { actor with input }
  | counted (senders : Nat) : Moves env actor { actor with input := { actor.input with senders } }
  | informed (inbox : List Control) : Moves env actor { actor with inbox }
  | stopped (inbox : List Control) (selecting : actor.phase = .selecting) :
      Moves env actor
        { actor with
          inbox
          input := actor.input.close
          phase := .draining
          stops := actor.stops + 1 }
  | received {batch : Batch} {input : Mpsc Batch} (inbox : List Control)
      (receiving : actor.phase = .selecting ∨ actor.phase = .draining)
      (got : actor.input.recv = some (some batch, input)) :
      Moves env actor { actor with inbox, input, phase := .sending batch }
  | exited (inbox : List Control) (receiving : actor.phase = .selecting ∨ actor.phase = .draining)
      (empty : actor.input.queue = []) :
      Moves env actor { actor with inbox, input := actor.input.close, phase := .exited }
  | processed {batch : Batch} {sending : Sending} (sends : actor.phase = .sending batch)
      (result : sendPackets env batch.1 batch.2.length actor.index batch.2 = some sending)
      (continues : sending.outcome.continues = true) :
      Moves env actor { actor with
        index := actor.index + sending.transmits.length
        processed := actor.processed ++ [(batch, sending)]
        phase := .selecting }
  | failed {batch : Batch} {sending : Sending} (sends : actor.phase = .sending batch)
      (result : sendPackets env batch.1 batch.2.length actor.index batch.2 = some sending)
      (fatal : sending.outcome.continues = false)
      (ended : ∀ pending, sending.outcome ≠ .waiting pending) :
      Moves env actor { actor with
        index := actor.index + sending.transmits.length
        processed := actor.processed ++ [(batch, sending)]
        input := actor.input.close
        phase := .failed sending.outcome }

variable {env : SendEnv} {action : TxAction} {actor after : UdpTxActor}

theorem moves_of_receive {inbox : List Control}
    (receiving : actor.phase = .selecting ∨ actor.phase = .draining)
    {received : Option Batch × Mpsc Batch} (got : actor.input.recv = some received) :
    Moves env actor ({ actor with inbox }.receive received) := by
  obtain ⟨value, input⟩ := received
  cases value with
  | none =>
    obtain ⟨empty, rfl⟩ := Mpsc.recv_end got
    exact .exited inbox receiving empty
  | some batch => exact .received inbox receiving got

theorem moves_of_select (selecting : actor.phase = .selecting) : Moves env actor actor.select := by
  unfold select
  split
  next _ rest _ => exact .stopped rest selecting
  next =>
    split
    next received got => exact moves_of_receive (.inl selecting) got
    next => exact .informed []

theorem moves_of_finish {batch : Batch} (sends : actor.phase = .sending batch)
    (taken : actor.finish env batch = some after) : Moves env actor after := by
  unfold finish at taken
  split at taken
  next => cases taken
  next => cases taken
  next sending waits result =>
    simp only at taken
    split at taken
    next continues =>
      cases taken
      exact .processed sends result continues
    next fatal =>
      cases taken
      refine .failed sends result (by simpa using fatal) fun pending waiting => ?_
      exact waits sending.sent pending (by rw [← waiting])

theorem moves_of_step (taken : actor.step env action = some after) : Moves env actor after := by
  cases action with
  | produce batch =>
    obtain ⟨⟨accepted, input⟩, sent, rfl⟩ := Option.map_eq_some_iff.mp taken
    exact .produced sent
  | cloneSender =>
    obtain ⟨input, cloned, rfl⟩ := Option.map_eq_some_iff.mp taken
    obtain ⟨_, same⟩ := Option.ite_none_left_eq_some.mp cloned
    cases same
    exact .counted _
  | dropSender =>
    obtain ⟨input, dropped, rfl⟩ := Option.map_eq_some_iff.mp taken
    obtain ⟨_, same⟩ := Option.ite_none_left_eq_some.mp dropped
    cases same
    exact .counted _
  | control message =>
    cases taken
    exact .informed _
  | poll =>
    obtain ⟨selecting, same⟩ := Option.ite_none_right_eq_some.mp taken
    cases same
    exact moves_of_select selecting
  | recv =>
    obtain ⟨draining, taken⟩ := Option.ite_none_right_eq_some.mp taken
    obtain ⟨received, got, rfl⟩ := Option.map_eq_some_iff.mp taken
    exact moves_of_receive (.inr draining) got
  | finish =>
    simp only [step] at taken
    split at taken
    next batch sends => exact moves_of_finish sends taken
    all_goals cases taken

/-! ## Every accepted batch -/

def current (actor : UdpTxActor) : List Batch :=
  match actor.phase with
  | .sending batch => [batch]
  | .selecting | .draining | .exited | .failed _ => []

/-- Fatal for the actor: an error of the socket, or a panic on an empty packet. -/
def EndsActor (processed : List (Batch × Sending)) : Outcome → Prop
  | .failed _ _ | .unwritable _ _ => True
  | .panicked => ∃ entry ∈ processed, [] ∈ entry.1.2
  | .done | .dropped _ _ | .waiting _ => False

/-- Batches are where the channel and the loop have put them, in the order of the channel. -/
structure Drains (env : SendEnv) (actor : UdpTxActor) : Prop where
  conserves : actor.input.Conserves
  taken : actor.input.taken = actor.processed.map Prod.fst ++ actor.current
  closes : 0 < actor.stops → actor.input.closed = true
  ended : actor.phase = .exited → actor.input.closed = true ∧ actor.input.queue = []
  sent : ∀ entry ∈ actor.processed, ∃ index,
    sendPackets env entry.1.1 entry.1.2.length index entry.1.2 = some entry.2
  fatal : ∀ outcome, actor.phase = .failed outcome → EndsActor actor.processed outcome

theorem current_receiving (receiving : actor.phase = .selecting ∨ actor.phase = .draining) :
    actor.current = [] := by
  unfold current
  rcases receiving with phase | phase <;> rw [phase]

theorem Drains.step (drains : actor.Drains env)
    (moves : Moves env actor after) : after.Drains env := by
  obtain ⟨conserves, taken, closes, ended, sent, fatal⟩ := drains
  -- a batch that the loop has finished
  have finished {batch : Batch} {sending : Sending} (sends : actor.phase = .sending batch)
      (result : sendPackets env batch.1 batch.2.length actor.index batch.2 = some sending) :
      actor.input.taken = (actor.processed ++ [(batch, sending)]).map Prod.fst ∧
        ∀ entry ∈ actor.processed ++ [(batch, sending)], ∃ index,
          sendPackets env entry.1.1 entry.1.2.length index entry.1.2 = some entry.2 := by
    refine ⟨?_, fun entry member => ?_⟩
    · rw [taken, current, sends, List.map_append, List.map_singleton]
    · rcases List.mem_append.mp member with member | member
      · exact sent entry member
      · rw [List.mem_singleton.mp member]
        exact ⟨actor.index, result⟩
  cases moves with
  | produced send =>
    obtain ⟨keeps, closed, same, still⟩ := Mpsc.send_spec send
    refine ⟨keeps conserves, same.trans taken, fun stops => closed.trans (closes stops),
      fun exited => ?_, sent, fatal⟩
    rw [still (ended exited).1]
    exact ended exited
  | counted senders => exact ⟨conserves, taken, closes, ended, sent, fatal⟩
  | informed inbox => exact ⟨conserves, taken, closes, ended, sent, fatal⟩
  | stopped inbox selecting =>
    refine ⟨conserves, ?_, fun _ => rfl, fun exited => (by cases exited), sent,
      fun outcome failed => (by cases failed)⟩
    rw [Mpsc.close, taken, current_receiving (.inl selecting)]
    rfl
  | received inbox receiving got =>
    obtain ⟨keeps, took, closed, _⟩ := Mpsc.recv_value got
    refine ⟨keeps conserves, ?_, fun stops => closed.trans (closes stops),
      fun exited => (by cases exited), sent,
      fun outcome failed => (by cases failed)⟩
    rw [took, taken, current_receiving receiving, List.append_nil]
    rfl
  | exited inbox receiving empty =>
    refine ⟨conserves, ?_, fun _ => rfl, fun _ => ⟨rfl, empty⟩, sent,
      fun outcome failed => (by cases failed)⟩
    rw [Mpsc.close, taken, current_receiving receiving]
    rfl
  | processed sends result continues =>
    obtain ⟨took, loops⟩ := finished sends result
    exact ⟨conserves, took.trans (List.append_nil _).symm, closes,
      fun exited => (by cases exited), loops,
      fun outcome failed => (by cases failed)⟩
  | @failed batch sending sends result stops unfinished =>
    obtain ⟨took, loops⟩ := finished sends result
    refine ⟨conserves, took.trans (List.append_nil _).symm, fun _ => rfl,
      fun exited => (by cases exited), loops, ?_⟩
    intro outcome failed
    cases failed
    cases outcome : sending.outcome with
    | done => simp [outcome, Outcome.continues] at stops
    | dropped => simp [outcome, Outcome.continues] at stops
    | waiting pending => exact unfinished pending outcome
    | failed => trivial
    | unwritable => trivial
    | panicked =>
      refine ⟨(batch, sending), List.mem_append_right _ (List.mem_singleton_self _), ?_⟩
      exact nil_mem_of_panicked result outcome

theorem closed_step (closed : actor.input.closed = true) (moves : Moves env actor after) :
    after.input.closed = true ∧ after.input.accepted = actor.input.accepted := by
  cases moves with
  | produced send =>
    obtain ⟨_, _, _, still⟩ := Mpsc.send_spec send
    rw [still closed]
    exact ⟨closed, rfl⟩
  | received inbox receiving got =>
    obtain ⟨_, _, same, accepted⟩ := Mpsc.recv_value got
    exact ⟨same.trans closed, accepted⟩
  | counted | informed | processed => exact ⟨closed, rfl⟩
  | stopped | exited | failed => exact ⟨rfl, rfl⟩

/-- At every time the accepted batches are, in the order of the channel, those that went through
the segmentation loop, the one in it, and those that wait. When the actor exits, all of them went
through the loop; it ends otherwise only by a fatal error or a packet of no bytes. Once a stop is
handled, nothing more is accepted. -/
theorem drained_before_exit (env : SendEnv) (queueDepth : Nat) {actor : UdpTxActor}
    (reached : Reaches (step env) (fun _ _ => True) (new queueDepth) actor) :
    actor.input.accepted = actor.processed.map Prod.fst ++ actor.current ++ actor.input.queue ∧
    (∀ entry ∈ actor.processed, ∃ index,
      sendPackets env entry.1.1 entry.1.2.length index entry.1.2 = some entry.2) ∧
    (actor.phase = .exited → actor.processed.map Prod.fst = actor.input.accepted) ∧
    (∀ outcome, actor.phase = .failed outcome → EndsActor actor.processed outcome) ∧
    (0 < actor.stops → ∀ later, Reaches (step env) (fun _ _ => True) actor later →
      later.input.accepted = actor.input.accepted) := by
  have initial : (new queueDepth).Drains env :=
    ⟨Mpsc.conserves_new queueDepth, rfl, fun stops => absurd stops (Nat.lt_irrefl 0),
      fun exited => (by cases exited),
      fun entry member => absurd member List.not_mem_nil, fun outcome failed => (by cases failed)⟩
  have drains : actor.Drains env :=
    reached.invariant initial fun _ _ _ drains _ taken => drains.step (moves_of_step taken)
  have whole : actor.input.accepted = actor.processed.map Prod.fst ++ actor.current ++
      actor.input.queue := by
    rw [← drains.taken]
    exact drains.conserves
  refine ⟨whole, drains.sent, fun exited => ?_, drains.fatal, fun stops later reached => ?_⟩
  · have none : actor.current = [] := by rw [current, exited]
    rw [whole, none, (drains.ended exited).2, List.append_nil, List.append_nil]
  · have steady : later.input.closed = true ∧ later.input.accepted = actor.input.accepted := by
      induction reached with
      | refl => exact ⟨drains.closes stops, rfl⟩
      | next _ _ taken steady =>
        obtain ⟨closed, same⟩ := closed_step steady.1 (moves_of_step taken)
        exact ⟨closed, same.trans steady.2⟩
    exact steady.2

/-- Two batches wait when a stop arrives; a third one comes too late. -/
def stopWhileBusy : List TxAction :=
  let dest : SocketAddr := ⟨.v4 0xc0000201#32, 4433⟩
  [.produce (dest, [[1, 2], [3, 4]]), .produce (dest, [[5]]), .control .stop, .poll,
    .produce (dest, [[6]]), .recv, .finish,
    .poll, .finish, .poll]

def readySocket : SendEnv := ⟨false, fun _ => 1, fun _ => [.sent]⟩

theorem drained_before_exit_stop : ∃ actor : UdpTxActor,
    Reaches (step readySocket) (fun _ _ => True) (new 4) actor ∧ actor.phase = .exited ∧
    actor.stops = 1 ∧
      actor.processed.map Prod.fst = actor.input.accepted ∧ actor.input.accepted.length = 2 := by
  have executes : ((run (step readySocket) stopWhileBusy (new 4)).any fun actor =>
      decide (actor.phase = .exited ∧ actor.stops = 1 ∧ actor.input.accepted.length = 2)) =
        true := by
    decide
  obtain ⟨actor, executed, facts⟩ := (Option.any_eq_true ..).mp executes
  obtain ⟨exited, stops, two⟩ := of_decide_eq_true facts
  have reached : Reaches (step readySocket) (fun _ _ => True) (new 4) actor :=
    reaches_of_run (fun _ _ _ => trivial) executed
  exact ⟨actor, reached, exited, stops, (drained_before_exit readySocket 4 reached).2.2.1 exited,
    two⟩

end UdpTxActor
end H3llo.Udp
