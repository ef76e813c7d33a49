import H3llo.Ledger
import H3llo.Tun.Buffer
import H3llo.Udp.Send

/-! The two actors of the TUN device.

One reads batches of packets into buffers that it keeps ready, and hands the filled ones to the
router. The other one writes what the router delivers. What the device answers is an input.
-/

set_option autoImplicit false

namespace H3llo.Tun
open H3llo.Udp H3llo.H3 H3llo.Runs ConsumeBuffer
open GrowBuffer (writeAt writeAt_spec)

inductive Phase where
  | running
  | finished (error : Option String)
  | panicked
  deriving DecidableEq, Repr

/-! ## The reader -/

structure TunRxActor (Buf : Type) where
  phase : Phase
  /-- One buffer for each packet of a batch. -/
  bufs : List Buf
  /-- Buffers that the pool has handed out. -/
  taken : Nat
  counters : Stats
  output : List (List Buf)

/-- `packets` is what the device has put into the buffers; an empty one is a size of zero. -/
inductive RxInput where
  | read (packets : List Packet) (accepted : Bool)
  | failed (error : IoError)
  | stop
  | tick (ownerOpen : Bool)
  deriving DecidableEq, Repr

namespace RxInput

def carried : RxInput → List Packet
  | .read packets true => packets.filter (· ≠ [])
  | .read _ false | .failed _ | .stop | .tick _ => []

def refused : RxInput → List Packet
  | .read packets false => packets.filter (· ≠ [])
  | .read _ true | .failed _ | .stop | .tick _ => []

/-- The device fills no more buffers than there are, and no buffer beyond the interface's limit. -/
def Allowed (mtu batchSize : Nat) : RxInput → Prop
  | .read packets _ => packets.length ≤ batchSize ∧ ∀ packet ∈ packets, packet.length ≤ mtu
  | .failed _ | .stop | .tick _ => True

end RxInput

namespace TunRxActor

section Steps

variable {Buf : Type} [GrowBuffer Buf]

def allocAll (pool : Nat → Buf) (mtu : Nat) : (count taken : Nat) → Option (List Buf)
  | 0, _ => some []
  | count + 1, taken => do
      let buf ← TunBuf.allocUninit (pool taken) mtu
      let bufs ← allocAll pool mtu count (taken + 1)
      return buf :: bufs

def spawn (pool : Nat → Buf) (mtu batchSize : Nat) : Option (TunRxActor Buf) :=
  (allocAll pool mtu batchSize 0).map fun bufs => ⟨.running, bufs, batchSize, .new, []⟩

def takeFilled (pool : Nat → Buf) (mtu : Nat) :
    List Buf → List Packet → (taken : Nat) → Option (List Buf × List Buf × Nat)
  | buf :: bufs, packet :: packets, taken =>
      let filled := writeAt buf 0 packet
      if packet.length > 0 then do
        let fresh ← TunBuf.allocUninit (pool taken) mtu
        let (bufs, batch, taken) ← takeFilled pool mtu bufs packets (taken + 1)
        return (fresh :: bufs, TunBuf.intoPooled filled packet.length :: batch, taken)
      else do
        let (bufs, batch, taken) ← takeFilled pool mtu bufs packets taken
        return (filled :: bufs, batch, taken)
  | bufs, _, taken => some (bufs, [], taken)

def handleRead (pool : Nat → Buf) (mtu : Nat) (packets : List Packet) (accepted : Bool)
    (actor : TunRxActor Buf) : TunRxActor Buf :=
  match takeFilled pool mtu actor.bufs packets actor.taken with
  | none => { actor with phase := .panicked }
  | some (bufs, batch, taken) =>
      if batch.isEmpty then { actor with bufs, taken }
      else
        let (pktCount, totalBytes) := batchStats (batch.map visible)
        if accepted then
          { actor with
            bufs, taken
            counters := actor.counters.recordSuccess pktCount totalBytes
            output := actor.output ++ [batch] }
        else
          { actor with
            bufs, taken, phase := .finished none
            counters := actor.counters.recordDrop .channelClosed pktCount totalBytes }

def step (pool : Nat → Buf) (mtu : Nat) (input : RxInput) (actor : TunRxActor Buf) :
    Option (TunRxActor Buf) :=
  if actor.phase = .running then
    some <| match input with
    | .read packets accepted => actor.handleRead pool mtu packets accepted
    | .failed error =>
        if error.kind = .interrupted then actor
        else { actor with phase := .finished (some "receive packet batch from TUN interface") }
    | .stop => { actor with phase := .finished none }
    | .tick ownerOpen => if ownerOpen then actor else { actor with phase := .finished none }
  else none

end Steps

structure Ready {Buf : Type} [GrowBuffer Buf] (mtu : Nat) (buf : Buf) : Prop where
  room : headroom buf = headroomBytes
  size : mtu ≤ (visible buf).length

section Reading

variable {Buf : Type} [GrowBuffer Buf] {pool : Nat → Buf}
  (reset : ∀ taken, headroom (pool taken) = 0) {mtu : Nat}
  (small : mtu ≤ maxPayload)
include reset small

theorem allocUninit_ready (taken : Nat) :
    ∃ buf, TunBuf.allocUninit (pool taken) mtu = some buf ∧ Ready mtu buf := by
  obtain ⟨buf, allocated, room, enough⟩ := allocUninitPacketBuf_spec (reset taken) mtu
  exact ⟨buf, allocated, room, enough.mpr small⟩

theorem allocAll_ready (count taken : Nat) :
    ∃ bufs, allocAll pool mtu count taken = some bufs ∧ bufs.length = count ∧ ∀ buf ∈ bufs,
    Ready mtu buf := by
  induction count generalizing taken with
  | zero => exact ⟨[], rfl, rfl, by simp⟩
  | succ count ih =>
    obtain ⟨buf, allocated, ready⟩ := allocUninit_ready reset small taken
    obtain ⟨bufs, others, length, all⟩ := ih (taken + 1)
    exact ⟨buf :: bufs, by simp [allocAll, allocated, others], by rw [List.length_cons, length],
      List.forall_mem_cons.mpr ⟨ready, all⟩⟩

theorem takeFilled_spec {bufs : List Buf} (ready : ∀ buf ∈ bufs, Ready mtu buf)
    {packets : List Packet} (enough : packets.length ≤ bufs.length)
    (fits : ∀ packet ∈ packets, packet.length ≤ mtu) (taken : Nat) :
    ∃ next batch count, takeFilled pool mtu bufs packets taken = some (next, batch, count) ∧
      next.length = bufs.length ∧
      (∀ buf ∈ next, Ready mtu buf) ∧ batch.map visible = packets.filter (· ≠ []) ∧
      ∀ buf ∈ batch, headroom buf = headroomBytes := by
  -- Buffers and packets are walked side by side, and a filled buffer is replaced by a fresh one.
  induction bufs generalizing packets taken with
  | nil =>
    obtain rfl := List.eq_nil_of_length_eq_zero (Nat.le_zero.mp enough)
    exact ⟨[], [], taken, rfl, rfl, by simp, rfl, by simp⟩
  | cons buf bufs ih =>
    cases packets with
    | nil => exact ⟨buf :: bufs, [], taken, rfl, rfl, ready, rfl, by simp⟩
    | cons packet packets =>
      obtain ⟨own, others⟩ := List.forall_mem_cons.mp ready
      obtain ⟨first, later⟩ := List.forall_mem_cons.mp fits
      have inside : 0 + packet.length ≤ (visible buf).length := by
        have := own.size
        omega
      obtain ⟨shown, room⟩ := writeAt_spec buf 0 packet inside
      rw [List.take_zero, List.nil_append, Nat.zero_add] at shown
      by_cases empty : packet = []
      -- An empty packet leaves its buffer in place.
      · obtain ⟨next, batch, count, filled, length, again, contents, rooms⟩ :=
          ih others (Nat.le_of_succ_le_succ enough) later taken
        have kept : Ready mtu (writeAt buf 0 packet) := ⟨room.trans own.room, by
          rw [shown, empty, List.nil_append, List.length_nil, List.drop_zero]
          exact own.size⟩
        refine ⟨writeAt buf 0 packet :: next, batch, count,
          ?_, by rw [List.length_cons, length, List.length_cons],
          List.forall_mem_cons.mpr ⟨kept, again⟩, ?_, rooms⟩
        · simp [takeFilled, empty] at filled ⊢
          simp [filled]
        · rw [contents, List.filter_cons_of_neg (by simp [empty])]
      · obtain ⟨fresh, allocated, isReady⟩ := allocUninit_ready reset small taken
        obtain ⟨next, batch, count, filled, length, again, contents, rooms⟩ :=
          ih others (Nat.le_of_succ_le_succ enough) later (taken + 1)
        have positive : packet.length > 0 := List.length_pos_of_ne_nil empty
        obtain ⟨cut, front⟩ := truncate_spec (writeAt buf 0 packet) packet.length
        refine ⟨fresh :: next, TunBuf.intoPooled (writeAt buf 0 packet) packet.length :: batch,
          count, ?_,
          by rw [List.length_cons, length, List.length_cons],
            List.forall_mem_cons.mpr ⟨isReady, again⟩, ?_, ?_⟩
        · simp only [takeFilled, if_pos positive, allocated, filled]
          rfl
        · rw [List.map_cons, contents, List.filter_cons_of_pos (by simp [empty]), TunBuf.intoPooled,
            cut, shown,
            List.take_left]
        · exact List.forall_mem_cons.mpr ⟨front.trans (room.trans own.room), rooms⟩

end Reading

/-- What holds of a reader after inputs that carried `given` and `lost` packets. -/
structure Sound {Buf : Type} [GrowBuffer Buf] (mtu batchSize : Nat) (given lost : List Packet)
    (actor : TunRxActor Buf) : Prop where
  alive : actor.phase ≠ .panicked
  length : actor.bufs.length = batchSize
  ready : ∀ buf ∈ actor.bufs, Ready mtu buf
  output : actor.output.flatten.map visible = given
  nonempty : ∀ batch ∈ actor.output, batch ≠ []
  roomy : ∀ batch ∈ actor.output, ∀ buf ∈ batch, headroom buf = headroomBytes
  counted : Stats.Adds (.success (batchStats given) + .drop .channelClosed (batchStats lost)) .new
    actor.counters

section Runs

variable {Buf : Type} [GrowBuffer Buf] {pool : Nat → Buf}
  (reset : ∀ taken, headroom (pool taken) = 0) {mtu batchSize : Nat}
  (small : mtu ≤ maxPayload) {given lost : List Packet} {actor next last : TunRxActor Buf}

omit reset small in
theorem Sound.finished (sound : actor.Sound mtu batchSize given lost) (error : Option String) :
    ({ actor with phase := .finished error } : TunRxActor Buf).Sound mtu batchSize given lost :=
  ⟨nofun, sound.length, sound.ready, sound.output, sound.nonempty, sound.roomy, sound.counted⟩

include reset small

theorem sound_handleRead (sound : actor.Sound mtu batchSize given lost) {packets : List Packet}
    {accepted : Bool} (allowed : (RxInput.read packets accepted).Allowed mtu batchSize) :
    (actor.handleRead pool mtu packets accepted).Sound mtu batchSize
      (given ++ (RxInput.read packets accepted).carried)
      (lost ++ (RxInput.read packets accepted).refused) := by
  obtain ⟨bufs, batch, count, filled, length, ready, contents, rooms⟩ :=
    takeFilled_spec reset small sound.ready
    (by rw [sound.length]; exact allowed.1) allowed.2 actor.taken
  unfold handleRead
  simp only [filled]
  split
  -- Only empty packets were read: nothing is sent and nothing is counted.
  next none =>
    have silent : packets.filter (· ≠ []) = [] := by
      rw [← contents, List.isEmpty_iff.mp none, List.map_nil]
    have carried : (RxInput.read packets accepted).carried = [] := by
      cases accepted with
      | true => exact silent
      | false => rfl
    have refused : (RxInput.read packets accepted).refused = [] := by
      cases accepted with
      | true => rfl
      | false => exact silent
    rw [carried, refused, List.append_nil, List.append_nil]
    exact ⟨sound.alive, length.trans sound.length, ready, sound.output, sound.nonempty, sound.roomy,
      sound.counted⟩
  next some =>
    rw [contents]
    cases accepted with
    | true =>
      have counted :=
        sound.counted.trans (.recordSuccess actor.counters (batchStats (packets.filter (· ≠ []))))
      rw [add_right_comm, ← Ledger.success_add, ← batchStats_append] at counted
      rw [show (RxInput.read packets true).refused = [] from rfl, List.append_nil]
      refine ⟨sound.alive, length.trans sound.length, ready, ?_, ?_, ?_, counted⟩
      · simp only [if_true, List.flatten_append, List.flatten_singleton, List.map_append,
          sound.output, contents]
        rfl
      · refine List.forall_mem_append.mpr ⟨sound.nonempty,
          List.forall_mem_singleton.mpr fun empty => some ?_⟩
        rw [empty, List.isEmpty_nil]
      · exact List.forall_mem_append.mpr ⟨sound.roomy, List.forall_mem_singleton.mpr rooms⟩
    | false =>
      have counted := sound.counted.trans
        (.recordDrop actor.counters .channelClosed (batchStats (packets.filter (· ≠ []))))
      rw [add_assoc, ← Ledger.drop_add, ← batchStats_append] at counted
      rw [show (RxInput.read packets false).carried = [] from rfl, List.append_nil]
      exact ⟨nofun, length.trans sound.length, ready, sound.output, sound.nonempty,
        sound.roomy, counted⟩

theorem sound_step (sound : actor.Sound mtu batchSize given lost) {input : RxInput}
    (allowed : input.Allowed mtu batchSize) (taken : step pool mtu input actor = some next) :
    next.Sound mtu batchSize (given ++ input.carried) (lost ++ input.refused) := by
  unfold step at taken
  split at taken
  next =>
    cases taken
    cases input with
    | read packets accepted => exact sound_handleRead reset small sound allowed
    | failed error =>
      simp only [RxInput.carried, RxInput.refused, List.append_nil]
      split
      · exact sound
      · exact sound.finished _
    | stop =>
      simp only [RxInput.carried, RxInput.refused, List.append_nil]
      exact sound.finished _
    | tick ownerOpen =>
      simp only [RxInput.carried, RxInput.refused, List.append_nil]
      split
      · exact sound
      · exact sound.finished _
  next => cases taken

theorem sound_run (sound : actor.Sound mtu batchSize given lost) {inputs : List RxInput}
    (allowed : ∀ input ∈ inputs, input.Allowed mtu batchSize)
    (executed : run (step pool mtu) inputs actor = some last) :
    last.Sound mtu batchSize (given ++ inputs.flatMap RxInput.carried)
      (lost ++ inputs.flatMap RxInput.refused) := by
  induction inputs generalizing actor given lost with
  | nil =>
    cases executed
    rwa [List.flatMap_nil, List.flatMap_nil, List.append_nil, List.append_nil]
  | cons input rest ih =>
    obtain ⟨middle, taken, remaining⟩ := Option.bind_eq_some_iff.mp executed
    obtain ⟨first, later⟩ := List.forall_mem_cons.mp allowed
    have done := ih (sound_step reset small sound first taken) later remaining
    rwa [List.append_assoc, List.append_assoc, ← List.flatMap_cons, ← List.flatMap_cons] at done

theorem sound_spawn (batchSize : Nat) :
    ∃ actor, spawn pool mtu batchSize = some actor ∧ actor.phase = .running ∧
      actor.Sound mtu batchSize [] [] := by
  obtain ⟨bufs, allocated, length, ready⟩ := allocAll_ready reset small batchSize 0
  refine ⟨⟨.running, bufs, batchSize, .new, []⟩, by simp [spawn, allocated], rfl, nofun, length,
    ready, rfl, nofun, nofun, ?_⟩
  simpa using Stats.Adds.refl .new

end Runs
end TunRxActor

/-- In every run the router gets the packets that the device reads, in order, each with the room
in front of it that the transports need, and the counters tell what was handed on and what was read
in vain. The actor always has a full set of buffers and does not panic. -/
theorem tun_rx_faithful {Buf : Type} [GrowBuffer Buf] (pool : Nat → Buf)
    (reset : ∀ taken, headroom (pool taken) = 0) (mtu batchSize : Nat) (small : mtu ≤ maxPayload) :
    ∃ start, TunRxActor.spawn pool mtu batchSize = some start ∧
      ∀ inputs : List RxInput, (∀ input ∈ inputs, input.Allowed mtu batchSize) →
        ∀ last, run (TunRxActor.step pool mtu) inputs start = some last →
          last.phase ≠ .panicked ∧ last.bufs.length = batchSize ∧
          last.output.flatten.map visible = inputs.flatMap RxInput.carried ∧
          (∀ batch ∈ last.output, batch ≠ [] ∧ ∀ buf ∈ batch, headroom buf = headroomBytes) ∧
          (last.counters.Below → last.counters.ledger =
            .success (batchStats (inputs.flatMap RxInput.carried)) +
              .drop .channelClosed (batchStats (inputs.flatMap RxInput.refused))) := by
  obtain ⟨start, spawned, -, initial⟩ := TunRxActor.sound_spawn reset small batchSize
  refine ⟨start, spawned, fun inputs allowed last executed => ?_⟩
  have sound := TunRxActor.sound_run reset small initial allowed executed
  rw [List.nil_append, List.nil_append] at sound
  exact ⟨sound.alive, sound.length, sound.output, fun batch member =>
    ⟨sound.nonempty batch member, sound.roomy batch member⟩,
    sound.counted.of_new⟩

def sampleReads : List RxInput :=
  [.tick true, .failed ⟨.interrupted, none⟩, .read [[0x45, 1], [], [0x60]] true]

theorem tun_rx_faithful_sample : ∃ start last : TunRxActor VecBuffer,
    TunRxActor.spawn (fun _ => freshBuffer) 1400 128 = some start ∧
      run (TunRxActor.step (fun _ => freshBuffer) 1400) sampleReads start = some last ∧
      last.output.flatten.map visible = [[0x45, 1], [0x60]] := by
  obtain ⟨start, spawned, faithful⟩ := tun_rx_faithful (fun _ => freshBuffer)
    (fun _ => rfl) 1400 128 (by decide)
  have running : start.phase = .running := by
    obtain ⟨bufs, -, same⟩ := Option.map_eq_some_iff.mp spawned
    rw [← same]
  have executed : run (TunRxActor.step (fun _ => freshBuffer) 1400) sampleReads start =
      some (start.handleRead (fun _ => freshBuffer) 1400 [[0x45, 1], [], [0x60]] true) := by
    simp [sampleReads, run, TunRxActor.step, running]
  have allowed : ∀ input ∈ sampleReads, input.Allowed 1400 128 := by
    simp [sampleReads, RxInput.Allowed]
  exact ⟨start, _, spawned, executed, (faithful sampleReads allowed _ executed).2.2.1⟩

/-! ## The writer -/

/-- Answer of a device write; `none` is success. -/
abbrev WriteAnswer := Option IoError

/-- Answer to the call that takes all packets of a batch. Before an error it may have written
anything. -/
inductive MultipleAnswer where
  | ok
  | failed (error : IoError) (written : List Packet)
  deriving DecidableEq, Repr

structure TunWriter where
  mtu : Nat
  offload : Bool
  deriving DecidableEq, Repr

/-- What the device answers to a batch: to the writes of its packets in turn, or to the one call
that takes all of them. -/
structure BatchAnswer where
  sends : Nat → List WriteAnswer
  sendMultiple : MultipleAnswer

/-- What the device has written, and the error that ended the batch. -/
inductive Sent where
  | waiting
  | panicked
  | done (written : List Packet) (error : Option IoError)
  deriving DecidableEq, Repr

namespace TunWriter

def frame (tun : TunWriter) (packet : Packet) : Packet :=
  if tun.offload then zeroedHdr ++ packet else packet

def sendEach (sends : Nat → List WriteAnswer) : (index : Nat) → List Packet → Sent
  | _, [] => .done [] none
  | index, packet :: rest =>
      match retryOnTransient id (sends index) with
      | none => .waiting
      | some (some error) => .done [] (some error)
      | some none =>
          match sendEach sends (index + 1) rest with
          | .done written error => .done (packet :: written) error
          | other => other

variable {Buf : Type} [GrowBuffer Buf]

def prependAll (pool : Nat → Buf) : (taken : Nat) → List Buf → Option (List Buf)
  | _, [] => some []
  | taken, buf :: rest => do
      let headed ← TunBuf.prependHdr (pool taken) buf
      let others ← prependAll pool (taken + 1) rest
      return headed :: others

def sendBatch (tun : TunWriter) (pool : Nat → Buf) (taken : Nat) (bufs : List Buf)
    (answer : BatchAnswer) : Sent :=
  if tun.offload then
    match prependAll pool taken bufs with
    | none => .panicked
    | some headed =>
        match answer.sendMultiple with
        | .ok => .done (headed.map visible) none
        | .failed error written => .done written (some error)
  else sendEach answer.sends 0 (bufs.map visible)

end TunWriter

structure TunTxActor where
  phase : Phase
  taken : Nat
  counters : Stats
  /-- What the device has written, oldest first. -/
  written : List Packet

inductive TxInput (Buf : Type) where
  | batch (packets : List Buf) (answer : BatchAnswer)
  | closed
  | stop
  | tick (ownerOpen : Bool)

def TxInput.packets {Buf : Type} : TxInput Buf → List Buf
  | .batch packets _ => packets
  | .closed | .stop | .tick _ => []

namespace TunTxActor

def new : TunTxActor := ⟨.running, 0, .new, []⟩

def sendFailed : String := "send packet batch to TUN interface"

section Steps

variable {Buf : Type} [GrowBuffer Buf]

def dropOversize (mtu : Nat) : List Buf → Stats → List Buf × Stats
  | [], counters => ([], counters)
  | packet :: rest, counters =>
      if (visible packet).length > mtu then
        dropOversize mtu rest (counters.recordDrop .oversize 1 (visible packet).length)
      else
        let (tunBufs, counters) := dropOversize mtu rest counters
        (packet :: tunBufs, counters)

def handleBatch (tun : TunWriter) (pool : Nat → Buf) (packets : List Buf) (answer : BatchAnswer)
    (actor : TunTxActor) : Option TunTxActor :=
  let (tunBufs, counters) := dropOversize tun.mtu packets actor.counters
  if tunBufs.isEmpty then some { actor with counters }
  else
    let (okCount, okBytes) := batchStats (tunBufs.map visible)
    match tun.sendBatch pool actor.taken tunBufs answer with
    | .waiting => none
    | .panicked => some { actor with counters, phase := .panicked }
    | .done written none =>
        some { actor with
          taken := actor.taken + tunBufs.length
          counters := counters.recordSuccess okCount okBytes, written := actor.written ++ written }
    | .done written (some _) =>
        some { actor with
          taken := actor.taken + tunBufs.length, phase := .finished (some sendFailed)
          counters := counters.recordDrop .sendError okCount okBytes, written :=
            actor.written ++ written }

def step (tun : TunWriter) (pool : Nat → Buf) (input : TxInput Buf)
    (actor : TunTxActor) : Option TunTxActor :=
  if actor.phase = .running then
    match input with
    | .batch packets answer => actor.handleBatch tun pool packets answer
    | .closed | .stop => some { actor with phase := .finished none }
    | .tick ownerOpen => some (if ownerOpen then actor else { actor with phase := .finished none })
  else none

end Steps

def batched {Buf : Type} [GrowBuffer Buf] (inputs : List (TxInput Buf)) : List Packet :=
  inputs.flatMap fun input => input.packets.map visible

def fitting (mtu : Nat) (packets : List Packet) : List Packet :=
  packets.filter fun packet => packet.length ≤ mtu

def oversize (mtu : Nat) (packets : List Packet) : List Packet :=
  packets.filter fun packet => mtu < packet.length

theorem fitting_append (mtu : Nat) (first second : List Packet) :
    fitting mtu (first ++ second) = fitting mtu first ++ fitting mtu second := List.filter_append ..

theorem oversize_append (mtu : Nat) (first second : List Packet) :
    oversize mtu (first ++ second) = oversize mtu first ++ oversize mtu second :=
  List.filter_append ..

/-- Room for the header, or a size that fits into a fresh buffer. -/
def Headable {Buf : Type} [GrowBuffer Buf] (buf : Buf) : Prop :=
  virtioNetHdrLen ≤ headroom buf ∨ (visible buf).length ≤ maxPayload

end TunTxActor

/-! ### What the device does -/

def TunWriter.Takes (tun : TunWriter) (answer : BatchAnswer) (packets : List Packet) : Prop :=
  if tun.offload then answer.sendMultiple = .ok
  else ∀ i < packets.length, Settles id (answer.sends i) none

/-- The device fails at a batch, of which it has written `written`. Without the offload these are
the packets before the one that it refuses. -/
def TunWriter.Fails (tun : TunWriter) (answer : BatchAnswer) (packets written : List Packet) :
    Prop :=
  if tun.offload then ∃ error, answer.sendMultiple = .failed error written
  else ∃ i < packets.length, ∃ error, (∀ earlier < i, Settles id (answer.sends earlier) none) ∧
    Settles id (answer.sends i) (some error) ∧ written = packets.take i

namespace TxInput

variable {Buf : Type} [GrowBuffer Buf]

/-- The device takes the input as a whole; of a batch without a fitting packet it is not asked. -/
def Taken (tun : TunWriter) : TxInput Buf → Prop
  | .batch packets answer =>
      TunTxActor.fitting tun.mtu (packets.map visible) = [] ∨
        tun.Takes answer (TunTxActor.fitting tun.mtu (packets.map visible))
  | .closed | .stop | .tick _ => True

def ends : TxInput Buf → Bool
  | .closed | .stop | .tick false => true
  | .batch .. | .tick true => false

end TxInput

namespace TunTxActor

section Writing

variable {Buf : Type} [GrowBuffer Buf]

theorem dropOversize_spec (mtu : Nat) (packets : List Buf) (counters : Stats) :
    (dropOversize mtu packets counters).1.map visible = fitting mtu (packets.map visible) ∧
      (∀ buf ∈ (dropOversize mtu packets counters).1,
        buf ∈ packets ∧ (visible buf).length ≤ mtu) ∧
      Stats.Adds (.drop .oversize (batchStats (oversize mtu (packets.map visible)))) counters
        (dropOversize mtu packets counters).2 := by
  induction packets generalizing counters with
  | nil =>
    refine ⟨rfl, by simp [dropOversize], ?_⟩
    simpa [oversize, dropOversize] using Stats.Adds.refl counters
  | cons packet rest ih =>
    by_cases large : (visible packet).length > mtu
    · obtain ⟨kept, members, counted⟩ :=
        ih (counters.recordDrop .oversize 1 (visible packet).length)
      rw [dropOversize, if_pos large]
      refine ⟨?_, fun buf member => ?_, ?_⟩
      · rw [kept, List.map_cons, fitting, fitting, List.filter_cons_of_neg (by simpa using large)]
      · exact (members buf member).imp_left (List.mem_cons_of_mem packet)
      · have both := (Stats.Adds.recordDrop counters .oversize (1, (visible packet).length)).trans
          counted
        rw [← Ledger.drop_add, ← batchStats_cons] at both
        rwa [List.map_cons, oversize, List.filter_cons_of_pos (by simpa using large)]
    · obtain ⟨kept, members, counted⟩ := ih counters
      rw [dropOversize, if_neg large]
      refine ⟨?_, ?_, ?_⟩
      · rw [List.map_cons, kept, List.map_cons, fitting, fitting,
          List.filter_cons_of_pos (by simpa using large)]
      · refine List.forall_mem_cons.mpr ⟨⟨List.mem_cons_self, Nat.le_of_not_lt large⟩, ?_⟩
        exact fun buf member => (members buf member).imp_left (List.mem_cons_of_mem packet)
      · rwa [List.map_cons, oversize, List.filter_cons_of_neg (by simpa using large)]

omit [GrowBuffer Buf] in
theorem sendEach_spec (sends : Nat → List WriteAnswer) (index : Nat) (packets : List Packet) :
    TunWriter.sendEach sends index packets = .waiting ∨
      (TunWriter.sendEach sends index packets = .done packets none ∧
        ∀ i < packets.length, Settles id (sends (index + i)) none) ∨
      ∃ i < packets.length, ∃ error,
        TunWriter.sendEach sends index packets = .done (packets.take i) (some error) ∧
        (∀ earlier < i, Settles id (sends (index + earlier)) none) ∧
        Settles id (sends (index + i)) (some error) := by
  induction packets generalizing index with
  | nil => exact .inr (.inl ⟨rfl, fun i less => absurd less (Nat.not_lt_zero i)⟩)
  | cons packet rest ih =>
    -- the answers to this packet and to some after it
    have extend {count : Nat} (here : Settles id (sends index) none)
        (later : ∀ i < count, Settles id (sends (index + 1 + i)) none) :
        ∀ i < count + 1, Settles id (sends (index + i)) none := by
      intro i less
      cases i with
      | zero => exact here
      | succ i =>
        rw [show index + (i + 1) = index + 1 + i by omega]
        exact later i (Nat.lt_of_succ_lt_succ less)
    rw [TunWriter.sendEach]
    cases answer : retryOnTransient id (sends index) with
    | none => exact .inl rfl
    | some answered =>
      have settled : Settles id (sends index) answered := retryOnTransient_eq_some.mp answer
      cases answered with
      | some error =>
        exact .inr (.inr ⟨0, Nat.succ_pos _, error, rfl,
          fun i less => absurd less (Nat.not_lt_zero i), settled⟩)
      | none =>
        rcases ih (index + 1) with waits | ⟨all, later⟩ | ⟨i, less, error, some, earlier, fails⟩
        · exact .inl (by simp only [waits])
        · exact .inr (.inl ⟨by simp only [all], extend settled later⟩)
        · refine .inr (.inr ⟨i + 1, Nat.succ_lt_succ less, error, ?_, extend settled earlier, ?_⟩)
          · simp only [some, List.take_succ_cons]
          · rwa [show index + (i + 1) = index + 1 + i by omega]

variable {pool : Nat → Buf} (reset : ∀ taken, headroom (pool taken) = 0)
include reset

theorem prependHdr_headable {buf : Buf} (headable : Headable buf) (taken : Nat) :
    ∃ headed, TunBuf.prependHdr (pool taken) buf = some headed ∧
      visible headed = zeroedHdr ++ visible buf := by
  by_cases room : virtioNetHdrLen ≤ headroom buf
  · obtain ⟨headed, made, shown, -⟩ := prependHdr_room (pool taken) room
    exact ⟨headed, made, shown⟩
  · obtain ⟨headed, made, shown, -⟩ :=
      prependHdr_copy (reset taken) (Nat.lt_of_not_le room) (headable.resolve_left room)
    exact ⟨headed, made, shown⟩

theorem prependAll_spec {bufs : List Buf} (headable : ∀ buf ∈ bufs, Headable buf) (taken : Nat) :
    ∃ headed, TunWriter.prependAll pool taken bufs = some headed ∧
      headed.map visible = (bufs.map visible).map fun packet => zeroedHdr ++ packet := by
  induction bufs generalizing taken with
  | nil => exact ⟨[], rfl, rfl⟩
  | cons buf rest ih =>
    obtain ⟨own, others⟩ := List.forall_mem_cons.mp headable
    obtain ⟨headed, made, shown⟩ := prependHdr_headable reset own taken
    obtain ⟨later, prepended, contents⟩ := ih others (taken + 1)
    exact ⟨headed :: later, by simp [TunWriter.prependAll, made, prepended],
      by simp [shown, contents]⟩

theorem sendBatch_spec (tun : TunWriter) {bufs : List Buf}
    (headable : tun.offload = true → ∀ buf ∈ bufs, Headable buf) (taken : Nat)
    (answer : BatchAnswer) :
    tun.sendBatch pool taken bufs answer = .waiting ∨
      (tun.sendBatch pool taken bufs answer = .done ((bufs.map visible).map tun.frame) none ∧
        tun.Takes answer (bufs.map visible)) ∨
      ∃ written error, tun.sendBatch pool taken bufs answer = .done written (some error) ∧
        tun.Fails answer (bufs.map visible) written := by
  unfold TunWriter.sendBatch TunWriter.Takes TunWriter.Fails
  cases offload : tun.offload with
  | true =>
    have framed : tun.frame = fun packet => zeroedHdr ++ packet := by
      funext packet
      simp [TunWriter.frame, offload]
    obtain ⟨headed, prepended, contents⟩ := prependAll_spec reset (headable offload) taken
    rw [framed, if_pos rfl, prepended, ← contents, if_pos rfl]
    simp only [if_true]
    cases sent : answer.sendMultiple with
    | ok => exact .inr (.inl ⟨rfl, rfl⟩)
    | failed error written => exact .inr (.inr ⟨written, error, rfl, error, rfl⟩)
  | false =>
    have plain : tun.frame = id := by
      funext packet
      simp [TunWriter.frame, offload]
    rw [plain, List.map_id, if_neg Bool.false_ne_true, if_neg Bool.false_ne_true]
    simp only [Bool.false_eq_true, if_false]
    rcases sendEach_spec answer.sends 0 (bufs.map visible) with
      waits | ⟨all, taken⟩ | ⟨i, less, error, some, earlier, fails⟩
    · exact .inl waits
    · exact .inr (.inl ⟨all, by simpa only [Nat.zero_add] using taken⟩)
    · refine .inr (.inr ⟨_, error, some, i, less, error, ?_, ?_, rfl⟩)
      · simpa only [Nat.zero_add] using earlier
      · simpa only [Nat.zero_add] using fails

end Writing

structure Sound {Buf : Type} [GrowBuffer Buf] (tun : TunWriter) (inputs : List (TxInput Buf))
    (actor : TunTxActor) : Prop where
  phase : actor.phase = .running ∨ actor.phase = .finished none
  ended : actor.phase = .finished none ↔ ∃ input ∈ inputs, input.ends = true
  taken : ∀ input ∈ inputs, input.Taken tun
  written : actor.written = (fitting tun.mtu (batched inputs)).map tun.frame
  counted : Stats.Adds (.success (batchStats (fitting tun.mtu (batched inputs))) +
    .drop .oversize (batchStats (oversize tun.mtu (batched inputs)))) .new actor.counters

/-- All batches were taken but the last one, `failed`, at which the device has failed after it has
written `more`. -/
structure Broken {Buf : Type} [GrowBuffer Buf] (tun : TunWriter) (earlier : List (TxInput Buf))
    (failed : List Buf) (answer : BatchAnswer) (more : List Packet) (actor : TunTxActor) :
    Prop where
  phase : actor.phase = .finished (some sendFailed)
  taken : ∀ input ∈ earlier, input.Taken tun
  nonempty : fitting tun.mtu (failed.map visible) ≠ []
  fails : tun.Fails answer (fitting tun.mtu (failed.map visible)) more
  written : actor.written = (fitting tun.mtu (batched earlier)).map tun.frame ++ more
  counted : Stats.Adds (.success (batchStats (fitting tun.mtu (batched earlier))) +
    .drop .oversize (batchStats (oversize tun.mtu (batched earlier ++ failed.map visible))) +
    .drop .sendError (batchStats (fitting tun.mtu (failed.map visible)))) .new actor.counters

section Runs

variable {Buf : Type} [GrowBuffer Buf] {tun : TunWriter} {inputs : List (TxInput Buf)}
  {actor next last : TunTxActor}

theorem Sound.quiet (sound : actor.Sound tun inputs) (running : actor.phase = .running)
    {input : TxInput Buf} (silent : input.packets = []) (taken : input.Taken tun)
    (phase : next.phase = if input.ends then .finished none else .running)
    (written : next.written = actor.written) (counters : next.counters = actor.counters) :
    next.Sound tun (inputs ++ [input]) := by
  have same : batched (inputs ++ [input]) = batched inputs := by
    simp [batched, silent]
  have before : ¬ ∃ input ∈ inputs, input.ends = true := by
    rw [← sound.ended, running]
    simp
  refine ⟨?_, ?_,
    ?_, by rw [written, same, sound.written], by rw [counters, same]; exact sound.counted⟩
  · rw [phase]
    split
    · exact .inr rfl
    · exact .inl rfl
  · rw [phase]
    cases ends : input.ends with
    | true => simp [ends]
    | false =>
      refine iff_of_false (by simp) ?_
      rintro ⟨other, member, isEnd⟩
      rcases List.mem_append.mp member with member | member
      · exact before ⟨other, member, isEnd⟩
      · rw [List.mem_singleton.mp member, ends] at isEnd
        cases isEnd
  · exact List.forall_mem_append.mpr ⟨sound.taken, List.forall_mem_singleton.mpr taken⟩

variable {pool : Nat → Buf} (reset : ∀ taken, headroom (pool taken) = 0)
include reset

theorem sound_handleBatch (sound : actor.Sound tun inputs) (running : actor.phase = .running)
    {bufs : List Buf}
    (headable : tun.offload = true → ∀ buf ∈ bufs, (visible buf).length ≤ tun.mtu → Headable buf)
    {answer : BatchAnswer} (taken : actor.handleBatch tun pool bufs answer = some next) :
    next.Sound tun (inputs ++ [.batch bufs answer]) ∨
      ∃ more, next.Broken tun inputs bufs answer more := by
  have all : batched (inputs ++ [.batch bufs answer]) = batched inputs ++ bufs.map visible := by
    simp [batched, TxInput.packets]
  -- the new input does not end the actor
  have ended : actor.phase = .finished none ↔
      ∃ input ∈ inputs ++ [.batch bufs answer], input.ends = true := by
    rw [sound.ended]
    simp [or_and_right, exists_or, TxInput.ends]
  have joined (isTaken : (TxInput.batch bufs answer).Taken tun) :
      ∀ input ∈ inputs ++ [.batch bufs answer], input.Taken tun :=
    List.forall_mem_append.mpr ⟨sound.taken, List.forall_mem_singleton.mpr isTaken⟩
  obtain ⟨kept, members, dropped⟩ := dropOversize_spec tun.mtu bufs actor.counters
  -- what is counted so far, with the packets of this batch that do not fit
  have counted := sound.counted.trans dropped
  rw [add_assoc, ← Ledger.drop_add, ← batchStats_append, ← oversize_append] at counted
  unfold handleBatch at taken
  generalize dropOversize tun.mtu bufs actor.counters = result at kept members counted taken
  obtain ⟨tunBufs, counters⟩ := result
  simp only at kept members counted taken
  split at taken
  next none =>
    cases taken
    have empty : fitting tun.mtu (bufs.map visible) = [] := by
      rw [← kept, List.isEmpty_iff.mp none, List.map_nil]
    left
    refine ⟨.inl running, ended, joined (.inl empty), ?_, ?_⟩
    · rw [all, fitting_append, empty, List.append_nil, sound.written]
    · rwa [all, fitting_append, empty, List.append_nil]
  next some =>
    have nonempty : fitting tun.mtu (bufs.map visible) ≠ [] := by
      rw [← kept]
      exact fun empty => some (by rw [List.map_eq_nil_iff.mp empty, List.isEmpty_nil])
    have ready : tun.offload = true → ∀ buf ∈ tunBufs, Headable buf := fun offload buf member =>
      headable offload buf (members buf member).1 (members buf member).2
    rcases sendBatch_spec reset tun ready actor.taken answer with
      waits | ⟨done, takes⟩ | ⟨more, error, broken, fails⟩
    · simp [waits] at taken
    · simp only [done, Option.some.injEq] at taken
      subst taken
      rw [kept] at takes
      left
      refine ⟨.inl running, ended, joined (.inr takes), ?_, ?_⟩
      · rw [all, fitting_append, List.map_append, sound.written, kept]
      · have success := counted.trans (.recordSuccess counters (batchStats (tunBufs.map visible)))
        rw [add_right_comm, ← Ledger.success_add, ← batchStats_append, kept, ← fitting_append,
          ← all] at success
        rw [kept]
        exact success
    · simp only [broken, Option.some.injEq] at taken
      subst taken
      rw [kept] at fails
      right
      refine ⟨more, rfl, sound.taken, nonempty, fails, by rw [sound.written], ?_⟩
      rw [kept]
      exact counted.trans (.recordDrop counters .sendError _)

theorem sound_step (sound : actor.Sound tun inputs) {input : TxInput Buf}
    (headable : tun.offload = true → ∀ buf ∈ input.packets,
      (visible buf).length ≤ tun.mtu → Headable buf)
    (taken : step tun pool input actor = some next) :
    next.Sound tun (inputs ++ [input]) ∨
      ∃ failed answer more, input = .batch failed answer ∧
        next.Broken tun inputs failed answer more := by
  unfold step at taken
  split at taken
  next running =>
    cases input with
    | batch bufs answer =>
      rcases sound_handleBatch reset sound running headable taken with done | ⟨more, broken⟩
      · exact .inl done
      · exact .inr ⟨bufs, answer, more, rfl, broken⟩
    | closed | stop =>
      cases taken
      exact .inl (sound.quiet running rfl trivial rfl rfl rfl)
    | tick ownerOpen =>
      cases taken
      left
      cases ownerOpen with
      | true => exact sound.quiet running rfl trivial running rfl rfl
      | false => exact sound.quiet running rfl trivial rfl rfl rfl
  next => cases taken

theorem sound_run (sound : actor.Sound tun inputs) {later : List (TxInput Buf)}
    (headable : tun.offload = true → ∀ input ∈ later, ∀ buf ∈ input.packets,
      (visible buf).length ≤ tun.mtu → Headable buf)
    (executed : run (step tun pool) later actor = some last) :
    last.Sound tun (inputs ++ later) ∨
      ∃ earlier failed answer more, inputs ++ later = earlier ++ [.batch failed answer] ∧
        last.Broken tun earlier failed answer more := by
  induction later generalizing actor inputs with
  | nil =>
    cases executed
    rw [List.append_nil]
    exact .inl sound
  | cons input rest ih =>
    obtain ⟨middle, taken, remaining⟩ := Option.bind_eq_some_iff.mp executed
    rcases sound_step reset sound (fun offload => headable offload input List.mem_cons_self)
      taken with done | ⟨failed, answer, more, rfl, broken⟩
    · have others : tun.offload = true → ∀ input ∈ rest, ∀ buf ∈ input.packets,
          (visible buf).length ≤ tun.mtu → Headable buf := fun offload other member =>
        headable offload other (List.mem_cons_of_mem input member)
      rw [List.append_cons]
      exact ih done others remaining
    · -- the actor has ended, so this was the last input
      cases rest with
      | nil =>
        cases remaining
        exact .inr ⟨inputs, failed, answer, more, rfl, broken⟩
      | cons other rest => simp [run, step, broken.phase] at remaining

end Runs

theorem sound_new {Buf : Type} [GrowBuffer Buf] (tun : TunWriter) :
    new.Sound tun ([] : List (TxInput Buf)) where
  phase := .inl rfl
  ended := by simp [new]
  taken := by simp
  written := rfl
  counted := by
    show Stats.Adds _ .new .new
    simpa [oversize, fitting, batched] using Stats.Adds.refl .new

end TunTxActor

def sampleWrites : List (TxInput VecBuffer) :=
  [.batch [⟨[1], 0, by decide⟩, ⟨[1, 2, 3], 0, by decide⟩, ⟨[4], 0, by decide⟩]
    ⟨fun index => if index = 0 then [some ⟨.wouldBlock, none⟩, none] else [some ⟨.other, none⟩],
      .ok⟩]

def sampleWriter : TunTxActor :=
  (run (TunTxActor.step ⟨2, false⟩ fun _ => freshBuffer) sampleWrites .new).get rfl

end H3llo.Tun
