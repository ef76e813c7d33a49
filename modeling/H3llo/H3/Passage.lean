import H3llo.Basis.Datagrams
import H3llo.H3.Forwarding
import H3llo.Ledger

/-! Packets on their way through a tunnel.

The loops of both ends run against each other over the datagrams of their connection. What the
router gives to one end is framed and sent, the network loses and reorders datagrams, and the
other end takes the frames off again.
-/

set_option autoImplicit false

namespace H3llo.H3
open H3llo.Net H3llo.Runs H3llo.Udp ConsumeBuffer

/-! ## One batch -/

def frame (codec : ConnectIpDatagramCodec) (packet : Packet) : Packet :=
  codec.qsiBytes ++ contextIdIp :: packet

theorem frame_injective (codec : ConnectIpDatagramCodec) : Function.Injective (frame codec) := by
  intro first second same
  exact List.tail_eq_of_cons_eq (List.append_cancel_left same)

section Batches

variable {Buf : Type} [PrefixBuffer Buf]

def given (packets : List (Buf × DgramSend)) : List Packet :=
  packets.map fun packet => visible packet.1

def acceptedOf (codec : ConnectIpDatagramCodec) (packets : List (Buf × DgramSend)) : List Packet :=
  packets.filterMap fun (packet, answer) =>
    if (codec.prepend packet).1 = true ∧ answer = .ok then some (visible packet) else none

def datagramsOf (codec : ConnectIpDatagramCodec) (packets : List (Buf × DgramSend)) : List Packet :=
  packets.filterMap fun (packet, answer) =>
    if (codec.prepend packet).1 = true ∧ answer = .ok then
      some (visible (codec.prepend packet).2)
    else none

theorem datagramsOf_eq (codec : ConnectIpDatagramCodec) (packets : List (Buf × DgramSend)) :
    datagramsOf codec packets = (acceptedOf codec packets).map (frame codec) := by
  rw [datagramsOf, acceptedOf, List.map_filterMap]
  congr
  funext ⟨packet, answer⟩
  by_cases taken : (codec.prepend packet).1 = true ∧ answer = .ok
  · have made : codec.prepend packet = (true, (codec.prepend packet).2) := Prod.ext taken.1 rfl
    simp only [if_pos taken, Option.map_some, ConnectIpDatagramCodec.visible_prepend made, frame]
  · simp only [if_neg taken, Option.map_none]

theorem acceptedOf_subset (codec : ConnectIpDatagramCodec) (packets : List (Buf × DgramSend)) :
    acceptedOf codec packets ⊆ given packets := by
  intro packet member
  obtain ⟨⟨buf, answer⟩, listed, found⟩ := List.mem_filterMap.mp member
  simp only [Option.ite_none_right_eq_some, Option.some.injEq] at found
  rw [← found.2]
  exact List.mem_map_of_mem listed

variable {codec : ConnectIpDatagramCodec} {streamId : UInt64} (isFor : codec.For streamId)
include isFor

theorem egressLoop_counts {packets : List (Buf × DgramSend)}
    (roomy : ∀ packet ∈ packets, 9 ≤ headroom packet.1) {okPkts okBytes : Nat}
    (none : okPkts = 0 → okBytes = 0) (counters : Stats) :
    Stats.Credits ((okPkts, okBytes) + batchStats (acceptedOf codec packets)) .noHeadroom counters
        (egressLoop codec packets okPkts okBytes counters) ∧
      Stats.Counts ((okPkts, okBytes) + batchStats (given packets)) counters
        (egressLoop codec packets okPkts okBytes counters) := by
  -- The loop adds up successes and records them once at its end; drops are recorded at once.
  induction packets generalizing okPkts okBytes counters with
  | nil =>
    have nothing : batchStats (acceptedOf codec ([] : List (Buf × DgramSend))) = 0 := rfl
    have empty : batchStats (given ([] : List (Buf × DgramSend))) = 0 := rfl
    rw [egressLoop, nothing, empty, add_zero]
    split
    · exact ⟨.recordSuccess _ counters (okPkts, okBytes), .recordSuccess counters (okPkts, okBytes)⟩
    next zero =>
      have zero : okPkts = 0 := Nat.eq_zero_of_not_pos zero
      rw [zero, none zero]
      exact ⟨.refl _ counters, .refl counters⟩
  | cons head rest ih =>
    obtain ⟨packet, answer⟩ := head
    -- With nine bytes of room the frame always fits.
    obtain ⟨room, later⟩ := List.forall_mem_cons.mp roomy
    obtain ⟨framed, made, -⟩ := ConnectIpDatagramCodec.prepend_spec isFor room
    have flagged : (codec.prepend packet).1 = true := by rw [made]
    have all : batchStats (given ((packet, answer) :: rest)) =
        (1, (visible packet).length) + batchStats (given rest) :=
      batchStats_cons _ _
    rw [all]
    have dropped {reason : DropReason} (other : .noHeadroom ≠ reason) :
        Stats.Credits ((okPkts, okBytes) + batchStats (acceptedOf codec rest)) .noHeadroom counters
            (egressLoop codec rest okPkts okBytes
              (counters.recordDrop reason 1 (visible packet).length)) ∧
          Stats.Counts ((1, (visible packet).length) +
            ((okPkts, okBytes) + batchStats (given rest))) counters
            (egressLoop codec rest okPkts okBytes
              (counters.recordDrop reason 1 (visible packet).length)) := by
      obtain ⟨credits, counts⟩ :=
        ih later none (counters.recordDrop reason 1 (visible packet).length)
      refine ⟨?_, (Stats.Counts.recordDrop counters reason (1, (visible packet).length)).trans
        counts⟩
      rw [← zero_add ((okPkts, okBytes) + _)]
      exact (Stats.Credits.recordDrop other counters (1, (visible packet).length)).trans credits
    cases answer with
    | ok =>
      obtain ⟨credits, counts⟩ :=
        ih later (fun zero => absurd zero (Nat.succ_ne_zero okPkts)) counters
      have accepted : acceptedOf codec ((packet, .ok) :: rest) =
          visible packet :: acceptedOf codec rest := by
        simp [acceptedOf, flagged]
      rw [accepted, batchStats_cons, ← add_assoc, ← add_assoc]
      simp only [egressLoop, flagged, Bool.true_eq_false, if_false]
      exact ⟨credits, counts⟩
    | done =>
      have accepted : acceptedOf codec ((packet, .done) :: rest) = acceptedOf codec rest := by
        simp [acceptedOf]
      rw [accepted, add_left_comm]
      simp only [egressLoop, flagged, Bool.true_eq_false, if_false]
      exact dropped (by decide)
    | failed =>
      have accepted : acceptedOf codec ((packet, .failed) :: rest) = acceptedOf codec rest := by
        simp [acceptedOf]
      rw [accepted, add_left_comm]
      simp only [egressLoop, flagged, Bool.true_eq_false, if_false]
      exact dropped (by decide)

theorem stripAll_frames {datagrams : List Buf} {payloads : List Packet}
    (framed : datagrams.map visible = payloads.map (frame codec))
    (nonempty : ∀ payload ∈ payloads, payload ≠ []) (counters : Stats) :
    ∃ batch, stripAll codec datagrams counters = some (batch, counters) ∧
      batch.map visible = payloads := by
  induction datagrams generalizing payloads with
  | nil =>
    obtain rfl := List.map_eq_nil_iff.mp framed.symm
    exact ⟨[], rfl, rfl⟩
  | cons buf rest ih =>
    obtain ⟨payload, others, rfl, shown, later⟩ := List.map_eq_cons_iff.mp framed.symm
    obtain ⟨own, remaining⟩ := List.forall_mem_cons.mp nonempty
    have isFrame : ConnectIpDatagramCodec.Frames streamId (visible buf) payload :=
      (ConnectIpDatagramCodec.frames_iff isFor).mpr ⟨shown.symm, own⟩
    obtain ⟨batch, stripped, contents⟩ := ih later.symm remaining
    rcases ConnectIpDatagramCodec.strip_spec isFor buf with
      ⟨other, next, otherFrame, taken, left, -⟩ | ⟨noFrame, -⟩
    · have same := ((ConnectIpDatagramCodec.frames_iff isFor).mp otherFrame).1
      have equal : payload = other := frame_injective codec (shown.trans same)
      exact ⟨next ::
        batch, by simp [stripAll, taken, stripped], by rw [List.map_cons, left, contents, equal]⟩
    · exact absurd isFrame (noFrame payload)

theorem collectRouterIngress_frames {datagrams : List Buf} {payloads : List Packet}
    (framed : datagrams.map visible = payloads.map (frame codec))
    (nonempty : ∀ payload ∈ payloads, payload ≠ []) (counters : Stats) :
    ∃ batch after, collectRouterIngress codec datagrams counters = some (batch, after) ∧
      batch.map visible = payloads ∧ Stats.Credits (batchStats payloads) .invalidFraming counters
        after := by
  obtain ⟨batch, stripped, contents⟩ := stripAll_frames isFor framed nonempty counters
  refine ⟨batch, _, by rw [collectRouterIngress, stripped]; rfl, contents, ?_⟩
  have load : batchStats payloads =
      (batch.length, (batch.map fun buf => (visible buf).length).sum) := by
    rw [← contents, batchStats, List.length_map, List.map_map]
    rfl
  split
  · rw [load]
    exact .recordSuccess _ counters (_, _)
  next empty =>
    have none : batch = [] := List.length_eq_zero_iff.mp (Nat.eq_zero_of_not_pos empty)
    rw [load, none]
    exact .refl _ counters

omit isFor in
theorem handleUdpRecv_credits (packets : List Ingest) (counters : Stats) :
    Stats.Credits 0 .invalidFraming counters (handleUdpRecv packets counters) := by
  induction packets generalizing counters with
  | nil => exact .refl _ counters
  | cons packet rest ih =>
    have first : Stats.Credits 0 .invalidFraming counters
        (if packet.dgramRecvQueueFull then counters.recordDrop .queueFull 1 0 else counters) := by
      split
      · exact .recordDrop (by decide) counters (1, 0)
      · exact .refl _ counters
    rw [handleUdpRecv, ← add_zero (0 : Load)]
    apply first.trans
    generalize (if packet.dgramRecvQueueFull then counters.recordDrop .queueFull 1 0 else
      counters) = counters
    split
    · exact ih counters
    · rw [← add_zero (0 : Load)]
      exact (Stats.Credits.recordDrop (by decide) counters (1, packet.length)).trans (ih _)

end Batches

/-! ## One turn of the loop -/

namespace ForwardInput

variable {Buf : Type}

def egress : ForwardInput Buf → List (Buf × DgramSend)
  | .branch (.egress (some packets)) => packets
  | _ => []

def drained : ForwardInput Buf → List Buf
  | .branch (.udpRecv (some received) _) =>
      match received.polled with
      | .ok _ => received.datagrams
      | .error _ => []
  | _ => []

end ForwardInput

namespace Forwarder

variable {Buf : Type}

def collected [PrefixBuffer Buf] (fw : Forwarder Buf) : List Packet :=
  fw.collectedIngress.flatten.map visible

def placed [PrefixBuffer Buf] (fw : Forwarder Buf) : List Packet :=
  fw.placedIngress.flatten.map visible

def held [PrefixBuffer Buf] (fw : Forwarder Buf) : List Packet :=
  fw.pendingIngress.toList.flatten.map visible

structure Quiet (fw next : Forwarder Buf) : Prop where
  codec : next.codec = fw.codec
  rx : next.rxCounters = fw.rxCounters
  tx : next.txCounters = fw.txCounters
  collected : next.collectedIngress = fw.collectedIngress
  placed : next.placedIngress = fw.placedIngress

/-- What a turn can do to the packets of a tunnel. -/
inductive Turn [PrefixBuffer Buf] (fw next : Forwarder Buf) : ForwardInput Buf → Prop where
  | quiet {input : ForwardInput Buf} (egress : input.egress = []) (drained : input.drained = [])
      (quiet : fw.Quiet next) :
      Turn fw next input
  | permitted {input : ForwardInput Buf} {batch : List Buf} (egress : input.egress = [])
      (drained : input.drained = []) (running : fw.InLoop) (held : fw.pendingIngress = some batch)
      (codec : next.codec = fw.codec) (rx : next.rxCounters = fw.rxCounters)
      (tx : next.txCounters = fw.txCounters)
      (collected : next.collectedIngress = fw.collectedIngress)
      (placed : next.placedIngress = fw.placedIngress ++ [batch]) :
      Turn fw next input
  | egress {packets : List (Buf × DgramSend)} (codec : next.codec = fw.codec)
      (rx : next.rxCounters = fw.rxCounters)
      (tx : next.txCounters = handleRouterEgress fw.codec packets fw.txCounters)
      (collected : next.collectedIngress = fw.collectedIngress)
      (placed : next.placedIngress = fw.placedIngress) :
      Turn fw next (.branch (.egress (some packets)))
  | failed {received : Received Buf} {ingress : TrySend} {failure : ConnectFailure}
      (polled : received.polled = .error failure) (codec : next.codec = fw.codec)
      (rx : next.rxCounters = handleUdpRecv received.packets fw.rxCounters)
      (tx : next.txCounters = fw.txCounters)
      (collected : next.collectedIngress = fw.collectedIngress)
      (placed : next.placedIngress = fw.placedIngress) :
      Turn fw next (.branch (.udpRecv (some received) ingress))
  | received {received : Received Buf} {ingress : TrySend} {progress : ConnectProgress}
      {batch : List Buf} {counters : Stats} (running : fw.InLoop)
      (polled : received.polled = .ok progress)
      (gathered : collectRouterIngress fw.codec received.datagrams
        (handleUdpRecv received.packets fw.rxCounters) =
        some (batch, counters))
      (codec : next.codec = fw.codec) (rx : next.rxCounters = counters)
      (tx : next.txCounters = fw.txCounters)
      (collected : next.collectedIngress = fw.collectedIngress ++
        if batch.isEmpty then [] else [batch])
      (placed : next.placedIngress = fw.placedIngress ∨
        next.placedIngress = fw.placedIngress ++ if batch.isEmpty then [] else [batch]) :
      Turn fw next (.branch (.udpRecv (some received) ingress))

variable {fw next : Forwarder Buf}

theorem quiet_endTurn (connClosed : Bool) : fw.Quiet (fw.endTurn connClosed) := by
  unfold endTurn
  split
  · exact ⟨rfl, rfl, rfl, rfl, rfl⟩
  · exact ⟨rfl, rfl, rfl, rfl, rfl⟩

theorem quiet_flush (outgoing : List (Buf × SocketAddr)) (send : TrySend) (connClosed : Bool) :
    fw.Quiet (fw.flush outgoing send connClosed) := by
  unfold flush
  split
  next =>
    split
    next => exact quiet_endTurn connClosed
    next batch _ =>
      cases send with
      | ok =>
        have ends := @quiet_endTurn Buf
          { fw with
            collectedSend := fw.collectedSend ++ [batch]
            placedSend := fw.placedSend ++ [batch] } connClosed
        exact ⟨ends.codec, ends.rx, ends.tx, ends.collected, ends.placed⟩
      | full =>
        have ends := @quiet_endTurn Buf
          (assignSend (some batch) { fw with collectedSend := fw.collectedSend ++ [batch] })
            connClosed
        exact ⟨ends.codec, ends.rx, ends.tx, ends.collected, ends.placed⟩
      | closed => exact ⟨rfl, rfl, rfl, rfl, rfl⟩
  next => exact quiet_endTurn connClosed

variable [PrefixBuffer Buf]

theorem turn_of_onUdpRecv (running : fw.InLoop) (received : Option (Received Buf))
    (ingress : TrySend) :
    Turn fw (fw.onUdpRecv received ingress) (.branch (.udpRecv received ingress)) := by
  unfold onUdpRecv
  cases received with
  | none => exact .quiet rfl rfl ⟨rfl, rfl, rfl, rfl, rfl⟩
  | some received =>
    simp only
    cases polled : received.polled with
    | error failure => exact .failed polled rfl rfl rfl rfl rfl
    | ok progress =>
      obtain ⟨result, stripped⟩ := stripAll_total fw.codec received.datagrams
        (handleUdpRecv received.packets fw.rxCounters)
      obtain ⟨⟨batch, counters⟩, gathered⟩ : ∃ found,
          collectRouterIngress fw.codec received.datagrams
            (handleUdpRecv received.packets fw.rxCounters) = some found :=
        ⟨_, by rw [collectRouterIngress, stripped, Option.map_some]⟩
      simp only [gathered]
      split
      next empty => exact .received running polled gathered rfl rfl rfl (by simp [empty]) (.inl rfl)
      next some =>
        cases ingress with
        | ok =>
          exact .received running polled gathered rfl rfl rfl
            (by simp [some, offerIngress, assignIngress])
            (.inr (by simp [some, offerIngress, assignIngress]))
        | full =>
          exact .received running polled gathered rfl rfl rfl
            (by simp [some, offerIngress, assignIngress]) (.inl rfl)
        | closed =>
          exact .received running polled gathered rfl rfl rfl (by simp [some, offerIngress, exit])
            (.inl rfl)

theorem turn_of_select (running : fw.InLoop) {ingressPending sendPending : Bool}
    {branch : Branch Buf} (taken : fw.select ingressPending sendPending branch = some next) :
    Turn fw next (.branch branch) := by
  cases branch with
  | udpRecv received ingress =>
    obtain ⟨-, same⟩ := Option.ite_none_left_eq_some.mp taken
    cases same
    exact turn_of_onUdpRecv running received ingress
  | ingressPermit granted =>
    obtain ⟨-, same⟩ := Option.ite_none_right_eq_some.mp taken
    cases same
    cases granted with
    | false => exact .quiet rfl rfl ⟨rfl, rfl, rfl, rfl, rfl⟩
    | true =>
      cases held : fw.pendingIngress with
      | none =>
        simp only [onIngressPermit, held, if_true]
        exact .quiet rfl rfl ⟨rfl, rfl, rfl, rfl, rfl⟩
      | some batch =>
        simp only [onIngressPermit, held, if_true]
        exact .permitted rfl rfl running held rfl rfl rfl rfl rfl
  | egress packets =>
    cases taken
    cases packets with
    | none => exact .quiet rfl rfl ⟨rfl, rfl, rfl, rfl, rfl⟩
    | some packets => exact .egress rfl rfl rfl rfl rfl
  | sendPermit granted =>
    obtain ⟨-, same⟩ := Option.ite_none_right_eq_some.mp taken
    cases same
    unfold onSendPermit
    split
    · split
      · exact .quiet rfl rfl ⟨rfl, rfl, rfl, rfl, rfl⟩
      · exact .quiet rfl rfl ⟨rfl, rfl, rfl, rfl, rfl⟩
    · exact .quiet rfl rfl ⟨rfl, rfl, rfl, rfl, rfl⟩
  -- The other branches touch neither packets nor counters.
  | stop | timer | keepalive | ticker =>
    cases taken
    exact .quiet rfl rfl ⟨rfl, rfl, rfl, rfl, rfl⟩

theorem turn_of_step {input : ForwardInput Buf} (taken : fw.step input = some next) :
    Turn fw next input := by
  unfold step at taken
  split at taken
  next =>
    cases taken
    exact .quiet rfl rfl ⟨rfl, rfl, rfl, rfl, rfl⟩
  next ingressPending sendPending branch point =>
    apply turn_of_select _ taken
    rw [InLoop, point]
    trivial
  next outgoing send connClosed point =>
    cases taken
    exact .quiet rfl rfl (quiet_flush outgoing send connClosed)
  next failure outgoing accepted point =>
    cases taken
    unfold cleanup
    split
    · exact .quiet rfl rfl ⟨rfl, rfl, rfl, rfl, rfl⟩
    · exact .quiet rfl rfl ⟨rfl, rfl, rfl, rfl, rfl⟩
  next => cases taken

def Runs (codec : ConnectIpDatagramCodec) (fw : Forwarder Buf) : Prop :=
  Reaches step (fun _ _ => True) (new codec) fw

theorem Runs.codec_eq {codec : ConnectIpDatagramCodec}
    (runs : fw.Runs codec) : fw.codec = codec := by
  unfold Runs at runs
  induction runs with
  | refl => rfl
  | next _ _ taken same =>
    cases turn_of_step taken with
    | quiet _ _ quiet => exact quiet.codec.trans same
    | permitted _ _ _ _ kept => exact kept.trans same
    | egress kept => exact kept.trans same
    | failed _ kept => exact kept.trans same
    | received _ _ _ kept => exact kept.trans same

theorem Runs.lossless {codec : ConnectIpDatagramCodec} (runs : fw.Runs codec) : fw.Lossless := by
  unfold Runs at runs
  induction runs with
  | refl => exact ⟨⟨rfl, by simp [new]⟩, rfl, rfl⟩
  | next _ _ taken lossless => exact lossless.step taken

theorem Runs.placed_initial {codec : ConnectIpDatagramCodec} (runs : fw.Runs codec) :
    fw.placedIngress <+: fw.collectedIngress := by
  unfold Runs at runs
  induction runs with
  | refl => exact List.prefix_refl _
  | next earlier _ taken inOrder =>
    have lossless := Runs.lossless earlier
    cases turn_of_step taken with
    | quiet _ _ quiet => rwa [quiet.placed, quiet.collected]
    | permitted _ _ running held _ _ _ collected placed =>
      have balanced := (lossless.balanced running).ingress
      rw [collected, placed, balanced, held]
      exact List.prefix_refl _
    | egress _ _ _ collected placed => rwa [collected, placed]
    | failed _ _ _ _ collected placed => rwa [collected, placed]
    | received running _ _ _ _ _ collected placed =>
      have balanced := (lossless.balanced running).ingress
      rw [lossless.free_of_udpRecv taken, Option.toList_none, List.append_nil] at balanced
      rcases placed with placed | placed
      · rw [collected, placed]
        exact inOrder.trans (List.prefix_append _ _)
      · rw [collected, placed, balanced]

theorem Runs.placed_isPrefix {codec : ConnectIpDatagramCodec} (runs : fw.Runs codec) :
    fw.placed <+: fw.collected := by
  obtain ⟨rest, split⟩ := runs.placed_initial
  rw [placed, collected, ← split, List.flatten_append, List.map_append]
  exact List.prefix_append _ _

theorem Runs.collected_eq {codec : ConnectIpDatagramCodec} (runs : fw.Runs codec)
    (running : fw.InLoop) : fw.collected = fw.placed ++ fw.held := by
  rw [collected, (runs.lossless.balanced running).ingress, List.flatten_append, List.map_append]
  rfl

end Forwarder

/-! ## Both ends -/

inductive Side where
  | client
  | server
  deriving DecidableEq, Repr

def Side.other : Side → Side
  | .client => .server
  | .server => .client

theorem Side.eq_or_other (side origin : Side) : side = origin ∨ side = origin.other := by
  cases side <;> cases origin <;> decide

theorem Side.other_ne (side : Side) : side.other ≠ side := by cases side <;> decide

@[simp] theorem Side.other_other (side : Side) : side.other.other = side := by cases side <;> rfl

/-- The services carry the datagrams of each side to the other one. What a side's router has given
to it, and what the library has taken of that, is kept for the statements only. -/
structure Passage (Buf : Type) where
  ends : Side → Forwarder Buf
  services : Side → Lossy Packet
  offered : Side → List Packet
  accepted : Side → List Packet

inductive PassageAction (Buf : Type) where
  | forward (side : Side) (input : ForwardInput Buf)
  | carry (side : Side) (fate : Fate)

namespace Passage

variable {Buf : Type} [PrefixBuffer Buf]

omit [PrefixBuffer Buf] in
def new (codec : ConnectIpDatagramCodec) : Passage Buf :=
  ⟨fun _ => .new codec, fun _ => .empty, fun _ => [], fun _ => []⟩

/-- An end turns: its datagrams join its own queue, and it takes those that have arrived. -/
def forward (side : Side) (input : ForwardInput Buf) (next : Forwarder Buf)
    (passage : Passage Buf) : Passage Buf :=
  let codec := (passage.ends side).codec
  { ends := Function.update passage.ends side next
    services := fun origin =>
      if origin = side then (passage.services origin).enqueue (datagramsOf codec input.egress)
      else (passage.services origin).take input.drained.length
    offered := fun origin =>
      if origin = side then passage.offered origin ++ given input.egress
      else passage.offered origin
    accepted := fun origin =>
      if origin = side then
        passage.accepted origin ++ acceptedOf codec input.egress
      else passage.accepted origin }

def step (action : PassageAction Buf) (passage : Passage Buf) : Option (Passage Buf) :=
  match action with
  | .forward side input =>
      ((passage.ends side).step input).map fun next => passage.forward side input next
  | .carry side fate =>
      ((passage.services side).step fate).map fun service =>
        { passage with services := Function.update passage.services side service }

/-- The router gives packets with room for a frame, and the library returns what has arrived. -/
def Allowed (passage : Passage Buf) : PassageAction Buf → Prop
  | .forward side input =>
      (∀ packet ∈ input.egress, visible packet.1 ≠ [] ∧ 9 ≤ headroom packet.1) ∧
        input.drained.map visible <+: (passage.services side.other).arrived
  | .carry _ _ => True

def InOrder : PassageAction Buf → Prop
  | .forward _ _ => True
  | .carry _ fate => fate.InOrder

def received (passage : Passage Buf) (side : Side) : List Packet :=
  (passage.ends side.other).collected

section Fields

variable (side : Side) (input : ForwardInput Buf) (next : Forwarder Buf) (passage : Passage Buf)

@[simp] theorem ends_forward : (passage.forward side input next).ends side = next :=
  Function.update_self ..

@[simp] theorem ends_forward_other :
    (passage.forward side input next).ends side.other = passage.ends side.other :=
  Function.update_of_ne side.other_ne ..

@[simp] theorem services_forward : (passage.forward side input next).services side =
    (passage.services side).enqueue (datagramsOf (passage.ends side).codec input.egress) :=
  if_pos rfl

@[simp] theorem services_forward_other :
    (passage.forward side input next).services side.other =
      (passage.services side.other).take input.drained.length :=
  if_neg side.other_ne

@[simp] theorem offered_forward :
    (passage.forward side input next).offered side = passage.offered side ++ given input.egress :=
  if_pos rfl

@[simp] theorem offered_forward_other :
    (passage.forward side input next).offered side.other = passage.offered side.other :=
  if_neg side.other_ne

@[simp] theorem accepted_forward : (passage.forward side input next).accepted side =
    passage.accepted side ++ acceptedOf (passage.ends side).codec input.egress := if_pos rfl

@[simp] theorem accepted_forward_other :
    (passage.forward side input next).accepted side.other = passage.accepted side.other :=
  if_neg side.other_ne

end Fields

/-- What holds of the packets from one side to the other, in every state. -/
structure Conserved (codec : ConnectIpDatagramCodec) (passage : Passage Buf)
    (side : Side) : Prop where
  near : (passage.ends side).Runs codec
  far : (passage.ends side.other).Runs codec
  nonempty : ∀ packet ∈ passage.accepted side, packet ≠ []
  balance : ((passage.accepted side).map (frame codec) : Multiset Packet) =
    ((passage.received side).map (frame codec) : Multiset Packet) + (passage.services side).contents
  tx : Stats.Credits (batchStats (passage.accepted side)) .noHeadroom .new
    (passage.ends side).txCounters
  outcomes : Stats.Counts (batchStats (passage.offered side)) .new (passage.ends side).txCounters
  rx : Stats.Credits (batchStats (passage.received side)) .invalidFraming .new
    (passage.ends side.other).rxCounters

theorem conserved_new (codec : ConnectIpDatagramCodec) (side : Side) :
    (new codec : Passage Buf).Conserved codec side where
  near := .refl
  far := .refl
  nonempty := nofun
  balance := rfl
  tx := .refl _ _
  outcomes := .refl _
  rx := .refl _ _

section Turns

variable {codec : ConnectIpDatagramCodec} {streamId : UInt64} {passage : Passage Buf} {side : Side}
  {input : ForwardInput Buf} {next : Forwarder Buf}

theorem tx_of_turn (isFor : codec.For streamId) {fw : Forwarder Buf} (own : fw.codec = codec)
    (roomy : ∀ packet ∈ input.egress, 9 ≤ headroom packet.1) (turn : fw.Turn next input) :
    Stats.Credits (batchStats (acceptedOf codec input.egress)) .noHeadroom fw.txCounters
      next.txCounters ∧
      Stats.Counts (batchStats (given input.egress)) fw.txCounters next.txCounters := by
  have idle (none : input.egress = []) (same : next.txCounters = fw.txCounters) :
      Stats.Credits (batchStats (acceptedOf codec input.egress)) .noHeadroom fw.txCounters
        next.txCounters ∧
        Stats.Counts (batchStats (given input.egress)) fw.txCounters next.txCounters := by
    rw [none, same]
    exact ⟨.refl _ _, .refl _⟩
  cases turn with
  | quiet none _ quiet => exact idle none quiet.tx
  | permitted none _ _ _ _ _ same => exact idle none same
  | @egress packets _ _ tx =>
    have counted := egressLoop_counts isFor roomy (fun _ => rfl : (0 : Nat) = 0 → (0 : Nat) = 0)
      fw.txCounters
    rw [tx, own]
    have nothing : ((0, 0) : Load) = 0 := rfl
    rw [nothing, zero_add, zero_add] at counted
    exact counted
  | failed _ _ _ same => exact idle rfl same
  | received _ _ _ _ _ same => exact idle rfl same

theorem rx_of_turn (isFor : codec.For streamId) {fw : Forwarder Buf} (own : fw.codec = codec)
    {payloads : List Packet} (framed : input.drained.map visible = payloads.map (frame codec))
    (nonempty : ∀ payload ∈ payloads, payload ≠ []) (turn : fw.Turn next input) :
    next.collected = fw.collected ++ payloads ∧
      Stats.Credits (batchStats payloads) .invalidFraming fw.rxCounters next.rxCounters := by
  have idle (none : input.drained = []) (collected : next.collectedIngress = fw.collectedIngress)
      (credits : Stats.Credits 0 .invalidFraming fw.rxCounters next.rxCounters) :
      next.collected = fw.collected ++ payloads ∧
        Stats.Credits (batchStats payloads) .invalidFraming fw.rxCounters next.rxCounters := by
    rw [none, List.map_nil] at framed
    rw [List.map_eq_nil_iff.mp framed.symm, List.append_nil, Forwarder.collected, collected]
    exact ⟨rfl, credits⟩
  cases turn with
  | quiet _ none quiet => exact idle none quiet.collected (quiet.rx ▸ .refl _ _)
  | permitted _ none _ _ _ same _ collected => exact idle none collected (same ▸ .refl _ _)
  | egress _ same _ collected => exact idle rfl collected (same ▸ .refl _ _)
  | failed polled _ rx _ collected =>
    exact idle (by rw [ForwardInput.drained, polled]) collected (rx ▸ handleUdpRecv_credits _ _)
  | @received received ingress progress batch counters _ polled gathered _ rx _ collected =>
    rw [ForwardInput.drained, polled] at framed
    obtain ⟨found, after, collects, contents, credits⟩ :=
      collectRouterIngress_frames isFor framed nonempty
        (handleUdpRecv received.packets fw.rxCounters)
    rw [own, collects, Option.some.injEq, Prod.mk.injEq] at gathered
    obtain ⟨rfl, rfl⟩ := gathered
    constructor
    · have added : (if found.isEmpty then [] else [found]).flatten = found := by
        cases found <;> simp
      rw [Forwarder.collected, collected, List.flatten_append, List.map_append, added, contents]
      rfl
    · rw [rx, ← zero_add (batchStats payloads)]
      exact (handleUdpRecv_credits received.packets fw.rxCounters).trans credits

theorem runs_next {fw : Forwarder Buf} (runs : fw.Runs codec)
    (taken : fw.step input = some next) : next.Runs codec :=
  Reaches.next runs trivial taken

theorem conserved_near (isFor : codec.For streamId) (conserved : passage.Conserved codec side)
    (allowed : passage.Allowed (.forward side input))
    (taken : (passage.ends side).step input = some next) :
    (passage.forward side input next).Conserved codec side := by
  have own := conserved.near.codec_eq
  obtain ⟨credits, counts⟩ :=
    tx_of_turn isFor own (fun packet member => (allowed.1 packet member).2)
    (Forwarder.turn_of_step taken)
  constructor
  · rw [ends_forward]
    exact runs_next conserved.near taken
  · rw [ends_forward_other]
    exact conserved.far
  · rw [accepted_forward]
    refine List.forall_mem_append.mpr ⟨conserved.nonempty, fun packet member => ?_⟩
    obtain ⟨offered, listed, rfl⟩ := List.mem_map.mp (acceptedOf_subset _ _ member)
    exact (allowed.1 offered listed).1
  · rw [accepted_forward, services_forward, received, ends_forward_other, ← received,
      Lossy.contents_enqueue, own, datagramsOf_eq, ← add_assoc, ← conserved.balance,
      List.map_append, Multiset.coe_add]
  · rw [ends_forward, accepted_forward, own, batchStats_append]
    exact conserved.tx.trans credits
  · rw [ends_forward, offered_forward, batchStats_append]
    exact conserved.outcomes.trans counts
  · rw [received, ends_forward_other]
    exact conserved.rx

theorem frames_arrived (conserved : passage.Conserved codec side) {taken : List Packet}
    (front : taken <+: (passage.services side).arrived) :
    ∃ payloads : List Packet, taken = payloads.map (frame codec) ∧ ∀ payload ∈ payloads,
    payload ≠ [] := by
  have framed : ∀ datagram ∈ taken, ∃ packet, packet ≠ [] ∧ frame codec packet = datagram := by
    intro datagram member
    have inside : datagram ∈ (passage.services side).contents := by
      simp [Lossy.contents, front.subset member]
    have sent : datagram ∈ ((passage.accepted side).map (frame codec) : Multiset Packet) := by
      rw [conserved.balance]
      exact Multiset.mem_add.mpr (.inr inside)
    obtain ⟨packet, listed, same⟩ := List.mem_map.mp (Multiset.mem_coe.mp sent)
    exact ⟨packet, conserved.nonempty packet listed, same⟩
  clear front
  induction taken with
  | nil => exact ⟨[], rfl, by simp⟩
  | cons datagram rest ih =>
    obtain ⟨⟨packet, nonempty, same⟩, later⟩ := List.forall_mem_cons.mp framed
    obtain ⟨payloads, split, all⟩ := ih later
    exact ⟨packet :: payloads, by rw [List.map_cons, same, split],
      List.forall_mem_cons.mpr ⟨nonempty, all⟩⟩

theorem conserved_far (isFor : codec.For streamId) (conserved : passage.Conserved codec side)
    (allowed : passage.Allowed (.forward side.other input))
    (taken : (passage.ends side.other).step input = some next) :
    (passage.forward side.other input next).Conserved codec side ∧
      ∃ payloads : List Packet, input.drained.map visible = payloads.map (frame codec) ∧
        (passage.forward side.other input next).received side = passage.received side ++
          payloads := by
  have own := conserved.far.codec_eq
  have front := allowed.2
  rw [Side.other_other] at front
  obtain ⟨payloads, framed, nonempty⟩ := frames_arrived conserved front
  obtain ⟨collected, credits⟩ := rx_of_turn isFor own framed nonempty (Forwarder.turn_of_step taken)
  have grows : (passage.forward side.other input next).received side =
      passage.received side ++ payloads := by
    rw [received, ends_forward, collected, received]
  have same := ends_forward_other side.other input next passage
  have service := services_forward_other side.other input next passage
  have accepts := accepted_forward_other side.other input next passage
  have offers := offered_forward_other side.other input next passage
  rw [Side.other_other] at same service accepts offers
  refine ⟨⟨?_, ?_, ?_, ?_, ?_, ?_, ?_⟩, payloads, framed, grows⟩
  · rw [same]
    exact conserved.near
  · rw [ends_forward]
    exact runs_next conserved.far taken
  · rw [accepts]
    exact conserved.nonempty
  -- What is drained has left the service and is received.
  · have moved := Lossy.contents_take front
    rw [List.length_map, framed] at moved
    rw [accepts, grows, service, conserved.balance, moved, List.map_append, ← Multiset.coe_add,
      add_assoc]
  · rw [same, accepts]
    exact conserved.tx
  · rw [same, offers]
    exact conserved.outcomes
  · rw [ends_forward, grows, batchStats_append]
    exact conserved.rx.trans credits

omit [PrefixBuffer Buf] in
theorem contents_carry {fate : Fate} {service : Lossy Packet} {moved : Side}
    (taken : (passage.services moved).step fate = some service) (side : Side) :
    (Function.update passage.services moved service side).contents =
      (passage.services side).contents := by
  by_cases same : side = moved
  · subst same
    rw [Function.update_self, Lossy.contents_step taken]
  · rw [Function.update_of_ne same]

theorem conserved_step (isFor : codec.For streamId)
    (conserved : ∀ side, passage.Conserved codec side) {action : PassageAction Buf}
    (allowed : passage.Allowed action) {after : Passage Buf}
    (taken : step action passage = some after) (side : Side) : after.Conserved codec side := by
  cases action with
  | forward mover input =>
    obtain ⟨next, turned, rfl⟩ := Option.map_eq_some_iff.mp taken
    rcases mover.eq_or_other side with rfl | rfl
    · exact conserved_near isFor (conserved mover) allowed turned
    · exact (conserved_far isFor (conserved side) allowed turned).1
  | carry moved fate =>
    obtain ⟨service, carried, rfl⟩ := Option.map_eq_some_iff.mp taken
    have before := conserved side
    exact ⟨before.near, before.far,
      before.nonempty, by rw [contents_carry carried]; exact before.balance, before.tx,
      before.outcomes, before.rx⟩

theorem conserved_of_reaches (isFor : codec.For streamId)
    (reached : Reaches step Allowed (new codec) passage) (side : Side) :
    passage.Conserved codec side := by
  induction reached generalizing side with
  | refl => exact conserved_new codec side
  | next _ allowed taken ih => exact conserved_step isFor ih allowed taken side

/-- Where the network keeps the order, what was received and what may still be received lie in
the order in which they were sent. -/
def Ordered (codec : ConnectIpDatagramCodec) (passage : Passage Buf) (side : Side) : Prop :=
  ((passage.received side).map (frame codec) ++ (passage.services side).pipeline).Sublist
    ((passage.accepted side).map (frame codec))

theorem ordered_near (own : (passage.ends side).codec = codec)
    (ordered : passage.Ordered codec side) :
    (passage.forward side input next).Ordered codec side := by
  unfold Ordered at ordered ⊢
  rw [received, ends_forward_other, ← received, services_forward, accepted_forward, own,
    Lossy.pipeline_enqueue, datagramsOf_eq, ← List.append_assoc, List.map_append]
  exact ordered.append (.refl _)

theorem ordered_far (isFor : codec.For streamId) (conserved : passage.Conserved codec side)
    (allowed : passage.Allowed (.forward side.other input))
    (taken : (passage.ends side.other).step input = some next)
    (ordered : passage.Ordered codec side) :
    (passage.forward side.other input next).Ordered codec side := by
  obtain ⟨-, payloads, framed, grows⟩ := conserved_far isFor conserved allowed taken
  have front := allowed.2
  have service := services_forward_other side.other input next passage
  have accepts := accepted_forward_other side.other input next passage
  rw [Side.other_other] at front service accepts
  have moved := Lossy.pipeline_take front
  rw [List.length_map, framed] at moved
  unfold Ordered at ordered ⊢
  rw [grows, service, accepts, List.map_append, List.append_assoc, ← moved]
  exact ordered

theorem ordered_of_reaches (isFor : codec.For streamId)
    (reached : Reaches step (fun state action => state.Allowed action ∧ InOrder action)
      (new codec) passage)
    (side : Side) : passage.Ordered codec side := by
  induction reached generalizing side with
  | refl => exact List.Sublist.refl _
  | @next before after action earlier allowed taken ih =>
    have conserved := conserved_of_reaches isFor (earlier.mono fun _ _ both => both.1)
    cases action with
    | forward mover input =>
      obtain ⟨next, turned, rfl⟩ := Option.map_eq_some_iff.mp taken
      rcases mover.eq_or_other side with rfl | rfl
      · exact ordered_near (conserved mover).near.codec_eq (ih mover)
      · exact ordered_far isFor (conserved side) allowed.1 turned (ih side)
    | carry moved fate =>
      obtain ⟨service, carried, rfl⟩ := Option.map_eq_some_iff.mp taken
      have shrinks : (Function.update before.services moved service side).pipeline.Sublist
          (before.services side).pipeline := by
        by_cases same : side = moved
        · subst same
          rw [Function.update_self]
          exact Lossy.pipeline_step carried allowed.2
        · rw [Function.update_of_ne same]
      exact ((List.Sublist.refl _).append shrinks).trans (ih side)

end Turns

section Results

variable {streamId : UInt64} {codec : ConnectIpDatagramCodec} {passage : Passage Buf}

/-- In every run of both ends, whatever the network loses or reorders: the router of one side
gets no packet that the router of the other side has not given, and none more often than given.
The counters of both sides agree up to what is on its way or lost, every packet given is counted
once, and none is refused for its framing or for want of room. -/
theorem tunnel_conserves (made : ConnectIpDatagramCodec.new streamId = some codec)
    (reached : Reaches step Allowed (new codec) passage) (side : Side) :
    let near := passage.ends side
    let far := passage.ends side.other
    let service := passage.services side
    ((passage.accepted side).map (frame codec) : Multiset Packet) =
      (far.collected.map (frame codec) : Multiset Packet) +
        service.contents ∧
      far.placed.Subperm (passage.accepted side) ∧
      (near.txCounters.Below → near.txCounters.succeeded.load = batchStats (passage.accepted side) ∧
        near.txCounters.outcomes = batchStats (passage.offered side) ∧
          (near.txCounters.dropReasons .noHeadroom).load = 0) ∧
      (far.rxCounters.Below → far.rxCounters.succeeded.load = batchStats far.collected ∧
        (far.rxCounters.dropReasons .invalidFraming).load = 0) ∧
      (near.txCounters.Below → far.rxCounters.Below →
        near.txCounters.succeeded.packets =
          far.rxCounters.succeeded.packets + service.contents.card) := by
  have conserved := conserved_of_reaches (ConnectIpDatagramCodec.for_of_new made) reached side
  have balance := conserved.balance
  have counted : (passage.accepted side).length =
      (passage.received side).length + (passage.services side).contents.card := by
    have cards := congrArg Multiset.card balance
    simpa using cards
  have sent (below : (passage.ends side).txCounters.Below) := conserved.tx.of_new below
  have got (below : (passage.ends side.other).rxCounters.Below) := conserved.rx.of_new below
  refine ⟨balance, ?_, fun below => ⟨(sent below).1, ?_, (sent below).2⟩,
    fun below => ⟨(got below).1, (got below).2⟩, ?_⟩
  · have within : ((passage.received side : Multiset Packet).map (frame codec)) ≤
        (passage.accepted side : Multiset Packet).map (frame codec) := by
      rw [Multiset.map_coe, Multiset.map_coe, balance]
      exact Multiset.le_add_right _ _
    exact conserved.far.placed_isPrefix.sublist.subperm.trans
      (Multiset.coe_le.mp ((Multiset.map_le_map_iff (frame_injective codec)).mp within))
  · rw [conserved.outcomes.outcomes below]
    exact zero_add _
  · intro nearBelow farBelow
    have near := congrArg Prod.fst (sent nearBelow).1
    have far := congrArg Prod.fst (got farBelow).1
    simp only [PktCounters.load, batchStats] at near far
    omega

/-- Over a network that keeps the order, packets reach the other router in the order in which
they were given; and if none is lost, the tunnel is a queue, of which the router has an initial
part and the rest is on its way. -/
theorem tunnel_in_order (made : ConnectIpDatagramCodec.new streamId = some codec)
    (reached : Reaches step (fun state action => state.Allowed action ∧ InOrder action)
      (new codec) passage)
    (side : Side) :
    let far := passage.ends side.other
    let service := passage.services side
    far.placed.Sublist (passage.accepted side) ∧ far.placed <+: far.collected ∧
      (far.InLoop → far.collected = far.placed ++ far.held) ∧
      (service.lost = [] → far.placed <+: passage.accepted side ∧
        (passage.accepted side).map (frame codec) = far.collected.map (frame codec) ++
          service.pipeline) := by
  intro far service
  have isFor := ConnectIpDatagramCodec.for_of_new made
  have conserved := conserved_of_reaches isFor (reached.mono fun _ _ both => both.1) side
  have ordered : ((passage.received side).map (frame codec) ++
      (passage.services side).pipeline).Sublist
      ((passage.accepted side).map (frame codec)) := ordered_of_reaches isFor reached side
  have initial : far.placed <+: far.collected := conserved.far.placed_isPrefix
  refine ⟨?_, initial, conserved.far.collected_eq, fun lossless => ?_⟩
  · have received := (List.sublist_append_left _ _).trans ordered
    obtain ⟨part, isPart, same⟩ := List.sublist_map_iff.mp received
    have inside : (passage.received side).Sublist (passage.accepted side) := by
      rwa [(frame_injective codec).list_map same]
    exact initial.sublist.trans inside
  · have cards := congrArg Multiset.card conserved.balance
    simp only [service, Multiset.coe_card, Multiset.card_add, Lossy.card_contents, lossless,
      List.length_nil, Nat.add_zero] at cards lossless
    have queue := (ordered.eq_of_length (by rw [List.length_append, cards])).symm
    obtain ⟨early, late, split, same, -⟩ := List.map_eq_append_iff.mp queue
    rw [(frame_injective codec).list_map same] at split
    exact ⟨initial.trans ⟨late, split.symm⟩, queue⟩

end Results

/-! ## Two packets -/

instance (passage : Passage Buf) (action : PassageAction Buf) :
    Decidable (passage.Allowed action) := by
  unfold Allowed
  split <;> infer_instance

instance (action : PassageAction Buf) : Decidable (InOrder action) := by
  unfold InOrder
  split <;> infer_instance

def sampleBuffer (packet : Packet) : VecBuffer := ⟨List.replicate 10 0 ++ packet, 10, by simp⟩

def sampleEgress : List (PassageAction VecBuffer) :=
  [.forward .client .sample,
    .forward .client
    (.branch (.egress (some [(sampleBuffer [0x45], .ok), (sampleBuffer [0x60], .ok)]))),
    .carry .client .depart, .carry .client .depart]

def sampleIngress (datagrams : List Packet) : List (PassageAction VecBuffer) :=
  [.forward .server .sample,
    .forward .server (.branch (.udpRecv (some ⟨[], .ok .ready, datagrams.map sampleBuffer⟩) .ok))]

def sampleLoss : List (PassageAction VecBuffer) :=
  sampleEgress ++ [.carry .client (.arrive 1), .carry .client (.lose 0)] ++
    sampleIngress [[0, 0, 0x60]]

theorem tunnel_conserves_sample :
    ∃ passage : Passage VecBuffer, Reaches step Allowed (new ⟨0, [0]⟩) passage ∧
    (passage.ends .server).placed = [[0x60]] ∧ (passage.ends .server).placed.Subperm
      (passage.accepted .client) := by
  have executes : ((run (guarded step Allowed) sampleLoss (new ⟨0, [0]⟩)).map fun passage =>
      (passage.ends .server).placed) = some [[0x60]] := by decide +kernel
  obtain ⟨passage, executed, placed⟩ := Option.map_eq_some_iff.mp executes
  have reached := reaches_of_guarded_run executed
  have made : ConnectIpDatagramCodec.new 0 = some ⟨0, [0]⟩ := by decide +kernel
  exact ⟨passage, reached, placed, (tunnel_conserves made reached .client).2.1⟩

def sampleTransit : List (PassageAction VecBuffer) :=
  sampleEgress ++ [.carry .client (.arrive 0), .carry .client (.arrive 0)] ++
    sampleIngress [[0, 0, 0x45], [0, 0, 0x60]]

theorem tunnel_in_order_sample : ∃ passage : Passage VecBuffer,
    Reaches step (fun state action => state.Allowed action ∧ InOrder action)
      (new ⟨0, [0]⟩) passage ∧
    (passage.ends .server).placed = [[0x45], [0x60]] ∧ (passage.services .client).lost = [] ∧
    (passage.ends .server).placed <+: passage.accepted .client := by
  have executes :
      ((run (guarded step fun state action => state.Allowed action ∧ InOrder action) sampleTransit
      (new ⟨0, [0]⟩)).any fun passage => decide ((passage.ends .server).placed = [[0x45], [0x60]] ∧
        (passage.services .client).lost = [])) = true := by decide +kernel
  obtain ⟨passage, executed, facts⟩ := (Option.any_eq_true ..).mp executes
  obtain ⟨placed, lossless⟩ := of_decide_eq_true facts
  have reached := reaches_of_guarded_run executed
  have made : ConnectIpDatagramCodec.new 0 = some ⟨0, [0]⟩ := by decide +kernel
  exact ⟨passage, reached, placed, lossless,
    ((tunnel_in_order made reached .client).2.2.2 lossless).1⟩

end Passage
end H3llo.H3
