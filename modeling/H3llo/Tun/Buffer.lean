import H3llo.Basis.Runs
import H3llo.H3.Codec

/-! Packet buffers as the TUN device uses them.

The device reads into a buffer and is given buffers with a header in front. Before they are
written, packets of one flow may be joined in place, which lets a buffer grow past the pool that
it came from. To its user a buffer is a vector of bytes with some room in front of them.
-/

set_option autoImplicit false

namespace H3llo.Tun
open H3llo.Udp H3llo.H3 H3llo.Runs ConsumeBuffer
open PrefixBuffer (addPrefix addPrefix_fits addPrefix_full)

/-- Buffers that also grow at their end and can be written in place. -/
class GrowBuffer (Buf : Type) extends PrefixBuffer Buf where
  extend : Buf → List UInt8 → Buf
  writeAt : Buf → Nat → List UInt8 → Buf
  extend_spec (buf : Buf) (data : List UInt8) :
    visible (extend buf data) = visible buf ++ data ∧ headroom (extend buf data) = headroom buf
  writeAt_spec (buf : Buf) (offset : Nat) (data : List UInt8) :
    offset + data.length ≤ (visible buf).length →
      visible (writeAt buf offset data) =
          (visible buf).take offset ++ data ++ (visible buf).drop (offset + data.length) ∧
        headroom (writeAt buf offset data) = headroom buf

open GrowBuffer (extend extend_spec writeAt writeAt_spec)

def virtioNetHdrLen : Nat := 10

def zeroedHdr : List UInt8 := List.replicate virtioNetHdrLen 0

/-! ## Operations

`pooled` is the buffer that the pool hands out if the operation asks for one. A panic is `none`.
-/

namespace TunBuf

variable {Buf : Type} [GrowBuffer Buf]

def allocUninit (pooled : Buf) (mtu : Nat) : Option Buf := allocUninitPacketBuf pooled mtu

def intoPooled (buf : Buf) (len : Nat) : Buf := truncate buf len

def bufExtend (pooled buf : Buf) (additional : Nat) : Option Buf :=
  let currentLen := (visible buf).length
  if currentLen ≤ maxDatagramSize ∧ currentLen + additional > maxDatagramSize then do
    let newBuf ← allocUninitPacketBuf pooled maxDatagramSize
    copyFromSlice (truncate newBuf currentLen) (visible buf)
  else some buf

def prependHdr (pooled buf : Buf) : Option Buf :=
  match addPrefix buf zeroedHdr with
  | (true, buf) => some buf
  | (false, buf) => (allocPacketBuf pooled (visible buf)).map fun buf => (addPrefix buf zeroedHdr).2

def bufResize (pooled buf : Buf) (newLen : Nat) (val : UInt8) : Option Buf :=
  let current := (visible buf).length
  if newLen ≤ current then some (truncate buf newLen)
  else (bufExtend pooled buf (newLen - current)).map fun buf =>
    extend buf (List.replicate (newLen - current) val)

def bufExtendFromSlice (pooled buf : Buf) (src : List UInt8) : Option Buf :=
  (bufExtend pooled buf src.length).map fun buf => extend buf src

end TunBuf

inductive BufOp where
  | prependHdr
  | resize (newLen : Nat) (val : UInt8)
  | extendFromSlice (src : List UInt8)
  /-- A write through the mutable slice; out of range it panics. -/
  | write (offset : Nat) (data : List UInt8)
  deriving DecidableEq, Repr

structure InUse (Buf : Type) where
  buf : Buf
  count : Nat

section Operations

variable {Buf : Type} [GrowBuffer Buf]

def applyOp (pool : Nat → Buf) (op : BufOp) (state : InUse Buf) : Option (InUse Buf) :=
  let pooled := pool state.count
  let result :=
    match op with
    | .prependHdr => TunBuf.prependHdr pooled state.buf
    | .resize newLen val => TunBuf.bufResize pooled state.buf newLen val
    | .extendFromSlice src => TunBuf.bufExtendFromSlice pooled state.buf src
    | .write offset data =>
        if offset + data.length ≤ (visible state.buf).length then
          some (writeAt state.buf offset data)
        else none
  result.map fun buf => ⟨buf, state.count + 1⟩

end Operations

def BufOp.onBytes (op : BufOp) (bytes : List UInt8) : Option (List UInt8) :=
  match op with
  | .prependHdr => some (List.replicate 10 0 ++ bytes)
  | .resize newLen val => some (bytes.take newLen ++ List.replicate (newLen - bytes.length) val)
  | .extendFromSlice src => some (bytes ++ src)
  | .write offset data =>
      if offset + data.length ≤ bytes.length then
        some (bytes.take offset ++ data ++ bytes.drop (offset + data.length))
      else none

structure Shown where
  bytes : List UInt8
  room : Nat
  deriving DecidableEq, Repr

/-- The room in front after an operation that leads from one length to another: growing out of
1500 bytes moves the contents behind ten fresh bytes. -/
def Shown.roomAfter (shown : Shown) (newLen : Nat) : Nat :=
  if shown.bytes.length ≤ 1500 ∧ 1500 < newLen then 10 else shown.room

/-- The room in front that an operation leaves; without the room that it needs there is none. -/
def BufOp.onRoom (op : BufOp) (shown : Shown) : Option Nat :=
  match op with
  | .prependHdr =>
      if 10 ≤ shown.room then some (shown.room - 10)
      -- The contents are copied into the largest buffer, where the header takes all the room.
      else if shown.bytes.length ≤ 65526 then some 0
      else none
  | .resize newLen _ => some (shown.roomAfter newLen)
  | .extendFromSlice src => some (shown.roomAfter (shown.bytes.length + src.length))
  | .write _ _ => some shown.room

def BufOp.onShown (op : BufOp) (shown : Shown) : Option Shown := do
  let bytes ← op.onBytes shown.bytes
  let room ← op.onRoom shown
  return ⟨bytes, room⟩

def shownBy {Buf : Type} [GrowBuffer Buf] (buf : Buf) : Shown := ⟨visible buf, headroom buf⟩

/-! ## Laws -/

section Laws

variable {Buf : Type} [GrowBuffer Buf] {pooled : Buf} (reset : headroom pooled = 0)
include reset

theorem bufExtend_spec (buf : Buf) (additional : Nat) :
    ∃ moved, TunBuf.bufExtend pooled buf additional = some moved ∧ visible moved = visible buf ∧
      headroom moved = (shownBy buf).roomAfter ((visible buf).length + additional) := by
  unfold TunBuf.bufExtend Shown.roomAfter
  simp only
  split
  next crosses =>
    obtain ⟨fresh, allocated, room, enough⟩ := allocUninitPacketBuf_spec reset maxDatagramSize
    obtain ⟨shown, kept⟩ := truncate_spec fresh (visible buf).length
    have roomy : (visible buf).length ≤ (visible fresh).length :=
      Nat.le_trans crosses.1 (enough.mpr (by decide))
    have same : (visible (truncate fresh (visible buf).length)).length = (visible buf).length := by
      rw [shown, List.length_take, Nat.min_eq_left roomy]
    obtain ⟨moved, copied, contents, front⟩ := copyFromSlice_spec _ (visible buf) same
    refine ⟨moved, by simp [allocated, copied], contents, ?_⟩
    rw [front, kept, room]
    exact (if_pos crosses).symm
  next stays => exact ⟨buf, rfl, rfl, (if_neg stays).symm⟩

theorem bufExtendFromSlice_spec (buf : Buf) (src : List UInt8) :
    ∃ grown, TunBuf.bufExtendFromSlice pooled buf src = some grown ∧
      visible grown = visible buf ++ src ∧
      headroom grown = (shownBy buf).roomAfter ((visible buf).length + src.length) := by
  obtain ⟨moved, extended, shown, room⟩ := bufExtend_spec reset buf src.length
  obtain ⟨contents, front⟩ := extend_spec moved src
  exact ⟨extend moved src, by simp [TunBuf.bufExtendFromSlice, extended], by rw [contents, shown],
    by rw [front, room]⟩

theorem bufResize_spec (buf : Buf) (newLen : Nat) (val : UInt8) :
    ∃ resized, TunBuf.bufResize pooled buf newLen val = some resized ∧
      visible resized =
        (visible buf).take newLen ++ List.replicate (newLen - (visible buf).length) val ∧
      headroom resized = (shownBy buf).roomAfter newLen := by
  unfold TunBuf.bufResize
  simp only
  split
  next shorter =>
    obtain ⟨contents, front⟩ := truncate_spec buf newLen
    refine ⟨_, rfl, ?_, ?_⟩
    · rw [contents, Nat.sub_eq_zero_of_le shorter, List.replicate_zero, List.append_nil]
    · have stays : ¬ ((visible buf).length ≤ 1500 ∧ 1500 < newLen) := by omega
      rw [front]
      exact (if_neg stays).symm
  next longer =>
    obtain ⟨moved, extended, shown, room⟩ :=
      bufExtend_spec reset buf (newLen - (visible buf).length)
    obtain ⟨contents, front⟩ :=
      extend_spec moved (List.replicate (newLen - (visible buf).length) val)
    refine ⟨_, congrArg (Option.map _) extended, ?_, ?_⟩
    · rw [contents, shown, List.take_of_length_le (Nat.le_of_not_le longer)]
    · rw [front, room, Nat.add_sub_cancel' (Nat.le_of_not_le longer)]

omit reset in
theorem prependHdr_room (pooled : Buf) {buf : Buf} (room : virtioNetHdrLen ≤ headroom buf) :
    ∃ headed, TunBuf.prependHdr pooled buf = some headed ∧
      visible headed = zeroedHdr ++ visible buf ∧ headroom headed = headroom buf - 10 := by
  obtain ⟨headed, added, shown, left⟩ := addPrefix_fits buf zeroedHdr room
  refine ⟨headed, by simp [TunBuf.prependHdr, added], shown, ?_⟩
  exact Nat.eq_sub_of_add_eq left

theorem prependHdr_copy {buf : Buf} (full : headroom buf < virtioNetHdrLen)
    (small : (visible buf).length ≤ maxPayload) :
    ∃ headed, TunBuf.prependHdr pooled buf = some headed ∧
      visible headed = zeroedHdr ++ visible buf ∧ headroom headed = 0 := by
  obtain ⟨fresh, allocated, contents, reserved⟩ := allocPacketBuf_some reset small
  obtain ⟨headed, added, shown, left⟩ := addPrefix_fits fresh zeroedHdr (by rw [reserved]; decide)
  refine ⟨headed, ?_, by rw [shown, contents], ?_⟩
  · simp [TunBuf.prependHdr, addPrefix_full buf zeroedHdr full, allocated, added]
  · rw [reserved] at left
    exact Nat.add_right_cancel (left.trans (Nat.zero_add _).symm)

theorem prependHdr_panics {buf : Buf} (full : headroom buf < virtioNetHdrLen)
    (large : maxPayload < (visible buf).length) : TunBuf.prependHdr pooled buf = none := by
  simp [TunBuf.prependHdr, addPrefix_full buf zeroedHdr full, allocPacketBuf_none reset large]

end Laws

section Refinement

variable {Buf : Type} [GrowBuffer Buf] {pool : Nat → Buf}
  (reset : ∀ taken, headroom (pool taken) = 0)
include reset

theorem applyOp_onShown (op : BufOp) (state : InUse Buf) :
    (applyOp pool op state).map (fun after => shownBy after.buf) =
      op.onShown (shownBy state.buf) := by
  cases op with
  | prependHdr =>
    by_cases room : 10 ≤ headroom state.buf
    · obtain ⟨headed, made, shown, left⟩ := prependHdr_room (pool state.count) room
      simp [applyOp, made, shown, left, BufOp.onShown, BufOp.onBytes, BufOp.onRoom, shownBy, room,
        zeroedHdr, virtioNetHdrLen]
    · by_cases small : (visible state.buf).length ≤ 65526
      · obtain ⟨headed, made, shown, left⟩ :=
          prependHdr_copy (reset state.count) (Nat.lt_of_not_le room) small
        simp [applyOp, made, shown, left, BufOp.onShown, BufOp.onBytes, BufOp.onRoom, shownBy,
          room, small, zeroedHdr, virtioNetHdrLen]
      · have panics : TunBuf.prependHdr (pool state.count) state.buf = none :=
          prependHdr_panics (reset state.count) (Nat.lt_of_not_le room) (Nat.lt_of_not_le small)
        simp [applyOp, panics, BufOp.onShown, BufOp.onBytes, BufOp.onRoom, shownBy, room, small]
  | resize newLen val =>
    obtain ⟨resized, made, shown, left⟩ :=
      bufResize_spec (reset state.count) state.buf newLen val
    simp [applyOp, made, shown, left, BufOp.onShown, BufOp.onBytes, BufOp.onRoom, shownBy]
  | extendFromSlice src =>
    obtain ⟨grown, made, shown, left⟩ :=
      bufExtendFromSlice_spec (reset state.count) state.buf src
    simp [applyOp, made, shown, left, BufOp.onShown, BufOp.onBytes, BufOp.onRoom, shownBy]
  | write offset data =>
    by_cases inside : offset + data.length ≤ (visible state.buf).length
    · obtain ⟨shown, left⟩ := writeAt_spec state.buf offset data inside
      simp [applyOp, BufOp.onShown, BufOp.onBytes, BufOp.onRoom, shownBy, inside, shown, left]
    · simp [applyOp, BufOp.onShown, BufOp.onBytes, shownBy, inside]

theorem run_onShown (ops : List BufOp) (state : InUse Buf) :
    (run (applyOp pool) ops state).map (fun last => shownBy last.buf) =
      run BufOp.onShown ops (shownBy state.buf) := by
  induction ops generalizing state with
  | nil => rfl
  | cons op rest ih =>
    rw [run, run, ← applyOp_onShown reset, Option.map_bind]
    cases applyOp pool op state with
    | none => rfl
    | some next => exact ih next

end Refinement

/-- The room in front decides only whether an operation succeeds. -/
theorem run_onBytes {ops : List BufOp} {first last : Shown}
    (executed : run BufOp.onShown ops first = some last) :
    run BufOp.onBytes ops first.bytes = some last.bytes := by
  induction ops generalizing first with
  | nil =>
    cases executed
    rfl
  | cons op rest ih =>
    obtain ⟨next, taken, remaining⟩ := Option.bind_eq_some_iff.mp executed
    obtain ⟨bytes, made, others⟩ := Option.bind_eq_some_iff.mp taken
    obtain ⟨room, left, same⟩ := Option.bind_eq_some_iff.mp others
    cases same
    rw [run, made]
    exact ih remaining

/-- After every sequence of operations a buffer shows what a vector of bytes would hold after the
same ones, whatever pools it moves through. It panics exactly where a write is out of range, or
where a header is put in front of more than 65526 bytes with less than ten bytes of room. -/
theorem tun_buffer_refines {Buf : Type} [GrowBuffer Buf] (pool : Nat → Buf)
    (reset : ∀ taken, headroom (pool taken) = 0) (ops : List BufOp) (buf : Buf) (count : Nat) :
    (run (applyOp pool) ops ⟨buf, count⟩).map (fun last => shownBy last.buf) =
        run BufOp.onShown ops (shownBy buf) ∧
      ∀ last, run (applyOp pool) ops ⟨buf, count⟩ = some last →
        run BufOp.onBytes ops (visible buf) = some (visible last.buf) := by
  have refines := run_onShown reset ops ⟨buf, count⟩
  refine ⟨refines, fun last executed => ?_⟩
  rw [executed] at refines
  exact run_onBytes refines.symm

instance : GrowBuffer VecBuffer where
  extend buf data := ⟨buf.inner ++ data, buf.head, by
    have := buf.bound
    rw [List.length_append]
    omega⟩
  writeAt buf offset data :=
    if inside : buf.head + offset + data.length ≤ buf.inner.length then
      ⟨buf.inner.take (buf.head + offset) ++
        (data ++ buf.inner.drop (buf.head + offset + data.length)), buf.head, by
        simp only [List.length_append, List.length_take, List.length_drop]
        omega⟩
    else buf
  extend_spec buf data := ⟨List.drop_append_of_le_length buf.bound, rfl⟩
  writeAt_spec buf offset data inside := by
    have bound := buf.bound
    have inside : offset + data.length ≤ (buf.inner.drop buf.head).length := inside
    rw [List.length_drop] at inside
    rw [dif_pos (by omega)]
    refine ⟨?_, rfl⟩
    show (buf.inner.take (buf.head + offset) ++ _).drop buf.head =
        (buf.inner.drop buf.head).take offset ++ data ++ _
    rw [List.drop_append_of_le_length (by rw [List.length_take]; omega), List.drop_take,
      Nat.add_sub_cancel_left,
      List.append_assoc, Nat.add_assoc, ← List.drop_drop]
    rfl

theorem tun_buffer_refines_sample :
    (run (applyOp fun _ => freshBuffer)
      [.prependHdr, .write 0 [1, 2], .resize 13 7, .extendFromSlice [8]]
      ⟨⟨[0x45, 0x60], 0, by decide⟩, 0⟩).map (fun last => shownBy last.buf) =
        some ⟨[1, 2, 0, 0, 0, 0, 0, 0, 0, 0, 0x45, 0x60, 7, 8], 0⟩ := by
  rw [(tun_buffer_refines (fun _ => freshBuffer) (fun _ => rfl) _ _ _).1]
  rfl

end H3llo.Tun
