import H3llo.Metrics

/-! From a received datagram to packet buffers with headroom.

Buffers are known by the laws of their pool. A panic is `none`: it ends the
receiving actor, and with it the process.
-/

set_option autoImplicit false

namespace H3llo.Udp

/-- Pooled buffers with a movable front. `visible` is what the buffer shows, `headroom` the
number of bytes in front of it. -/
class ConsumeBuffer (Buf : Type) where
  visible : Buf → List UInt8
  headroom : Buf → Nat
  expand : Buf → Nat → Buf
  popFront : Buf → Nat → Option Buf
  truncate : Buf → Nat → Buf
  copyFromSlice : Buf → List UInt8 → Option Buf
  expand_spec (buf : Buf) (count : Nat) :
    headroom buf = 0 → (visible (expand buf count)).length = count ∧ headroom (expand buf count) = 0
  popFront_spec (buf : Buf) (count : Nat) :
    count ≤ (visible buf).length →
      ∃ next, popFront buf count = some next ∧ visible next = (visible buf).drop count ∧
        headroom next = headroom buf + count
  truncate_spec (buf : Buf) (count : Nat) :
    visible (truncate buf count) = (visible buf).take count ∧
      headroom (truncate buf count) = headroom buf
  copyFromSlice_spec (buf : Buf) (data : List UInt8) :
    (visible buf).length = data.length →
      ∃ next, copyFromSlice buf data = some next ∧ visible next = data ∧
        headroom next = headroom buf
  copyFromSlice_panic (buf : Buf) (data : List UInt8) :
    (visible buf).length ≠ data.length → copyFromSlice buf data = none

open ConsumeBuffer

def maxPacketBufferSize : Nat := 64 * 1024
def maxDatagramSize : Nat := 1500

def headroomBytes : Nat := 10

section Alloc

variable {Buf : Type} [ConsumeBuffer Buf]

def poolCapacity (length : Nat) : Nat :=
  -- The headroom is considered for the smaller pool only.
  if length + headroomBytes ≤ maxDatagramSize then maxDatagramSize else maxPacketBufferSize

/-- `pooled` is the buffer that the selected pool hands out. -/
def allocUninitPacketBuf (pooled : Buf) (length : Nat) : Option Buf :=
  popFront (expand pooled (poolCapacity length)) headroomBytes

def allocPacketBuf (pooled : Buf) (data : List UInt8) : Option Buf := do
  let buf ← allocUninitPacketBuf pooled data.length
  copyFromSlice (truncate buf data.length) data

/-- Consecutive pieces of `size` bytes; the last one may be shorter. -/
def chunks (size : Nat) (data : List UInt8) : List (List UInt8) :=
  if size = 0 ∨ data = [] then [] else data.take size :: chunks size (data.drop size)
termination_by data.length
decreasing_by
  simp only [not_or, ← List.length_eq_zero_iff] at *
  simp only [List.length_drop]
  omega

def allocChunks (pool : Nat → Buf) (taken : Nat) : List (List UInt8) → Option (List Buf)
  | [] => some []
  | chunk :: rest => do
      let buf ← allocPacketBuf (pool taken) chunk
      let bufs ← allocChunks pool (taken + 1) rest
      return buf :: bufs

/-- The batch built from one receive result; splitting into empty chunks panics. -/
def receiveBatch (pool : Nat → Buf) (stride : Nat) (data : List UInt8) : Option (List Buf) :=
  let stride := min stride data.length
  if stride = 0 then none else allocChunks pool 0 (chunks stride data)

/-! ## Allocation -/

def maxPayload : Nat := maxPacketBufferSize - headroomBytes

theorem allocUninitPacketBuf_spec {pooled : Buf} (reset : headroom pooled = 0) (length : Nat) :
    ∃ buf, allocUninitPacketBuf pooled length = some buf ∧ headroom buf = headroomBytes ∧
      (length ≤ (visible buf).length ↔ length ≤ maxPayload) := by
  have capacity : headroomBytes ≤ poolCapacity length ∧
      (length ≤ poolCapacity length - headroomBytes ↔ length ≤ maxPayload) := by
    unfold poolCapacity maxPayload headroomBytes maxDatagramSize maxPacketBufferSize
    split <;> omega
  obtain ⟨size, front⟩ := expand_spec pooled (poolCapacity length) reset
  obtain ⟨buf, popped, shown, room⟩ :=
    popFront_spec (expand pooled (poolCapacity length)) headroomBytes
    (by rw [size]; exact capacity.1)
  refine ⟨buf, popped, by rw [room, front, Nat.zero_add], ?_⟩
  rw [shown, List.length_drop, size]
  exact capacity.2

theorem allocPacketBuf_some {pooled : Buf} (reset : headroom pooled = 0) {data : List UInt8}
    (fits : data.length ≤ maxPayload) :
    ∃ buf, allocPacketBuf pooled data = some buf ∧ visible buf = data ∧
      headroom buf = headroomBytes := by
  obtain ⟨buf, allocated, room, enough⟩ := allocUninitPacketBuf_spec reset data.length
  obtain ⟨shown, kept⟩ := truncate_spec buf data.length
  have same : (visible (truncate buf data.length)).length = data.length := by
    rw [shown, List.length_take, Nat.min_eq_left (enough.mpr fits)]
  obtain ⟨filled, copied, contents, front⟩ := copyFromSlice_spec _ data same
  exact ⟨filled, by simp [allocPacketBuf, allocated, copied], contents, by rw [front, kept, room]⟩

theorem allocPacketBuf_none {pooled : Buf} (reset : headroom pooled = 0) {data : List UInt8}
    (large : maxPayload < data.length) : allocPacketBuf pooled data = none := by
  obtain ⟨buf, allocated, _, enough⟩ := allocUninitPacketBuf_spec reset data.length
  obtain ⟨shown, _⟩ := truncate_spec buf data.length
  have short : ¬ data.length ≤ (visible buf).length := fun fits =>
    absurd (enough.mp fits) (by omega)
  have different : (visible (truncate buf data.length)).length ≠ data.length := by
    rw [shown, List.length_take]
    omega
  simp [allocPacketBuf, allocated, copyFromSlice_panic _ _ different]

/-! ## The batch -/

theorem chunks_flatten {size : Nat} (positive : 0 < size) (data : List UInt8) :
    (chunks size data).flatten = data := by
  fun_induction chunks size data with
  | case1 data done =>
    rcases done with zero | empty
    · omega
    · simp [empty]
  | case2 data more ih => simp [ih]

theorem length_le_of_mem_chunks {size : Nat} {data chunk : List UInt8}
    (member : chunk ∈ chunks size data) : chunk.length ≤ size := by
  fun_induction chunks size data with
  | case1 data done => cases member
  | case2 data more ih =>
    rcases List.mem_cons.mp member with rfl | member
    · exact List.length_take_le size data
    · exact ih member

theorem head?_chunks {size : Nat} {data : List UInt8} (positive : 0 < size)
    (enough : size ≤ data.length) :
    ∃ chunk rest, chunks size data = chunk :: rest ∧ chunk.length = size := by
  have nonempty : ¬ (size = 0 ∨ data = []) := by
    rintro (zero | empty)
    · omega
    · rw [empty, List.length_nil] at enough
      omega
  refine ⟨data.take size, chunks size (data.drop size),
    ?_, by rw [List.length_take, Nat.min_eq_left enough]⟩
  rw [chunks, if_neg nonempty]

section Pool

variable {pool : Nat → Buf} (reset : ∀ taken, headroom (pool taken) = 0)
include reset

theorem allocChunks_some (taken : Nat) {pieces : List (List UInt8)}
    (fits : ∀ piece ∈ pieces, piece.length ≤ maxPayload) :
    ∃ bufs, allocChunks pool taken pieces = some bufs ∧ bufs.map visible = pieces ∧
      ∀ buf ∈ bufs, headroomBytes ≤ headroom buf := by
  induction pieces generalizing taken with
  | nil => exact ⟨[], rfl, rfl, by simp⟩
  | cons piece rest ih =>
    obtain ⟨buf, allocated, shown, room⟩ := allocPacketBuf_some (reset taken) (fits piece (by simp))
    obtain ⟨bufs, others, contents, rooms⟩ := ih (taken + 1) fun other member =>
      fits other (by simp [member])
    refine ⟨buf :: bufs, by simp [allocChunks, allocated, others], by simp [shown, contents], ?_⟩
    intro other member
    rcases List.mem_cons.mp member with rfl | member
    · exact Nat.le_of_eq room.symm
    · exact rooms other member

theorem receiveBatch_none {stride : Nat} {data : List UInt8}
    (large : maxPayload < min stride data.length) : receiveBatch pool stride data = none := by
  -- the first chunk is a full one, and it does not fit
  obtain ⟨chunk, rest, first, size⟩ := head?_chunks (by omega) (Nat.min_le_right stride data.length)
  have nonzero : min stride data.length ≠ 0 := by omega
  simp [receiveBatch, nonzero, first, allocChunks,
    allocPacketBuf_none (reset 0) (by omega : maxPayload < chunk.length)]

theorem receiveBatch_some {stride : Nat} {data : List UInt8} (nonempty : 0 < data.length)
    (positive : 0 < stride) (fits : min stride data.length ≤ maxPayload) :
    ∃ bufs, receiveBatch pool stride data = some bufs ∧
      bufs.map visible = chunks (min stride data.length) data ∧
      (bufs.map visible).flatten = data ∧ ∀ buf ∈ bufs, headroomBytes ≤ headroom buf := by
  have nonzero : min stride data.length ≠ 0 := by omega
  obtain ⟨bufs, allocated, contents, rooms⟩ := allocChunks_some reset 0
    fun piece member => Nat.le_trans (length_le_of_mem_chunks member) fits
  refine ⟨bufs, by simp [receiveBatch, nonzero, allocated], contents, ?_, rooms⟩
  rw [contents, chunks_flatten (by omega)]

end Pool
end Alloc

/-- For every datagram of at most 65527 bytes the batch holds the received bytes, chunk by
chunk and behind the headroom, exactly when a chunk leaves room for it in the pool. -/
theorem receiveBatch_iff {Buf : Type} [ConsumeBuffer Buf] (pool : Nat → Buf)
    (reset : ∀ taken, headroom (pool taken) = 0) (stride : Nat) (data : List UInt8)
    (positive : 1 ≤ stride) (nonempty : 1 ≤ data.length) (bounded : data.length ≤ 65527) :
    (∃ bufs, receiveBatch pool stride data = some bufs ∧
      bufs.map visible = chunks (min stride data.length) data ∧
      (bufs.map visible).flatten = data ∧ ∀ buf ∈ bufs, 10 ≤ headroom buf) ↔
    ¬ (data.length = 65527 ∧ 65527 ≤ stride) := by
  have limit : maxPayload = 65526 := rfl
  constructor
  · rintro ⟨bufs, received, _⟩ ⟨full, whole⟩
    rw [receiveBatch_none reset (by omega)] at received
    cases received
  · intro fitting
    exact receiveBatch_some reset nonempty positive (by omega)

structure VecBuffer where
  inner : List UInt8
  head : Nat
  bound : head ≤ inner.length

instance : ConsumeBuffer VecBuffer where
  visible buf := buf.inner.drop buf.head
  headroom buf := buf.head
  expand buf count := ⟨(buf.inner ++ List.replicate count 0).take count, min buf.head count, by
    simp only [List.length_take, List.length_append, List.length_replicate]
    omega⟩
  popFront buf count :=
    if enough : buf.head + count ≤ buf.inner.length then
      some ⟨buf.inner, buf.head + count, enough⟩
    else none
  truncate buf count := ⟨buf.inner.take (buf.head + count), buf.head, by
    have := buf.bound
    simp only [List.length_take]
    omega⟩
  copyFromSlice buf data :=
    if (buf.inner.drop buf.head).length = data.length then
      some ⟨buf.inner.take buf.head ++ data, buf.head, by
        have := buf.bound
        simp only [List.length_append, List.length_take]
        omega⟩
    else none
  expand_spec buf count reset := by simp [reset]
  popFront_spec buf count enough := by
    have bound := buf.bound
    rw [List.length_drop] at enough
    exact ⟨_, dif_pos (by omega), by simp [List.drop_drop], rfl⟩
  truncate_spec buf count := ⟨by simp [List.drop_take], rfl⟩
  copyFromSlice_spec buf data same := by
    have bound := buf.bound
    exact ⟨_, if_pos same, by simp [Nat.min_eq_left bound], rfl⟩
  copyFromSlice_panic buf data different := if_neg different

def freshBuffer : VecBuffer := ⟨[], 0, Nat.le_refl 0⟩

theorem receiveBatch_ordinary : ∃ bufs : List VecBuffer,
    receiveBatch (fun _ => freshBuffer) 1200 (List.replicate 3000 7) = some bufs ∧
      bufs.map visible = chunks (min 1200 (List.replicate 3000 (7 : UInt8)).length)
        (List.replicate 3000 7) ∧
      (bufs.map visible).flatten = List.replicate 3000 7 ∧ ∀ buf ∈ bufs, 10 ≤ headroom buf := by
  refine (receiveBatch_iff _ (fun _ => rfl) 1200 (List.replicate 3000 7) (by decide) ?_ ?_).mpr ?_
  · rw [List.length_replicate]
    decide
  · rw [List.length_replicate]
    decide
  · rw [List.length_replicate]
    decide

theorem receiveBatch_largest :
    receiveBatch (fun _ => freshBuffer) 65527 (List.replicate 65527 0) = none := by
  apply receiveBatch_none (fun _ => rfl)
  rw [List.length_replicate]
  decide

end H3llo.Udp
