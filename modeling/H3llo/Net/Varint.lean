import Mathlib.Algebra.Order.Ring.Nat
import Mathlib.Tactic.IntervalCases
import Mathlib.Tactic.Ring

/-! Variable-length integers of QUIC.

The two highest bits of the first byte give the length, as the exponent of 1, 2, 4 or
8 bytes; the other bits are the value in network byte order. A value may be written
longer than it needs.
-/

set_option autoImplicit false

namespace H3llo.Net.Varint

/-! ## Network byte order -/

def bigEndian : Nat → Nat → List UInt8
  | 0, _ => []
  | width + 1, value => UInt8.ofNat (value / 256 ^ width) :: bigEndian width value

def valueOf : List UInt8 → Nat
  | [] => 0
  | byte :: rest => byte.toNat * 256 ^ rest.length + valueOf rest

@[simp] theorem bigEndian_length (width value : Nat) : (bigEndian width value).length = width := by
  induction width with
  | zero => rfl
  | succ width ih => simp [bigEndian, ih]

theorem valueOf_bigEndian (width value : Nat) :
    valueOf (bigEndian width value) = value % 256 ^ width := by
  induction width with
  | zero => simp [bigEndian, valueOf, Nat.mod_one]
  | succ width ih =>
    simp only [bigEndian, valueOf, ih, bigEndian_length, UInt8.toNat_ofNat', Nat.reducePow]
    rw [Nat.mod_pow_succ]
    ring

theorem valueOf_lt (bytes : List UInt8) : valueOf bytes < 256 ^ bytes.length := by
  induction bytes with
  | nil => simp [valueOf]
  | cons byte rest ih =>
    have top : byte.toNat + 1 ≤ 256 := byte.toNat_lt
    calc valueOf (byte :: rest) < byte.toNat * 256 ^ rest.length + 256 ^ rest.length :=
      Nat.add_lt_add_left ih _
      _ = (byte.toNat + 1) * 256 ^ rest.length := by ring
      _ ≤ 256 * 256 ^ rest.length := Nat.mul_le_mul_right _ top
      _ = 256 ^ (byte :: rest).length := by rw [List.length_cons, pow_succ]; ring

theorem bigEndian_mod (width factor value : Nat) :
    bigEndian width (factor * 256 ^ width + value) = bigEndian width value := by
  induction width generalizing factor with
  | zero => rfl
  | succ width ih =>
    have shifted : factor * 256 ^ (width + 1) + value = factor * 256 * 256 ^ width + value := by
      rw [pow_succ]; ring
    have positive : 0 < 256 ^ width := Nat.pow_pos (by decide)
    rw [shifted, bigEndian, bigEndian, ih, Nat.mul_comm (factor * 256), Nat.mul_add_div positive]
    congr 1
    apply UInt8.toNat_inj.mp
    rw [UInt8.toNat_ofNat', UInt8.toNat_ofNat']
    omega

theorem bigEndian_valueOf (bytes : List UInt8) :
    bigEndian bytes.length (valueOf bytes) = bytes := by
  induction bytes with
  | nil => rfl
  | cons byte rest ih =>
    have positive : 0 < 256 ^ rest.length := Nat.pow_pos (by decide)
    rw [List.length_cons, bigEndian, valueOf, bigEndian_mod, ih, Nat.mul_comm,
      Nat.mul_add_div positive,
      Nat.div_eq_of_lt (valueOf_lt rest), Nat.add_zero, UInt8.ofNat_toNat]

/-! ## Integers -/

/-- Number of values that fit into `len` bytes. -/
def capacity (len : Nat) : Nat := 64 * 256 ^ (len - 1)

def encodeWith (exponent value : Nat) : List UInt8 :=
  bigEndian (2 ^ exponent) (exponent * capacity (2 ^ exponent) + value)

/-- The bytes are an encoding of the value, not necessarily the shortest. -/
def Encodes (bytes : List UInt8) (value : Nat) : Prop :=
  ∃ exponent < 4, value < capacity (2 ^ exponent) ∧ bytes = encodeWith exponent value

def parseLen (first : UInt8) : Nat := 2 ^ (first.toNat / 64)

def decode : List UInt8 → Option (Nat × Nat)
  | [] => none
  | first :: rest =>
      let len := parseLen first
      if (first :: rest).length < len then none
      else some (valueOf ((first :: rest).take len) % capacity len, len)

@[simp] theorem encodeWith_length (exponent value : Nat) :
    (encodeWith exponent value).length = 2 ^ exponent :=
  bigEndian_length _ _

theorem head_bigEndian {len exponent value : Nat} (positive : 0 < len) (tag : exponent < 4)
    (fits : value < capacity len) :
    ∃ first rest, bigEndian len (exponent * capacity len + value) = first :: rest ∧
      first.toNat / 64 = exponent := by
  obtain ⟨width, rfl⟩ := Nat.exists_eq_succ_of_ne_zero (Nat.pos_iff_ne_zero.mp positive)
  refine ⟨_, _, rfl, ?_⟩
  simp only [capacity, Nat.succ_eq_add_one, Nat.add_sub_cancel] at fits ⊢
  have room : 0 < 256 ^ width := Nat.pow_pos (by decide)
  have split : exponent * (64 * 256 ^ width) + value = 256 ^ width * (exponent * 64) + value := by
    ring
  have low : value / 256 ^ width < 64 := (Nat.div_lt_iff_lt_mul room).mpr fits
  rw [split, Nat.mul_add_div room]
  simp only [UInt8.toNat_ofNat', Nat.reducePow]
  generalize value / 256 ^ width = high at low
  omega

theorem tagged_lt {len exponent value : Nat} (positive : 0 < len) (tag : exponent < 4)
    (fits : value < capacity len) : exponent * capacity len + value < 256 ^ len := by
  have total : 4 * capacity len = 256 ^ len := by
    obtain ⟨width, rfl⟩ := Nat.exists_eq_succ_of_ne_zero (Nat.pos_iff_ne_zero.mp positive)
    simp only [capacity, Nat.succ_eq_add_one, Nat.add_sub_cancel, pow_succ]
    ring
  have top : exponent * capacity len ≤ 3 * capacity len := Nat.mul_le_mul_right _ (by omega)
  omega

theorem decode_encodeWith {exponent value : Nat} (tag : exponent < 4)
    (fits : value < capacity (2 ^ exponent)) (rest : List UInt8) :
    decode (encodeWith exponent value ++ rest) = some (value, 2 ^ exponent) := by
  have positive : 0 < 2 ^ exponent := Nat.pow_pos (by decide)
  obtain ⟨first, others, written, marked⟩ := head_bigEndian positive tag fits
  have shape : encodeWith exponent value = first :: others := written
  have total : (first :: others).length = 2 ^ exponent := by rw [← shape, encodeWith_length]
  have len : parseLen first = 2 ^ exponent := by rw [parseLen, marked]
  rw [shape, List.cons_append, decode]
  simp only [len]
  rw [if_neg (by rw [← List.cons_append, List.length_append, total]; omega), ← List.cons_append,
    List.take_left' total, ← shape, encodeWith, valueOf_bigEndian,
      Nat.mod_eq_of_lt (tagged_lt positive tag fits),
    Nat.mul_comm, Nat.mul_add_mod, Nat.mod_eq_of_lt fits]

theorem div_capacity {first : UInt8} {rest : List UInt8} :
    valueOf (first :: rest) / capacity (rest.length + 1) = first.toNat / 64 := by
  have room : 0 < 256 ^ rest.length := Nat.pow_pos (by decide)
  rw [capacity, Nat.add_sub_cancel, Nat.mul_comm, ← Nat.div_div_eq_div_mul, valueOf, Nat.mul_comm,
    Nat.mul_add_div room, Nat.div_eq_of_lt (valueOf_lt rest), Nat.add_zero]

theorem encodes_of_decode {bytes : List UInt8} {value len : Nat}
    (decoded : decode bytes = some (value, len)) :
    ∃ exponent < 4, len = 2 ^ exponent ∧ value < capacity len ∧
      encodeWith exponent value <+: bytes := by
  cases bytes with
  | nil => cases decoded
  | cons first rest =>
    have tag : first.toNat / 64 < 4 := by
      have := first.toNat_lt
      omega
    simp only [decode, Option.ite_none_left_eq_some, Option.some.injEq, Prod.mk.injEq, Nat.not_lt]
      at decoded
    obtain ⟨enough, rfl, rfl⟩ := decoded
    have positive : 0 < parseLen first := Nat.pow_pos (by decide)
    obtain ⟨width, width_eq⟩ := Nat.exists_eq_succ_of_ne_zero (Nat.pos_iff_ne_zero.mp positive)
    refine ⟨first.toNat / 64, tag, rfl,
      Nat.mod_lt _ (Nat.mul_pos (by decide) (Nat.pow_pos (by decide))), ?_⟩
    -- the tag of the bytes read is the exponent, so writing them again gives them back
    have read : (first :: rest).take (parseLen first) = first :: rest.take width := by
      rw [width_eq, List.take_succ_cons]
    have length : (rest.take width).length + 1 = parseLen first := by
      rw [List.length_take, width_eq]
      rw [width_eq, List.length_cons] at enough
      omega
    have quotient : valueOf ((first :: rest).take (parseLen first)) / capacity (parseLen first) =
        first.toNat / 64 := by
      rw [read, ← length]
      exact div_capacity
    have written : encodeWith (first.toNat / 64)
        (valueOf ((first :: rest).take (parseLen first)) % capacity (parseLen first)) =
        (first :: rest).take (parseLen first) := by
      have whole := Nat.div_add_mod' (valueOf ((first :: rest).take (parseLen first)))
        (capacity (parseLen first))
      rw [quotient] at whole
      change bigEndian (parseLen first) (first.toNat / 64 * capacity (parseLen first) + _) = _
      rw [whole]
      have again := bigEndian_valueOf ((first :: rest).take (parseLen first))
      rwa [List.length_take, Nat.min_eq_left enough] at again
    rw [written]
    exact List.take_prefix _ _

/-! ## The shortest encoding -/

/-- An encoding of the value than which none is shorter. -/
def Shortest (bytes : List UInt8) (value : Nat) : Prop :=
  Encodes bytes value ∧ ∀ other, Encodes other value → bytes.length ≤ other.length

/-- The shortest encoding; values of more than 62 bits have none. -/
def encode (value : Nat) : Option (List UInt8) :=
  if value ≤ 63 then some (encodeWith 0 value)
  else if value ≤ 16383 then some (encodeWith 1 value)
  else if value ≤ 1073741823 then some (encodeWith 2 value)
  else if value ≤ 4611686018427387903 then some (encodeWith 3 value)
  else none

theorem capacity_values :
    capacity (2 ^ 0) = 64 ∧ capacity (2 ^ 1) = 16384 ∧ capacity (2 ^ 2) = 1073741824 ∧
    capacity (2 ^ 3) = 4611686018427387904 := by
  decide

theorem encode_cases {value : Nat} {bytes : List UInt8} (encoded : encode value = some bytes) :
    ∃ exponent < 4, bytes = encodeWith exponent value ∧ value < capacity (2 ^ exponent) ∧
      ∀ smaller < exponent, capacity (2 ^ smaller) ≤ value := by
  obtain ⟨one, two, four, eight⟩ := capacity_values
  unfold encode at encoded
  split_ifs at encoded <;> cases encoded
  · exact ⟨0, by decide, rfl, by omega, fun smaller less => absurd less (by omega)⟩
  · refine ⟨1, by decide, rfl, by omega, fun smaller less => ?_⟩
    interval_cases smaller
    omega
  · refine ⟨2, by decide, rfl, by omega, fun smaller less => ?_⟩
    interval_cases smaller <;> omega
  · refine ⟨3, by decide, rfl, by omega, fun smaller less => ?_⟩
    interval_cases smaller <;> omega

theorem shortest_of_encode {value : Nat} {bytes : List UInt8}
    (encoded : encode value = some bytes) : Shortest bytes value := by
  obtain ⟨exponent, tag, rfl, fits, least⟩ := encode_cases encoded
  refine ⟨⟨exponent, tag, fits, rfl⟩, ?_⟩
  rintro other ⟨larger, _, room, rfl⟩
  rw [encodeWith_length, encodeWith_length]
  apply Nat.pow_le_pow_right (by decide)
  by_contra shorter
  exact absurd room (Nat.not_lt.mpr (least larger (Nat.lt_of_not_le shorter)))

theorem Shortest.unique {first second : List UInt8} {value : Nat} (left : Shortest first value)
    (right : Shortest second value) : first = second := by
  have lengths : first.length = second.length :=
    Nat.le_antisymm (left.2 second right.1) (right.2 first left.1)
  obtain ⟨⟨exponent, _, _, rfl⟩, _⟩ := left
  obtain ⟨⟨other, _, _, rfl⟩, _⟩ := right
  rw [encodeWith_length, encodeWith_length] at lengths
  rw [Nat.pow_right_injective (le_refl 2) lengths]

theorem encode_length {value : Nat} {bytes : List UInt8} (encoded : encode value = some bytes) :
    0 < bytes.length ∧ bytes.length ≤ 8 := by
  obtain ⟨exponent, tag, rfl, _⟩ := encode_cases encoded
  rw [encodeWith_length]
  exact ⟨Nat.pow_pos (by decide), Nat.pow_le_pow_right (by decide : 0 < 2)
    (by omega : exponent ≤ 3)⟩

theorem encode_isSome {value : Nat} (small : value < 4611686018427387904) :
    ∃ bytes, encode value = some bytes := by
  unfold encode
  split_ifs with one two four eight
  · exact ⟨_, rfl⟩
  · exact ⟨_, rfl⟩
  · exact ⟨_, rfl⟩
  · exact ⟨_, rfl⟩
  · omega

theorem decode_eq_iff {value : Nat} {code bytes : List UInt8} (encoded : encode value = some code) :
    decode bytes = some (value, code.length) ↔ code <+: bytes := by
  obtain ⟨exponent, tag, rfl, fits, _⟩ := encode_cases encoded
  rw [encodeWith_length]
  constructor
  · intro decoded
    obtain ⟨other, _, lengths, _, written⟩ := encodes_of_decode decoded
    rwa [Nat.pow_right_injective (le_refl 2) lengths]
  · rintro ⟨rest, rfl⟩
    exact decode_encodeWith tag fits rest

end H3llo.Net.Varint
