import Mathlib.Tactic.Ring
import Mathlib.Algebra.Order.Group.Nat

/-! One's-complement sums of 16-bit words and the checksum they define.

The end-around carry keeps a sum modulo `0xFFFF`, with `0xFFFF` standing for every
positive multiple. Changing one byte changes the word sum by its weight alone.
-/

set_option autoImplicit false

namespace H3llo.Net.OnesComplement

/-- Sum of the big-endian words; a trailing byte is padded with zero. -/
def wordSum : List UInt8 → Nat
  | [] => 0
  | [high] => 256 * high.toNat
  | high :: low :: rest => 256 * high.toNat + low.toNat + wordSum rest

def fold (sum : Nat) : Nat :=
  if sum < 65536 then sum else fold (sum % 65536 + sum / 65536)
termination_by sum
decreasing_by omega

theorem fold_eq (sum : Nat) : fold sum = if sum = 0 then 0 else (sum - 1) % 65535 + 1 := by
  -- a fold keeps the residue modulo 65535 and never turns a positive sum into zero
  induction sum using fold.induct with
  | case1 sum small =>
    rw [fold, if_pos small]
    split <;> omega
  | case2 sum large ih =>
    rw [fold, if_neg large, ih]
    split <;> split <;> omega

def onesSum (bytes : List UInt8) : Nat := fold (wordSum bytes)

/-- Value that completes the sum of `bytes` to `0xFFFF`. -/
def checksum (bytes : List UInt8) : Nat := 65535 - onesSum bytes

theorem onesSum_eq_max_iff (bytes : List UInt8) :
    onesSum bytes = 65535 ↔ 0 < wordSum bytes ∧ wordSum bytes % 65535 = 0 := by
  rw [onesSum, fold_eq]
  split <;> omega

theorem wordSum_set_even (bytes : List UInt8) (word : Nat) (value : UInt8)
    (inside : 2 * word < bytes.length) :
    wordSum (bytes.set (2 * word) value) + 256 * (bytes.getD (2 * word) 0).toNat =
      wordSum bytes + 256 * value.toNat := by
  induction word generalizing bytes with
  | zero =>
    match bytes, inside with
    | [high], _ => simp only [Nat.mul_zero, List.set_cons_zero, wordSum, List.getD_cons_zero]; omega
    | high :: low :: rest, _ =>
      simp only [Nat.mul_zero, List.set_cons_zero, wordSum, List.getD_cons_zero]
      omega
  | succ word ih =>
    match bytes, inside with
    | [high], inside => simp only [List.length_singleton] at inside; omega
    | high :: low :: rest, inside =>
      simp only [List.length_cons] at inside
      have tail := ih rest (by omega)
      have shift : 2 * (word + 1) = 2 * word + 1 + 1 := by omega
      simp only [shift, List.set_cons_succ, wordSum, List.getD_cons_succ]
      omega

theorem wordSum_set_odd (bytes : List UInt8) (word : Nat) (value : UInt8)
    (inside : 2 * word + 1 < bytes.length) :
    wordSum (bytes.set (2 * word + 1) value) + (bytes.getD (2 * word + 1) 0).toNat =
      wordSum bytes + value.toNat := by
  induction word generalizing bytes with
  | zero =>
    match bytes, inside with
    | [high], inside => simp only [List.length_singleton] at inside; omega
    | high :: low :: rest, _ =>
      simp only [Nat.mul_zero, Nat.zero_add, List.set_cons_succ, List.set_cons_zero, wordSum,
        List.getD_cons_succ, List.getD_cons_zero]
      omega
  | succ word ih =>
    match bytes, inside with
    | [high], inside => simp only [List.length_singleton] at inside; omega
    | high :: low :: rest, inside =>
      simp only [List.length_cons] at inside
      have tail := ih rest (by omega)
      have shift : 2 * (word + 1) + 1 = 2 * word + 1 + 1 + 1 := by omega
      simp only [shift, List.set_cons_succ, wordSum, List.getD_cons_succ]
      omega

theorem head_le_wordSum (bytes : List UInt8) : 256 * (bytes.getD 0 0).toNat ≤ wordSum bytes := by
  match bytes with
  | [] => simp [wordSum]
  | [high] => simp [wordSum]
  | high :: low :: rest => simp only [wordSum, List.getD_cons_zero]; omega

end H3llo.Net.OnesComplement
