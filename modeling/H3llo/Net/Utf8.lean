import Mathlib.Data.List.Basic

/-! Lossy decoding of UTF-8.

Every ill-formed part of the input becomes one replacement character, where a part is
the longest start of a character, or a single byte. What decodes without a replacement
character was well formed.
-/

set_option autoImplicit false

namespace H3llo.Net.Utf8

def encode (text : List Char) : List UInt8 := text.flatMap String.utf8EncodeChar

def decodeChar (bytes : List UInt8) : Option Char := bytes.toByteArray.utf8DecodeChar? 0

def replacement : Char := Char.ofNat 0xFFFD

/-! ## Ill-formed parts -/

def isContinuation (byte : UInt8) : Bool := 0x80 ≤ byte && byte ≤ 0xBF

def charWidth (first : UInt8) : Nat :=
  if first ≤ 0x7F then 1
  else if 0xC2 ≤ first ∧ first ≤ 0xDF then 2
  else if 0xE0 ≤ first ∧ first ≤ 0xEF then 3
  else if 0xF0 ≤ first ∧ first ≤ 0xF4 then 4
  else 0

def allowsSecond (first second : UInt8) : Bool :=
  if first = 0xE0 then 0xA0 ≤ second && second ≤ 0xBF
  else if first = 0xED then 0x80 ≤ second && second ≤ 0x9F
  else if first = 0xF0 then 0x90 ≤ second && second ≤ 0xBF
  else if first = 0xF4 then 0x80 ≤ second && second ≤ 0x8F
  else isContinuation second

def illFormedLen (first : UInt8) (rest : List UInt8) : Nat :=
  match rest with
  | [] => 1
  | second :: more =>
      if charWidth first < 3 ∨ ¬ allowsSecond first second then 1
      else if charWidth first = 4 ∧ more.head?.any isContinuation then 3
      else 2

theorem illFormedLen_pos (first : UInt8) (rest : List UInt8) : 0 < illFormedLen first rest := by
  unfold illFormedLen
  split
  · exact Nat.one_pos
  · split_ifs <;> decide

/-! ## Decoding -/

/-- `skip` bytes belong to the character before. -/
def lossyFrom : Nat → List UInt8 → List Char
  | _, [] => []
  | skip + 1, _ :: rest => lossyFrom skip rest
  | 0, byte :: rest =>
      match decodeChar (byte :: rest) with
      | some char => char :: lossyFrom (char.utf8Size - 1) rest
      | none => replacement :: lossyFrom (illFormedLen byte rest - 1) rest

def lossy (bytes : List UInt8) : List Char := lossyFrom 0 bytes

example : lossy [0x48, 0xF0, 0x90, 0x80, 0x57] = ['H', replacement, 'W'] := by decide +kernel

theorem lossyFrom_eq_lossy_drop (skip : Nat) (bytes : List UInt8) :
    lossyFrom skip bytes = lossy (bytes.drop skip) := by
  induction bytes generalizing skip with
  | nil => simp [lossy, lossyFrom]
  | cons byte rest ih =>
    cases skip with
    | zero => rfl
    | succ skip => rw [lossyFrom, ih, List.drop_succ_cons]

theorem lossy_cons (byte : UInt8) (rest : List UInt8) :
    lossy (byte :: rest) = match decodeChar (byte :: rest) with
      | some char => char :: lossy ((byte :: rest).drop char.utf8Size)
      | none => replacement :: lossy ((byte :: rest).drop (illFormedLen byte rest)) := by
  rw [lossy, lossyFrom]
  cases decodeChar (byte :: rest) with
  | some char =>
    simp only [lossyFrom_eq_lossy_drop]
    obtain ⟨size, isSize⟩ := Nat.exists_eq_add_of_lt char.utf8Size_pos
    rw [isSize, Nat.zero_add, Nat.add_sub_cancel, List.drop_succ_cons]
  | none =>
    simp only [lossyFrom_eq_lossy_drop]
    obtain ⟨size, isSize⟩ := Nat.exists_eq_add_of_lt (illFormedLen_pos byte rest)
    rw [isSize, Nat.zero_add, Nat.add_sub_cancel, List.drop_succ_cons]

theorem decodeChar_append (char : Char) (rest : List UInt8) :
    decodeChar (String.utf8EncodeChar char ++ rest) = some char := by
  rw [decodeChar, List.toByteArray_append]
  exact ByteArray.utf8DecodeChar?_utf8EncodeChar_append

theorem append_drop_of_decodeChar {bytes : List UInt8} {char : Char}
    (decoded : decodeChar bytes = some char) :
    bytes = String.utf8EncodeChar char ++ bytes.drop char.utf8Size := by
  obtain ⟨rest, split⟩ := ByteArray.exists_of_utf8DecodeChar?_eq_some decoded
  have listed := congrArg (fun array : ByteArray => array.data.toList) split
  simp only [List.toList_data_toByteArray, ByteArray.data_append, Array.toList_append] at listed
  rw [listed, List.drop_left' (String.length_utf8EncodeChar char)]

theorem lossy_append (char : Char) (rest : List UInt8) :
    lossy (String.utf8EncodeChar char ++ rest) = char :: lossy rest := by
  cases bytes : String.utf8EncodeChar char ++ rest with
  | nil => simp [String.utf8EncodeChar_ne_nil] at bytes
  | cons byte more =>
    rw [lossy_cons, ← bytes, decodeChar_append]
    simp only
    rw [List.drop_left' (String.length_utf8EncodeChar char)]

theorem lossy_encode_append (text : List Char) (rest : List UInt8) :
    lossy (encode text ++ rest) = text ++ lossy rest := by
  induction text with
  | nil => rfl
  | cons char text ih =>
    have split : encode (char :: text) ++ rest = String.utf8EncodeChar char ++
        (encode text ++ rest) := by
      simp [encode]
    rw [split, lossy_append, ih, List.cons_append]

@[simp] theorem lossy_encode (text : List Char) : lossy (encode text) = text := by
  have decoded := lossy_encode_append text []
  rwa [List.append_nil, show lossy [] = [] from rfl, List.append_nil] at decoded

theorem encode_lossy {bytes : List UInt8} (clean : replacement ∉ lossy bytes) :
    encode (lossy bytes) = bytes := by
  induction sized : bytes.length using Nat.strongRecOn generalizing bytes with
  | ind size ih =>
    cases bytes with
    | nil => rfl
    | cons byte rest =>
      rw [lossy_cons] at clean ⊢
      cases decoded : decodeChar (byte :: rest) with
      | none => simp [decoded] at clean
      | some char =>
        simp only [decoded, List.mem_cons, not_or] at clean
        have shorter : ((byte :: rest).drop char.utf8Size).length < size := by
          have := char.utf8Size_pos
          rw [← sized, List.length_drop, List.length_cons]
          omega
        have restored := ih _ shorter clean.2 rfl
        calc encode (char :: lossy ((byte :: rest).drop char.utf8Size))
            = String.utf8EncodeChar char ++ encode (lossy ((byte :: rest).drop char.utf8Size)) := by
              simp [encode]
          _ = String.utf8EncodeChar char ++ (byte :: rest).drop char.utf8Size := by rw [restored]
          _ = byte :: rest := (append_drop_of_decodeChar decoded).symm

theorem head?_utf8EncodeChar_ne (char : Char) : (String.utf8EncodeChar char).head? ≠ some 0xFF := by
  intro starts
  have first : (0xFF : UInt8).IsUTF8FirstByte := by
    obtain ⟨rest, bytes⟩ := List.head?_eq_some_iff.mp starts
    have isFirst := @UInt8.isUTF8FirstByte_getElem_zero_utf8EncodeChar char
    simpa only [bytes, List.getElem_cons_zero] using isFirst
  exact absurd first (by decide)

theorem lossy_invalid (rest : List UInt8) : lossy (0xFF :: rest) = replacement :: lossy rest := by
  rw [lossy_cons]
  cases decoded : decodeChar (0xFF :: rest) with
  | none =>
    have one : illFormedLen 0xFF rest = 1 := by cases rest <;> simp [illFormedLen, charWidth]
    rw [one]
    rfl
  | some char =>
    have split := congrArg List.head? (append_drop_of_decodeChar decoded)
    rw [List.head?_append_of_ne_nil _ String.utf8EncodeChar_ne_nil] at split
    exact absurd split.symm (head?_utf8EncodeChar_ne char)

theorem lossy_eq_iff_encode (text : List Char) :
    (∀ bytes, lossy bytes = text ↔ bytes = encode text) ↔ replacement ∉ text := by
  constructor
  · intro only member
    obtain ⟨before, after, rfl⟩ := List.append_of_mem member
    -- the byte that stands for the replacement character is not its encoding
    have same := (only (encode before ++ 0xFF :: encode after)).mp
      (by rw [lossy_encode_append, lossy_invalid, lossy_encode])
    have split : encode (before ++ replacement :: after) = encode before ++
        (String.utf8EncodeChar replacement ++ encode after) := by
      simp [encode]
    rw [split, List.append_cancel_left_eq] at same
    have head := congrArg List.head? same
    rw [List.head?_append_of_ne_nil _ String.utf8EncodeChar_ne_nil] at head
    exact head?_utf8EncodeChar_ne replacement head.symm
  · intro clean bytes
    constructor
    · rintro rfl
      exact (encode_lossy clean).symm
    · rintro rfl
      exact lossy_encode text

/-! ## Strings -/

def asBytes (text : String) : List UInt8 := encode text.toList

def fromUtf8Lossy (bytes : List UInt8) : String := String.ofList (lossy bytes)

theorem asBytes_append (first second : String) :
    asBytes (first ++ second) = asBytes first ++ asBytes second := by
  simp [asBytes, encode]

@[simp] theorem fromUtf8Lossy_asBytes (text : String) : fromUtf8Lossy (asBytes text) = text := by
  simp [fromUtf8Lossy, asBytes]

theorem asBytes_inj {first second : String} : asBytes first = asBytes second ↔ first = second := by
  constructor
  · intro same
    rw [← fromUtf8Lossy_asBytes first, same, fromUtf8Lossy_asBytes]
  · rintro rfl
    rfl

theorem fromUtf8Lossy_eq_iff_asBytes (text : String) :
    (∀ bytes, fromUtf8Lossy bytes = text ↔ bytes = asBytes text) ↔ replacement ∉ text.toList := by
  rw [← lossy_eq_iff_encode]
  have same (bytes : List UInt8) : fromUtf8Lossy bytes = text ↔ lossy bytes = text.toList := by
    rw [fromUtf8Lossy, ← String.toList_inj, String.toList_ofList]
  simp only [same, asBytes]

end H3llo.Net.Utf8
