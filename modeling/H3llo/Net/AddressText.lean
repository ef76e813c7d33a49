import H3llo.Net.Address
import Mathlib.Data.List.TakeWhile

/-! Textual addresses: the parser of the standard library and its printer.

A reader consumes characters from the front and leaves its input alone when it
fails. What every reader here consumes is spelled with digits and separators.
-/

set_option autoImplicit false

namespace H3llo.Net

abbrev Reader (α : Type) := StateT (List Char) Option α

variable {α β : Type}

def toDigit (radix : Nat) (char : Char) : Option Nat :=
  let digit :=
    if '0' ≤ char ∧ char ≤ '9' then some (char.toNat - 48)
    else if 'a' ≤ char ∧ char ≤ 'f' then some (char.toNat - 87)
    else if 'A' ≤ char ∧ char ≤ 'F' then some (char.toNat - 55)
    else none
  digit.filter (· < radix)

def readGivenChar (target : Char) : Reader Unit := fun input =>
  match input with
  | [] => none
  | char :: rest => if char = target then some ((), rest) else none

def readSeparator (separator : Char) (index : Nat) (inner : Reader α) : Reader α := do
  if 0 < index then readGivenChar separator
  inner

def digitsToNat (radix : Nat) (digits : List Nat) : Nat :=
  digits.foldl (fun value digit => radix * value + digit) 0

/-- A number of at most `maxDigits` digits below `size`, taken as long as digits follow. -/
def readNumber (radix maxDigits size : Nat) (allowZeroPrefix : Bool) : Reader Nat := fun input =>
  let digits := (input.takeWhile fun char => (toDigit radix char).isSome).filterMap (toDigit radix)
  let rest := input.dropWhile fun char => (toDigit radix char).isSome
  -- A number ends where its digits do; one digit too many fails it as a whole.
  if maxDigits < digits.length then none
  else if digits.length = 0 then none
  else if !allowZeroPrefix && input.head? = some '0' && 1 < digits.length then none
  else if digitsToNat radix digits < size then some (digitsToNat radix digits, rest)
  else none

def readOctet (index : Nat) : Reader Nat := readSeparator '.' index (readNumber 10 3 256 false)

def readIpv4Addr : Reader (List Nat) := do
  return [← readOctet 0, ← readOctet 1, ← readOctet 2, ← readOctet 3]

/-- Colon-separated groups, `left` at most, and whether an embedded IPv4 address ended them. -/
def readGroups : (index left : Nat) → Reader (List Nat × Bool)
  | _, 0 => pure ([], false)
  | index, left + 1 => fun input =>
      -- An IPv4 address fills two groups, so it needs room for one more than a group does.
      match (if 0 < left then (readSeparator ':' index readIpv4Addr).run input else none) with
      | some (octets, rest) =>
          some (([digitsToNat 256 (octets.take 2), digitsToNat 256 (octets.drop 2)], true), rest)
      | none =>
          match (readSeparator ':' index (readNumber 16 4 65536 true)).run input with
          | none => some (([], false), input)
          | some (group, rest) =>
              ((readGroups (index + 1) left).run rest).map fun ((groups, embedded), rest) =>
                ((group :: groups, embedded), rest)

def readIpv6Addr : Reader (List Nat) := do
  let head ← readGroups 0 8
  if head.1.length = 8 then return head.1
  -- An embedded IPv4 address cannot stand before the double colon.
  else if head.2 then failure
  else
    readGivenChar ':'
    readGivenChar ':'
    let tail ← readGroups 0 (8 - (head.1.length + 1))
    return head.1 ++ List.replicate (8 - head.1.length - tail.1.length) 0 ++ tail.1

def readIpAddr : Reader IpAddr :=
  ((fun octets => IpAddr.v4 (BitVec.ofNat 32 (digitsToNat 256 octets))) <$> readIpv4Addr) <|>
    ((fun groups => IpAddr.v6 (BitVec.ofNat 128 (digitsToNat 65536 groups))) <$> readIpv6Addr)

def parseIpAddr (text : String) : Option IpAddr :=
  match readIpAddr.run text.toList with
  | some (addr, []) => some addr
  | _ => none

example : parseIpAddr "10.0.0.1" = some (.v4 0x0a000001#32) := by decide +kernel
example : parseIpAddr "::ffff:10.0.0.1" = some (IpAddr.v4 0x0a000001#32).mapped := by decide +kernel
example : parseIpAddr "[::1]" = none := by decide +kernel

/-! ## Printing -/

/-- The `count` base-`radix` digits of a value, most significant first. -/
def groupsOf (radix count value : Nat) : List Nat :=
  (List.range count).map fun index => value / radix ^ (count - 1 - index) % radix

structure Span where
  start : Nat
  len : Nat

/-- Longest run of zero groups; the first one among equals. -/
def longestZeros (groups : List Nat) : Span :=
  let scan := groups.zipIdx.foldl (fun (current, longest) (group, index) =>
    if group = 0 then
      let current := if current.len = 0 then ⟨index, 1⟩ else ⟨current.start, current.len + 1⟩
      (current, if longest.len < current.len then current else longest)
    else (⟨0, 0⟩, longest)) ((⟨0, 0⟩ : Span), (⟨0, 0⟩ : Span))
  scan.2

def ipv4Text (value : Nat) : String := ".".intercalate ((groupsOf 256 4 value).map toString)

def groupsText (groups : List Nat) : String :=
  ":".intercalate (groups.map fun group => String.ofList (Nat.toDigits 16 group))

def ipv6Text (value : Nat) : String :=
  if value / 2 ^ 32 = 0xffff then "::ffff:" ++ ipv4Text (value % 2 ^ 32)
  else
    let groups := groupsOf 65536 8 value
    let zeros := longestZeros groups
    if 1 < zeros.len then
      groupsText (groups.take zeros.start) ++ "::" ++ groupsText
        (groups.drop (zeros.start + zeros.len))
    else groupsText groups

def IpAddr.toText (addr : IpAddr) : String :=
  match addr.family with
  | .v4 => ipv4Text addr.bits.toNat
  | .v6 => ipv6Text addr.bits.toNat

def IpNet.toText (net : IpNet) : String := net.addr.toText ++ "/" ++ toString net.prefixLen

example : (IpAddr.v6 0x20010db8000000000000000000000001#128).toText = "2001:db8::1" := by
  decide +kernel
example : (IpNet.host (.v4 0x0a000001#32)).toText = "10.0.0.1/32" := by decide +kernel

/-! ## What a reader consumes -/

def AddressChar (char : Char) : Prop := (toDigit 16 char).isSome ∨ char = ':' ∨ char = '.'

instance (char : Char) : Decidable (AddressChar char) := inferInstanceAs (Decidable (_ ∨ _))

/-- Whatever the reader consumes is spelled with address characters. -/
def Spells (reader : Reader α) : Prop :=
  ∀ input value rest, reader.run input = some (value, rest) →
    ∃ read, input = read ++ rest ∧ ∀ char ∈ read, AddressChar char

namespace Spells

theorem pure (value : α) : Spells (Pure.pure value : Reader α) := by
  intro input result rest read
  cases read
  exact ⟨[], rfl, by simp⟩

theorem failure : Spells (Alternative.failure : Reader α) := by
  intro input result rest read
  cases read

theorem bind {reader : Reader α} {next : α → Reader β} (first : Spells reader)
    (then_ : ∀ value, Spells (next value)) : Spells (reader >>= next) := by
  intro input result rest read
  obtain ⟨⟨value, middle⟩, left, right⟩ := Option.bind_eq_some_iff.mp read
  obtain ⟨before, rfl, beforeChars⟩ := first _ _ _ left
  obtain ⟨after, rfl, afterChars⟩ := then_ value _ _ _ right
  refine ⟨before ++ after, by simp, fun char member => ?_⟩
  rcases List.mem_append.mp member with member | member
  · exact beforeChars char member
  · exact afterChars char member

theorem map {reader : Reader α} (spells : Spells reader) (f : α → β) : Spells (f <$> reader) := by
  rw [map_eq_pure_bind]
  exact spells.bind fun _ => Spells.pure _

theorem orElse {first second : Reader α} (left : Spells first) (right : Spells second) :
    Spells (first <|> second) := by
  intro input value rest read
  have either : (first.run input <|> second.run input) = some (value, rest) := read
  cases found : first.run input with
  | none =>
    rw [found] at either
    exact right _ _ _ either
  | some pair =>
    rw [found] at either
    exact left _ _ _ (found.trans either)

end Spells

theorem spells_readGivenChar {target : Char} (spelled : AddressChar target) :
    Spells (readGivenChar target) := by
  intro input value rest read
  match input with
  | [] => cases read
  | char :: tail =>
    simp only [readGivenChar, StateT.run] at read
    split at read
    next same =>
      cases read
      exact ⟨[char], rfl, by simpa [same] using spelled⟩
    next => cases read

theorem spells_readSeparator {separator : Char} (spelled : AddressChar separator) (index : Nat)
    {inner : Reader α} (spells : Spells inner) : Spells (readSeparator separator index inner) := by
  unfold readSeparator
  split
  · exact (spells_readGivenChar spelled).bind fun _ => spells
  · exact spells

theorem toDigit_mono {radix : Nat} (small : radix ≤ 16) {char : Char}
    (digit : (toDigit radix char).isSome) : (toDigit 16 char).isSome := by
  unfold toDigit at digit ⊢
  simp only [Option.isSome_filter, Option.any_eq_true, decide_eq_true_eq] at digit ⊢
  obtain ⟨value, found, below⟩ := digit
  exact ⟨value, found, by omega⟩

theorem spells_readNumber {radix : Nat} (small : radix ≤ 16) (maxDigits size : Nat)
    (allowZeroPrefix : Bool) : Spells (readNumber radix maxDigits size allowZeroPrefix) := by
  intro input value rest read
  simp only [readNumber, StateT.run, Option.ite_none_left_eq_some, Option.ite_none_right_eq_some,
    Option.some.injEq, Prod.mk.injEq] at read
  obtain ⟨_, _, _, _, _, rfl⟩ := read
  refine ⟨_, List.takeWhile_append_dropWhile.symm, fun char member => .inl (toDigit_mono small ?_)⟩
  exact List.mem_takeWhile_imp (p := fun char => (toDigit radix char).isSome) member

theorem spells_readIpv4Addr : Spells readIpv4Addr := by
  have octet (index : Nat) : Spells (readOctet index) :=
    spells_readSeparator (by decide) index (spells_readNumber (by decide) 3 256 false)
  unfold readIpv4Addr
  exact (octet 0).bind fun _ => (octet 1).bind fun _ => (octet 2).bind fun _ =>
    (octet 3).bind fun _ => Spells.pure _

theorem spells_readGroups (index left : Nat) : Spells (readGroups index left) := by
  -- on the groups that may still follow, for every position
  induction left generalizing index with
  | zero => exact Spells.pure _
  | succ left ih =>
    intro input value rest read
    simp only [readGroups, StateT.run] at read
    split at read
    next octets after embedded =>
      cases read
      split at embedded
      next => exact spells_readSeparator (by decide) index spells_readIpv4Addr _ _ _ embedded
      next => cases embedded
    next =>
      split at read
      next => cases read; exact ⟨[], rfl, by simp⟩
      next group after found =>
        obtain ⟨⟨pair, last⟩, further, equal⟩ := Option.map_eq_some_iff.mp read
        cases equal
        obtain ⟨first, rfl, firstChars⟩ :=
          spells_readSeparator (by decide) index (spells_readNumber (by decide) 4 65536 true)
            _ _ _ found
        obtain ⟨more, rfl, moreChars⟩ := ih (index + 1) _ _ _ further
        refine ⟨first ++ more, by simp, fun char member => ?_⟩
        rcases List.mem_append.mp member with member | member
        · exact firstChars char member
        · exact moreChars char member

theorem spells_readIpv6Addr : Spells readIpv6Addr := by
  have colon : Spells (readGivenChar ':') := spells_readGivenChar (by decide)
  refine (spells_readGroups 0 8).bind fun head => ?_
  split
  · exact Spells.pure _
  · split
    · exact Spells.failure
    · exact colon.bind fun _ => colon.bind fun _ => (spells_readGroups 0 _).bind fun _ =>
        Spells.pure _

/-- An accepted text is spelled with digits, colons and dots; no bracket can occur. -/
theorem parseIpAddr_chars {text : String} {addr : IpAddr} (parsed : parseIpAddr text = some addr) :
    ∀ char ∈ text.toList, AddressChar char := by
  have spells : Spells readIpAddr := (spells_readIpv4Addr.map _).orElse (spells_readIpv6Addr.map _)
  unfold parseIpAddr at parsed
  split at parsed
  next found read =>
    obtain ⟨consumed, whole, chars⟩ := spells _ _ _ read
    rw [whole, List.append_nil]
    exact chars
  next => cases parsed

end H3llo.Net
