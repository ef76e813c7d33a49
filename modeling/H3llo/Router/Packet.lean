import H3llo.Net.Address
import H3llo.Net.OnesComplement
import H3llo.Metrics

/-! IP packet utilities of the router: destination extraction and TTL handling.

The in-place update of a TTL is returned together with the value the function
reports.
-/

set_option autoImplicit false

namespace H3llo.Router
open H3llo.Net H3llo.Net.OnesComplement

def ipv4TtlOffset : Nat := 8
def ipv4ChecksumOffset : Nat := 10
def ipv6HopLimitOffset : Nat := 7
def ipv4MinLen : Nat := 20
def ipv6MinLen : Nat := 40

def fromBeBytes (high low : UInt8) : UInt16 := UInt16.ofNat (256 * high.toNat + low.toNat)

def highByte (value : UInt16) : UInt8 := UInt8.ofNat (value.toNat / 256)
def lowByte (value : UInt16) : UInt8 := UInt8.ofNat (value.toNat % 256)

def foldCarry (sum : UInt32) : UInt32 := (sum &&& (0xFFFF : UInt32)) + (sum >>> 16)

def updatedCheck (oldCheck : UInt16) : UInt16 :=
  let sum : UInt32 := oldCheck.toUInt32 + 0x0100
  let newCheck := (foldCarry (foldCarry sum)).toUInt16
  -- The -0 edge case of RFC 1624, Section 4.
  if newCheck = 0xFFFF then 0 else newCheck

/-- Decrements the TTL or hop limit. The result is the original value, or `none`
for a packet that is too short or of no known version. -/
def decrementTtl (packet : Packet) : Option UInt8 × Packet :=
  match packet.head? with
  | none => (none, packet)
  | some first =>
      if first >>> 4 = 4 then
        if packet.length < ipv4MinLen then (none, packet)
        else
          let oldTtl := packet.getD ipv4TtlOffset 0
          -- A spent TTL is reported, not wrapped around.
          if oldTtl = 0 then (some 0, packet)
          else
            let packet := packet.set ipv4TtlOffset (oldTtl - 1)
            let oldCheck :=
              fromBeBytes (packet.getD ipv4ChecksumOffset 0)
                (packet.getD (ipv4ChecksumOffset + 1) 0)
            let newCheck := updatedCheck oldCheck
            (some oldTtl, (packet.set ipv4ChecksumOffset (highByte newCheck)).set
              (ipv4ChecksumOffset + 1) (lowByte newCheck))
      else if first >>> 4 = 6 then
        if packet.length < ipv6MinLen then (none, packet)
        else
          let oldHl := packet.getD ipv6HopLimitOffset 0
          if oldHl = 0 then (some 0, packet)
          else (some oldHl, packet.set ipv6HopLimitOffset (oldHl - 1))
      else (none, packet)

/-- Destination address, or `none` for a packet that is too short or of no known version. -/
def extractDstIp (packet : Packet) : Option IpAddr :=
  match packet.head? with
  | none => none
  | some first =>
      if first >>> 4 = 4 then
        if packet.length < 20 then none else some (.ofOctets .v4 ((packet.drop 16).take 4))
      else if first >>> 4 = 6 then
        if packet.length < 40 then none else some (.ofOctets .v6 ((packet.drop 24).take 16))
      else none

/-! ## Shape of a packet -/

def version (packet : Packet) : UInt8 := packet.getD 0 0 >>> 4

def ttl (packet : Packet) : UInt8 :=
  if version packet = 4 then packet.getD ipv4TtlOffset 0 else packet.getD ipv6HopLimitOffset 0

def WellFormed (packet : Packet) : Prop :=
  version packet = 4 ∧ ipv4MinLen ≤ packet.length ∨ version packet = 6 ∧ ipv6MinLen ≤ packet.length

theorem head?_of_length (packet : Packet) (nonempty : 0 < packet.length) :
    packet.head? = some (packet.getD 0 0) := by
  cases packet with
  | nil => simp at nonempty
  | cons first rest => rfl

theorem version_four_ne_six {packet : Packet} (four : version packet = 4) : version packet ≠ 6 := by
  rw [four]; decide

theorem extractDstIp_v4 {packet : Packet} (four : version packet = 4)
    (long : ipv4MinLen ≤ packet.length) :
    extractDstIp packet = some (.ofOctets .v4 ((packet.drop 16).take 4)) := by
  unfold ipv4MinLen at long
  have head := head?_of_length packet (by omega)
  have four : packet.getD 0 0 >>> 4 = 4 := four
  have long : ¬ packet.length < 20 := by omega
  simp only [extractDstIp, head, if_pos four, if_neg long]

theorem extractDstIp_v6 {packet : Packet} (six : version packet = 6)
    (long : ipv6MinLen ≤ packet.length) :
    extractDstIp packet = some (.ofOctets .v6 ((packet.drop 24).take 16)) := by
  unfold ipv6MinLen at long
  have head := head?_of_length packet (by omega)
  have four : packet.getD 0 0 >>> 4 ≠ 4 := fun four => version_four_ne_six four six
  have six : packet.getD 0 0 >>> 4 = 6 := six
  have long : ¬ packet.length < 40 := by omega
  simp only [extractDstIp, head, if_neg four, if_pos six, if_neg long]

theorem extractDstIp_malformed {packet : Packet} (malformed : ¬ WellFormed packet) :
    extractDstIp packet = none := by
  unfold extractDstIp
  cases packet with
  | nil => rfl
  | cons first rest =>
    simp only [WellFormed, version, List.getD_cons_zero, not_or, not_and, Nat.not_le, ipv4MinLen,
      ipv6MinLen] at malformed
    simp only [List.head?_cons]
    by_cases four : first >>> 4 = 4
    · simp only [if_pos four, if_pos (malformed.1 four)]
    · by_cases six : first >>> 4 = 6
      · simp only [if_neg four, if_pos six, if_pos (malformed.2 six)]
      · simp only [if_neg four, if_neg six]

theorem extractDstIp_isSome_iff (packet : Packet) :
    (extractDstIp packet).isSome ↔ WellFormed packet := by
  by_cases formed : WellFormed packet
  · rcases formed with ⟨four, long⟩ | ⟨six, long⟩
    · simp [extractDstIp_v4 four long, WellFormed, four, long]
    · simp [extractDstIp_v6 six long, WellFormed, six, long]
  · simp [extractDstIp_malformed formed, formed]

def rewriteV4 (packet : Packet) : Packet :=
  let newCheck := updatedCheck (fromBeBytes (packet.getD 10 0) (packet.getD 11 0))
  ((packet.set 8 (packet.getD 8 0 - 1)).set 10 (highByte newCheck)).set 11 (lowByte newCheck)

theorem decrementTtl_v4 {packet : Packet} (four : version packet = 4)
    (long : ipv4MinLen ≤ packet.length) :
    decrementTtl packet =
      if packet.getD 8 0 = 0 then (some 0, packet)
        else (some (packet.getD 8 0), rewriteV4 packet) := by
  have head := head?_of_length packet (by unfold ipv4MinLen at long; omega)
  have four : packet.getD 0 0 >>> 4 = 4 := four
  have long : ¬ packet.length < ipv4MinLen := by omega
  simp only [decrementTtl, head, four, if_true, if_neg long, ipv4TtlOffset, ipv4ChecksumOffset,
    rewriteV4]
  simp

theorem decrementTtl_v6 {packet : Packet} (six : version packet = 6)
    (long : ipv6MinLen ≤ packet.length) :
    decrementTtl packet =
      if packet.getD 7 0 = 0 then (some 0, packet)
      else (some (packet.getD 7 0), packet.set 7 (packet.getD 7 0 - 1)) := by
  have head := head?_of_length packet (by unfold ipv6MinLen at long; omega)
  have four : packet.getD 0 0 >>> 4 ≠ 4 := fun four => version_four_ne_six four six
  have six : packet.getD 0 0 >>> 4 = 6 := six
  have long : ¬ packet.length < ipv6MinLen := by omega
  simp only [decrementTtl, head, if_neg four, if_pos six, if_neg long, ipv6HopLimitOffset]
  rfl

theorem decrementTtl_malformed {packet : Packet} (malformed : ¬ WellFormed packet) :
    decrementTtl packet = (none, packet) := by
  unfold decrementTtl
  cases packet with
  | nil => rfl
  | cons first rest =>
    simp only [WellFormed, version, List.getD_cons_zero, not_or, not_and, Nat.not_le] at malformed
    simp only [List.head?_cons]
    by_cases four : first >>> 4 = 4
    · simp only [if_pos four, if_pos (malformed.1 four)]
    · by_cases six : first >>> 4 = 6
      · simp only [if_neg four, if_pos six, if_pos (malformed.2 six)]
      · simp only [if_neg four, if_neg six]

theorem decrementTtl_fst {packet : Packet} (formed : WellFormed packet) :
    (decrementTtl packet).1 = some (ttl packet) := by
  rcases formed with ⟨four, long⟩ | ⟨six, long⟩
  · rw [decrementTtl_v4 four long, ttl, if_pos four, ipv4TtlOffset]
    split
    next zero => rw [zero]
    next => rfl
  · rw [decrementTtl_v6 six long, ttl, if_neg fun four => version_four_ne_six four six,
      ipv6HopLimitOffset]
    split
    next zero => rw [zero]
    next => rfl

theorem extractDstIp_decrementTtl (packet : Packet) :
    extractDstIp (decrementTtl packet).2 = extractDstIp packet := by
  by_cases formed : WellFormed packet
  · rcases formed with ⟨four, long⟩ | ⟨six, long⟩
    · rw [decrementTtl_v4 four long]
      split
      next => rfl
      next =>
        have version : version (rewriteV4 packet) = 4 := by simpa [version, rewriteV4] using four
        have length : ipv4MinLen ≤ (rewriteV4 packet).length := by simpa [rewriteV4] using long
        rw [extractDstIp_v4 four long, extractDstIp_v4 version length]
        simp [rewriteV4, List.drop_set]
    · rw [decrementTtl_v6 six long]
      split
      next => rfl
      next =>
        rw [extractDstIp_v6 six long, extractDstIp_v6 (by simpa [version] using six)
          (by simpa using long)]
        simp [List.drop_set]
  · rw [decrementTtl_malformed formed]

theorem length_decrementTtl (packet : Packet) : (decrementTtl packet).2.length = packet.length := by
  by_cases formed : WellFormed packet
  · rcases formed with ⟨four, long⟩ | ⟨six, long⟩
    · rw [decrementTtl_v4 four long]
      split
      next => rfl
      next => simp [rewriteV4]
    · rw [decrementTtl_v6 six long]
      split
      next => rfl
      next => simp
  · rw [decrementTtl_malformed formed]

/-! ## The header checksum -/

def ihl (packet : Packet) : Nat := (packet.getD 0 0 &&& (0x0F : UInt8)).toNat

def header (packet : Packet) : Packet := packet.take (4 * ihl packet)

/-- An IPv4 packet that holds its whole header, with a checksum that verifies. -/
structure ValidIpv4 (packet : Packet) : Prop where
  four : version packet = 4
  options : 5 ≤ ihl packet
  complete : 4 * ihl packet ≤ packet.length
  verifies : onesSum (header packet) = 0xFFFF

def storedCheck (packet : Packet) : UInt16 := fromBeBytes (packet.getD 10 0) (packet.getD 11 0)

def clearCheck (bytes : Packet) : Packet := (bytes.set 10 0).set 11 0

def recomputedCheck (packet : Packet) : Nat := checksum (clearCheck (header packet))

/-- Two packets of one length that agree at every other offset. -/
def SameOutside (offsets : List Nat) (before after : Packet) : Prop :=
  after.length = before.length ∧ ∀ offset, offset ∉ offsets → after[offset]? = before[offset]?

theorem fromBeBytes_toNat (high low : UInt8) :
    (fromBeBytes high low).toNat = 256 * high.toNat + low.toNat := by
  have highBound := high.toNat_lt
  have lowBound := low.toNat_lt
  rw [fromBeBytes, UInt16.toNat_ofNat']
  omega

theorem fromBeBytes_split (value : UInt16) :
    fromBeBytes (highByte value) (lowByte value) = value := by
  have bound := value.toNat_lt
  apply UInt16.toNat_inj.mp
  rw [fromBeBytes_toNat, highByte, lowByte, UInt8.toNat_ofNat', UInt8.toNat_ofNat']
  omega

theorem foldCarry_toNat (sum : UInt32) :
    (foldCarry sum).toNat = sum.toNat % 65536 + sum.toNat / 65536 := by
  have bound := sum.toNat_lt
  have mask : (sum &&& (0xFFFF : UInt32)).toNat = sum.toNat % 65536 := by
    rw [UInt32.toNat_and]
    exact Nat.and_two_pow_sub_one_eq_mod sum.toNat 16
  have carry : (sum >>> 16).toNat = sum.toNat / 65536 := by
    rw [UInt32.toNat_shiftRight]
    exact Nat.shiftRight_eq_div_pow sum.toNat 16
  rw [foldCarry, UInt32.toNat_add, mask, carry]
  omega

/-- The two folds are a remainder; the last branch picks zero over `0xFFFF`. -/
theorem updatedCheck_toNat (oldCheck : UInt16) :
    (updatedCheck oldCheck).toNat = (oldCheck.toNat + 256) % 65535 := by
  have bound := oldCheck.toNat_lt
  have start : (oldCheck.toUInt32 + 0x0100).toNat = oldCheck.toNat + 256 := by
    have literal : (0x0100 : UInt32).toNat = 256 := rfl
    rw [UInt32.toNat_add, UInt16.toNat_toUInt32, literal]
    omega
  -- The first fold already fits in 16 bits, so the second changes nothing.
  have once : (foldCarry (oldCheck.toUInt32 + 0x0100)).toNat =
      if oldCheck.toNat + 256 < 65536 then
        oldCheck.toNat + 256
      else oldCheck.toNat + 256 - 65535 := by
    rw [foldCarry_toNat, start]
    split <;> omega
  have twice : (foldCarry (foldCarry (oldCheck.toUInt32 + 0x0100))).toUInt16.toNat =
      (foldCarry (oldCheck.toUInt32 + 0x0100)).toNat := by
    have small : (foldCarry (oldCheck.toUInt32 + 0x0100)).toNat < 65536 := by
      rw [once]
      split <;> omega
    rw [UInt32.toNat_toUInt16, foldCarry_toNat]
    omega
  rw [once] at twice
  unfold updatedCheck
  simp only
  split
  next full =>
    have literal : (0xFFFF : UInt16).toNat = 65535 := rfl
    have zero : (0 : UInt16).toNat = 0 := rfl
    rw [full, literal] at twice
    rw [zero]
    split at twice <;> omega
  next partly =>
    have different : (foldCarry (foldCarry (oldCheck.toUInt32 + 0x0100))).toUInt16.toNat ≠ 65535 :=
      fun full => partly (UInt16.toNat_inj.mp full)
    rw [twice] at different ⊢
    by_cases small : oldCheck.toNat + 256 < 65536
    · rw [if_pos small] at different ⊢
      omega
    · rw [if_neg small] at different ⊢
      omega

theorem wordSum_clearCheck (bytes : Packet) (long : 20 ≤ bytes.length) :
    wordSum (clearCheck bytes) + (storedCheck bytes).toNat = wordSum bytes := by
  have high := wordSum_set_even bytes 5 0 (by omega)
  have low := wordSum_set_odd (bytes.set 10 0) 5 0 (by rw [List.length_set]; omega)
  have kept : (bytes.set 10 0).getD 11 0 = bytes.getD 11 0 := by simp
  have zero : (0 : UInt8).toNat = 0 := rfl
  rw [storedCheck, fromBeBytes_toNat, clearCheck]
  simp only [Nat.reduceMul, Nat.reduceAdd] at high low
  rw [kept] at low
  omega

theorem toNat_sub_one {value : UInt8} (positive : value ≠ 0) :
    (value - 1).toNat + 1 = value.toNat := by
  have nonzero : value.toNat ≠ 0 := fun zero => positive (UInt8.toNat_inj.mp zero)
  have lower : (value - 1).toNat = value.toNat - 1 :=
    UInt8.toNat_sub_of_le _ _ (by rw [UInt8.le_iff_toNat_le]; show 1 ≤ _; omega)
  omega

theorem wordSum_dropTtl {bytes : Packet} (long : 20 ≤ bytes.length) (alive : bytes.getD 8 0 ≠ 0) :
    wordSum (bytes.set 8 (bytes.getD 8 0 - 1)) + 256 = wordSum bytes := by
  have changed := wordSum_set_even bytes 4 (bytes.getD 8 0 - 1) (by omega)
  have lower := toNat_sub_one alive
  simp only [Nat.reduceMul] at changed
  omega

/-! ## One hop -/

theorem sameOutside_rewriteV4 (packet : Packet) :
    SameOutside [8, 10, 11] packet (rewriteV4 packet) := by
  refine ⟨by simp [rewriteV4], fun offset outside => ?_⟩
  simp only [List.mem_cons, List.not_mem_nil, or_false, not_or] at outside
  obtain ⟨ttl, high, low⟩ := outside
  simp [rewriteV4, Ne.symm ttl, Ne.symm high, Ne.symm low]

theorem SameOutside.getD {offsets : List Nat} {before after : Packet}
    (same : SameOutside offsets before after) {offset : Nat} (outside : offset ∉ offsets) :
    after.getD offset 0 = before.getD offset 0 := by
  simp only [List.getD_eq_getElem?_getD, same.2 offset outside]

theorem storedCheck_rewriteV4 {packet : Packet} (long : ipv4MinLen ≤ packet.length) :
    storedCheck (rewriteV4 packet) = updatedCheck (storedCheck packet) := by
  unfold ipv4MinLen at long
  have high : 10 < packet.length := by omega
  have low : 11 < packet.length := by omega
  have bytes := fromBeBytes_split (updatedCheck (storedCheck packet))
  simpa [storedCheck, rewriteV4, high, low] using bytes

theorem getD_ttl_rewriteV4 {packet : Packet} (long : ipv4MinLen ≤ packet.length) :
    (rewriteV4 packet).getD 8 0 = packet.getD 8 0 - 1 := by
  unfold ipv4MinLen at long
  have inside : 8 < packet.length := by omega
  simp [rewriteV4, inside]

theorem ihl_rewriteV4 (packet : Packet) : ihl (rewriteV4 packet) = ihl packet := by
  rw [ihl, ihl, (sameOutside_rewriteV4 packet).getD (by decide)]

theorem version_rewriteV4 (packet : Packet) : version (rewriteV4 packet) = version packet := by
  rw [version, version, (sameOutside_rewriteV4 packet).getD (by decide)]

theorem header_getD {packet : Packet} (options : 5 ≤ ihl packet) {offset : Nat}
    (inside : offset < 20) : (header packet).getD offset 0 = packet.getD offset 0 := by
  have below : offset < 4 * ihl packet := by omega
  simp [header, below]

theorem header_rewriteV4 {packet : Packet} (options : 5 ≤ ihl packet) :
    header (rewriteV4 packet) = rewriteV4 (header packet) := by
  rw [header, ihl_rewriteV4]
  simp only [rewriteV4, List.take_set, header_getD options (by decide : 8 < 20),
    header_getD options (by decide : 10 < 20), header_getD options (by decide : 11 < 20)]
  rfl

theorem clearCheck_rewriteV4 (bytes : Packet) :
    clearCheck (rewriteV4 bytes) = clearCheck (bytes.set 8 (bytes.getD 8 0 - 1)) := by
  simp only [clearCheck, rewriteV4]
  rw [List.set_comm _ _ (by decide : 11 ≠ 10), List.set_set, List.set_set]

theorem ValidIpv4.ipv4MinLen_le {packet : Packet} (valid : ValidIpv4 packet) :
    ipv4MinLen ≤ packet.length := by
  have options := valid.options
  have complete := valid.complete
  unfold ipv4MinLen
  omega

theorem header_length {packet : Packet} (complete : 4 * ihl packet ≤ packet.length) :
    (header packet).length = 4 * ihl packet := by
  rw [header, List.length_take, Nat.min_eq_left complete]

theorem wordSum_header {packet : Packet} (options : 5 ≤ ihl packet)
    (complete : 4 * ihl packet ≤ packet.length) :
    wordSum (clearCheck (header packet)) + (storedCheck packet).toNat =
      wordSum (header packet) := by
  have sum := wordSum_clearCheck (header packet) (by rw [header_length complete]; omega)
  rwa [storedCheck, header_getD options (by decide), header_getD options (by decide)] at sum

theorem wordSum_clearCheck_pos (packet : Packet) (four : version packet = 4)
    (options : 5 ≤ ihl packet) : 0 < wordSum (clearCheck (header packet)) := by
  have first : (clearCheck (header packet)).getD 0 0 = packet.getD 0 0 := by
    rw [← header_getD options (by decide : 0 < 20)]
    simp [clearCheck]
  have least := head_le_wordSum (clearCheck (header packet))
  have nonzero : (packet.getD 0 0).toNat ≠ 0 := by
    intro zero
    rw [version, UInt8.toNat_inj.mp (show (packet.getD 0 0).toNat =
      (0 : UInt8).toNat from zero)] at four
    exact absurd four (by decide)
  rw [first] at least
  omega

section Rewrite

variable {packet : Packet} (valid : ValidIpv4 packet) (alive : packet.getD 8 0 ≠ 0)
include valid alive

theorem ValidIpv4.wordSum_rewriteV4 :
    wordSum (clearCheck (header (rewriteV4 packet))) + 256 =
      wordSum (clearCheck (header packet)) := by
  have options := valid.options
  have long : 20 ≤ (header packet).length := by rw [header_length valid.complete]; omega
  have ttl := header_getD options (by decide : 8 < 20)
  have before := wordSum_clearCheck (header packet) long
  have after := wordSum_clearCheck ((header packet).set 8 (packet.getD 8 0 - 1))
    (by simpa using long)
  have dropped := wordSum_dropTtl long (by rwa [ttl])
  have check : storedCheck ((header packet).set 8 (packet.getD 8 0 - 1)) =
      storedCheck (header packet) := by
    simp [storedCheck]
  rw [check] at after
  rw [ttl] at dropped
  rw [header_rewriteV4 options, clearCheck_rewriteV4, ttl]
  omega

theorem ValidIpv4.storedCheck_eq :
    (storedCheck (rewriteV4 packet)).toNat = recomputedCheck (rewriteV4 packet) := by
  have sum := wordSum_header valid.options valid.complete
  have rewritten := valid.wordSum_rewriteV4 alive
  have positive := wordSum_clearCheck_pos (rewriteV4 packet)
    (by rw [version_rewriteV4, valid.four]) (by rw [ihl_rewriteV4]; exact valid.options)
  -- the old sum is a multiple of 65535, so both checksums are the same residue
  obtain ⟨_, multiple⟩ := (onesSum_eq_max_iff _).mp valid.verifies
  rw [storedCheck_rewriteV4 valid.ipv4MinLen_le, updatedCheck_toNat, recomputedCheck, checksum,
    onesSum, fold_eq,
    if_neg (by omega)]
  omega

theorem ValidIpv4.rewriteV4 : ValidIpv4 (rewriteV4 packet) := by
  have four : version (Router.rewriteV4 packet) = 4 := by rw [version_rewriteV4, valid.four]
  have options : 5 ≤ ihl (Router.rewriteV4 packet) := by rw [ihl_rewriteV4]; exact valid.options
  have complete : 4 * ihl (Router.rewriteV4 packet) ≤ (Router.rewriteV4 packet).length := by
    rw [ihl_rewriteV4, (sameOutside_rewriteV4 packet).1]; exact valid.complete
  have before := wordSum_header valid.options valid.complete
  have after := wordSum_header options complete
  have rewritten := valid.wordSum_rewriteV4 alive
  have positive := wordSum_clearCheck_pos (Router.rewriteV4 packet) four options
  obtain ⟨_, multiple⟩ := (onesSum_eq_max_iff _).mp valid.verifies
  rw [storedCheck_rewriteV4 valid.ipv4MinLen_le, updatedCheck_toNat] at after
  refine ⟨four, options, complete, (onesSum_eq_max_iff _).mpr ⟨by omega, ?_⟩⟩
  omega

theorem ValidIpv4.decrementTtl_eq :
    decrementTtl packet = (some (packet.getD 8 0), Router.rewriteV4 packet) := by
  rw [decrementTtl_v4 valid.four valid.ipv4MinLen_le, if_neg alive]

end Rewrite

theorem decrementTtl_unchanged {packet : Packet}
    (stopped : (decrementTtl packet).1 = none ∨ (decrementTtl packet).1 = some 0) :
    (decrementTtl packet).2 = packet := by
  by_cases formed : WellFormed packet
  · rcases formed with ⟨four, long⟩ | ⟨six, long⟩
    · rw [decrementTtl_v4 four long] at stopped ⊢
      split at stopped
      next zero => rw [if_pos zero]
      next alive =>
        simp only [reduceCtorEq, Option.some.injEq, false_or] at stopped
        exact absurd stopped alive
    · rw [decrementTtl_v6 six long] at stopped ⊢
      split at stopped
      next zero => rw [if_pos zero]
      next alive =>
        simp only [reduceCtorEq, Option.some.injEq, false_or] at stopped
        exact absurd stopped alive
  · rw [decrementTtl_malformed formed]

theorem decrementTtl_v6_sameOutside {packet : Packet} (six : version packet = 6)
    (long : ipv6MinLen ≤ packet.length) : SameOutside [7] packet (decrementTtl packet).2 := by
  rw [decrementTtl_v6 six long]
  split
  next => exact ⟨rfl, fun _ _ => rfl⟩
  next =>
    refine ⟨by simp, fun offset outside => ?_⟩
    simp only [List.mem_singleton] at outside
    simp [Ne.symm outside]

def hops (packet : Packet) : Nat → Packet
  | 0 => packet
  | count + 1 => (decrementTtl (hops packet count)).2

theorem ValidIpv4.hops {packet : Packet} (valid : ValidIpv4 packet) (count : Nat)
    (within : count ≤ (packet.getD 8 0).toNat) :
    ValidIpv4 (hops packet count) ∧ ((Router.hops packet count).getD 8 0).toNat =
      (packet.getD 8 0).toNat - count := by
  -- on the hops made so far; the TTL that is left allows the next one
  induction count with
  | zero => exact ⟨valid, rfl⟩
  | succ count ih =>
    obtain ⟨reached, left⟩ := ih (by omega)
    have positive : ((Router.hops packet count).getD 8 0).toNat ≠ 0 := by omega
    have alive : (Router.hops packet count).getD 8 0 ≠ 0 := fun zero => positive (by rw [zero]; rfl)
    have lower := toNat_sub_one alive
    rw [Router.hops, reached.decrementTtl_eq alive]
    refine ⟨reached.rewriteV4 alive, ?_⟩
    rw [getD_ttl_rewriteV4 reached.ipv4MinLen_le]
    omega

/-- One hop rewrites a valid IPv4 header to the recomputed one and an IPv6 packet at its
hop limit only; a refused packet is left alone, and validity survives every hop. -/
theorem decrementTtl_spec :
    (∀ packet, ValidIpv4 packet → packet.getD 8 0 ≠ 0 →
      ∃ next, decrementTtl packet = (some (packet.getD 8 0), next) ∧
        next.getD 8 0 = packet.getD 8 0 - 1 ∧ (storedCheck next).toNat = recomputedCheck next ∧
        ValidIpv4 next ∧ SameOutside [8, 10, 11] packet next) ∧
    (∀ packet, version packet = 6 → 40 ≤ packet.length → packet.getD 7 0 ≠ 0 →
      decrementTtl packet = (some (packet.getD 7 0), packet.set 7 (packet.getD 7 0 - 1)) ∧
        SameOutside [7] packet (decrementTtl packet).2) ∧
    (∀ packet, (decrementTtl packet).1 = none ∨ (decrementTtl packet).1 = some 0 →
      (decrementTtl packet).2 = packet) ∧
    (∀ packet, ValidIpv4 packet → ∀ count ≤ (packet.getD 8 0).toNat,
      ValidIpv4 (hops packet count) ∧
        ((hops packet count).getD 8 0).toNat = (packet.getD 8 0).toNat - count) := by
  refine ⟨fun packet valid alive => ?_, fun packet six long alive => ?_,
    fun _ => decrementTtl_unchanged,
    fun _ valid => valid.hops⟩
  · exact ⟨rewriteV4 packet, valid.decrementTtl_eq alive, getD_ttl_rewriteV4 valid.ipv4MinLen_le,
      valid.storedCheck_eq alive, valid.rewriteV4 alive, sameOutside_rewriteV4 packet⟩
  · refine ⟨?_, decrementTtl_v6_sameOutside six long⟩
    rw [decrementTtl_v6 six long, if_neg alive]

def sampleHeader : Packet :=
  [0x45, 0, 0, 20, 0, 0, 0, 0, 64, 17, 0xFF, 0xFF, 0x7A, 0xDA, 0, 0, 0, 0, 0, 0]

theorem sampleHeader_valid : ValidIpv4 sampleHeader :=
  ⟨by decide, by decide, by decide, (onesSum_eq_max_iff _).mpr (by decide)⟩

theorem decrementTtl_sampleHeader : ValidIpv4 sampleHeader ∧ sampleHeader.getD 8 0 ≠ 0 ∧
    ∃ next, decrementTtl sampleHeader = (some 64, next) ∧ next.getD 8 0 = 63 ∧
      (storedCheck next).toNat = recomputedCheck next ∧ ValidIpv4 next ∧
      SameOutside [8, 10, 11] sampleHeader next := by
  refine ⟨sampleHeader_valid, by decide, ?_⟩
  exact decrementTtl_spec.1 sampleHeader sampleHeader_valid (by decide)

end H3llo.Router
