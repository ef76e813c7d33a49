import H3llo.Net.Address

/-! Networks inside networks.

Cutting to a length and then to a shorter one is cutting to the shorter one, so
containment never depends on host bits. A default prefix splits into its two halves.
-/

set_option autoImplicit false

namespace H3llo.Net

theorem Family.width_pos (family : Family) : 1 ≤ family.width := by
  cases family <;> decide

theorem maskBits_maskBits {width : Nat} (bits : BitVec width) {short long : Nat}
    (le : short ≤ long) : maskBits (maskBits bits long) short = maskBits bits short := by
  apply BitVec.eq_of_getLsbD_eq
  intro index bound
  simp only [maskBits, BitVec.getLsbD_and, BitVec.getLsbD_shiftLeft, BitVec.getLsbD_allOnes]
  -- a bit that the shorter cut keeps is kept by the longer one
  by_cases kept : index < width - short
  · simp [kept]
  · have shorter : ¬ index < width - long := by omega
    have position : index - (width - long) < width := by omega
    simp [bound, shorter, position]

theorem getLsbD_maskBits {width : Nat} (bits : BitVec width) {len index : Nat}
    (bound : index < width) :
    (maskBits bits len).getLsbD index = (decide (width - len ≤ index) && bits.getLsbD index) := by
  simp only [maskBits, BitVec.getLsbD_and, BitVec.getLsbD_shiftLeft, BitVec.getLsbD_allOnes]
  by_cases kept : width - len ≤ index
  · have position : index - (width - len) < width := by omega
    simp [kept, bound, position]
  · simp [kept, Nat.lt_of_not_le kept]

theorem maskBits_eq_iff {width : Nat} {first second : BitVec width} {len : Nat} (le : len ≤ width) :
    maskBits first len = maskBits second len ↔
      first.extractLsb' (width - len) len = second.extractLsb' (width - len) len := by
  constructor
  · intro same
    apply BitVec.eq_of_getLsbD_eq
    intro index bound
    have bits := congrArg (fun cut => cut.getLsbD (width - len + index)) same
    simp only [getLsbD_maskBits _ (by omega : width - len + index < width)] at bits
    simpa [BitVec.getLsbD_extractLsb', bound] using bits
  · intro same
    apply BitVec.eq_of_getLsbD_eq
    intro index bound
    rw [getLsbD_maskBits _ bound, getLsbD_maskBits _ bound]
    by_cases kept : width - len ≤ index
    · have bits := congrArg (fun high => high.getLsbD (index - (width - len))) same
      have inside : index - (width - len) < len := by omega
      simp only [BitVec.getLsbD_extractLsb', inside, decide_true, Bool.true_and,
        Nat.add_sub_cancel' kept] at bits
      rw [bits]
    · simp [kept]
theorem IpAddr.trunc_trunc (addr : IpAddr) {short long : Nat} (le : short ≤ long) :
    (addr.trunc long).trunc short = addr.trunc short := by
  simp [trunc, maskBits_maskBits addr.bits le]

namespace IpNet

theorem contains_ofV6 {bits addr : BitVec 128} {len : Nat} (le : len ≤ 128) :
    (ofV6 bits len).Contains (.v6 addr) ↔
      addr.extractLsb' (128 - len) len = bits.extractLsb' (128 - len) len := by
  have cut : (ofV6 bits len).prefixLen = len := Nat.min_eq_left le
  have same : (ofV6 bits len).Contains (.v6 addr) ↔ maskBits addr len = maskBits bits len := by
    rw [Contains, cut]
    exact ⟨fun equal => eq_of_heq (IpAddr.mk.inj equal).2, fun equal =>
      congrArg (IpAddr.mk .v6) equal⟩
  rw [same, maskBits_eq_iff le]

def IsNetwork (net : IpNet) : Prop := net.trunc = net

instance (net : IpNet) : Decidable net.IsNetwork := inferInstanceAs (Decidable (_ = _))

theorem covers_trunc {outer inner : IpNet} : outer.Covers inner.trunc ↔ outer.Covers inner := by
  have cut (shorter : outer.prefixLen ≤ inner.prefixLen) :
      inner.trunc.addr.trunc outer.prefixLen = inner.addr.trunc outer.prefixLen :=
    inner.addr.trunc_trunc shorter
  constructor
  · rintro ⟨shorter, same⟩
    exact ⟨shorter, (cut shorter).symm.trans same⟩
  · rintro ⟨shorter, same⟩
    exact ⟨shorter, (cut shorter).trans same⟩

theorem Covers.contains {outer inner : IpNet} (covers : outer.Covers inner) {addr : IpAddr}
    (inside : inner.Contains addr) : outer.Contains addr := by
  have cut := congrArg (fun cut => cut.trunc outer.prefixLen) inside
  simp only [IpAddr.trunc_trunc _ covers.1] at cut
  exact cut.trans covers.2

def last (net : IpNet) : IpAddr :=
  ⟨net.addr.family, maskBits net.addr.bits net.prefixLen ||| BitVec.allOnes _ >>> net.prefixLen⟩

def subnets (net : IpNet) (len : Nat) : Option (List IpNet) :=
  if bound : net.prefixLen ≤ len ∧ len ≤ net.addr.family.width then
    some ((List.range (2 ^ (len - net.prefixLen))).map fun index =>
      ⟨⟨net.addr.family, maskBits net.addr.bits net.prefixLen +
        BitVec.ofNat _ index <<< (net.addr.family.width - len)⟩, len, bound.2⟩)
  else none

def half (family : Family) (upper : Bool) : IpNet :=
  ⟨⟨family, BitVec.ofNat _ upper.toNat <<< (family.width - 1)⟩, 1, family.width_pos⟩

theorem subnets_default {net : IpNet} (default : net.prefixLen = 0) :
    net.subnets 1 = some [half net.addr.family false, half net.addr.family true] := by
  have network : maskBits net.addr.bits 0 = 0 := by simp [maskBits]
  unfold subnets
  rw [dif_pos ⟨default ▸ Nat.zero_le 1, net.addr.family.width_pos⟩]
  simp [default, network, half, List.range_succ]

theorem isNetwork_half (family : Family) (upper : Bool) : (half family upper).IsNetwork := by
  cases family <;> cases upper <;> decide

theorem contains_half (addr : IpAddr) : (half addr.family addr.bits.msb).Contains addr := by
  obtain ⟨family, bits⟩ := addr
  have cut : maskBits bits 1 = BitVec.ofNat _ bits.msb.toNat <<< (family.width - 1) := by
    apply BitVec.eq_of_getLsbD_eq
    intro index bound
    simp only [maskBits, BitVec.getLsbD_and, BitVec.getLsbD_shiftLeft, BitVec.getLsbD_allOnes,
      BitVec.msb_eq_getLsbD_last, BitVec.getLsbD_ofNat]
    by_cases top : index = family.width - 1
    · subst top
      cases bits.getLsbD (family.width - 1) <;> simp [bound]
    · have below : index < family.width - 1 := by omega
      simp [below]
  change IpAddr.trunc ⟨family, bits⟩ 1 = IpAddr.trunc ⟨family, _⟩ 1
  rw [IpAddr.trunc, IpAddr.trunc, IpAddr.mk.injEq]
  refine ⟨rfl, heq_of_eq ?_⟩
  change maskBits bits 1 = maskBits (BitVec.ofNat _ bits.msb.toNat <<< (family.width - 1)) 1
  rw [← cut, maskBits_maskBits bits (le_refl 1)]

end IpNet
end H3llo.Net
