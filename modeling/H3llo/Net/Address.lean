import Mathlib.Data.BitVec
import Mathlib.Data.Finset.Basic

/-! Addresses, prefixes and socket addresses of both families.

A prefix may carry host bits; what it denotes is its address cut to the prefix
length. Two prefixes denote one network when length and cut address agree.
-/

set_option autoImplicit false

namespace H3llo.Net

inductive Family where | v4 | v6
  deriving DecidableEq, Repr

def Family.width : Family → Nat
  | .v4 => 32
  | .v6 => 128

structure IpAddr where
  family : Family
  bits : BitVec family.width
  deriving DecidableEq, Repr

/-- Clear everything below the first `len` bits. -/
def maskBits {width : Nat} (bits : BitVec width) (len : Nat) : BitVec width :=
  bits &&& (BitVec.allOnes width <<< (width - len))

namespace IpAddr

def v4 (bits : BitVec 32) : IpAddr := ⟨.v4, bits⟩
def v6 (bits : BitVec 128) : IpAddr := ⟨.v6, bits⟩

def octetsToNat (octets : List UInt8) : Nat :=
  octets.foldl (fun value octet => 256 * value + octet.toNat) 0

def ofOctets (family : Family) (octets : List UInt8) : IpAddr :=
  ⟨family, BitVec.ofNat _ (octetsToNat octets)⟩

/-- The IPv4-mapped IPv6 address `::ffff:a.b.c.d`; other addresses have none. -/
def mapped (addr : IpAddr) : IpAddr :=
  match addr with
  | ⟨.v4, bits⟩ => .v6 (0xffff#96 ++ bits)
  | ⟨.v6, bits⟩ => .v6 bits

theorem mapped_of_ne_v4 {addr : IpAddr} (six : addr.family ≠ .v4) : addr.mapped = addr := by
  obtain ⟨family, bits⟩ := addr
  cases family with
  | v4 => exact absurd rfl six
  | v6 => rfl

def trunc (addr : IpAddr) (len : Nat) : IpAddr := ⟨addr.family, maskBits addr.bits len⟩

@[simp] theorem trunc_family (addr : IpAddr) (len : Nat) : (addr.trunc len).family = addr.family :=
  rfl

end IpAddr

@[ext] structure IpNet where
  addr : IpAddr
  prefixLen : Nat
  bound : prefixLen ≤ addr.family.width
  deriving DecidableEq, Repr

namespace IpNet

/-- An IPv4 prefix; a length past the width is cut to it. -/
def ofV4 (bits : BitVec 32) (prefixLen : Nat) : IpNet :=
  ⟨.v4 bits, Nat.min prefixLen 32, Nat.min_le_right prefixLen 32⟩

def ofV6 (bits : BitVec 128) (prefixLen : Nat) : IpNet :=
  ⟨.v6 bits, Nat.min prefixLen 128, Nat.min_le_right prefixLen 128⟩

def host (addr : IpAddr) : IpNet := ⟨addr, addr.family.width, Nat.le_refl _⟩

def trunc (net : IpNet) : IpNet := ⟨net.addr.trunc net.prefixLen, net.prefixLen, net.bound⟩

/-- Every address of `inner` is an address of `outer`. -/
def Covers (outer inner : IpNet) : Prop :=
  outer.prefixLen ≤ inner.prefixLen ∧ inner.addr.trunc outer.prefixLen =
    outer.addr.trunc outer.prefixLen

instance (outer inner : IpNet) : Decidable (outer.Covers inner) :=
  inferInstanceAs (Decidable (_ ∧ _))

def Contains (net : IpNet) (addr : IpAddr) : Prop :=
  addr.trunc net.prefixLen = net.addr.trunc net.prefixLen

instance (net : IpNet) (addr : IpAddr) : Decidable (net.Contains addr) :=
  inferInstanceAs (Decidable (_ = _))

def Same (first second : IpNet) : Prop :=
  first.prefixLen = second.prefixLen ∧ first.addr.trunc first.prefixLen =
    second.addr.trunc second.prefixLen

instance (first second : IpNet) : Decidable (first.Same second) :=
  inferInstanceAs (Decidable (_ ∧ _))

@[refl] theorem Same.refl (net : IpNet) : net.Same net := ⟨rfl, rfl⟩

theorem Same.symm {first second : IpNet} (same : first.Same second) : second.Same first :=
  ⟨same.1.symm, same.2.symm⟩

theorem Same.trans {first second third : IpNet} (left : first.Same second)
    (right : second.Same third) :
    first.Same third := ⟨left.1.trans right.1, left.2.trans right.2⟩

theorem same_iff_trunc {first second : IpNet} : first.Same second ↔ first.trunc = second.trunc := by
  constructor
  · rintro ⟨equal, cut⟩
    exact IpNet.ext cut equal
  · intro equal
    have lens := congrArg prefixLen equal
    have cuts := congrArg addr equal
    exact ⟨lens, cuts⟩

theorem Contains.family {net : IpNet} {addr : IpAddr} (inside : net.Contains addr) :
    net.addr.family = addr.family := by
  simpa using (congrArg IpAddr.family inside).symm

theorem Same.contains {first second : IpNet} (same : first.Same second) {addr : IpAddr}
    (inside : first.Contains addr) : second.Contains addr := by
  have left := same.2
  rw [same.1] at left
  simpa only [Contains, same.1, left] using inside

theorem Covers.same {first second query : IpNet} (left : first.Covers query)
    (right : second.Covers query) (equal : first.prefixLen = second.prefixLen) :
    first.Same second := by
  refine ⟨equal, ?_⟩
  rw [← left.2, ← right.2, equal]

theorem Same.covers {first second query : IpNet} (same : first.Same second)
    (covers : first.Covers query) : second.Covers query := by
  have cut := same.2
  rw [same.1] at cut
  simpa only [Covers, same.1, cut] using covers

theorem covers_host {net : IpNet} {addr : IpAddr} : net.Covers (host addr) ↔ net.Contains addr := by
  refine ⟨And.right, fun inside => ⟨?_, inside⟩⟩
  -- both are of one family, so no prefix is longer than that of the host
  have bound := net.bound
  rw [inside.family] at bound
  exact bound

end IpNet

structure SocketAddr where
  ip : IpAddr
  port : UInt16
  deriving DecidableEq, Repr

end H3llo.Net
