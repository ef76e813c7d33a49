import H3llo.Net.Address

/-! Maps from prefixes with longest-prefix matching.

A trie is known by its laws only: which network a key denotes decides a match, and
host bits of a key never do. The association list at the end satisfies them and
serves to evaluate concrete tables.
-/

set_option autoImplicit false

namespace H3llo.Net

class PrefixTrie (Trie : Type → Type) where
  empty {V : Type} : Trie V
  exactMatch {V : Type} : Trie V → IpNet → Option V
  insert {V : Type} : Trie V → IpNet → V → Trie V
  longestMatch {V : Type} : Trie V → IpNet → Option (IpNet × V)
  exactMatch_empty {V : Type} (net : IpNet) : exactMatch (empty : Trie V) net = none
  exactMatch_insert {V : Type} (trie : Trie V) (net other : IpNet) (value : V) :
    exactMatch (insert trie net value) other =
      if net.Same other then some value else exactMatch trie other
  exactMatch_same {V : Type} (trie : Trie V) {net other : IpNet} :
    net.Same other → exactMatch trie net = exactMatch trie other
  longestMatch_some {V : Type} (trie : Trie V) {query net : IpNet} {value : V} :
    longestMatch trie query = some (net, value) →
      net.Covers query ∧ exactMatch trie net = some value ∧
        ∀ other, other.Covers query → (exactMatch trie other).isSome →
          other.prefixLen ≤ net.prefixLen
  longestMatch_none {V : Type} (trie : Trie V) {query : IpNet} :
    longestMatch trie query = none → ∀ other, other.Covers query → exactMatch trie other = none

namespace PrefixTrie

variable {Trie : Type → Type} [PrefixTrie Trie] {V : Type}

/-- The matched entry is the only one of a longest covering prefix. -/
theorem longestMatch_of_longest (trie : Trie V) {query net : IpNet} {value : V}
    (covers : net.Covers query) (stored : exactMatch trie net = some value)
    (longest : ∀ other, other.Covers query → (exactMatch trie other).isSome →
      other.prefixLen ≤ net.prefixLen) :
    ∃ found, longestMatch trie query = some (found, value) ∧ found.Same net := by
  cases matched : longestMatch trie query with
  | none =>
    have absent := longestMatch_none trie matched net covers
    simp [absent] at stored
  | some entry =>
    obtain ⟨found, kept⟩ := entry
    obtain ⟨foundCovers, foundStored, foundLongest⟩ := longestMatch_some trie matched
    have equal : found.prefixLen = net.prefixLen :=
      Nat.le_antisymm (longest found foundCovers (by simp [foundStored]))
        (foundLongest net covers (by simp [stored]))
    -- prefixes of one length that cover one query denote one network
    have same := foundCovers.same covers equal
    have values : some kept = some value := by
      rw [← foundStored, ← stored, exactMatch_same trie same]
    cases values
    exact ⟨found, rfl, same⟩

theorem longestMatch_congr (first second : Trie V)
    (agree : ∀ net, exactMatch first net = exactMatch second net) (query : IpNet) :
    (longestMatch first query).map (fun entry => (entry.1.trunc, entry.2)) =
      (longestMatch second query).map (fun entry => (entry.1.trunc, entry.2)) := by
  cases matched : longestMatch first query with
  | none =>
    cases other : longestMatch second query with
    | none => rfl
    | some entry =>
      obtain ⟨covers, stored, _⟩ := longestMatch_some second other
      rw [← agree, longestMatch_none first matched _ covers] at stored
      cases stored
  | some entry =>
    obtain ⟨covers, stored, longest⟩ := longestMatch_some first matched
    rw [agree] at stored
    obtain ⟨found, located, same⟩ := longestMatch_of_longest second covers stored
      (fun other otherCovers present => longest other otherCovers (by rwa [agree]))
    simp [located, IpNet.same_iff_trunc.mp same]

end PrefixTrie

/-- Newest entry first; an older entry of the same network is shadowed. -/
structure AssocTrie (V : Type) where
  entries : List (IpNet × V)
  deriving Repr

namespace AssocTrie

variable {V : Type}

def exact (net : IpNet) : List (IpNet × V) → Option V
  | [] => none
  | (key, value) :: rest => if key.Same net then some value else exact net rest

def longest (query : IpNet) : List (IpNet × V) → Option (IpNet × V)
  | [] => none
  | (key, value) :: rest =>
      match longest query rest with
      | none => if key.Covers query then some (key, value) else none
      | some best =>
          if key.Covers query ∧ best.1.prefixLen ≤ key.prefixLen then
            some (key, value)
          else some best

theorem exact_same {net other : IpNet} (same : net.Same other) (entries : List (IpNet × V)) :
    exact net entries = exact other entries := by
  induction entries with
  | nil => rfl
  | cons entry rest ih =>
    have iff : entry.1.Same net ↔ entry.1.Same other :=
      ⟨fun left => left.trans same, fun right => right.trans same.symm⟩
    simp only [exact, iff, ih]

theorem longest_none {query : IpNet} {entries : List (IpNet × V)}
    (absent : longest query entries = none) (other : IpNet) (covers : other.Covers query) :
    exact other entries = none := by
  induction entries with
  | nil => rfl
  | cons entry rest ih =>
    simp only [longest] at absent
    cases below : longest query rest with
    | some best =>
      simp only [below] at absent
      split at absent <;> cases absent
    | none =>
      simp only [below, ite_eq_right_iff, reduceCtorEq, imp_false] at absent
      have different : ¬ entry.1.Same other := fun same => absent (same.symm.covers covers)
      simp only [exact, if_neg different, ih below]

theorem longest_some {query : IpNet} {entries : List (IpNet × V)} {best : IpNet × V}
    (found : longest query entries = some best) :
    best.1.Covers query ∧ exact best.1 entries = some best.2 ∧
      ∀ other, other.Covers query → (exact other entries).isSome →
        other.prefixLen ≤ best.1.prefixLen := by
  induction entries generalizing best with
  | nil => cases found
  | cons entry rest ih =>
    obtain ⟨key, value⟩ := entry
    simp only [longest] at found
    cases below : longest query rest with
    | none =>
      simp only [below] at found
      split at found
      next covers =>
        cases found
        refine ⟨covers, by simp [exact, IpNet.Same.refl], fun other otherCovers present => ?_⟩
        simp only [exact, longest_none below other otherCovers] at present
        split at present
        next same => exact Nat.le_of_eq same.1.symm
        next => cases present
      next => cases found
    | some older =>
      obtain ⟨olderCovers, olderStored, olderLongest⟩ := ih below
      simp only [below] at found
      split at found
      next newer =>
        cases found
        refine ⟨newer.1, by simp [exact, IpNet.Same.refl], fun other otherCovers present => ?_⟩
        simp only [exact] at present
        split at present
        next same => exact Nat.le_of_eq same.1.symm
        next => exact Nat.le_trans (olderLongest other otherCovers present) newer.2
      next notNewer =>
        cases found
        -- The head cannot share the winner's network: it would cover the query at equal length.
        have different : ¬ key.Same best.1 := fun same =>
          notNewer ⟨same.symm.covers olderCovers, Nat.le_of_eq same.1.symm⟩
        refine ⟨olderCovers, by simp only [exact, if_neg different, olderStored],
          fun other otherCovers present => ?_⟩
        simp only [exact] at present
        split at present
        next same =>
          by_contra longer
          exact notNewer ⟨same.symm.covers otherCovers, by have := same.1; omega⟩
        next => exact olderLongest other otherCovers present

instance : PrefixTrie AssocTrie where
  empty := ⟨[]⟩
  exactMatch trie net := exact net trie.entries
  insert trie net value := ⟨(net, value) :: trie.entries⟩
  longestMatch trie query := longest query trie.entries
  exactMatch_empty _ := rfl
  exactMatch_insert _ _ _ _ := rfl
  exactMatch_same trie _ _ same := exact_same same trie.entries
  longestMatch_some _ _ _ _ found := longest_some found
  longestMatch_none _ _ absent := longest_none absent

end AssocTrie
end H3llo.Net
