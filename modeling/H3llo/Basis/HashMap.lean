import Mathlib.Data.Finmap
import Mathlib.Data.Multiset.Bind

/-! Hash maps as finite maps without an order.

The iteration order of a hash map is unspecified, so a map is Mathlib's `Finmap`
and a traversal is an operation on all entries at once. Where the order is
observable, the caller supplies a list that enumerates the values.
-/

set_option autoImplicit false

namespace H3llo

abbrev HashMap (K V : Type) := Finmap fun _ : K => V

namespace HashMap

variable {K V W : Type}

def filterMap (f : K → V → Option W) (m : HashMap K V) : HashMap K W where
  entries := m.entries.filterMap fun entry => (f entry.1 entry.2).map (Sigma.mk entry.1)
  nodupKeys := by
    obtain ⟨entries, distinct⟩ := m
    induction entries using Quotient.inductionOn with
    | h entries =>
      -- the keys that survive are a sublist of the old ones
      have kept : (entries.filterMap fun entry =>
          (f entry.1 entry.2).map (Sigma.mk (β := fun _ => W) entry.1)).keys.Sublist
            entries.keys := by
        clear distinct
        induction entries with
        | nil => simp
        | cons head rest ih =>
          cases selected : f head.1 head.2 with
          | none => simpa [selected] using ih.cons head.1
          | some value => simpa [selected] using ih.cons_cons head.1
      exact List.Nodup.sublist kept distinct

def values (m : HashMap K V) : Multiset V := m.entries.map Sigma.snd

/-- The list visits every value of the map once, in some order. -/
def Enumerates (visited : List V) (m : HashMap K V) : Prop := (visited : Multiset V) = m.values

instance [DecidableEq V] (visited : List V) (m : HashMap K V) : Decidable (Enumerates visited m) :=
  inferInstanceAs (Decidable (_ = _))

theorem Enumerates.perm {first second : List V} {m : HashMap K V} (left : Enumerates first m)
    (right : Enumerates second m) : first.Perm second :=
  Multiset.coe_eq_coe.mp (left.trans right.symm)

/-- The list visits every entry of the map once, in some order. -/
def EnumeratesEntries (visited : List (K × V)) (m : HashMap K V) : Prop :=
  (visited : Multiset (K × V)) = m.entries.map fun entry => (entry.1, entry.2)

theorem exists_enumeratesEntries (m : HashMap K V) : ∃ visited, EnumeratesEntries visited m := by
  obtain ⟨visited, listed⟩ := Quot.exists_rep (m.entries.map fun entry => (entry.1, entry.2))
  exact ⟨visited, listed⟩

variable [DecidableEq K]

@[simp] theorem lookup_filterMap (f : K → V → Option W) (m : HashMap K V) (k : K) :
    (m.filterMap f).lookup k = (m.lookup k).bind (f k) := by
  ext value
  simp only [Finmap.lookup_eq_some_iff, filterMap, Multiset.mem_filterMap,
    Option.bind_eq_some_iff, Option.map_eq_some_iff, Sigma.mk.injEq, Sigma.exists]
  constructor
  · rintro ⟨key, old, member, new, produced, rfl, same⟩
    exact ⟨old, member, by simpa [eq_of_heq same] using produced⟩
  · rintro ⟨old, member, produced⟩
    exact ⟨k, old, member, value, produced, rfl, HEq.rfl⟩

def map (f : K → V → W) (m : HashMap K V) : HashMap K W :=
  m.filterMap fun key value => some (f key value)

@[simp] theorem lookup_map (f : K → V → W) (m : HashMap K V) (k : K) :
    (m.map f).lookup k = (m.lookup k).map (f k) := by
  simp [map, Option.map_eq_bind]

@[simp] theorem mem_map (f : K → V → W) (m : HashMap K V) (k : K) : k ∈ m.map f ↔ k ∈ m := by
  rw [← Finmap.lookup_isSome, lookup_map, Option.isSome_map, Finmap.lookup_isSome]

@[simp] theorem keys_map (f : K → V → W) (m : HashMap K V) : (m.map f).keys = m.keys := by
  ext key
  rw [Finmap.mem_keys, Finmap.mem_keys, mem_map]

def retain (keep : K → V → Bool) (m : HashMap K V) : HashMap K V :=
  m.filterMap fun key value => if keep key value then some value else none

@[simp] theorem lookup_retain (keep : K → V → Bool) (m : HashMap K V) (k : K) :
    (m.retain keep).lookup k = (m.lookup k).filter (keep k) := by
  cases found : m.lookup k <;> simp [retain, found, Option.filter]

def ofKeys (keys : Finset K) (value : K → V) : HashMap K V where
  entries := keys.val.map fun key => ⟨key, value key⟩
  nodupKeys := by
    rw [← Multiset.nodup_keys, Multiset.keys, Multiset.map_map]
    simpa using keys.nodup

@[simp] theorem lookup_ofKeys (keys : Finset K) (value : K → V) (k : K) :
    (ofKeys keys value).lookup k = if k ∈ keys then some (value k) else none := by
  ext v
  rw [Finmap.lookup_eq_some_iff]
  simp only [ofKeys, Multiset.mem_map, Finset.mem_val, Sigma.mk.injEq]
  constructor
  · rintro ⟨key, member, rfl, same⟩
    simp [member, eq_of_heq same]
  · intro found
    by_cases member : k ∈ keys
    · rw [if_pos member, Option.some.injEq] at found
      exact ⟨k, member, rfl, heq_of_eq found⟩
    · simp [member] at found

@[simp] theorem mem_ofKeys (keys : Finset K) (value : K → V) (k : K) :
    k ∈ ofKeys keys value ↔ k ∈ keys := by
  rw [← Finmap.lookup_isSome, lookup_ofKeys]
  split <;> simp_all

def overlay (keys : Finset K) (value : K → V) (m : HashMap K V) : HashMap K V :=
  ofKeys keys value ∪ m

@[simp] theorem lookup_overlay (keys : Finset K) (value : K → V) (m : HashMap K V) (k : K) :
    (overlay keys value m).lookup k = if k ∈ keys then some (value k) else m.lookup k := by
  by_cases member : k ∈ keys
  · have written : k ∈ ofKeys keys value := by
      rw [← Finmap.lookup_isSome, lookup_ofKeys, if_pos member]
      rfl
    rw [overlay, Finmap.lookup_union_left written, lookup_ofKeys, if_pos member, if_pos member]
  · have absent : k ∉ ofKeys keys value := by
      rw [← Finmap.lookup_isSome, lookup_ofKeys, if_neg member]
      simp
    rw [overlay, Finmap.lookup_union_right absent, if_neg member]

def any (test : K → V → Bool) (m : HashMap K V) : Bool :=
  decide ((m.keys.filter fun key => (m.lookup key).any (test key)) ≠ ∅)

theorem any_eq_true {test : K → V → Bool} {m : HashMap K V} :
    m.any test = true ↔ ∃ key value, m.lookup key = some value ∧ test key value = true := by
  rw [any, decide_eq_true_eq, ← Finset.nonempty_iff_ne_empty, Finset.filter_nonempty_iff]
  constructor
  · intro ⟨key, _, found⟩
    rw [Option.any_eq_true] at found
    obtain ⟨value, stored, passed⟩ := found
    exact ⟨key, value, stored, passed⟩
  · intro ⟨key, value, stored, passed⟩
    exact ⟨key, Finmap.mem_keys.mpr (Finmap.mem_of_lookup_eq_some stored), by simp [stored, passed]⟩

theorem any_map (f : K → V → W) (test : K → W → Bool) (m : HashMap K V) :
    (m.map f).any test = m.any fun key value => test key (f key value) := by
  rw [Bool.eq_iff_iff, any_eq_true, any_eq_true]
  simp only [lookup_map, Option.map_eq_some_iff]
  constructor
  · rintro ⟨key, _, ⟨value, stored, rfl⟩, passed⟩
    exact ⟨key, value, stored, passed⟩
  · rintro ⟨key, value, stored, passed⟩
    exact ⟨key, _, ⟨value, stored, rfl⟩, passed⟩

omit [DecidableEq K] in
theorem values_map (f : V → W) (m : HashMap K V) :
    (m.map fun _ value => f value).values = m.values.map f := by
  simp only [values, map, filterMap, Multiset.map_filterMap, Multiset.map_map, Option.map_some]
  exact congrFun (Multiset.filterMap_eq_map (f ∘ Sigma.snd)) m.entries

theorem mem_values {m : HashMap K V} {value : V} :
    value ∈ m.values ↔ ∃ key, m.lookup key = some value := by
  simp [values, Finmap.lookup_eq_some_iff]

theorem Enumerates.mem_iff {visited : List V} {m : HashMap K V} (lists : Enumerates visited m)
    {value : V} : value ∈ visited ↔ ∃ key, m.lookup key = some value := by
  rw [← mem_values, ← lists, Multiset.mem_coe]

theorem EnumeratesEntries.mem_iff {visited : List (K × V)} {m : HashMap K V}
    (lists : EnumeratesEntries visited m) {key : K} {value : V} :
    (key, value) ∈ visited ↔ m.lookup key = some value := by
  rw [← Multiset.mem_coe, lists, Finmap.lookup_eq_some_iff, Multiset.mem_map]
  constructor
  · rintro ⟨entry, stored, same⟩
    cases same
    exact stored
  · intro stored
    exact ⟨_, stored, rfl⟩

theorem Enumerates.nodup_map {visited : List V} {m : HashMap K V} (lists : Enumerates visited m)
    {keyOf : V → K} (keyed : ∀ key value, m.lookup key = some value → keyOf value = key) :
    (visited.map keyOf).Nodup := by
  rw [← Multiset.coe_nodup, ← Multiset.map_coe, lists, values, Multiset.map_map]
  have keys : m.entries.map (keyOf ∘ Sigma.snd) = m.entries.keys := by
    refine Multiset.map_congr rfl fun entry stored => ?_
    exact keyed entry.1 entry.2 (Finmap.lookup_eq_some_iff.mpr stored)
  rw [keys]
  exact Multiset.nodup_keys.mpr m.nodupKeys

/-- Counting over all values, when only the value of one key contributes. -/
theorem countP_bind_values {D : Type} {m : HashMap K V} {f : V → Multiset D} {p : D → Prop}
    [DecidablePred p] (k : K)
    (others : ∀ key value, m.lookup key = some value → key ≠ k → ∀ d ∈ f value, ¬ p d) :
    (m.values.bind f).countP p = ((m.lookup k).map fun value => (f value).countP p).getD 0 := by
  cases found : m.lookup k with
  | none =>
    rw [Option.map_none, Option.getD_none, Multiset.countP_eq_zero]
    intro d member
    obtain ⟨value, listed, produced⟩ := Multiset.mem_bind.mp member
    obtain ⟨key, stored⟩ := mem_values.mp listed
    apply others key value stored _ d produced
    rintro rfl
    rw [stored] at found
    cases found
  | some value =>
    -- split the entry of the key off; the rest has other keys
    obtain ⟨rest, entries⟩ := Multiset.exists_cons_of_mem (Finmap.lookup_eq_some_iff.mp found)
    have distinct : ∀ entry ∈ rest, entry.1 ≠ k := by
      intro entry listed same
      have keys := Multiset.nodup_keys.mpr m.nodupKeys
      rw [entries, Multiset.keys, Multiset.map_cons, Multiset.nodup_cons] at keys
      exact keys.1 (Multiset.mem_map.mpr ⟨entry, listed, same⟩)
    rw [values, entries, Multiset.map_cons, Multiset.cons_bind, Multiset.countP_add,
      Option.map_some, Option.getD_some, Nat.add_eq_left, Multiset.countP_eq_zero]
    intro d produced
    obtain ⟨other, listed, produced⟩ := Multiset.mem_bind.mp produced
    obtain ⟨entry, kept, rfl⟩ := Multiset.mem_map.mp listed
    have stored : entry ∈ m.entries := by simp [entries, kept]
    exact others entry.1 entry.2 (Finmap.lookup_eq_some_iff.mpr stored)
      (distinct entry kept) d produced

end HashMap
end H3llo
