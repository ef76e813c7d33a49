import Mathlib.Algebra.BigOperators.Group.Multiset.Basic
import Mathlib.Algebra.Order.Group.Multiset

/-! Bags whose elements descend from those of another bag.

Each element of the second bag comes from an element of the first that no other one comes
from. What is transformed element by element, lost or reordered keeps its descent; what is
duplicated does not.
-/

set_option autoImplicit false

namespace H3llo

variable {α β γ : Type}

def Descends (related : α → β → Prop) (sources : Multiset α) (values : Multiset β) : Prop :=
  ∃ used ≤ sources, Multiset.Rel related used values

namespace Descends

variable {related : α → β → Prop} {sources more : Multiset α} {values others : Multiset β}

theorem zero : Descends related sources 0 := ⟨0, Multiset.zero_le _, .zero⟩

theorem mono (descends : Descends related sources values) (le : sources ≤ more) :
    Descends related more values := by
  obtain ⟨used, within, rel⟩ := descends
  exact ⟨used, within.trans le, rel⟩

theorem add {moreValues : Multiset β} (left : Descends related sources values)
    (right : Descends related more moreValues) :
    Descends related (sources + more) (values + moreValues) := by
  obtain ⟨used, within, rel⟩ := left
  obtain ⟨usedMore, withinMore, relMore⟩ := right
  exact ⟨used + usedMore, add_le_add within withinMore, rel.add relMore⟩

theorem split (descends : Descends related sources (values + others)) :
    ∃ first second, first + second ≤ sources ∧ Descends related first values ∧
      Descends related second others := by
  obtain ⟨used, within, rel⟩ := descends
  obtain ⟨first, second, left, right, rfl⟩ := Multiset.rel_add_right.mp rel
  exact ⟨first, second, within, ⟨first, le_rfl, left⟩, ⟨second, le_rfl, right⟩⟩

theorem of_le (descends : Descends related sources values) (fewer : others ≤ values) :
    Descends related sources others := by
  obtain ⟨rest, rfl⟩ := Multiset.le_iff_exists_add.mp fewer
  obtain ⟨first, second, within, kept, _⟩ := descends.split
  exact kept.mono ((Multiset.le_add_right first second).trans within)

theorem self {reflexive : α → α → Prop} (refl : ∀ value, reflexive value value) (bag : Multiset α) :
    Descends reflexive bag bag :=
  ⟨bag, le_rfl, Multiset.rel_refl_of_refl_on fun value _ => refl value⟩

theorem filterMap {image : β → Option γ} {after : α → γ → Prop}
    (descends : Descends related sources values)
    (step : ∀ source value result, related source value → image value = some result →
      after source result) :
    Descends after sources (values.filterMap image) := by
  obtain ⟨used, within, rel⟩ := descends
  refine mono ?_ within
  induction rel with
  | zero => exact zero
  | @cons source value usedRest valuesRest head rel ih =>
    have rest := ih ((Multiset.le_cons_self _ _).trans within)
    cases found : image value with
    | none =>
      rw [Multiset.filterMap_cons_none _ _ found]
      exact rest.mono (Multiset.le_cons_self _ _)
    | some result =>
      rw [Multiset.filterMap_cons_some _ _ _ found]
      obtain ⟨kept, keptWithin, keptRel⟩ := rest
      exact ⟨source ::ₘ kept, Multiset.cons_le_cons _ keptWithin,
        .cons (step source value result head found) keptRel⟩

theorem exists_mem (descends : Descends related sources values) {value : β}
    (member : value ∈ values) : ∃ source ∈ sources, related source value := by
  obtain ⟨used, within, rel⟩ := descends
  obtain ⟨source, isSource, holds⟩ := Multiset.exists_mem_of_rel_of_mem
    (Multiset.rel_flip.mpr rel) member
  exact ⟨source, Multiset.mem_of_le within isSource, holds⟩

theorem sum_le (descends : Descends related sources values) (weight : α → Nat) (weightOf : β → Nat)
    (lighter : ∀ source value, related source value → weightOf value ≤ weight source) :
    (values.map weightOf).sum ≤ (sources.map weight).sum := by
  obtain ⟨used, within, rel⟩ := descends
  have own : (values.map weightOf).sum ≤ (used.map weight).sum := by
    clear within
    induction rel with
    | zero => exact le_rfl
    | cons head _ ih =>
      rw [Multiset.map_cons, Multiset.map_cons, Multiset.sum_cons, Multiset.sum_cons]
      exact Nat.add_le_add (lighter _ _ head) ih
  obtain ⟨unused, rfl⟩ := Multiset.le_iff_exists_add.mp within
  rw [Multiset.map_add, Multiset.sum_add]
  omega

end Descends
end H3llo
