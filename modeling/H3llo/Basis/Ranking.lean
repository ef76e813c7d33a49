import Mathlib.Data.Finset.Insert
import Mathlib.Data.List.Nodup

/-! Stable sorting by rank, and the first value of each key.

A stable sort orders values by their rank and then by their position. Keeping only the
first occurrence of each key then leaves the best value of the key.
-/

set_option autoImplicit false

namespace H3llo.Ranking

/-! ## Stable sorting -/

section Stable

variable {α : Type} {le : α → α → Bool} (trans : ∀ first second third, le first second →
  le second third → le first third)
  (total : ∀ first second, le first second || le second first)
include trans total

theorem filter_mergeSort {tied : α → Bool}
    (together : ∀ first second, tied first → tied second → le first second) (values : List α) :
    (values.mergeSort le).filter tied = values.filter tied := by
  have sorted : (values.filter tied).Pairwise fun first second => le first second := by
    apply List.pairwise_of_forall_mem_list
    intro first firstMem second secondMem
    exact together first second (List.of_mem_filter firstMem) (List.of_mem_filter secondMem)
  have inside := (List.sublist_mergeSort trans total sorted List.filter_sublist).filter tied
  simp only [List.filter_filter, Bool.and_self] at inside
  have sizes := ((List.mergeSort_perm values le).filter tied).length_eq
  exact (inside.eq_of_length sizes.symm).symm

/-- Of better rank, or of the same rank and earlier. -/
def Precedes (le : α → α → Bool) (first second : α × Nat) : Prop :=
  le first.1 second.1 ∧ (le second.1 first.1 → first.2 < second.2)

theorem pairwise_mergeSort_precedes {numbered : List (α × Nat)}
    (increasing : numbered.Pairwise fun first second => first.2 < second.2) :
    (numbered.mergeSort fun first second => le first.1 second.1).Pairwise (Precedes le) := by
  have trans' (first second third : α × Nat) : le first.1 second.1 → le second.1 third.1 →
      le first.1 third.1 :=
    trans first.1 second.1 third.1
  have total' (first second : α × Nat) : le first.1 second.1 || le second.1 first.1 :=
    total first.1 second.1
  rw [List.pairwise_iff_forall_sublist]
  intro first second placed
  have ordered := List.pairwise_iff_forall_sublist.mp
    (List.pairwise_mergeSort trans' total' numbered) placed
  refine ⟨ordered, fun back => ?_⟩
  -- the values of this rank stand in the sorted list as they stood before
  let tied (value : α × Nat) : Bool := le first.1 value.1 && le value.1 first.1
  have together (left right : α × Nat) (leftTied : tied left) (rightTied : tied right) :
      le left.1 right.1 := by
    simp only [tied, Bool.and_eq_true] at leftTied rightTied
    exact trans left.1 first.1 right.1 leftTied.2 rightTied.1
  have both : [first, second].filter tied = [first, second] := by
    have reflexive : le first.1 first.1 = true := by simpa using total first.1 first.1
    simp [tied, reflexive, ordered, back]
  have kept := placed.filter tied
  rw [both, filter_mergeSort trans' total' together] at kept
  exact List.pairwise_iff_forall_sublist.mp (increasing.filter tied) kept

end Stable

/-! ## First occurrences -/

section Firsts

variable {α κ : Type} [DecidableEq κ] (key : α → κ)

def firsts (seen : Finset κ) : List α → List α
  | [] => []
  | value :: rest =>
      if key value ∈ seen then firsts seen rest else value :: firsts (insert (key value) seen) rest

def Leads (R : α → α → Prop) (values : List α) (best : α) : Prop :=
  best ∈ values ∧ ∀ other ∈ values, key other = key best → other = best ∨ R best other

variable {key}

theorem firsts_sublist (seen : Finset κ) (values : List α) :
    (firsts key seen values).Sublist values := by
  induction values generalizing seen with
  | nil => exact List.Sublist.refl _
  | cons value rest ih =>
    unfold firsts
    split
    · exact (ih seen).cons value
    · exact (ih _).cons_cons value

theorem map_firsts (seen : Finset κ) (values : List α) :
    (firsts key seen values).map key = firsts id seen (values.map key) := by
  induction values generalizing seen with
  | nil => rfl
  | cons value rest ih =>
    simp only [firsts, List.map_cons, id_eq]
    split
    · exact ih seen
    · rw [List.map_cons, ih]

theorem mem_firsts_id {seen : Finset κ} {keys : List κ} {k : κ} :
    k ∈ firsts id seen keys ↔ k ∈ keys ∧ k ∉ seen := by
  induction keys generalizing seen with
  | nil => simp [firsts]
  | cons head rest ih =>
    by_cases old : head ∈ seen
    · simp only [firsts, id_eq, if_pos old, ih, List.mem_cons]
      constructor
      · rintro ⟨later, unseen⟩
        exact ⟨.inr later, unseen⟩
      · rintro ⟨rfl | later, unseen⟩
        · exact absurd old unseen
        · exact ⟨later, unseen⟩
    · simp only [firsts, id_eq, if_neg old, ih, List.mem_cons, Finset.mem_insert, not_or]
      by_cases same : k = head
      · simp [same, old]
      · simp [same]

theorem nodup_firsts_id (seen : Finset κ) (keys : List κ) : (firsts id seen keys).Nodup := by
  induction keys generalizing seen with
  | nil => exact List.nodup_nil
  | cons head rest ih =>
    simp only [firsts, id_eq]
    split
    · exact ih seen
    · apply (ih _).cons
      rw [mem_firsts_id]
      simp

theorem leads_of_mem_firsts {R : α → α → Prop} {values : List α} (sorted : values.Pairwise R)
    {seen : Finset κ} {best : α} (member : best ∈ firsts key seen values) :
    key best ∉ seen ∧ Leads key R values best := by
  induction values generalizing seen with
  | nil => cases member
  | cons value rest ih =>
    obtain ⟨before, sorted⟩ := List.pairwise_cons.mp sorted
    -- a value before it has another key
    have extend {seen : Finset κ} (known : key value ∈ seen)
        (later : key best ∉ seen ∧ Leads key R rest best) :
        Leads key R (value :: rest) best := by
      refine ⟨List.mem_cons_of_mem value later.2.1, fun other otherMem same => ?_⟩
      rcases List.mem_cons.mp otherMem with rfl | otherMem
      · exact absurd (same ▸ known) later.1
      · exact later.2.2 other otherMem same
    unfold firsts at member
    split at member
    next known =>
      have later := ih sorted member
      exact ⟨later.1, extend known later⟩
    next unknown =>
      rcases List.mem_cons.mp member with rfl | member
      · refine ⟨unknown, List.mem_cons_self, fun other otherMem _ => ?_⟩
        rcases List.mem_cons.mp otherMem with rfl | otherMem
        · exact .inl rfl
        · exact .inr (before other otherMem)
      · have later := ih sorted member
        have unseen : key best ∉ seen := fun old => later.1 (Finset.mem_insert_of_mem old)
        exact ⟨unseen, extend (Finset.mem_insert_self _ _) later⟩

theorem pairwise_firsts {R : α → α → Prop} {values : List α} (sorted : values.Pairwise R)
    (seen : Finset κ) :
    (firsts id seen (values.map key)).Pairwise fun first second => ∃ better worse,
      Leads key R values better ∧ key better = first ∧ Leads key R values worse ∧
      key worse = second ∧ R better worse := by
  rw [← map_firsts, List.pairwise_map]
  apply (sorted.sublist (firsts_sublist seen values)).imp_of_mem
  intro better worse betterMem worseMem ordered
  exact ⟨better, worse, (leads_of_mem_firsts sorted betterMem).2, rfl,
    (leads_of_mem_firsts sorted worseMem).2, rfl, ordered⟩

end Firsts
end H3llo.Ranking
