import Mathlib.Algebra.Order.Group.Multiset
import Mathlib.Tactic.Abel

/-! An unreliable datagram service, in one direction.

Datagrams wait to leave, are on their way, or have arrived and wait to be read. They may be lost
in each of these places and may overtake each other on their way. None is repeated or made up.
-/

set_option autoImplicit false

namespace H3llo

structure Lossy (α : Type) where
  queued : List α
  flying : List α
  arrived : List α
  lost : List α
  deriving Repr

/-- What happens to a datagram; the index counts those on their way. -/
inductive Fate where
  | depart
  | arrive (index : Nat)
  | lose (index : Nat)
  /-- The oldest one that waits to leave is given up. -/
  | purge
  /-- The oldest one that has arrived gives way. -/
  | evict
  deriving DecidableEq, Repr

def Fate.InOrder : Fate → Prop
  | .arrive index => index = 0
  | .depart | .lose _ | .purge | .evict => True

instance (fate : Fate) : Decidable fate.InOrder := by
  unfold Fate.InOrder
  split <;> infer_instance

namespace Lossy

variable {α : Type}

def empty : Lossy α := ⟨[], [], [], []⟩

def enqueue (more : List α) (service : Lossy α) : Lossy α :=
  { service with queued := service.queued ++ more }

def take (count : Nat) (service : Lossy α) : Lossy α :=
  { service with arrived := service.arrived.drop count }

def step (fate : Fate) (service : Lossy α) : Option (Lossy α) :=
  match fate with
  | .depart =>
      match service.queued with
      | [] => none
      | oldest :: queued => some { service with queued, flying := service.flying ++ [oldest] }
  | .arrive index =>
      service.flying[index]?.map fun datagram =>
        { service with
          flying := service.flying.eraseIdx index
          arrived := service.arrived ++ [datagram] }
  | .lose index =>
      service.flying[index]?.map fun datagram =>
        { service with flying := service.flying.eraseIdx index, lost := service.lost ++ [datagram] }
  | .purge =>
      match service.queued with
      | [] => none
      | oldest :: queued => some { service with queued, lost := service.lost ++ [oldest] }
  | .evict =>
      match service.arrived with
      | [] => none
      | oldest :: arrived => some { service with arrived, lost := service.lost ++ [oldest] }

def contents (service : Lossy α) : Multiset α :=
  service.arrived + service.flying + service.queued + service.lost

def pipeline (service : Lossy α) : List α := service.arrived ++ service.flying ++ service.queued

theorem card_contents (service : Lossy α) :
    service.contents.card = service.pipeline.length + service.lost.length := by
  simp [contents, pipeline, Nat.add_assoc]

theorem contents_enqueue (more : List α) (service : Lossy α) :
    (service.enqueue more).contents = service.contents + (more : Multiset α) := by
  simp only [contents, enqueue, ← Multiset.coe_add]
  abel

theorem pipeline_enqueue (more : List α) (service : Lossy α) :
    (service.enqueue more).pipeline = service.pipeline ++ more := by
  simp [pipeline, enqueue]

theorem contents_take {taken : List α} {service : Lossy α} (front : taken <+: service.arrived) :
    service.contents = (taken : Multiset α) + (service.take taken.length).contents := by
  obtain ⟨rest, split⟩ := front
  simp only [contents, take, ← split, List.drop_left, ← Multiset.coe_add]
  abel

theorem pipeline_take {taken : List α} {service : Lossy α} (front : taken <+: service.arrived) :
    service.pipeline = taken ++ (service.take taken.length).pipeline := by
  obtain ⟨rest, split⟩ := front
  simp [pipeline, take, ← split]

theorem coe_eraseIdx {values : List α} {index : Nat} {value : α}
    (found : values[index]? = some value) :
    (values : Multiset α) = {value} + (values.eraseIdx index : Multiset α) := by
  obtain ⟨bound, rfl⟩ := List.getElem?_eq_some_iff.mp found
  rw [Multiset.singleton_add, Multiset.cons_coe]
  exact Multiset.coe_eq_coe.mpr (List.getElem_cons_eraseIdx_perm bound).symm

section Step

variable {fate : Fate} {service next : Lossy α} (taken : service.step fate = some next)
include taken

theorem contents_step : next.contents = service.contents := by
  cases fate with
  | depart =>
    cases queued : service.queued with
    | nil => simp [step, queued] at taken
    | cons oldest rest =>
      simp only [step, queued, Option.some.injEq] at taken
      subst taken
      simp only [contents, queued, ← Multiset.coe_add, ← Multiset.cons_coe,
        ← Multiset.singleton_add]
      abel
  | arrive index =>
    obtain ⟨datagram, found, rfl⟩ := Option.map_eq_some_iff.mp taken
    simp only [contents, coe_eraseIdx found, ← Multiset.coe_add, Multiset.coe_singleton]
    abel
  | lose index =>
    obtain ⟨datagram, found, rfl⟩ := Option.map_eq_some_iff.mp taken
    simp only [contents, coe_eraseIdx found, ← Multiset.coe_add, Multiset.coe_singleton]
    abel
  | purge =>
    cases queued : service.queued with
    | nil => simp [step, queued] at taken
    | cons oldest rest =>
      simp only [step, queued, Option.some.injEq] at taken
      subst taken
      simp only [contents, queued, ← Multiset.coe_add, ← Multiset.cons_coe,
        ← Multiset.singleton_add]
      abel
  | evict =>
    cases arrived : service.arrived with
    | nil => simp [step, arrived] at taken
    | cons oldest rest =>
      simp only [step, arrived, Option.some.injEq] at taken
      subst taken
      simp only [contents, arrived, ← Multiset.coe_add, ← Multiset.cons_coe,
        ← Multiset.singleton_add]
      abel

theorem pipeline_step (ordered : fate.InOrder) : next.pipeline.Sublist service.pipeline := by
  cases fate with
  | depart =>
    cases queued : service.queued with
    | nil => simp [step, queued] at taken
    | cons oldest rest =>
      simp only [step, queued, Option.some.injEq] at taken
      subst taken
      simp [pipeline, queued]
  | arrive index =>
    have first : index = 0 := ordered
    subst first
    obtain ⟨datagram, found, rfl⟩ := Option.map_eq_some_iff.mp taken
    cases flying : service.flying with
    | nil => simp [flying] at found
    | cons oldest rest =>
      rw [flying, List.getElem?_cons_zero, Option.some.injEq] at found
      simp [pipeline, flying, found]
  | lose index =>
    obtain ⟨datagram, found, rfl⟩ := Option.map_eq_some_iff.mp taken
    exact ((List.Sublist.refl service.arrived).append
      (List.eraseIdx_sublist service.flying index)).append (.refl _)
  | purge =>
    cases queued : service.queued with
    | nil => simp [step, queued] at taken
    | cons oldest rest =>
      simp only [step, queued, Option.some.injEq] at taken
      subst taken
      rw [pipeline, pipeline, queued]
      exact (List.Sublist.refl _).append (List.sublist_cons_self oldest rest)
  | evict =>
    cases arrived : service.arrived with
    | nil => simp [step, arrived] at taken
    | cons oldest rest =>
      simp only [step, arrived, Option.some.injEq] at taken
      subst taken
      rw [pipeline, pipeline, arrived]
      exact ((List.sublist_cons_self oldest rest).append (.refl _)).append (.refl _)

end Step
end Lossy
end H3llo
