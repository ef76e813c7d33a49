import Mathlib.Data.List.Perm.Basic
import Mathlib.Data.List.Count

/-! Sends into bounded channels, FIFO inboxes, and streams compared key by key.

A send either places its value or finds the channel closed. Which of the two
happens is an oracle over the attempts, so that a channel may close at any point.
-/

set_option autoImplicit false

namespace H3llo

structure Sender where
  channel : Nat
  deriving DecidableEq, Repr

structure Outlet (α : Type) where
  sent : List (Sender × α)
  attempts : Nat

namespace Outlet

variable {α : Type}

def empty : Outlet α := ⟨[], 0⟩

/-- Send one value; the result says whether the channel took it. -/
def send (accepts : Nat → Sender → Bool) (outlet : Outlet α) (tx : Sender)
    (value : α) : Bool × Outlet α :=
  if accepts outlet.attempts tx then (true, ⟨outlet.sent ++ [(tx, value)], outlet.attempts + 1⟩)
  else (false, ⟨outlet.sent, outlet.attempts + 1⟩)

theorem send_open {accepts : Nat → Sender → Bool} (isOpen : ∀ attempt tx, accepts attempt tx = true)
    (outlet : Outlet α) (tx : Sender) (value : α) :
    outlet.send accepts tx value = (true, ⟨outlet.sent ++ [(tx, value)], outlet.attempts + 1⟩) := by
  simp [send, isOpen]

end Outlet

/-! ## Inboxes

A FIFO inbox whose reader keeps the value that it took out last.
-/

section Inbox

variable {α : Type}

def newest (queue : List α) (taken : α) : α := queue.getLast?.getD taken

@[simp] theorem newest_nil (taken : α) : newest [] taken = taken := rfl

@[simp] theorem newest_cons (value : α) (rest : List α) (taken : α) :
    newest (value :: rest) taken = newest rest value := by
  simp [newest, List.getLast?_cons]

@[simp] theorem newest_append (queue more : List α) (taken : α) :
    newest (queue ++ more) taken = newest more (newest queue taken) := by
  induction queue generalizing taken with
  | nil => rfl
  | cons value rest ih => rw [List.cons_append, newest_cons, newest_cons, ih]

end Inbox

/-! ## Streams

Two lists that agree on the elements of every key, in order, differ only in how
they interleave different keys.
-/

section Streams

variable {α κ : Type} [DecidableEq κ] (key : α → κ)

def SameStreams (first second : List α) : Prop :=
  ∀ k, first.filter (fun value => key value = k) = second.filter (fun value => key value = k)

namespace SameStreams

variable {key}

theorem refl (values : List α) : SameStreams key values values := fun _ => rfl

theorem append {first second third fourth : List α} (left : SameStreams key first second)
    (right : SameStreams key third fourth) :
    SameStreams key (first ++ third) (second ++ fourth) := by
  intro k
  rw [List.filter_append, List.filter_append, left k, right k]

theorem perm {first second : List α} (same : SameStreams key first second) : first.Perm second := by
  classical
  rw [List.perm_iff_count]
  intro value
  -- an element occurs in the stream of its own key only
  have counted (values : List α) :
      (values.filter fun other => key other = key value).count value = values.count value :=
    List.count_filter (by simp)
  rw [← counted first, ← counted second, same (key value)]

theorem partition (test : κ → Bool) (values : List α) :
    SameStreams key (values.filter (fun value => test (key value)) ++ values.filter fun value =>
      !test (key value))
      values := by
  intro k
  rw [List.filter_append, List.filter_filter, List.filter_filter]
  -- the stream of a key lies wholly in one of the two parts
  cases tested : test k with
  | true =>
    have front : (values.filter fun value => decide (key value = k) && test (key value)) =
        values.filter fun value => key value = k := by
      refine List.filter_congr fun value _ => ?_
      by_cases same : key value = k <;> simp [same, tested]
    have back : (values.filter fun value => decide (key value = k) && !test (key value)) = [] := by
      refine List.filter_eq_nil_iff.mpr fun value _ => ?_
      by_cases same : key value = k <;> simp [same, tested]
    rw [front, back, List.append_nil]
  | false =>
    have front : (values.filter fun value => decide (key value = k) && test (key value)) = [] := by
      refine List.filter_eq_nil_iff.mpr fun value _ => ?_
      by_cases same : key value = k <;> simp [same, tested]
    have back : (values.filter fun value => decide (key value = k) && !test (key value)) =
        values.filter fun value => key value = k := by
      refine List.filter_congr fun value _ => ?_
      by_cases same : key value = k <;> simp [same, tested]
    rw [front, back, List.nil_append]

end SameStreams
end Streams
end H3llo
