import Mathlib.Data.List.Basic

/-! Calls of the operating system that are repeated while they fail in passing.

The results of the repeated call are an input, and the loop takes as many of them as it needs.
-/

set_option autoImplicit false

namespace H3llo

inductive ErrorKind where
  | connectionRefused
  | connectionReset
  | connectionAborted
  | hostUnreachable
  | networkUnreachable
  | networkDown
  | addrNotAvailable
  | invalidInput
  | timedOut
  | interrupted
  | wouldBlock
  | other
  deriving DecidableEq, Repr

structure IoError where
  kind : ErrorKind
  rawOsError : Option Int
  deriving DecidableEq, Repr

section

variable {Result : Type} (failure : Result → Option IoError)

/-- `failure` is the error that the loop sees in a result. There is no result as long as
every call was to be repeated. -/
def retryOnTransient : List Result → Option Result
  | [] => none
  | result :: later =>
      match failure result with
      | none => some result
      | some error =>
          if error.kind = .interrupted then retryOnTransient later
          else if error.kind = .wouldBlock then retryOnTransient later
          else some result

/-- A failure that says nothing about the next call. -/
def Passing (result : Result) : Prop :=
  ∃ error, failure result = some error ∧ error.kind ∈ [ErrorKind.interrupted, .wouldBlock]

/-- All calls before the one with this result failed in passing, and that one did not. -/
def Settles (results : List Result) (result : Result) : Prop :=
  ∃ passing later, results = passing ++ result :: later ∧
    (∀ earlier ∈ passing, Passing failure earlier) ∧ ¬ Passing failure result

variable {failure}

theorem retryOnTransient_passing {result : Result} (passing : Passing failure result)
    (later : List Result) :
    retryOnTransient failure (result :: later) = retryOnTransient failure later := by
  obtain ⟨error, fails, kind⟩ := passing
  rw [retryOnTransient, fails]
  simp only [List.mem_cons, List.not_mem_nil, or_false] at kind
  rcases kind with kind | kind
  · exact if_pos kind
  · simp [kind]

theorem retryOnTransient_settled {result : Result} (settled : ¬ Passing failure result)
    (later : List Result) : retryOnTransient failure (result :: later) = some result := by
  rw [retryOnTransient]
  cases fails : failure result with
  | none => rfl
  | some error =>
    have kind : error.kind ≠ .interrupted ∧ error.kind ≠ .wouldBlock := by
      constructor
      · exact fun kind => settled ⟨error, fails, by simp [kind]⟩
      · exact fun kind => settled ⟨error, fails, by simp [kind]⟩
    simp [kind]

theorem settles_cons_iff {first result : Result} {later : List Result} :
    Settles failure (first :: later) result ↔
      Passing failure first ∧ Settles failure later result ∨
        ¬ Passing failure first ∧ first = result := by
  constructor
  · rintro ⟨passing, rest, split, before, settled⟩
    cases passing with
    | nil =>
      cases split
      exact .inr ⟨settled, rfl⟩
    | cons _ passing =>
      cases split
      obtain ⟨first, before⟩ := List.forall_mem_cons.mp before
      exact .inl ⟨first, passing, rest, rfl, before, settled⟩
  · rintro (⟨isPassing, passing, rest, rfl, before, settled⟩ | ⟨settled, rfl⟩)
    · exact ⟨first :: passing, rest, rfl, List.forall_mem_cons.mpr ⟨isPassing, before⟩, settled⟩
    · exact ⟨[], later, rfl, by simp, settled⟩

theorem retryOnTransient_eq_some {results : List Result} {result : Result} :
    retryOnTransient failure results = some result ↔ Settles failure results result := by
  induction results with
  | nil =>
    constructor
    · intro none
      cases none
    · rintro ⟨_ | _, _, split, _⟩ <;> cases split
  | cons first later ih =>
    rw [settles_cons_iff]
    by_cases passing : Passing failure first
    · simp [retryOnTransient_passing passing, passing, ih]
    · simp [retryOnTransient_settled passing, passing]

theorem retryOnTransient_eq_none {results : List Result} :
    retryOnTransient failure results = none ↔ ∀ result ∈ results, Passing failure result := by
  induction results with
  | nil => simp [retryOnTransient]
  | cons first later ih =>
    by_cases passing : Passing failure first
    · simp [retryOnTransient_passing passing, passing, ih]
    · simp [retryOnTransient_settled passing, passing]

theorem Settles.unique {results : List Result} {first second : Result}
    (left : Settles failure results first) (right : Settles failure results second) :
    first = second := by
  rw [← retryOnTransient_eq_some] at left right
  exact Option.some.inj (left.symm.trans right)

end
end H3llo
