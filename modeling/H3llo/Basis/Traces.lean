import H3llo.Basis.Runs
import Mathlib.Order.WellFounded

/-! Unending runs, and a rule for what they cannot avoid.

A trace takes an allowed step at each moment or rests. It is fair to a turn, a choice of
one action for every state, when the turn comes again and again and is then taken if it
is enabled.
-/

set_option autoImplicit false

namespace H3llo.Runs

variable {State Action : Type}

def Traces (step : Action → State → Option State) (allowed : State → Action → Prop)
    (states : Nat → State) : Prop :=
  ∀ n, states (n + 1) = states n ∨
    ∃ action, allowed (states n) action ∧ step action (states n) = some (states (n + 1))

def Fair (step : Action → State → Option State) (turn : State → Action)
    (states : Nat → State) : Prop :=
  ∀ n, ∃ m, n ≤ m ∧ ∀ after, step (turn (states m)) (states m) = some after → states (m + 1) = after

variable {step : Action → State → Option State} {allowed : State → Action → Prop}
  {turn : State → Action}
  {states : Nat → State}

theorem Traces.reaches (traces : Traces step allowed states) (n : Nat) :
    Reaches step allowed (states 0) (states n) := by
  induction n with
  | zero => exact .refl
  | succ n ih =>
    obtain rests | ⟨action, permitted, taken⟩ := traces n
    · rw [rests]
      exact ih
    · exact .next ih permitted taken

section Rank

variable {Rank : Type} [Preorder Rank] {rank : State → Rank} {Waits Goal : State → Prop}

/-- While the goal is not met, waiting goes on and the rank has not grown. -/
theorem Traces.waits (traces : Traces step allowed states)
    (keeps : ∀ before action after, Waits before → allowed before action →
      step action before = some after → Goal after ∨ Waits after ∧ rank after ≤ rank before)
    {n : Nat} (waits : Waits (states n)) (k : Nat) :
    (∃ m, Goal (states m)) ∨ Waits (states (n + k)) ∧ rank (states (n + k)) ≤ rank (states n) := by
  induction k with
  | zero => exact .inr ⟨waits, le_refl _⟩
  | succ k ih =>
    obtain met | ⟨still, below⟩ := ih
    · exact .inl met
    · obtain rests | ⟨action, permitted, taken⟩ := traces (n + k)
      · rw [← Nat.add_assoc, rests]
        exact .inr ⟨still, below⟩
      · obtain met | ⟨after, lower⟩ := keeps _ _ _ still permitted taken
        · exact .inl ⟨_, met⟩
        · exact .inr ⟨after, lower.trans below⟩

theorem Traces.eventually [WellFoundedLT Rank] (traces : Traces step allowed states)
    (fair : Fair step turn states)
    (keeps : ∀ before action after, Waits before → allowed before action →
      step action before = some after → Goal after ∨ Waits after ∧ rank after ≤ rank before)
    (lowers : ∀ before, Waits before → ∃ after, step (turn before) before = some after ∧
      (Goal after ∨ rank after < rank before))
    {n : Nat} (waits : Waits (states n)) : ∃ m, Goal (states m) := by
  generalize bound : rank (states n) = height
  induction height using WellFoundedLT.induction generalizing n with
  | ind height ih =>
    subst bound
    obtain ⟨m, later, turned⟩ := fair n
    obtain ⟨k, rfl⟩ := Nat.exists_eq_add_of_le later
    obtain met | ⟨still, below⟩ := traces.waits keeps waits k
    · exact met
    obtain ⟨after, taken, met | lower⟩ := lowers _ still
    · exact ⟨n + k + 1, turned after taken ▸ met⟩
    obtain met | ⟨next, -⟩ := traces.waits keeps waits (k + 1)
    · exact met
    · rw [← turned after taken] at lower
      exact ih _ (lower.trans_le below) next rfl

end Rank

/-! ## Runs as traces -/

def along (step : Action → State → Option State) : List Action → State → Nat → State
  | [], state, _ => state
  | _ :: _, state, 0 => state
  | action :: rest, state, n + 1 =>
      match step action state with
      | some after => along step rest after n
      | none => state

theorem along_zero (actions : List Action) (start : State) :
    along step actions start 0 = start := by
  cases actions <;> rfl

theorem along_of_run {actions : List Action} {start last : State}
    (executed : run step actions start = some last) {n : Nat} (past : actions.length ≤ n) :
    along step actions start n = last := by
  induction actions generalizing start n with
  | nil =>
    cases executed
    rfl
  | cons action rest ih =>
    obtain ⟨middle, taken, remaining⟩ := Option.bind_eq_some_iff.mp executed
    cases n with
    | zero => cases past
    | succ n =>
      simp only [along, taken]
      exact ih remaining (Nat.le_of_succ_le_succ past)

variable [∀ state action, Decidable (allowed state action)]

theorem traces_along (actions : List Action) (start : State) :
    Traces step allowed (along (guarded step allowed) actions start) := by
  induction actions generalizing start with
  | nil => exact fun _ => .inl rfl
  | cons action rest ih =>
    intro n
    cases taken : guarded step allowed action start with
    | none =>
      cases n with
      | zero => simp [along, taken]
      | succ n => simp [along, taken]
    | some after =>
      cases n with
      | zero =>
        unfold guarded at taken
        split at taken
        next permitted =>
          refine .inr ⟨action, permitted, ?_⟩
          simp only [along, guarded, if_pos permitted, taken, along_zero]
        next => cases taken
      | succ n =>
        simp only [along, taken]
        exact ih after n

theorem fair_along {actions : List Action} {start last : State}
    (executed : run (guarded step allowed) actions start = some last)
    (idle : step (turn last) last = none) :
    Fair step turn (along (guarded step allowed) actions start) := by
  intro n
  refine ⟨n + actions.length, Nat.le_add_right .., fun after taken => ?_⟩
  rw [along_of_run executed (Nat.le_add_left ..), idle] at taken
  cases taken

end H3llo.Runs
