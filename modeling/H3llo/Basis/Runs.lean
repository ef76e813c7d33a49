import Mathlib.Logic.Relation

/-! Runs of partial transition functions.

An action carries every nondeterministic choice of one step; a step that is not
enabled returns `none`. A run is guarded when each of its actions meets a
condition on the state in which it is taken.
-/

set_option autoImplicit false

namespace H3llo.Runs

variable {State Action : Type}

/-- Execute the actions from left to right; the whole run fails with its first
disabled action. -/
def run (step : Action → State → Option State) : List Action → State → Option State
  | [], state => some state
  | action :: rest, state => (step action state).bind (run step rest)

theorem run_append (step : Action → State → Option State) (first second : List Action)
    (state : State) :
    run step (first ++ second) state = (run step first state).bind (run step second) := by
  induction first generalizing state with
  | nil => rfl
  | cons action rest ih =>
    rw [List.cons_append, run, run, Option.bind_assoc]
    congr 1
    funext next
    exact ih next

/-- States reached from `start` by actions that meet `allowed` where they are taken. -/
inductive Reaches (step : Action → State → Option State) (allowed : State → Action → Prop)
    (start : State) : State → Prop where
  | refl : Reaches step allowed start start
  | next {state after : State} {action : Action} :
      Reaches step allowed start state → allowed state action →
      step action state = some after → Reaches step allowed start after

variable {step : Action → State → Option State} {allowed : State → Action → Prop}
  {start state : State}

theorem Reaches.invariant {Inv : State → Prop} (reached : Reaches step allowed start state)
    (initial : Inv start)
    (keeps : ∀ before action after, Inv before → allowed before action →
      step action before = some after → Inv after) : Inv state := by
  induction reached with
  | refl => exact initial
  | next _ permitted taken ih => exact keeps _ _ _ ih permitted taken

theorem Reaches.trans {middle : State} (first : Reaches step allowed start middle)
    (second : Reaches step allowed middle state) : Reaches step allowed start state := by
  induction second with
  | refl => exact first
  | next _ permitted taken ih => exact .next ih permitted taken

theorem Reaches.mono {weaker : State → Action → Prop} (reached : Reaches step allowed start state)
    (implies : ∀ state action, allowed state action → weaker state action) :
    Reaches step weaker start state := by
  induction reached with
  | refl => exact .refl
  | next _ permitted taken ih => exact .next ih (implies _ _ permitted) taken

theorem Reaches.single {action : Action} (permitted : allowed start action)
    (taken : step action start = some state) : Reaches step allowed start state :=
  .next .refl permitted taken

theorem reaches_of_run {actions : List Action}
    (all : ∀ state, ∀ action ∈ actions, allowed state action)
    (executed : run step actions start = some state) : Reaches step allowed start state := by
  induction actions generalizing start with
  | nil =>
    cases executed
    exact .refl
  | cons action rest ih =>
    obtain ⟨middle, taken, remaining⟩ := Option.bind_eq_some_iff.mp executed
    have first := Reaches.single (all start action List.mem_cons_self) taken
    exact first.trans
      (ih (fun state other member => all state other (List.mem_cons_of_mem action member))
        remaining)

/-- The counted actions of a run are paid for by the work that there was at its start and by what
other actions have added to it. -/
theorem work_of_run {permitted counted adds : Action → Bool} {work : State → Nat} {bonus : Nat}
    (pays : ∀ before action after, permitted action → step action before = some after →
      (if counted action then 1 else 0) + work after ≤
      work before + (if adds action then bonus else 0))
    {actions : List Action} (all : ∀ action ∈ actions, permitted action)
    (executed : run step actions start = some state) :
    actions.countP counted + work state ≤ work start + bonus * actions.countP adds := by
  induction actions generalizing start with
  | nil =>
    cases executed
    simp
  | cons action rest ih =>
    obtain ⟨middle, taken, remaining⟩ := Option.bind_eq_some_iff.mp executed
    have first := pays start action middle (all action List.mem_cons_self) taken
    have later := ih (fun other member => all other (List.mem_cons_of_mem action member)) remaining
    rw [List.countP_cons, List.countP_cons]
    cases added : adds action with
    | true =>
      simp only [added, if_true, Nat.mul_add, Nat.mul_one] at first ⊢
      omega
    | false =>
      simp only [added, Bool.false_eq_true, if_false, Nat.add_zero] at first ⊢
      omega

def guarded (step : Action → State → Option State) (allowed : State → Action → Prop)
    [∀ state action, Decidable (allowed state action)] (action : Action)
    (state : State) : Option State :=
  if allowed state action then step action state else none

theorem reaches_of_guarded_run [∀ state action, Decidable (allowed state action)]
    {actions : List Action} (executed : run (guarded step allowed) actions start = some state) :
    Reaches step allowed start state := by
  induction actions generalizing start with
  | nil =>
    cases executed
    exact .refl
  | cons action rest ih =>
    obtain ⟨middle, taken, remaining⟩ := Option.bind_eq_some_iff.mp executed
    unfold guarded at taken
    split at taken
    next permitted => exact (Reaches.single permitted taken).trans (ih remaining)
    next => cases taken

end H3llo.Runs
