import H3llo.Router.Accounting
import Mathlib.Algebra.Group.Pi.Basic

/-! Exact accounting below saturation.

A ledger is what counters say while none of them has reached its largest value: the load that
succeeded, and for every reason the load that was dropped. Ledgers add up along a run.
-/

set_option autoImplicit false

namespace H3llo

abbrev Ledger := Load × (DropReason → Load)

namespace Ledger

def success (load : Load) : Ledger := (load, 0)

def drop (reason : DropReason) (load : Load) : Ledger := (0, Pi.single reason load)

@[simp] theorem success_zero : success 0 = 0 := rfl

@[simp] theorem drop_zero (reason : DropReason) : drop reason 0 = 0 := by simp [drop]

theorem success_add (first second : Load) :
    success (first + second) = success first + success second := by
  simp [success]

theorem drop_add (reason : DropReason) (first second : Load) :
    drop reason (first + second) = drop reason first + drop reason second := by
  refine Prod.ext (add_zero _).symm (funext fun other => ?_)
  by_cases same : other = reason
  · subst same
    simp [drop]
  · simp [drop, same]

end Ledger

namespace Stats

def ledger (stats : Stats) : Ledger :=
  (stats.succeeded.load, fun reason => (stats.dropReasons reason).load)

@[simp] theorem ledger_new : new.ledger = 0 := rfl

/-- Below saturation the second state counts `gain` more than the first. -/
structure Adds (gain : Ledger) (before after : Stats) : Prop where
  below : after.Below → before.Below
  gained : after.Below → after.ledger = before.ledger + gain

namespace Adds

variable {before middle after : Stats}

theorem refl (stats : Stats) : Adds 0 stats stats := ⟨id, fun _ => (add_zero _).symm⟩

theorem trans {early late : Ledger} (left : Adds early before middle)
    (right : Adds late middle after) : Adds (early + late) before after where
  below below := left.below (right.below below)
  gained below := by rw [right.gained below, left.gained (right.below below), add_assoc]

theorem recordSuccess (stats : Stats) (load : Load) :
    Adds (.success load) stats (stats.recordSuccess load.1 load.2) where
  below := (Counts.recordSuccess stats load).below
  gained below := by
    have counted := (PktCounters.below_of_record below.succeeded).2
    rw [ledger, ledger, Stats.recordSuccess, counted]
    exact Prod.ext rfl (add_zero _).symm

theorem recordDrop (stats : Stats) (reason : DropReason) (load : Load) :
    Adds (.drop reason load) stats (stats.recordDrop reason load.1 load.2) where
  below := (Counts.recordDrop stats reason load).below
  gained below := by
    refine Prod.ext (add_zero _).symm (funext fun other => ?_)
    by_cases same : other = reason
    · subst same
      have own := below.reasons other
      simp only [Stats.recordDrop, Function.update_self] at own
      simp [ledger, Ledger.drop, Stats.recordDrop, (PktCounters.below_of_record own).2]
    · simp [ledger, Ledger.drop, Stats.recordDrop, same]

theorem of_new {gain : Ledger} (adds : Adds gain new after) (below : after.Below) :
    after.ledger = gain := by
  rw [adds.gained below, ledger_new, zero_add]

end Adds

/-- Below saturation `load` more succeeded, and nothing more was dropped for the reason `never`. -/
def Credits (load : Load) (never : DropReason) (before after : Stats) : Prop :=
  ∃ gain : Ledger, Adds gain before after ∧ gain.1 = load ∧ gain.2 never = 0

namespace Credits

variable {never : DropReason} {before middle after : Stats}

theorem refl (never : DropReason) (stats : Stats) : Credits 0 never stats stats :=
  ⟨0, .refl stats, rfl, rfl⟩

theorem trans {early late : Load} (left : Credits early never before middle)
    (right : Credits late never middle after) : Credits (early + late) never before after := by
  obtain ⟨first, counted, rfl, none⟩ := left
  obtain ⟨second, later, rfl, noMore⟩ := right
  exact ⟨first + second, counted.trans later,
    rfl, by rw [Prod.snd_add, Pi.add_apply, none, noMore, add_zero]⟩

theorem recordSuccess (never : DropReason) (stats : Stats) (load : Load) :
    Credits load never stats (stats.recordSuccess load.1 load.2) :=
  ⟨.success load, .recordSuccess stats load, rfl, rfl⟩

theorem recordDrop {reason : DropReason} (other : never ≠ reason) (stats : Stats) (load : Load) :
    Credits 0 never stats (stats.recordDrop reason load.1 load.2) :=
  ⟨.drop reason load, .recordDrop stats reason load, rfl, by simp [Ledger.drop, other]⟩

theorem of_new {load : Load} (credits : Credits load never new after) (below : after.Below) :
    after.succeeded.load = load ∧ (after.dropReasons never).load = 0 := by
  obtain ⟨gain, adds, rfl, none⟩ := credits
  have counted := adds.of_new below
  exact ⟨congrArg Prod.fst counted, (congrFun (congrArg Prod.snd counted) never).trans none⟩

end Credits
end Stats
end H3llo
