import Clausal.Outcome
import Clausal.Valuation

/-!
Verdicts: the statuses that tell whether a formula is satisfiable.
-/

set_option autoImplicit false

namespace Clausal.Formula

/-- The status tells whether the formula is satisfiable. -/
inductive Verdict (formula : Formula) : Status → Prop where
  | satisfiable : formula.Satisfiable → Verdict formula .satisfiable
  | unsatisfiable : ¬ formula.Satisfiable → Verdict formula .unsatisfiable

namespace Verdict

variable {formula : Formula} {status other : Status}

theorem satisfiable_iff (verdict : formula.Verdict status) :
    status = .satisfiable ↔ formula.Satisfiable := by
  cases verdict with
  | satisfiable holds => exact ⟨fun _ => holds, fun _ => rfl⟩
  | unsatisfiable fails => exact ⟨fun same => Status.noConfusion same, fun holds => absurd holds fails⟩

theorem unsatisfiable_iff (verdict : formula.Verdict status) :
    status = .unsatisfiable ↔ ¬ formula.Satisfiable := by
  cases verdict with
  | satisfiable holds => exact ⟨fun same => Status.noConfusion same, fun fails => absurd holds fails⟩
  | unsatisfiable fails => exact ⟨fun _ => fails, fun _ => rfl⟩

theorem ne_error (verdict : formula.Verdict status) : status ≠ .error := by
  cases verdict <;> exact Status.noConfusion

/-- There is only one verdict on a formula. -/
theorem unique (left : formula.Verdict status) (right : formula.Verdict other) : status = other := by
  cases left with
  | satisfiable holds => exact (right.satisfiable_iff.mpr holds).symm
  | unsatisfiable fails => exact (right.unsatisfiable_iff.mpr fails).symm

end Verdict

end Clausal.Formula
