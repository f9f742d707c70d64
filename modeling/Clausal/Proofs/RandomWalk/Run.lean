import Clausal.Proofs.RandomWalk.Walk
import Clausal.Solver

/-!
Runs of the random walk: whatever is chosen, a run with a whole number as its budget ends, what it finds
is a solution, and it gives up only when the budget is spent.
-/

set_option autoImplicit false

namespace Clausal

def Outcome.CountsFlips (outcome : Outcome) (flips : Nat) : Prop :=
  Assoc.get? "flips" outcome.statistics = some (.int flips)

/-- How an answer shows in an outcome. -/
def RandomWalk.Answer.ShownBy (outcome : Outcome) : RandomWalk.Answer → Prop
  | .satisfied environment flips =>
      outcome.status = .satisfiable ∧ outcome.environment = some environment ∧
        outcome.CountsFlips flips
  | .exhausted flips =>
      outcome.status = .unknown ∧ outcome.environment = none ∧ outcome.CountsFlips flips
  | .emptyClause =>
      outcome.status = .unknown ∧ outcome.environment = none ∧ outcome.CountsFlips 0

theorem RandomWalk.Answer.ShownBy.status {answer : RandomWalk.Answer} {outcome : Outcome}
    (shown : answer.ShownBy outcome) : outcome.status = .satisfiable ∨ outcome.status = .unknown := by
  cases answer with
  | satisfied environment flips => exact .inl shown.1
  | exhausted flips => exact .inr shown.1
  | emptyClause => exact .inr shown.1

namespace Solver

variable {State : Type} {solver : Solver} {kind : SolverKind} {chooser : Random.Chooser State}
  {start : State} {formula : Formula} {budget : Datum}

/-- The flips that a budget allows. -/
def flipLimit (budget : Datum) : Nat := (budget.quantity?.map Quantity.ceiling).getD 0

theorem shownBy_of_runWalk (given : solver.budget kind formula = .ok budget) {elapsed : Float}
    {outcome : Outcome}
    (ran : (solver.runWalk kind chooser start formula).outcome elapsed = .ok outcome) :
    (RandomWalk.solve chooser start (flipLimit budget) formula).ShownBy outcome := by
  unfold runWalk at ran
  simp only [given] at ran
  unfold flipLimit
  split at ran
  · next answer =>
      cases ran
      rw [answer]
      exact ⟨rfl, rfl, rfl⟩
  · next environment flips answer =>
      cases ran
      rw [answer]
      exact ⟨rfl, rfl, rfl⟩
  · next flips answer =>
      split at ran
      · cases ran
        rw [answer]
        exact ⟨rfl, rfl, rfl⟩
      · cases ran

/-- The statistics of a run hold the budget and the seed that it had. -/
theorem settings_of_runWalk (given : solver.budget kind formula = .ok budget) {elapsed : Float}
    {outcome : Outcome}
    (ran : (solver.runWalk kind chooser start formula).outcome elapsed = .ok outcome) :
    Assoc.get? "budget" outcome.statistics = some budget ∧
      Assoc.get? "seed" outcome.statistics = some (solver.property kind "seed") := by
  unfold runWalk at ran
  simp only [given] at ran
  split at ran
  · cases ran
    exact ⟨rfl, rfl⟩
  · cases ran
    exact ⟨rfl, rfl⟩
  · split at ran
    · cases ran
      exact ⟨rfl, rfl⟩
    · cases ran

theorem exists_outcome_runWalk (given : solver.budget kind formula = .ok budget)
    (number : budget.quantity?.isSome = true) (elapsed : Float) :
    ∃ outcome, (solver.runWalk kind chooser start formula).outcome elapsed = .ok outcome := by
  unfold runWalk
  simp only [given, number]
  split <;> exact ⟨_, rfl⟩

/-- Under any budget, also one that is no whole number, what a run finds is a solution. -/
theorem solves_of_runWalk {elapsed : Float} {outcome : Outcome}
    (ran : (solver.runWalk kind chooser start formula).outcome elapsed = .ok outcome)
    (satisfiable : outcome.status = .satisfiable) :
    ∃ environment, outcome.environment = some environment ∧ environment.Solves formula := by
  cases given : solver.budget kind formula with
  | error fault =>
      unfold runWalk at ran
      rw [given] at ran
      cases ran
  | ok budget =>
      have shown := shownBy_of_runWalk given ran
      have correct := RandomWalk.solve_correct chooser start (flipLimit budget) formula
      generalize RandomWalk.solve chooser start (flipLimit budget) formula = answer at shown correct
      cases correct with
      | satisfied solves _ _ => exact ⟨_, shown.2.1, solves⟩
      | exhausted _ => exact Status.noConfusion (satisfiable.symm.trans shown.1)
      | emptyClause _ => exact Status.noConfusion (satisfiable.symm.trans shown.1)

theorem run_eq_runWalk (algorithm : kind.algorithm = .randomWalk) (entropy : Int) :
    ∃ generator, solver.run kind entropy formula =
      solver.runWalk kind Random.Twister.chooser generator formula := by
  refine ⟨Random.Twister.ofSeed ((solver.property kind "seed").int?.getD entropy), ?_⟩
  simp only [run, algorithm, runRandomWalk]

end Solver

end Clausal
