import Clausal.Proofs.Renaming.Decision
import Clausal.Proofs.Renaming.Descent
import Clausal.Proofs.Renaming.Walk
import Clausal.Solver

/-!
Runs under new names. No solver looks at a name: a run on the renamed formula is the run on the formula with
its names replaced, down to the order of the bindings and the variable reported for a conflict.
-/

set_option autoImplicit false

namespace Clausal

variable (names : Renaming)

def SolverFault.rename : SolverFault → SolverFault
  | .clause fault => .clause (fault.rename names)
  | fault => fault

/-- Statistics name a variable in one place only. -/
def renameStatistic (entry : String × Datum) : String × Datum :=
  match entry with
  | ("conflict_variable", .text name) => ("conflict_variable", .text (names ⟨name⟩).name)
  | entry => entry

def Outcome.rename (outcome : Outcome) : Outcome :=
  { outcome with
    environment := outcome.environment.map (Environment.rename names)
    statistics := outcome.statistics.map (renameStatistic names) }

namespace Solver

variable (solver : Solver) (kind : SolverKind) (formula : Formula)

theorem validate_rename :
    solver.validate kind (formula.rename names) =
      mapBoth (SolverFault.rename names) id (solver.validate kind formula) := by
  simp only [validate, Formula.isEmpty_rename, TwoSat.validate_rename]
  split
  · next limit _ => cases TwoSat.validate limit formula <;> rfl
  · cases formula.isEmpty <;> rfl

theorem outcome_runTwoSat_rename (elapsed : Float) :
    (solver.runTwoSat kind (formula.rename names)).outcome elapsed =
      mapBoth (SolverFault.rename names) (Outcome.rename names)
        ((solver.runTwoSat kind formula).outcome elapsed) := by
  unfold runTwoSat
  rw [validate_rename]
  cases solver.validate kind formula with
  | error fault => rfl
  | ok accepted =>
      dsimp only [mapBoth]
      rw [Formula.width_rename, TwoSat.solve_rename]
      cases TwoSat.solve (.whole formula.width) formula with
      | error fault => rfl
      | ok answer =>
          cases answer with
          | emptyClause => rfl
          | conflict extent atom => rfl
          | satisfied extent environment => rfl

theorem outcome_runDpll_rename (elapsed : Float) :
    (solver.runDpll kind (formula.rename names)).outcome elapsed =
      mapBoth (SolverFault.rename names) (Outcome.rename names)
        ((solver.runDpll kind formula).outcome elapsed) := by
  simp only [runDpll, Dpll.solve_rename]
  obtain ⟨environment, counters⟩ :=
    Dpll.solve (solver.property kind "complete_assignment").isTruthy formula
  cases environment <;> rfl

theorem budget_rename :
    solver.budget kind (formula.rename names) = solver.budget kind formula := by
  simp only [budget, defaultBudget, Formula.atoms_rename, List.length_map]

theorem outcome_runWalk_rename {State : Type} (chooser : Random.Chooser State) (start : State)
    (elapsed : Float) :
    (solver.runWalk kind chooser start (formula.rename names)).outcome elapsed =
      mapBoth (SolverFault.rename names) (Outcome.rename names)
        ((solver.runWalk kind chooser start formula).outcome elapsed) := by
  unfold runWalk
  rw [budget_rename]
  cases solver.budget kind formula with
  | error fault => rfl
  | ok budget =>
      dsimp only
      rw [RandomWalk.solve_rename]
      cases RandomWalk.solve chooser start ((budget.quantity?.map Quantity.ceiling).getD 0) formula with
      | emptyClause => rfl
      | satisfied environment flips => rfl
      | exhausted flips =>
          simp only [RandomWalk.Answer.rename]
          split <;> rfl

/-- Whatever the settings, the budget and the choices, a run on renamed variables is the renamed run. -/
theorem runs_commute_with_renaming (elapsed : Float) :
    (solver.runTwoSat kind (formula.rename names)).outcome elapsed =
        mapBoth (SolverFault.rename names) (Outcome.rename names)
          ((solver.runTwoSat kind formula).outcome elapsed) ∧
      (solver.runDpll kind (formula.rename names)).outcome elapsed =
        mapBoth (SolverFault.rename names) (Outcome.rename names)
          ((solver.runDpll kind formula).outcome elapsed) ∧
      ∀ {State : Type} (chooser : Random.Chooser State) (start : State),
        (solver.runWalk kind chooser start (formula.rename names)).outcome elapsed =
          mapBoth (SolverFault.rename names) (Outcome.rename names)
            ((solver.runWalk kind chooser start formula).outcome elapsed) :=
  ⟨outcome_runTwoSat_rename names solver kind formula elapsed,
    outcome_runDpll_rename names solver kind formula elapsed,
    fun chooser start => outcome_runWalk_rename names solver kind formula chooser start elapsed⟩

end Solver

end Clausal
