import Clausal.Proofs.Dpll.Search
import Clausal.Proofs.Verdict
import Clausal.Solver

/-!
Runs of the backtracking search: they never fail, and they decide every formula.
-/

set_option autoImplicit false

namespace Clausal

/-- The statistics of the outcome record the counts of a search. -/
structure Outcome.Records (outcome : Outcome) (counters : Dpll.Counters) : Prop where
  decisions : Assoc.get? "decisions" outcome.statistics = some (.int counters.decisions)
  propagations : Assoc.get? "propagations" outcome.statistics = some (.int counters.propagations)
  backtracks : Assoc.get? "backtracks" outcome.statistics = some (.int counters.backtracks)

theorem Outcome.Records.unique {outcome : Outcome} {left right : Dpll.Counters}
    (first : outcome.Records left) (second : outcome.Records right) : left = right := by
  obtain ⟨leftDecisions, leftPropagations, leftBacktracks⟩ := left
  obtain ⟨rightDecisions, rightPropagations, rightBacktracks⟩ := right
  have decisions := first.decisions.symm.trans second.decisions
  have propagations := first.propagations.symm.trans second.propagations
  have backtracks := first.backtracks.symm.trans second.backtracks
  simp only [Option.some.injEq, Datum.int.injEq] at decisions propagations backtracks
  simp only [Dpll.Counters.mk.injEq]
  omega

namespace Solver

variable {solver : Solver} {kind : SolverKind} {formula : Formula}

/-- A run ends with an outcome that shows what the search found. -/
theorem outcome_runDpll (solver : Solver) (kind : SolverKind) (formula : Formula) (elapsed : Float) :
    ∃ outcome, (solver.runDpll kind formula).outcome elapsed = .ok outcome ∧
      outcome.environment =
        (Dpll.solve (solver.property kind "complete_assignment").isTruthy formula).environment ∧
      outcome.status = if outcome.environment.isSome then .satisfiable else .unsatisfiable :=
  ⟨_, rfl, rfl, rfl⟩

theorem exists_found_of_satisfiable {elapsed : Float} {outcome : Outcome}
    (ran : (solver.runDpll kind formula).outcome elapsed = .ok outcome)
    (satisfiable : outcome.status = .satisfiable) :
    ∃ environment, outcome.environment = some environment ∧
      (Dpll.solve (solver.property kind "complete_assignment").isTruthy formula).environment =
        some environment := by
  obtain ⟨same, succeeded, found, status⟩ := outcome_runDpll solver kind formula elapsed
  cases ran.symm.trans succeeded
  cases answer : outcome.environment with
  | none =>
      rw [status, answer] at satisfiable
      cases satisfiable
  | some environment => exact ⟨environment, rfl, found.symm.trans answer⟩

theorem not_found_of_unsatisfiable {elapsed : Float} {outcome : Outcome}
    (ran : (solver.runDpll kind formula).outcome elapsed = .ok outcome)
    (unsatisfiable : outcome.status = .unsatisfiable) :
    (Dpll.solve (solver.property kind "complete_assignment").isTruthy formula).environment = none := by
  obtain ⟨same, succeeded, found, status⟩ := outcome_runDpll solver kind formula elapsed
  cases ran.symm.trans succeeded
  cases answer : outcome.environment with
  | none => exact found.symm.trans answer
  | some environment =>
      rw [status, answer] at unsatisfiable
      cases unsatisfiable

theorem records_runDpll {elapsed : Float} {outcome : Outcome}
    (ran : (solver.runDpll kind formula).outcome elapsed = .ok outcome) :
    outcome.Records
      (Dpll.solve (solver.property kind "complete_assignment").isTruthy formula).counters := by
  cases ran
  constructor <;> simp [Run.statisticsAfter, runDpll, freshStatistics, Assoc.get?]

theorem run_of_backtracking (solver : Solver) (entropy : Int) (formula : Formula)
    (algorithm : kind.algorithm = .backtracking) :
    solver.run kind entropy formula = solver.runDpll kind formula := by
  simp only [run, algorithm]

theorem verdict_runDpll (solver : Solver) (kind : SolverKind) (formula : Formula) (elapsed : Float) :
    ∃ outcome, (solver.runDpll kind formula).outcome elapsed = .ok outcome ∧
      formula.Verdict outcome.status := by
  obtain ⟨outcome, ran, found, status⟩ := outcome_runDpll solver kind formula elapsed
  refine ⟨outcome, ran, ?_⟩
  rw [status]
  cases answer : outcome.environment with
  | none => exact .unsatisfiable (Dpll.solve_complete (found.symm.trans answer))
  | some environment =>
      have solves := (Dpll.solve_sound (found.symm.trans answer)).1
      exact .satisfiable (Environment.satisfiable_of_satisfies solves.satisfies)

/-- What a run finds is a solution. -/
theorem solves_of_runDpll {elapsed : Float} {outcome : Outcome}
    (ran : (solver.runDpll kind formula).outcome elapsed = .ok outcome)
    (satisfiable : outcome.status = .satisfiable) :
    ∃ environment, outcome.environment = some environment ∧ environment.Solves formula := by
  obtain ⟨environment, shown, found⟩ := exists_found_of_satisfiable ran satisfiable
  exact ⟨environment, shown, (Dpll.solve_sound found).1⟩

/-- A run decides every formula. The environment that it finds is decided and satisfies the formula;
when assignments are to be complete, it binds exactly the variables of the formula. -/
theorem backtracking_run_decides (solver : Solver) (kind : SolverKind) (entropy : Int)
    (formula : Formula) (elapsed : Float) (algorithm : kind.algorithm = .backtracking) :
    ∃ outcome, (solver.run kind entropy formula).outcome elapsed = .ok outcome ∧
      (outcome.status = .satisfiable ↔ formula.Satisfiable) ∧
      (outcome.status = .unsatisfiable ↔ ¬ formula.Satisfiable) ∧
      (outcome.status = .satisfiable → ∃ environment, outcome.environment = some environment ∧
        environment.satisfies formula = true ∧ environment.Decided ∧
        ((solver.property kind "complete_assignment").isTruthy = true →
          environment.atoms.Nodup ∧ environment.atoms.Perm formula.atoms)) := by
  have ran : (solver.run kind entropy formula).outcome elapsed =
      (solver.runDpll kind formula).outcome elapsed := by
    simp only [run, algorithm]
  obtain ⟨outcome, succeeded, verdict⟩ := verdict_runDpll solver kind formula elapsed
  obtain ⟨same, succeededToo, found, status⟩ := outcome_runDpll solver kind formula elapsed
  cases succeeded.symm.trans succeededToo
  refine ⟨outcome, ran.trans succeeded, verdict.satisfiable_iff, verdict.unsatisfiable_iff, ?_⟩
  intro satisfiable
  rw [status] at satisfiable
  cases answer : outcome.environment with
  | none =>
      rw [answer] at satisfiable
      cases satisfiable
  | some environment =>
      obtain ⟨solves, complete⟩ := Dpll.solve_sound (found.symm.trans answer)
      exact ⟨environment, rfl, solves.satisfies, solves.decided,
        fun wanted => ⟨environment.nodup_atoms, complete wanted⟩⟩

/-- Two clauses, one of three literals; all variables come to be bound. -/
theorem backtracking_run_decides_chain :
    let x : Variable := ⟨"x"⟩
    let y : Variable := ⟨"y"⟩
    let z : Variable := ⟨"z"⟩
    let formula : Formula :=
      ⟨[⟨[⟨x, true⟩, ⟨y, false⟩, ⟨z, true⟩], by decide⟩, ⟨[⟨x, false⟩, ⟨y, false⟩], by decide⟩]⟩
    let kind : SolverKind := ⟨.backtracking, "dpll", none, true⟩
    let solver : Solver :=
      ⟨Registry.backtrackingKind, [("complete_assignment", .bool true)], .map []⟩
    kind.algorithm = .backtracking ∧
      ∃ outcome environment, (solver.run kind 0 formula).outcome 0 = .ok outcome ∧
        outcome.environment = some environment ∧ environment.satisfies formula = true ∧
        environment.atoms.Perm [x, y, z] := by
  intro x y z formula kind solver
  obtain ⟨outcome, succeeded, satisfiable, _, found⟩ :=
    backtracking_run_decides solver kind 0 formula 0 rfl
  have holds : formula.Holds fun atom => atom = x := by decide
  obtain ⟨environment, same, satisfied, _, complete⟩ := found (satisfiable.mpr ⟨_, holds⟩)
  exact ⟨rfl, outcome, environment, succeeded, same, satisfied, (complete rfl).2⟩

end Solver

end Clausal
