import Clausal.Proofs.TwoSat.Decision
import Clausal.Proofs.Verdict
import Clausal.Solver

/-!
Runs of the decision by components: what they refuse, what they answer, and what they report.
-/

set_option autoImplicit false

namespace Clausal

/-- How an answer shows in an outcome. -/
def TwoSat.Answer.ShownBy (outcome : Outcome) : TwoSat.Answer → Prop
  | .emptyClause => outcome.status = .unsatisfiable
  | .conflict _ atom =>
      outcome.status = .unsatisfiable ∧
        Assoc.get? "conflict_variable" outcome.statistics = some (.text atom.name)
  | .satisfied _ environment =>
      outcome.status = .satisfiable ∧ outcome.environment = some environment

theorem TwoSat.Answer.Correct.verdict {formula : Formula} {answer : TwoSat.Answer} {outcome : Outcome}
    (correct : answer.Correct formula) (shown : answer.ShownBy outcome) :
    formula.Verdict outcome.status := by
  cases correct with
  | emptyClause empty =>
      have status : outcome.status = .unsatisfiable := shown
      rw [status]
      exact .unsatisfiable (Formula.not_satisfiable_of_hasEmptyClause empty)
  | conflict _ _ conflicting _ =>
      rw [shown.1]
      exact .unsatisfiable (Formula.not_satisfiable_of_conflicting conflicting)
  | satisfied _ _ satisfied =>
      rw [shown.1]
      exact .satisfiable (Environment.satisfiable_of_satisfies satisfied)

namespace Solver

variable {solver : Solver} {kind : SolverKind} {formula : Formula}

theorem validate_eq (limit : solver.property kind "max_width" = .int 2) (formula : Formula) :
    solver.validate kind formula = (TwoSat.validate (.whole (2 : Nat)) formula).mapError .clause := by
  unfold validate
  rw [limit]
  rfl

/-- A clause of more than two literals is refused, whatever the other clauses are. -/
theorem outcome_runTwoSat_of_wide (limit : solver.property kind "max_width" = .int 2)
    {clause : Clause} (member : clause ∈ formula.clauses) (wide : 2 < clause.size) (elapsed : Float) :
    ∃ fault, (solver.runTwoSat kind formula).outcome elapsed = .error (.clause fault) := by
  rcases TwoSat.validate_whole 2 formula with ⟨_, narrow⟩ | ⟨fault, refused, _⟩
  · have fits := narrow clause member
    omega
  · have rejected : solver.validate kind formula = .error (.clause fault) := by
      rw [validate_eq limit, refused]
      rfl
    refine ⟨fault, ?_⟩
    unfold runTwoSat
    simp only [rejected]
    rfl

/-- On clauses of at most two literals a run shows a right answer. -/
theorem outcome_runTwoSat_of_narrow (limit : solver.property kind "max_width" = .int 2)
    (narrow : ∀ clause ∈ formula.clauses, clause.size ≤ 2) (elapsed : Float) :
    ∃ (answer : TwoSat.Answer) (outcome : Outcome),
      (solver.runTwoSat kind formula).outcome elapsed = .ok outcome ∧
        answer.Correct formula ∧ answer.ShownBy outcome := by
  have accepted : solver.validate kind formula = .ok () := by
    rw [validate_eq limit]
    rcases TwoSat.validate_whole 2 formula with ⟨accepted, _⟩ | ⟨_, _, clause, member, wide⟩
    · rw [accepted]
      rfl
    · have fits := narrow clause member
      omega
  have entrance : TwoSat.validate (.whole formula.width) formula = .ok () := by
    rcases TwoSat.validate_whole formula.width formula with ⟨accepted, _⟩ | ⟨_, _, clause, member, wide⟩
    · exact accepted
    · have fits := Formula.size_le_width member
      omega
  obtain ⟨answer, solved, correct⟩ := TwoSat.solve_correct entrance narrow
  unfold runTwoSat
  simp only [accepted, solved]
  cases answer with
  | emptyClause => exact ⟨_, _, rfl, correct, rfl⟩
  | conflict extent atom => exact ⟨_, _, rfl, correct, rfl, rfl⟩
  | satisfied extent environment => exact ⟨_, _, rfl, correct, rfl, rfl⟩

theorem verdict_runTwoSat (limit : solver.property kind "max_width" = .int 2)
    (narrow : ∀ clause ∈ formula.clauses, clause.size ≤ 2) (elapsed : Float) :
    ∃ outcome, (solver.runTwoSat kind formula).outcome elapsed = .ok outcome ∧
      formula.Verdict outcome.status := by
  obtain ⟨answer, outcome, ran, correct, shown⟩ := outcome_runTwoSat_of_narrow limit narrow elapsed
  exact ⟨outcome, ran, correct.verdict shown⟩

/-- Nothing but a clause of more than two literals is refused. -/
theorem outcome_runTwoSat_refused_iff (limit : solver.property kind "max_width" = .int 2)
    (formula : Formula) (elapsed : Float) :
    (∃ fault, (solver.runTwoSat kind formula).outcome elapsed = .error (.clause fault)) ↔
      ∃ clause ∈ formula.clauses, 2 < clause.size := by
  constructor
  · intro refusal
    obtain ⟨fault, refused⟩ := refusal
    refine Classical.byContradiction fun none => ?_
    have narrow : ∀ clause ∈ formula.clauses, clause.size ≤ 2 := fun clause member =>
      Nat.le_of_not_lt fun wide => none ⟨clause, member, wide⟩
    obtain ⟨outcome, succeeded, _⟩ := verdict_runTwoSat limit narrow elapsed
    rw [succeeded] at refused
    cases refused
  · intro exceeded
    obtain ⟨clause, member, wide⟩ := exceeded
    exact outcome_runTwoSat_of_wide limit member wide elapsed

/-- What a run finds is a solution, also under another limit. -/
theorem solves_of_runTwoSat {elapsed : Float} {outcome : Outcome}
    (ran : (solver.runTwoSat kind formula).outcome elapsed = .ok outcome)
    (satisfiable : outcome.status = .satisfiable) :
    ∃ environment, outcome.environment = some environment ∧ environment.Solves formula := by
  unfold runTwoSat at ran
  split at ran
  · cases ran
  · split at ran
    · cases ran
    · cases ran
      cases satisfiable
    · cases ran
      cases satisfiable
    · next extent environment solved =>
        cases ran
        cases TwoSat.correct_of_solve solved with
        | satisfied atoms decided satisfied =>
            exact ⟨environment, rfl, satisfied, decided, fun atom member => atoms ▸ member⟩

/-- A run refuses exactly the formulas with a clause of more than two literals and decides all others.
The environment that it finds is total, in the order of the variables, and satisfies the formula; the
variable that it reports is the first one that conflicts. -/
theorem implication_run_decides (solver : Solver) (kind : SolverKind) (entropy : Int)
    (formula : Formula) (elapsed : Float) (algorithm : kind.algorithm = .implication)
    (limit : solver.property kind "max_width" = .int 2) :
    let result := (solver.run kind entropy formula).outcome elapsed
    ((∃ fault, result = .error (.clause fault)) ↔ ∃ clause ∈ formula.clauses, 2 < clause.size) ∧
      ((∀ clause ∈ formula.clauses, clause.size ≤ 2) → ∃ outcome, result = .ok outcome ∧
        (outcome.status = .satisfiable ↔ formula.Satisfiable) ∧
        (outcome.status = .unsatisfiable ↔ ¬ formula.Satisfiable) ∧
        (outcome.status = .satisfiable → ∃ environment, outcome.environment = some environment ∧
          environment.atoms = formula.atoms ∧ environment.Decided ∧
          environment.satisfies formula = true) ∧
        (outcome.status = .unsatisfiable → formula.hasEmptyClause = false →
          ∃ before atom after, formula.atoms = before ++ atom :: after ∧
            formula.Conflicting atom ∧ (∀ other ∈ before, ¬ formula.Conflicting other) ∧
            Assoc.get? "conflict_variable" outcome.statistics = some (.text atom.name))) := by
  intro result
  have ran : result = (solver.runTwoSat kind formula).outcome elapsed := by
    simp only [result, run, algorithm]
  constructor
  · rw [ran]
    exact outcome_runTwoSat_refused_iff limit formula elapsed
  · intro narrow
    obtain ⟨answer, outcome, succeeded, correct, shown⟩ :=
      outcome_runTwoSat_of_narrow limit narrow elapsed
    have verdict := correct.verdict shown
    refine ⟨outcome, ran.trans succeeded, verdict.satisfiable_iff, verdict.unsatisfiable_iff, ?_, ?_⟩
    · intro satisfiable
      cases correct with
      | emptyClause _ => exact Status.noConfusion (satisfiable.symm.trans shown)
      | conflict _ _ _ _ => exact Status.noConfusion (satisfiable.symm.trans shown.1)
      | satisfied atoms decided satisfied => exact ⟨_, shown.2, atoms, decided, satisfied⟩
    · intro unsatisfiable nonempty
      cases correct with
      | emptyClause empty => exact Bool.noConfusion (nonempty.symm.trans empty)
      | conflict _ atoms conflicting first => exact ⟨_, _, _, atoms, conflicting, first, shown.2⟩
      | satisfied _ _ _ => exact Status.noConfusion (unsatisfiable.symm.trans shown.1)

/-- All four clauses over two variables. -/
theorem implication_run_decides_square :
    let x : Variable := ⟨"x"⟩
    let y : Variable := ⟨"y"⟩
    let formula : Formula :=
      ⟨[⟨[⟨x, true⟩, ⟨y, true⟩], by decide⟩, ⟨[⟨x, true⟩, ⟨y, false⟩], by decide⟩,
        ⟨[⟨x, false⟩, ⟨y, true⟩], by decide⟩, ⟨[⟨x, false⟩, ⟨y, false⟩], by decide⟩]⟩
    let kind : SolverKind := ⟨.implication, "2sat", some (.whole 2), true⟩
    let solver : Solver := ⟨Registry.implicationKind, [], .map []⟩
    kind.algorithm = .implication ∧ solver.property kind "max_width" = .int 2 ∧
      ∃ outcome, (solver.run kind 0 formula).outcome 0 = .ok outcome ∧
        outcome.status = .unsatisfiable ∧
        ∃ atom : Variable, Assoc.get? "conflict_variable" outcome.statistics = some (.text atom.name) := by
  intro x y formula kind solver
  obtain ⟨_, decides⟩ := implication_run_decides solver kind 0 formula 0 rfl rfl
  obtain ⟨outcome, succeeded, _, unsatisfiable, _, reported⟩ := decides (by decide)
  have status : outcome.status = .unsatisfiable := by
    refine unsatisfiable.mpr ?_
    intro holding
    obtain ⟨valuation, holds⟩ := holding
    simp only [Formula.Holds, Clause.Holds, Literal.Holds, formula, List.forall_mem_cons,
      List.exists_mem_cons_iff, List.not_mem_nil, false_and, exists_false, or_false] at holds
    cases first : valuation x <;> cases second : valuation y <;> simp_all
  obtain ⟨_, atom, _, _, _, _, named⟩ := reported status (by decide)
  exact ⟨rfl, rfl, outcome, succeeded, status, atom, named⟩

end Solver

end Clausal
