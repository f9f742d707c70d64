import Clausal.Proofs.Dpll.Descent

/-!
Completed assignments. What a search asserts satisfies the formula by itself, whatever the other variables
are, and completion only adds bindings behind it.
-/

set_option autoImplicit false

namespace Clausal

namespace Dpll

theorem solve_true (formula : Formula) :
    solve true formula =
      { solve false formula with
        environment := (solve false formula).environment.map (·.completeWith formula.atoms) } := by
  unfold solve
  split
  · rfl
  · simp

end Dpll

namespace Solver

variable {partly fully : Solver} {kind : SolverKind} {formula : Formula}

theorem statistics_runDpll_eq
    (sameName : partly.property kind "solver_name" = fully.property kind "solver_name")
    (sameCounters : (Dpll.solve (partly.property kind "complete_assignment").isTruthy formula).counters =
      (Dpll.solve (fully.property kind "complete_assignment").isTruthy formula).counters) :
    (partly.runDpll kind formula).statistics = (fully.runDpll kind formula).statistics := by
  simp only [runDpll, freshStatistics, sameName, sameCounters]

/-- What a run asserts satisfies the formula however the variables are valued that it leaves open. A run of
a solver that differs in that it completes assignments comes to the same verdict with the same counts, and
to the same bindings with the open variables of the formula behind them, all false, in the order in which
they first appear. -/
theorem completed_run_extends_implicant (partly fully : Solver) (kind : SolverKind) (entropy : Int)
    (formula : Formula) (elapsed later : Float) (algorithm : kind.algorithm = .backtracking)
    (leaves : (partly.property kind "complete_assignment").isTruthy = false)
    (completes : (fully.property kind "complete_assignment").isTruthy = true)
    (sameName : partly.property kind "solver_name" = fully.property kind "solver_name")
    (satisfiable : formula.Satisfiable) :
    ∃ found completed environment,
      (partly.run kind entropy formula).outcome elapsed = .ok found ∧
      (fully.run kind entropy formula).outcome later = .ok completed ∧
      found.status = .satisfiable ∧ completed.status = .satisfiable ∧
      (fully.run kind entropy formula).statistics = (partly.run kind entropy formula).statistics ∧
      found.environment = some environment ∧ environment.Decided ∧
      (∀ valuation, environment.Admits valuation → formula.Holds valuation) ∧
      completed.environment.map Environment.bindings =
        some (environment.bindings ++
          (formula.atoms.filter (· ∉ environment.atoms)).map (·, Truth.no)) := by
  rw [run_of_backtracking partly entropy formula algorithm,
    run_of_backtracking fully entropy formula algorithm]
  obtain ⟨found, ran, verdict⟩ := verdict_runDpll partly kind formula elapsed
  obtain ⟨completed, ranToo, verdictToo⟩ := verdict_runDpll fully kind formula later
  have succeeded := verdict.satisfiable_iff.mpr satisfiable
  have succeededToo := verdictToo.satisfiable_iff.mpr satisfiable
  obtain ⟨environment, shown, answer⟩ := exists_found_of_satisfiable ran succeeded
  obtain ⟨extended, shownToo, answerToo⟩ := exists_found_of_satisfiable ranToo succeededToo
  rw [leaves] at answer
  rw [completes, Dpll.solve_true, answer] at answerToo
  cases answerToo
  have solves := (Dpll.solve_sound answer).1
  refine ⟨found, completed, environment, ran, ranToo, succeeded, succeededToo, ?_, shown,
    solves.decided, ?_, ?_⟩
  · apply statistics_runDpll_eq sameName.symm
    rw [leaves, completes, Dpll.solve_true]
  · intro valuation admits
    exact admits.holds_of_satisfies solves.satisfies
  · rw [shownToo, Option.map_some, Environment.bindings_completeWith _ formula.nodup_atoms]

/-- The variable in the middle stays open, and completion puts it last. -/
theorem completed_run_extends_implicant_open :
    let x : Variable := ⟨"x"⟩
    let y : Variable := ⟨"y"⟩
    let z : Variable := ⟨"z"⟩
    let formula : Formula :=
      ⟨[⟨[⟨x, true⟩, ⟨y, true⟩], by decide⟩, ⟨[⟨x, false⟩, ⟨z, true⟩], by decide⟩]⟩
    let kind : SolverKind := ⟨.backtracking, "dpll", none, true⟩
    let partly : Solver :=
      ⟨Registry.backtrackingKind, [("complete_assignment", .bool false)], .map []⟩
    let fully : Solver :=
      ⟨Registry.backtrackingKind, [("complete_assignment", .bool true)], .map []⟩
    kind.algorithm = .backtracking ∧ formula.Satisfiable ∧
      (partly.property kind "complete_assignment").isTruthy = false ∧
      (fully.property kind "complete_assignment").isTruthy = true ∧
      partly.property kind "solver_name" = fully.property kind "solver_name" ∧
      ∃ found completed environment, (partly.run kind 0 formula).outcome 0 = .ok found ∧
        (fully.run kind 0 formula).outcome 1 = .ok completed ∧
        found.environment = some environment ∧ environment.bindings = [(x, .yes), (z, .yes)] ∧
        (∀ valuation, environment.Admits valuation → formula.Holds valuation) ∧
        completed.environment.map Environment.bindings = some [(x, .yes), (z, .yes), (y, .no)] := by
  intro x y z formula kind partly fully
  have satisfiable : formula.Satisfiable := ⟨fun _ => true, by decide⟩
  obtain ⟨found, completed, environment, ran, ranToo, _, _, _, shown, _, implicant, extended⟩ :=
    completed_run_extends_implicant partly fully kind 0 formula 0 1 rfl rfl rfl rfl satisfiable
  have solved : (Dpll.solve false formula).environment = some ⟨[(x, .yes), (z, .yes)], by decide⟩ := by
    rw [Dpll.solve_eq_descend]
    cbv
  cases ran
  cases shown.symm.trans solved
  exact ⟨rfl, satisfiable, rfl, rfl, rfl, _, completed, _, rfl, ranToo, solved, rfl, implicant, extended⟩

end Solver

end Clausal
