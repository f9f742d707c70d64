import Clausal.Proofs.Dpll.Descent

/-!
Searches without decisions. They follow unit clauses only, so that every binding is forced: a valuation that
satisfies the formula agrees with all of them.
-/

set_option autoImplicit false

namespace Clausal

namespace Dpll

/-- Unit clauses alone lead from a formula and its bindings to the environment found. Each step asserts the
only literal of a clause that is left; at the end no clause is left. -/
inductive Propagates : Nat → Formula → Environment → Environment → Prop where
  | done {formula : Formula} {environment : Environment} :
      formula.clauses = [] → Propagates 0 formula environment environment
  | step {steps : Nat} {formula residual : Formula} {environment found : Environment}
      {clause : Clause} {literal : Literal} :
      clause ∈ formula.clauses → clause.literals = [literal] → formula.reduce literal = some residual →
      Propagates steps residual (environment.assert literal) found →
      Propagates (steps + 1) formula environment found

namespace Propagates

variable {steps : Nat} {formula original : Formula} {environment found : Environment}
  {valuation : Valuation}

/-- A unit clause leaves its literal no choice. -/
theorem admits (propagates : Propagates steps formula environment found)
    (holds : formula.Holds valuation) (admitted : environment.Admits valuation) :
    found.Admits valuation := by
  induction propagates with
  | done _ => exact admitted
  | step member alone succeeded _ ih =>
      have literalHolds := (Clause.holds_iff_of_singleton alone).mp (holds _ member)
      apply ih
      · exact (Formula.holds_reduce_iff succeeded literalHolds).mpr holds
      · exact admitted.assert literalHolds

/-- No variable is asserted twice, so that every step makes a binding of its own. -/
theorem length_bindings (propagates : Propagates steps formula environment found)
    (residual : Residual original formula environment) :
    found.bindings.length = environment.bindings.length + steps := by
  induction propagates with
  | done _ => rfl
  | @step steps formula reduced environment found clause literal member alone succeeded _ ih =>
      have touches : Touches formula literal := ⟨clause, member, .inl (by simp [alone])⟩
      have bound : (environment.assert literal).bindings.length = environment.bindings.length + 1 := by
        rw [Environment.assert, Environment.bindings_put_of_not_mem _ (residual.fresh touches)]
        simp
      rw [ih (residual.assert touches succeeded), bound]
      omega

end Propagates

theorem decisions_le_search (counters : Counters) (stack : List Frame) :
    counters.decisions ≤ (search counters stack).counters.decisions := by
  fun_induction search counters stack with
  | case1 counters => exact Nat.le_refl _
  | case2 counters frame rest falsified ih => exact ih
  | case3 counters frame rest remaining environment entered done => exact Nat.le_refl _
  | case4 counters frame rest remaining environment entered stuck ih => exact ih
  | case5 counters frame rest remaining environment entered literal forced ih => exact ih
  | case6 counters frame rest remaining environment entered literal chosen ih =>
      exact Nat.le_trans (Nat.le_succ _) ih

theorem decisions_lt_of_choice {formula : Formula} {literal : { literal : Literal // Touches formula literal }}
    (counters : Counters) (environment : Environment) (chosen : nextMove formula = .choice literal) :
    counters.decisions < (descend counters formula environment).counters.decisions := by
  rw [← search_singleton, search_cons, chosen]
  exact decisions_le_search { counters with decisions := counters.decisions + 1 } _

theorem propagates_of_descend {formula : Formula} {counters after : Counters}
    {environment found : Environment}
    (descended : descend counters formula environment = ⟨some found, after⟩)
    (undecided : after.decisions = counters.decisions) :
    ∃ steps, Propagates steps formula environment found ∧
      after.propagations = counters.propagations + steps := by
  induction formula using reduction_induction generalizing counters environment with
  | step formula smaller =>
      have fits := nextMove_fits formula
      cases move : nextMove formula with
      | done =>
          rw [descend_eq, move] at descended
          rw [move] at fits
          cases descended
          exact ⟨0, .done fits, rfl⟩
      | stuck =>
          rw [descend_eq, move] at descended
          cases descended
      | forced literal =>
          rw [descend_eq, move] at descended
          rw [move] at fits
          obtain ⟨clause, member, alone⟩ := fits
          dsimp only at descended
          cases succeeded : formula.reduce literal with
          | none =>
              rw [attempt_of_none succeeded] at descended
              cases descended
          | some residual =>
              rw [attempt_of_some succeeded] at descended
              obtain ⟨steps, propagates, counted⟩ :=
                smaller literal residual literal.2 succeeded descended undecided
              refine ⟨steps + 1, .step member alone succeeded propagates, ?_⟩
              rw [counted]
              dsimp only
              omega
      | choice literal =>
          have more := decisions_lt_of_choice counters environment move
          rw [descended, undecided] at more
          exact absurd more (Nat.lt_irrefl _)

theorem propagates_of_solve {formula : Formula} {found : Environment}
    (succeeded : (solve false formula).environment = some found)
    (undecided : (solve false formula).counters.decisions = 0) :
    Propagates (solve false formula).counters.propagations formula .empty found := by
  have same : solve false formula = descend {} formula .empty := by
    rw [solve_eq_descend]
    simp
  rw [same] at succeeded undecided ⊢
  have descended : descend {} formula .empty = ⟨some found, (descend {} formula .empty).counters⟩ := by
    rw [← succeeded]
  obtain ⟨steps, propagates, counted⟩ := propagates_of_descend descended undecided
  rw [counted, Nat.zero_add]
  exact propagates

end Dpll

namespace Solver

/-- A run that leaves open what it need not bind and that succeeds without a decision binds only what is
forced. It makes one binding with each propagation. -/
theorem undecided_run_is_forced (solver : Solver) (kind : SolverKind) (entropy : Int) (formula : Formula)
    (elapsed : Float) (outcome : Outcome) (counters : Dpll.Counters)
    (algorithm : kind.algorithm = .backtracking)
    (partly : (solver.property kind "complete_assignment").isTruthy = false)
    (ran : (solver.run kind entropy formula).outcome elapsed = .ok outcome)
    (satisfiable : outcome.status = .satisfiable) (records : outcome.Records counters)
    (undecided : counters.decisions = 0) :
    ∃ environment, outcome.environment = some environment ∧ environment.Decided ∧
      (∀ valuation, formula.Holds valuation → environment.Admits valuation) ∧
      environment.bindings.length = counters.propagations := by
  rw [run_of_backtracking solver entropy formula algorithm] at ran
  obtain ⟨environment, shown, found⟩ := exists_found_of_satisfiable ran satisfiable
  cases records.unique (records_runDpll ran)
  rw [partly] at found undecided ⊢
  have propagates := Dpll.propagates_of_solve found undecided
  refine ⟨environment, shown, (Dpll.solve_sound found).1.decided, ?_, ?_⟩
  · intro valuation holds
    exact propagates.admits holds (Environment.admits_empty valuation)
  · have counted := propagates.length_bindings (.start formula)
    simpa [Environment.empty] using counted

/-- The second clause is narrowed to a unit by the first; the last variable stays open. -/
theorem undecided_run_is_forced_chain :
    let x : Variable := ⟨"x"⟩
    let y : Variable := ⟨"y"⟩
    let z : Variable := ⟨"z"⟩
    let formula : Formula :=
      ⟨[⟨[⟨x, true⟩], by decide⟩, ⟨[⟨x, false⟩, ⟨y, true⟩], by decide⟩,
        ⟨[⟨y, false⟩, ⟨z, true⟩, ⟨x, true⟩], by decide⟩]⟩
    let kind : SolverKind := ⟨.backtracking, "dpll", none, true⟩
    let solver : Solver :=
      ⟨Registry.backtrackingKind, [("complete_assignment", .bool false)], .map []⟩
    kind.algorithm = .backtracking ∧ (solver.property kind "complete_assignment").isTruthy = false ∧
      ∃ outcome environment, (solver.run kind 0 formula).outcome 0 = .ok outcome ∧
        outcome.status = .satisfiable ∧ outcome.Records ⟨0, 2, 0⟩ ∧
        outcome.environment = some environment ∧
        (∀ valuation, formula.Holds valuation → environment.Admits valuation) ∧
        environment.bindings.length = 2 := by
  intro x y z formula kind solver
  obtain ⟨outcome, ran, found, status⟩ := outcome_runDpll solver kind formula 0
  have records := records_runDpll ran
  have partly : (solver.property kind "complete_assignment").isTruthy = false := rfl
  have descended : Dpll.descend {} formula .empty =
      ⟨some ⟨[(x, .yes), (y, .yes)], by decide⟩, ⟨0, 2, 0⟩⟩ := by
    cbv
  rw [partly, Dpll.solve_eq_descend, descended] at found records
  rw [found] at status
  obtain ⟨environment, shown, _, forced, counted⟩ :=
    undecided_run_is_forced solver kind 0 formula 0 outcome ⟨0, 2, 0⟩ rfl partly ran status records rfl
  exact ⟨rfl, partly, outcome, environment, ran, status, records, shown, forced, counted⟩

end Solver

end Clausal
