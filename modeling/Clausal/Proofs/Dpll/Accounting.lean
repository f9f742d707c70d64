import Mathlib.Algebra.Group.Nat.Defs
import Mathlib.Data.List.Perm.Subperm
import Clausal.Proofs.Dpll.Run

/-!
What a search counts. The stack is as high as the decisions exceed the backtracks, so that the backtracks
of a search that fails are one more than its decisions. Every move takes a variable out of the formula for
good, so that there are fewer moves than valuations.
-/

set_option autoImplicit false

namespace Clausal

namespace Formula

variable {formula residual : Formula} {literal : Literal}

theorem atoms_reduce_subset (succeeded : formula.reduce literal = some residual) :
    residual.atoms ⊆ formula.atoms := by
  intro atom occurs
  obtain ⟨shorter, member, other, inside, rfl⟩ := mem_atoms_iff.mp occurs
  obtain ⟨clause, original, _, rfl⟩ := (mem_reduce_iff succeeded).mp member
  exact atom_mem_atoms original (Clause.mem_without.mp inside).1

theorem atom_not_mem_reduce (succeeded : formula.reduce literal = some residual) :
    literal.atom ∉ residual.atoms := by
  intro occurs
  obtain ⟨shorter, member, other, inside, same⟩ := mem_atoms_iff.mp occurs
  obtain ⟨absent, negationAbsent⟩ := not_mem_of_reduce succeeded member
  rcases Literal.eq_or_eq_negate same with rfl | rfl
  · exact absent inside
  · exact negationAbsent inside

theorem length_atoms_reduce_lt (occurs : literal.atom ∈ formula.atoms)
    (succeeded : formula.reduce literal = some residual) :
    residual.atoms.length < formula.atoms.length := by
  have distinct : (literal.atom :: residual.atoms).Nodup :=
    List.nodup_cons.mpr ⟨atom_not_mem_reduce succeeded, residual.nodup_atoms⟩
  have included : literal.atom :: residual.atoms ⊆ formula.atoms :=
    List.cons_subset.mpr ⟨occurs, atoms_reduce_subset succeeded⟩
  exact (List.subperm_of_subset distinct included).length_le

end Formula

namespace Dpll

variable {counters : Counters} {answer : Answer} {frame : Frame} {remaining : Formula}
  {environment : Environment} {height : Nat}

theorem hasEmptyClause_enter (entered : frame.enter = some (remaining, environment)) :
    remaining.hasEmptyClause = frame.formula.hasEmptyClause := by
  rcases Frame.enter_cases entered with ⟨_, rfl, _⟩ | ⟨literal, _, succeeded, _⟩
  · rfl
  · exact Formula.hasEmptyClause_reduce succeeded

/-- Assertions empty no clause: a search that starts without empty clauses always finds a literal to choose. -/
theorem nextMove_ne_stuck (full : frame.formula.hasEmptyClause = false)
    (entered : frame.enter = some (remaining, environment)) : nextMove remaining ≠ .stuck := by
  intro stuck
  have fits := nextMove_fits remaining
  rw [stuck] at fits
  have empty := (hasEmptyClause_enter entered).symm.trans fits
  rw [full] at empty
  cases empty

/-! The height of the stack. -/

/-- The counts with which a search ends on a stack of some height. Each decision has raised the stack by one
and each backtrack has lowered it by one; the search ends with a stack that is empty if nothing was found. -/
def Balanced (counters : Counters) (height : Nat) (answer : Answer) : Prop :=
  ∃ left, (left = 0 ↔ answer.environment = none) ∧
    answer.counters.backtracks + counters.decisions + left =
      answer.counters.decisions + counters.backtracks + height

namespace Balanced

theorem exhausted (counters : Counters) : Balanced counters 0 ⟨none, counters⟩ :=
  ⟨0, by simp, by simp [Nat.add_comm]⟩

theorem found (counters : Counters) (environment : Environment) (height : Nat) :
    Balanced counters (height + 1) ⟨some environment, counters⟩ :=
  ⟨height + 1, by simp, by simp [Nat.add_comm]⟩

theorem falsified
    (later : Balanced { counters with backtracks := counters.backtracks + 1 } height answer) :
    Balanced counters (height + 1) answer := by
  obtain ⟨left, ending, balance⟩ := later
  refine ⟨left, ending, ?_⟩
  dsimp only at balance
  omega

theorem forced
    (later : Balanced { counters with propagations := counters.propagations + 1 } height answer) :
    Balanced counters height answer := later

theorem choice
    (later : Balanced { counters with decisions := counters.decisions + 1 } (height + 1) answer) :
    Balanced counters height answer := by
  obtain ⟨left, ending, balance⟩ := later
  refine ⟨left, ending, ?_⟩
  dsimp only at balance
  omega

end Balanced

theorem search_balanced {stack : List Frame}
    (full : ∀ frame ∈ stack, frame.formula.hasEmptyClause = false) :
    Balanced counters stack.length (search counters stack) := by
  fun_induction search counters stack with
  | case1 counters => exact .exhausted counters
  | case2 counters frame rest falsified ih =>
      exact .falsified (ih (List.forall_mem_cons.mp full).2)
  | case3 counters frame rest remaining environment entered done => exact .found counters environment _
  | case4 counters frame rest remaining environment entered stuck ih =>
      exact absurd stuck (nextMove_ne_stuck (List.forall_mem_cons.mp full).1 entered)
  | case5 counters frame rest remaining environment entered literal forced ih =>
      obtain ⟨first, others⟩ := List.forall_mem_cons.mp full
      have remainingFull := (hasEmptyClause_enter entered).trans first
      exact .forced (ih (List.forall_mem_cons.mpr ⟨remainingFull, others⟩))
  | case6 counters frame rest remaining environment entered literal chosen ih =>
      obtain ⟨first, others⟩ := List.forall_mem_cons.mp full
      have remainingFull := (hasEmptyClause_enter entered).trans first
      exact .choice (ih (List.forall_mem_cons.mpr
        ⟨remainingFull, List.forall_mem_cons.mpr ⟨remainingFull, others⟩⟩))

/-! The number of moves. -/

def Counters.moves (counters : Counters) : Nat := counters.decisions + counters.propagations

/-- The most moves that there can be below a state. -/
def Frame.capacity (frame : Frame) : Nat :=
  match frame.pending with
  | none => 2 ^ frame.formula.atoms.length - 1
  | some _ => 2 ^ (frame.formula.atoms.length - 1) - 1

def stackCapacity : List Frame → Nat
  | [] => 0
  | frame :: rest => frame.capacity + stackCapacity rest

theorem Frame.capacity_enter (entered : frame.enter = some (remaining, environment)) :
    2 ^ remaining.atoms.length - 1 ≤ frame.capacity := by
  rcases enter_cases entered with ⟨pending, rfl, _⟩ | ⟨literal, pending, succeeded, _⟩
  · simp only [capacity, pending, Nat.le_refl]
  · have fewer := Formula.length_atoms_reduce_lt literal.2.atom_mem succeeded
    have powers : 2 ^ remaining.atoms.length ≤ 2 ^ (frame.formula.atoms.length - 1) :=
      Nat.pow_le_pow_right (by decide) (by omega)
    simp only [capacity, pending]
    omega

/-- A move and what can follow both of the literals that it may assert. -/
theorem capacity_of_touches {formula : Formula} {literal : Literal} (touches : Touches formula literal) :
    1 + 2 * (2 ^ (formula.atoms.length - 1) - 1) = 2 ^ formula.atoms.length - 1 := by
  have inhabited : 0 < formula.atoms.length := List.length_pos_of_mem touches.atom_mem
  obtain ⟨others, count⟩ := Nat.exists_eq_add_of_lt inhabited
  have positive : 0 < 2 ^ others := Nat.pow_pos (by decide)
  simp only [Nat.zero_add] at count
  rw [count, Nat.add_sub_cancel, Nat.pow_succ]
  omega

theorem moves_search_le (counters : Counters) (stack : List Frame) :
    (search counters stack).counters.moves ≤ counters.moves + stackCapacity stack := by
  fun_induction search counters stack with
  | case1 counters => exact Nat.le_add_right _ _
  | case2 counters frame rest falsified ih =>
      simp only [stackCapacity, Counters.moves] at ih ⊢
      omega
  | case3 counters frame rest remaining environment entered done => exact Nat.le_add_right _ _
  | case4 counters frame rest remaining environment entered stuck ih =>
      simp only [stackCapacity]
      omega
  | case5 counters frame rest remaining environment entered literal forced ih =>
      have room := Frame.capacity_enter entered
      have branches := capacity_of_touches literal.2
      simp only [stackCapacity, Counters.moves, Frame.capacity] at ih room ⊢
      omega
  | case6 counters frame rest remaining environment entered literal chosen ih =>
      have room := Frame.capacity_enter entered
      have branches := capacity_of_touches literal.2
      simp only [stackCapacity, Counters.moves, Frame.capacity] at ih room ⊢
      omega

theorem solve_balanced (complete : Bool) {formula : Formula} (full : formula.hasEmptyClause = false) :
    Balanced {} 1 (solve complete formula) := by
  obtain ⟨left, ending, balance⟩ : Balanced {} 1 (search {} [⟨formula, .empty, none⟩]) :=
    search_balanced (List.forall_mem_singleton.mpr full)
  rw [solve, full]
  exact ⟨left, ending.trans Option.map_eq_none_iff.symm, balance⟩

theorem moves_solve_le (complete : Bool) (formula : Formula) :
    (solve complete formula).counters.moves ≤ 2 ^ formula.atoms.length - 1 := by
  unfold solve
  split
  · exact Nat.zero_le _
  · have bound := moves_search_le {} [⟨formula, .empty, none⟩]
    simpa [stackCapacity, Frame.capacity, Counters.moves] using bound

end Dpll

namespace Solver

/-- The counts of a run. Nothing is counted for a formula with an empty clause. On every other formula a
run that fails has one backtrack more than decisions, one that succeeds has at most as many, and
propagations and decisions together are fewer than the valuations of the formula's variables. -/
theorem backtracking_run_accounts (solver : Solver) (kind : SolverKind) (entropy : Int)
    (formula : Formula) (elapsed : Float) (algorithm : kind.algorithm = .backtracking) :
    ∃ outcome counters, (solver.run kind entropy formula).outcome elapsed = .ok outcome ∧
      outcome.Records counters ∧
      (formula.hasEmptyClause = true → counters = { decisions := 0, propagations := 0, backtracks := 0 }) ∧
      (formula.hasEmptyClause = false →
        (outcome.status = .unsatisfiable → counters.backtracks = counters.decisions + 1) ∧
        (outcome.status = .satisfiable → counters.backtracks ≤ counters.decisions) ∧
        counters.decisions + counters.propagations ≤ 2 ^ formula.atoms.length - 1) := by
  rw [run_of_backtracking solver entropy formula algorithm]
  obtain ⟨outcome, succeeded, found, status⟩ := outcome_runDpll solver kind formula elapsed
  refine ⟨outcome, _, succeeded, records_runDpll succeeded, ?_, ?_⟩
  · intro empty
    rw [Dpll.solve, if_pos empty]
  · intro full
    obtain ⟨left, ending, balance⟩ :=
      Dpll.solve_balanced (solver.property kind "complete_assignment").isTruthy full
    refine ⟨?_, ?_, Dpll.moves_solve_le _ formula⟩
    · intro unsatisfiable
      have lowest := ending.mpr (not_found_of_unsatisfiable succeeded unsatisfiable)
      simp only [Nat.add_zero] at balance
      omega
    · intro satisfiable
      obtain ⟨environment, _, answer⟩ := exists_found_of_satisfiable succeeded satisfiable
      have higher : left ≠ 0 := fun lowest => by cases answer.symm.trans (ending.mp lowest)
      simp only [Nat.add_zero] at balance
      omega

/-- No valuation of two variables is left. Both literals of the decision fail after a propagation, and no
search over two variables makes more moves. -/
theorem backtracking_run_accounts_square :
    let x : Variable := ⟨"x"⟩
    let y : Variable := ⟨"y"⟩
    let formula : Formula :=
      ⟨[⟨[⟨x, true⟩, ⟨y, true⟩], by decide⟩, ⟨[⟨x, true⟩, ⟨y, false⟩], by decide⟩,
        ⟨[⟨x, false⟩, ⟨y, true⟩], by decide⟩, ⟨[⟨x, false⟩, ⟨y, false⟩], by decide⟩]⟩
    let kind : SolverKind := ⟨.backtracking, "dpll", none, true⟩
    let solver : Solver :=
      ⟨Registry.backtrackingKind, [("complete_assignment", .bool true)], .map []⟩
    kind.algorithm = .backtracking ∧ formula.hasEmptyClause = false ∧
      ∃ outcome counters, (solver.run kind 0 formula).outcome 0 = .ok outcome ∧
        outcome.status = .unsatisfiable ∧ outcome.Records counters ∧ counters = ⟨1, 2, 2⟩ ∧
        counters.backtracks = counters.decisions + 1 ∧
        counters.decisions + counters.propagations ≤ 2 ^ formula.atoms.length - 1 := by
  intro x y formula kind solver
  have full : formula.hasEmptyClause = false := by decide
  obtain ⟨outcome, counters, ran, records, _, accounts⟩ :=
    backtracking_run_accounts solver kind 0 formula 0 rfl
  obtain ⟨failed, _, bound⟩ := accounts full
  have solved : Dpll.solve (solver.property kind "complete_assignment").isTruthy formula =
      ⟨none, ⟨1, 2, 2⟩⟩ := by
    rw [Dpll.solve, full]
    cbv
  obtain ⟨same, ranToo, found, status⟩ := outcome_runDpll solver kind formula 0
  cases ran.symm.trans ranToo
  rw [solved] at found
  rw [found] at status
  have counted := records.unique (records_runDpll ranToo)
  rw [solved] at counted
  exact ⟨rfl, full, outcome, counters, ran, status, records, counted, failed status, bound⟩

end Solver

end Clausal
