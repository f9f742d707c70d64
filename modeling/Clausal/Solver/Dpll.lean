import Clausal.Environment

/-!
Backtracking search with unit propagation. The search always branches on the first smallest clause, so
that unit clauses are propagated before any real decision. The first literal of the clause is tried
first; its negation is tried only if the clause has another literal. Pending states lie on an explicit
stack.
-/

set_option autoImplicit false

namespace Clausal.Dpll

structure Counters where
  decisions : Nat := 0
  propagations : Nat := 0
  backtracks : Nat := 0
  deriving DecidableEq

/-- A literal that occurs in the formula, in one polarity or the other. -/
def Touches (formula : Formula) (literal : Literal) : Prop :=
  ∃ clause ∈ formula.clauses, literal ∈ clause.literals ∨ literal.negate ∈ clause.literals

theorem touches_negate {formula : Formula} {literal : Literal} (touches : Touches formula literal) :
    Touches formula literal.negate := by
  obtain ⟨clause, member, occurs⟩ := touches
  refine ⟨clause, member, ?_⟩
  rw [Literal.negate_negate]
  exact occurs.symm

/-- A pending state of the search: a residual formula with the literals asserted so far, and a literal
that is still to be asserted, if any. -/
structure Frame where
  formula : Formula
  environment : Environment
  pending : Option { literal : Literal // Touches formula literal }

namespace Frame

/-- Asserts the pending literal; `none` when that falsifies a clause. -/
def enter (frame : Frame) : Option (Formula × Environment) :=
  match frame.pending with
  | none => some (frame.formula, frame.environment)
  | some literal =>
      (frame.formula.reduce literal).map fun residual =>
        (residual, frame.environment.assert literal)

theorem enter_cases {frame : Frame} {remaining : Formula} {environment : Environment}
    (entered : frame.enter = some (remaining, environment)) :
    (frame.pending = none ∧ remaining = frame.formula ∧ environment = frame.environment) ∨
      ∃ literal, frame.pending = some literal ∧ frame.formula.reduce literal = some remaining ∧
        environment = frame.environment.assert literal := by
  unfold enter at entered
  split at entered
  · next nothing =>
      cases entered
      exact .inl ⟨nothing, rfl, rfl⟩
  · next literal pending =>
      obtain ⟨reduced, succeeded, same⟩ := Option.map_eq_some_iff.mp entered
      cases same
      exact .inr ⟨literal, pending, succeeded, rfl⟩

/-- A bound on the work below a frame, larger than that of both branches together. -/
def weight (frame : Frame) : Nat :=
  match frame.pending with
  | none => 3 * Nat.pow 3 frame.formula.occurrences
  | some _ => Nat.pow 3 frame.formula.occurrences

theorem weight_pos (frame : Frame) : 0 < frame.weight := by
  unfold weight
  split
  · exact Nat.mul_pos (by decide) (Nat.pow_pos (by decide))
  · exact Nat.pow_pos (by decide)

theorem weight_enter {frame : Frame} {residual : Formula} {environment : Environment}
    (entered : frame.enter = some (residual, environment)) :
    2 * Nat.pow 3 residual.occurrences < frame.weight := by
  have positive : 0 < Nat.pow 3 residual.occurrences := Nat.pow_pos (by decide)
  rcases enter_cases entered with ⟨pending, rfl, _⟩ | ⟨literal, pending, succeeded, _⟩
  · simp only [weight, pending]
    omega
  · obtain ⟨clause, member, occurs⟩ := literal.2
    have fewer := Formula.occurrences_reduce_lt member occurs succeeded
    have step : Nat.pow 3 residual.occurrences * 3 ≤ Nat.pow 3 frame.formula.occurrences :=
      Nat.pow_le_pow_right (show 0 < 3 by decide) fewer
    simp only [weight, pending]
    omega

end Frame

inductive Move (formula : Formula) where
  /-- No clause is left. -/
  | done
  /-- A clause without literals cannot be satisfied. -/
  | stuck
  /-- A unit clause has only one way to be satisfied. -/
  | forced (literal : { literal : Literal // Touches formula literal })
  /-- The literal is tried first, its negation afterwards. -/
  | choice (literal : { literal : Literal // Touches formula literal })

theorem touches_first {formula : Formula} {clause : Clause} {literal : Literal}
    {others : List Literal} (found : formula.smallest? = some clause)
    (shape : clause.literals = literal :: others) : Touches formula literal :=
  ⟨clause, Formula.mem_of_smallest? found, .inl (by simp [shape])⟩

/-- Branches on the first literal of the first smallest clause. -/
def nextMove (formula : Formula) : Move formula :=
  match found : formula.smallest? with
  | none => .done
  | some clause =>
      match shape : clause.literals with
      | [] => .stuck
      | [literal] => .forced ⟨literal, touches_first found shape⟩
      | literal :: _ :: _ => .choice ⟨literal, touches_first found shape⟩

/-- The result of a search: the environment that satisfies the formula, if there is one. -/
structure Answer where
  environment : Option Environment
  counters : Counters
  deriving DecidableEq

def stackWeight : List Frame → Nat
  | [] => 0
  | frame :: rest => frame.weight + stackWeight rest

/-- Runs the stack until a state without clauses is found or no state is left. A falsified assertion
counts as one backtrack. -/
def search (counters : Counters) : List Frame → Answer
  | [] => ⟨none, counters⟩
  | frame :: rest =>
      match _entered : frame.enter with
      | none => search { counters with backtracks := counters.backtracks + 1 } rest
      | some (residual, environment) =>
          match nextMove residual with
          | .done => ⟨some environment, counters⟩
          -- An empty clause has no literal to choose, which is a fault (`EmptyChoice.literal`). No search
          -- comes here: `solve` starts none with an empty clause, and assertions empty no clause.
          | .stuck => search counters rest
          | .forced literal =>
              search { counters with propagations := counters.propagations + 1 }
                (⟨residual, environment, some literal⟩ :: rest)
          | .choice literal =>
              search { counters with decisions := counters.decisions + 1 }
                (⟨residual, environment, some literal⟩
                  :: ⟨residual, environment, some ⟨literal.1.negate, touches_negate literal.2⟩⟩
                  :: rest)
termination_by stack => stackWeight stack
decreasing_by
  all_goals
    have positive := frame.weight_pos
    simp only [stackWeight]
  · omega
  · omega
  all_goals
    have smaller := Frame.weight_enter _entered
    simp only [Frame.weight] at smaller ⊢
    omega

/-- Decides a formula. With `complete` the variables that were never decided are made false in the
environment found; without it they stay unbound. A formula with an empty clause is not searched. -/
def solve (complete : Bool) (formula : Formula) : Answer :=
  if formula.hasEmptyClause then ⟨none, {}⟩
  else
    let answer := search {} [⟨formula, .empty, none⟩]
    { answer with
      environment := answer.environment.map fun environment =>
        if complete then environment.completeWith formula.atoms else environment }

end Clausal.Dpll
