import Clausal.Proofs.Dpll.Descent
import Clausal.Proofs.Renaming.Environment

/-!
The backtracking search under new names. It makes the same moves on the renamed literals, with the same
counts.
-/

set_option autoImplicit false

namespace Clausal.Dpll

variable (names : Renaming) {formula : Formula}

theorem touches_rename {literal : Literal} (touches : Touches formula literal) :
    Touches (formula.rename names) (literal.rename names) := by
  obtain ⟨clause, member, occurs⟩ := touches
  refine ⟨clause.rename names, List.mem_map_of_mem member, ?_⟩
  rw [Literal.negate_rename, Clause.literals_rename]
  exact occurs.imp List.mem_map_of_mem List.mem_map_of_mem

def renameTouching (literal : { literal : Literal // Touches formula literal }) :
    { literal : Literal // Touches (formula.rename names) literal } :=
  ⟨literal.1.rename names, touches_rename names literal.2⟩

def Move.rename : Move formula → Move (formula.rename names)
  | .done => .done
  | .stuck => .stuck
  | .forced literal => .forced (renameTouching names literal)
  | .choice literal => .choice (renameTouching names literal)

def Answer.rename (answer : Answer) : Answer :=
  { answer with environment := answer.environment.map (Environment.rename names) }

theorem nextMove_rename (formula : Formula) :
    nextMove (formula.rename names) = (nextMove formula).rename names := by
  have renamed := Formula.smallest?_rename names formula
  cases found : formula.smallest? with
  | none =>
      rw [found] at renamed
      rw [nextMove_of_none found, nextMove_of_none renamed]
      rfl
  | some clause =>
      rw [found] at renamed
      cases shape : clause.literals with
      | nil =>
          rw [nextMove_of_empty found shape, nextMove_of_empty renamed (by simp [shape])]
          rfl
      | cons first others =>
          cases others with
          | nil =>
              have shapeRenamed : (clause.rename names).literals = [first.rename names] := by simp [shape]
              rw [nextMove_of_unit found shape, nextMove_of_unit renamed shapeRenamed]
              rfl
          | cons second others =>
              have shapeRenamed : (clause.rename names).literals =
                  first.rename names :: second.rename names :: others.map (Literal.rename names) := by
                simp [shape]
              rw [nextMove_of_several found shape, nextMove_of_several renamed shapeRenamed]
              rfl

theorem Answer.rename_orElse (answer : Answer) {next renamedNext : Counters → Answer}
    (same : ∀ counters, renamedNext counters = (next counters).rename names) :
    (answer.rename names).orElse renamedNext = (answer.orElse next).rename names := by
  obtain ⟨found, counters⟩ := answer
  cases found with
  | none => exact same counters
  | some environment => rfl

/-- The recursion commutes with the renaming, whatever the counts and the bindings so far. -/
def Equivariant (formula : Formula) : Prop :=
  ∀ counters environment, descend counters (formula.rename names) (environment.rename names) =
    (descend counters formula environment).rename names

theorem attempt_rename (literal : { literal : Literal // Touches formula literal })
    (remaining : ∀ residual, formula.reduce literal = some residual → Equivariant names residual)
    (counters : Counters) (environment : Environment) :
    attempt counters (formula.rename names) (environment.rename names) (renameTouching names literal) =
      (attempt counters formula environment literal).rename names := by
  have renamed := Formula.reduce_rename names formula literal
  cases succeeded : formula.reduce literal with
  | none =>
      rw [succeeded] at renamed
      rw [attempt_of_none succeeded, attempt_of_none renamed]
      rfl
  | some residual =>
      rw [succeeded] at renamed
      rw [attempt_of_some succeeded, attempt_of_some renamed]
      exact (Environment.assert_rename names environment literal).symm ▸
        remaining residual succeeded counters (environment.assert literal)

theorem equivariant (formula : Formula) : Equivariant names formula := by
  induction formula using reduction_induction with
  | step formula smaller =>
      intro counters environment
      rw [descend_eq, descend_eq, nextMove_rename]
      cases nextMove formula with
      | done => rfl
      | stuck => rfl
      | forced literal => exact attempt_rename names literal (fun _ => smaller _ _ literal.2) _ _
      | choice literal =>
          have negation := fun counters =>
            attempt_rename names ⟨literal.1.negate, touches_negate literal.2⟩
              (fun _ => smaller _ _ (touches_negate literal.2)) counters environment
          have first := attempt_rename names literal (fun _ => smaller _ _ literal.2)
            { counters with decisions := counters.decisions + 1 } environment
          dsimp only [Move.rename]
          rw [first]
          exact Answer.rename_orElse names _ negation

theorem solve_rename (complete : Bool) (formula : Formula) :
    solve complete (formula.rename names) = (solve complete formula).rename names := by
  have descended := equivariant names formula {} .empty
  rw [Environment.rename_empty] at descended
  rw [solve_eq_descend, solve_eq_descend, descended]
  simp only [Answer.rename, Option.map_map, Answer.mk.injEq, and_true, Formula.atoms_rename]
  congr 1
  funext environment
  simp only [Function.comp_apply, Environment.completeWith_rename]
  split <;> rfl

end Clausal.Dpll
