import Clausal.Proofs.Dpll.Run

/-!
The backtracking search by recursion, which needs no stack: a literal is asserted, and what remains is
decided by a recursive call. A stack comes to the answer that the recursion finds below its topmost state,
and goes on with the other states where the recursion finds none.
-/

set_option autoImplicit false

namespace Clausal

namespace Formula

theorem size_foldl_smallerOf_le (first : Clause) (rest : List Clause) :
    ∀ clause ∈ first :: rest, (rest.foldl smallerOf first).size ≤ clause.size := by
  induction rest generalizing first with
  | nil => simp
  | cons candidate rest ih =>
      have bound := ih (smallerOf first candidate)
      have least : (smallerOf first candidate).size ≤ first.size ∧
          (smallerOf first candidate).size ≤ candidate.size := by
        unfold smallerOf
        split <;> omega
      obtain ⟨start, others⟩ := List.forall_mem_cons.mp bound
      simp only [List.foldl_cons, List.forall_mem_cons]
      exact ⟨by omega, by omega, others⟩

theorem size_le_of_smallest? {formula : Formula} {clause : Clause}
    (found : formula.smallest? = some clause) : ∀ other ∈ formula.clauses, clause.size ≤ other.size := by
  unfold smallest? at found
  split at found
  · cases found
  · next first rest shape =>
      cases found
      rw [shape]
      exact size_foldl_smallerOf_le first rest

theorem exists_smallest?_of_hasEmptyClause {formula : Formula}
    (empty : formula.hasEmptyClause = true) :
    ∃ clause, formula.smallest? = some clause ∧ clause.literals = [] := by
  obtain ⟨clause, member, isEmpty⟩ := hasEmptyClause_iff.mp empty
  cases found : formula.smallest? with
  | none =>
      rw [smallest?_eq_none_iff.mp found] at member
      cases member
  | some smallest =>
      have bound := size_le_of_smallest? found clause member
      rw [Clause.size, Clause.size, isEmpty] at bound
      exact ⟨smallest, rfl, List.eq_nil_of_length_eq_zero (Nat.le_zero.mp bound)⟩

end Formula

namespace Environment

theorem bindings_completeWith (environment : Environment) {atoms : List Variable}
    (distinct : atoms.Nodup) :
    (environment.completeWith atoms).bindings =
      environment.bindings ++
        (atoms.filter fun atom => decide (atom ∉ environment.atoms)).map (·, Truth.no) := by
  induction atoms generalizing environment with
  | nil => simp [completeWith]
  | cons atom rest ih =>
      obtain ⟨new, others⟩ := List.nodup_cons.mp distinct
      rcases completeWith_cons environment atom rest with ⟨bound, same⟩ | ⟨fresh, same⟩
      · simp [same, ih environment others, bound]
      · have later : (rest.filter fun other => decide (other ∉ (environment.put atom .no).atoms)) =
            rest.filter fun other => decide (other ∉ environment.atoms) := by
          apply List.filter_congr
          intro other member
          have different : other ≠ atom := fun equal => new (equal ▸ member)
          simp [atoms_put_of_not_mem _ fresh, different]
        rw [same, ih _ others, later, bindings_put_of_not_mem _ fresh]
        simp [fresh]

end Environment

namespace Dpll

variable {counters : Counters} {formula residual : Formula} {environment : Environment}
  {clause : Clause} {first second : Literal} {others : List Literal} {rest : List Frame}

/-- The answer, unless nothing was found: then what the counters lead to. -/
def Answer.orElse (answer : Answer) (next : Counters → Answer) : Answer :=
  match answer.environment with
  | some _ => answer
  | none => next answer.counters

theorem Answer.orElse_assoc (answer : Answer) (second third : Counters → Answer) :
    (answer.orElse second).orElse third = answer.orElse fun counters => (second counters).orElse third := by
  obtain ⟨found, counters⟩ := answer
  cases found <;> rfl

mutual

/-- Succeeds when no clause is left. Otherwise the first literal of the first smallest clause is tried, and
its negation after it unless the literal stood alone. -/
def descend (counters : Counters) (formula : Formula) (environment : Environment) : Answer :=
  match found : formula.smallest? with
  | none => ⟨some environment, counters⟩
  | some clause =>
      match shape : clause.literals with
      | [] => ⟨none, counters⟩
      | [literal] =>
          attempt { counters with propagations := counters.propagations + 1 } formula environment
            ⟨literal, touches_first found shape⟩
      | literal :: _ :: _ =>
          (attempt { counters with decisions := counters.decisions + 1 } formula environment
            ⟨literal, touches_first found shape⟩).orElse fun counters =>
              attempt counters formula environment
                ⟨literal.negate, touches_negate (touches_first found shape)⟩
termination_by (formula.occurrences, 1)

/-- Asserts a literal and decides what remains. A falsified clause counts as one backtrack. -/
def attempt (counters : Counters) (formula : Formula) (environment : Environment)
    (literal : { literal : Literal // Touches formula literal }) : Answer :=
  match _succeeded : formula.reduce literal with
  | none => ⟨none, { counters with backtracks := counters.backtracks + 1 }⟩
  | some residual => descend counters residual (environment.assert literal)
termination_by (formula.occurrences, 0)
decreasing_by
  obtain ⟨clause, member, occurs⟩ := literal.2
  exact .left _ _ (Formula.occurrences_reduce_lt member occurs _succeeded)

end

/-! The move for each form of the smallest clause. -/

theorem nextMove_of_none (found : formula.smallest? = none) : nextMove formula = .done := by
  unfold nextMove
  split
  · rfl
  · next other => cases found.symm.trans other

theorem nextMove_of_empty (found : formula.smallest? = some clause) (shape : clause.literals = []) :
    nextMove formula = .stuck := by
  unfold nextMove
  split
  · next other => cases found.symm.trans other
  · next other =>
      cases found.symm.trans other
      split
      · rfl
      · next different => cases shape.symm.trans different
      · next different => cases shape.symm.trans different

theorem nextMove_of_unit (found : formula.smallest? = some clause) (shape : clause.literals = [first]) :
    nextMove formula = .forced ⟨first, touches_first found shape⟩ := by
  unfold nextMove
  split
  · next other => cases found.symm.trans other
  · next other =>
      cases found.symm.trans other
      split
      · next different => cases shape.symm.trans different
      · next same => cases shape.symm.trans same; rfl
      · next different => cases shape.symm.trans different

theorem nextMove_of_several (found : formula.smallest? = some clause)
    (shape : clause.literals = first :: second :: others) :
    nextMove formula = .choice ⟨first, touches_first found shape⟩ := by
  unfold nextMove
  split
  · next other => cases found.symm.trans other
  · next other =>
      cases found.symm.trans other
      split
      · next different => cases shape.symm.trans different
      · next different => cases shape.symm.trans different
      · next same => cases shape.symm.trans same; rfl

theorem descend_eq (counters : Counters) (formula : Formula) (environment : Environment) :
    descend counters formula environment =
      match nextMove formula with
      | .done => ⟨some environment, counters⟩
      | .stuck => ⟨none, counters⟩
      | .forced literal =>
          attempt { counters with propagations := counters.propagations + 1 } formula environment literal
      | .choice literal =>
          (attempt { counters with decisions := counters.decisions + 1 } formula environment
            literal).orElse fun counters =>
              attempt counters formula environment ⟨literal.1.negate, touches_negate literal.2⟩ := by
  rw [descend]
  split
  · next found => rw [nextMove_of_none found]
  · next found =>
      split
      · next shape => rw [nextMove_of_empty found shape]
      · next shape => rw [nextMove_of_unit found shape]
      · next shape => rw [nextMove_of_several found shape]

theorem attempt_of_none {literal : { literal : Literal // Touches formula literal }}
    (falsified : formula.reduce literal = none) :
    attempt counters formula environment literal =
      ⟨none, { counters with backtracks := counters.backtracks + 1 }⟩ := by
  rw [attempt]
  split
  · rfl
  · next succeeded => cases falsified.symm.trans succeeded

theorem attempt_of_some {literal : { literal : Literal // Touches formula literal }}
    (succeeded : formula.reduce literal = some residual) :
    attempt counters formula environment literal =
      descend counters residual (environment.assert literal) := by
  rw [attempt]
  split
  · next falsified => cases succeeded.symm.trans falsified
  · next same => cases succeeded.symm.trans same; rfl

/-! The stack. -/

theorem search_cons (counters : Counters) (formula : Formula) (environment : Environment)
    (rest : List Frame) :
    search counters (⟨formula, environment, none⟩ :: rest) =
      match nextMove formula with
      | .done => ⟨some environment, counters⟩
      | .stuck => search counters rest
      | .forced literal =>
          search { counters with propagations := counters.propagations + 1 }
            (⟨formula, environment, some literal⟩ :: rest)
      | .choice literal =>
          search { counters with decisions := counters.decisions + 1 }
            (⟨formula, environment, some literal⟩
              :: ⟨formula, environment, some ⟨literal.1.negate, touches_negate literal.2⟩⟩ :: rest) := by
  rw [search]
  rfl

theorem search_cons_pending (counters : Counters) (formula : Formula) (environment : Environment)
    (literal : { literal : Literal // Touches formula literal }) (rest : List Frame) :
    search counters (⟨formula, environment, some literal⟩ :: rest) =
      match formula.reduce literal with
      | none => search { counters with backtracks := counters.backtracks + 1 } rest
      | some residual =>
          search counters (⟨residual, environment.assert literal, none⟩ :: rest) := by
  rw [search]
  simp only [Frame.enter]
  cases formula.reduce literal with
  | none => rfl
  | some residual => exact (search_cons _ _ _ _).symm

/-- What is true of a formula whenever it is true of what remains after an assertion is true of all. -/
@[elab_as_elim]
theorem reduction_induction {motive : Formula → Prop}
    (step : ∀ formula, (∀ literal residual, Touches formula literal →
      formula.reduce literal = some residual → motive residual) → motive formula)
    (formula : Formula) : motive formula := by
  apply step
  intro literal residual touches succeeded
  exact reduction_induction step residual
termination_by formula.occurrences
decreasing_by
  obtain ⟨clause, member, occurs⟩ := touches
  exact Formula.occurrences_reduce_lt member occurs succeeded

/-- From every state with the formula the stack comes to what the recursion finds, or goes on with the
other states where it finds nothing. -/
def Followed (formula : Formula) : Prop :=
  ∀ counters environment rest, search counters (⟨formula, environment, none⟩ :: rest) =
    (descend counters formula environment).orElse fun counters => search counters rest

theorem search_attempt (literal : { literal : Literal // Touches formula literal })
    (remaining : ∀ residual, formula.reduce literal = some residual → Followed residual)
    (counters : Counters) (environment : Environment) (rest : List Frame) :
    search counters (⟨formula, environment, some literal⟩ :: rest) =
      (attempt counters formula environment literal).orElse fun counters => search counters rest := by
  rw [search_cons_pending]
  cases succeeded : formula.reduce literal with
  | none =>
      rw [attempt_of_none succeeded]
      rfl
  | some residual =>
      rw [attempt_of_some succeeded]
      exact remaining residual succeeded _ _ _

theorem followed (formula : Formula) : Followed formula := by
  induction formula using reduction_induction with
  | step formula smaller =>
      intro counters environment rest
      rw [search_cons, descend_eq]
      cases nextMove formula with
      | done => rfl
      | stuck => rfl
      | forced literal => exact search_attempt literal (fun _ => smaller _ _ literal.2) _ _ _
      | choice literal =>
          -- The stack tries the negation where the recursion for the literal ends without a result.
          have negation := fun counters =>
            search_attempt ⟨literal.1.negate, touches_negate literal.2⟩
              (fun _ => smaller _ _ (touches_negate literal.2)) counters environment rest
          dsimp only
          rw [search_attempt literal fun _ => smaller _ _ literal.2, Answer.orElse_assoc]
          exact congrArg _ (funext negation)

theorem search_singleton (counters : Counters) (formula : Formula) (environment : Environment) :
    search counters [⟨formula, environment, none⟩] = descend counters formula environment := by
  rw [followed]
  obtain ⟨found, counts⟩ := descend counters formula environment
  cases found with
  | none =>
      simp only [Answer.orElse]
      rw [search]
  | some _ => rfl

/-- The recursion decides every formula, one with an empty clause too. -/
theorem solve_eq_descend (complete : Bool) (formula : Formula) :
    solve complete formula =
      { descend {} formula .empty with
        environment := (descend {} formula .empty).environment.map fun environment =>
          if complete then environment.completeWith formula.atoms else environment } := by
  unfold solve
  split
  · next empty =>
      obtain ⟨clause, found, shape⟩ := Formula.exists_smallest?_of_hasEmptyClause empty
      rw [descend_eq, nextMove_of_empty found shape]
      rfl
  · rw [search_singleton]

end Dpll

namespace Solver

end Solver

end Clausal
