import Clausal.Proofs.Environment
import Clausal.Proofs.Reduction
import Clausal.Solver.Dpll

/-!
The backtracking search. Every pending state keeps a residual of the formula that shares no variable
with its environment, and as long as the formula is satisfiable, so is one of the pending states.
-/

set_option autoImplicit false

namespace Clausal.Dpll

theorem Touches.atom_mem {formula : Formula} {literal : Literal} (touches : Touches formula literal) :
    literal.atom ∈ formula.atoms := by
  obtain ⟨clause, member, occurs | occurs⟩ := touches
  · exact Formula.atom_mem_atoms member occurs
  · have inside : literal.negate.atom ∈ formula.atoms := Formula.atom_mem_atoms member occurs
    exact inside

/-- What remains of a formula after some literals have been asserted: a clause is satisfied, or some
remaining clause implies it. -/
structure Residual (original remaining : Formula) (environment : Environment) : Prop where
  settled : ∀ clause ∈ original.clauses, environment.satisfiesClause clause = true ∨
    ∃ shorter ∈ remaining.clauses, shorter.literals ⊆ clause.literals
  within : ∀ shorter ∈ remaining.clauses,
    ∃ clause ∈ original.clauses, shorter.literals ⊆ clause.literals
  separate : ∀ shorter ∈ remaining.clauses, ∀ literal ∈ shorter.literals,
    literal.atom ∉ environment.atoms
  decided : environment.Decided
  known : environment.atoms ⊆ original.atoms

namespace Residual

variable {original remaining reduced : Formula} {environment : Environment} {literal : Literal}

theorem start (formula : Formula) : Residual formula formula .empty where
  settled := fun clause member => .inr ⟨clause, member, fun _ inside => inside⟩
  within := fun clause member => ⟨clause, member, fun _ inside => inside⟩
  separate := fun _ _ _ _ member => by cases member
  decided := fun _ member => by cases member
  known := fun _ member => by cases member

/-- Only variables without a binding are left to be asserted. -/
theorem fresh (residual : Residual original remaining environment)
    (touches : Touches remaining literal) : literal.atom ∉ environment.atoms := by
  obtain ⟨shorter, member, other, inside, same⟩ := Formula.mem_atoms_iff.mp touches.atom_mem
  rw [← same]
  exact residual.separate shorter member other inside

theorem atom_mem (residual : Residual original remaining environment)
    (touches : Touches remaining literal) : literal.atom ∈ original.atoms := by
  obtain ⟨shorter, member, other, inside, same⟩ := Formula.mem_atoms_iff.mp touches.atom_mem
  obtain ⟨clause, inOriginal, included⟩ := residual.within shorter member
  rw [← same]
  exact Formula.atom_mem_atoms inOriginal (included inside)

theorem settled_assert (residual : Residual original remaining environment)
    (touches : Touches remaining literal) (succeeded : remaining.reduce literal = some reduced)
    {clause : Clause} (member : clause ∈ original.clauses) :
    (environment.assert literal).satisfiesClause clause = true ∨
      ∃ shorter ∈ reduced.clauses, shorter.literals ⊆ clause.literals := by
  rcases residual.settled clause member with satisfied | ⟨shorter, kept, included⟩
  · exact .inl (Environment.Extends.satisfiesClause (.put environment _ (residual.fresh touches))
      satisfied)
  · by_cases present : literal ∈ shorter.literals
    · exact .inl (Environment.satisfiesClause_iff.mpr
        ⟨literal, included present, environment.eval_assert literal⟩)
    · refine .inr ⟨_, (Formula.mem_reduce_iff succeeded).mpr ⟨shorter, kept, present, rfl⟩, ?_⟩
      exact fun other inside => included (Clause.mem_without.mp inside).1

/-- Asserting a literal of the remaining clauses. -/
theorem assert (residual : Residual original remaining environment)
    (touches : Touches remaining literal) (succeeded : remaining.reduce literal = some reduced) :
    Residual original reduced (environment.assert literal) := by
  have fresh := residual.fresh touches
  have atoms : (environment.assert literal).atoms = environment.atoms ++ [literal.atom] :=
    Environment.atoms_put_of_not_mem _ fresh
  refine ⟨fun clause member => residual.settled_assert touches succeeded member, ?_, ?_, ?_, ?_⟩
  · intro shorter member
    obtain ⟨longer, kept, _, rfl⟩ := (Formula.mem_reduce_iff succeeded).mp member
    obtain ⟨clause, inOriginal, included⟩ := residual.within longer kept
    exact ⟨clause, inOriginal, fun other inside => included (Clause.mem_without.mp inside).1⟩
  · intro shorter member other inside
    obtain ⟨longer, kept, absent, rfl⟩ := (Formula.mem_reduce_iff succeeded).mp member
    obtain ⟨occurs, different⟩ := Clause.mem_without.mp inside
    rw [atoms, List.mem_append, List.mem_singleton]
    intro bound
    rcases bound with bound | same
    · exact residual.separate longer kept other occurs bound
    · rcases Literal.eq_or_eq_negate same with rfl | rfl
      · exact absent occurs
      · exact different rfl
  · refine residual.decided.put fresh ?_
    cases literal.positive <;> exact Truth.noConfusion
  · rw [atoms]
    exact List.append_subset.mpr ⟨residual.known, by simpa using residual.atom_mem touches⟩

end Residual

namespace Frame

variable {frame : Frame} {formula remaining : Formula} {environment : Environment}

/-- A valuation satisfies what remains and the literal that is still to be asserted. -/
def Satisfiable (frame : Frame) : Prop :=
  ∃ valuation, frame.formula.Holds valuation ∧
    ∀ literal, frame.pending = some literal → literal.1.Holds valuation

theorem residual_enter (residual : Residual formula frame.formula frame.environment)
    (entered : frame.enter = some (remaining, environment)) :
    Residual formula remaining environment := by
  rcases enter_cases entered with ⟨_, rfl, rfl⟩ | ⟨literal, _, succeeded, rfl⟩
  · exact residual
  · exact residual.assert literal.2 succeeded

theorem not_satisfiable_of_enter_eq_none (failed : frame.enter = none) : ¬ frame.Satisfiable := by
  obtain ⟨stored, bindings, pending⟩ := frame
  intro satisfiable
  obtain ⟨valuation, holds, pendingHolds⟩ := satisfiable
  cases pending with
  | none => cases failed
  | some literal =>
      exact Formula.not_holds_of_reduce_eq_none (Option.map_eq_none_iff.mp failed)
        (pendingHolds literal rfl) holds

theorem satisfiable_of_enter (entered : frame.enter = some (remaining, environment))
    (satisfiable : frame.Satisfiable) : remaining.Satisfiable := by
  obtain ⟨valuation, holds, pendingHolds⟩ := satisfiable
  rcases enter_cases entered with ⟨_, rfl, _⟩ | ⟨literal, pending, succeeded, _⟩
  · exact ⟨valuation, holds⟩
  · exact ⟨valuation, (Formula.holds_reduce_iff succeeded (pendingHolds literal pending)).mpr holds⟩

end Frame

/-- What each move says of the formula. -/
def Move.Fits {formula : Formula} : Move formula → Prop
  | .done => formula.clauses = []
  | .stuck => formula.hasEmptyClause = true
  | .forced literal => ∃ clause ∈ formula.clauses, clause.literals = [literal.1]
  | .choice _ => True

theorem nextMove_fits (formula : Formula) : (nextMove formula).Fits := by
  unfold nextMove
  split
  · next nothing => exact Formula.smallest?_eq_none_iff.mp nothing
  · next clause found =>
      have member := Formula.mem_of_smallest? found
      split
      · next shape => exact Formula.hasEmptyClause_iff.mpr ⟨clause, member, shape⟩
      · next literal shape => exact ⟨clause, member, shape⟩
      · trivial

/-- The only literal of a clause holds wherever the formula does. -/
theorem satisfiable_of_forced {formula : Formula} {environment : Environment}
    {literal : { literal : Literal // Touches formula literal }}
    (unit : ∃ clause ∈ formula.clauses, clause.literals = [literal.1])
    (satisfiable : formula.Satisfiable) : (⟨formula, environment, some literal⟩ : Frame).Satisfiable := by
  obtain ⟨valuation, holds⟩ := satisfiable
  obtain ⟨clause, member, alone⟩ := unit
  refine ⟨valuation, holds, ?_⟩
  intro candidate same
  cases same
  exact (Clause.holds_iff_of_singleton alone).mp (holds clause member)

/-- One of the two literals of a variable holds. -/
theorem satisfiable_of_choice {formula : Formula} {environment : Environment}
    {literal negation : { literal : Literal // Touches formula literal }}
    (opposite : negation.1 = literal.1.negate) (satisfiable : formula.Satisfiable) :
    (⟨formula, environment, some literal⟩ : Frame).Satisfiable ∨
      (⟨formula, environment, some negation⟩ : Frame).Satisfiable := by
  obtain ⟨valuation, holds⟩ := satisfiable
  by_cases first : literal.1.Holds valuation
  · refine .inl ⟨valuation, holds, ?_⟩
    intro candidate same
    cases same
    exact first
  · refine .inr ⟨valuation, holds, ?_⟩
    intro candidate same
    cases same
    rw [opposite]
    exact Literal.holds_negate_iff.mpr first

theorem Residual.solves {formula remaining : Formula} {environment : Environment}
    (residual : Residual formula remaining environment) (done : remaining.clauses = []) :
    environment.Solves formula where
  satisfies := by
    refine Environment.satisfies_iff.mpr fun clause member => ?_
    rcases residual.settled clause member with satisfied | ⟨shorter, kept, _⟩
    · exact satisfied
    · rw [done] at kept
      cases kept
  decided := residual.decided
  known := residual.known

/-- The search only finds environments that satisfy the formula of its stack. -/
theorem search_sound {formula : Formula} {counters : Counters} {stack : List Frame}
    (residuals : ∀ frame ∈ stack, Residual formula frame.formula frame.environment)
    {found : Environment} (succeeded : (search counters stack).environment = some found) :
    found.Solves formula := by
  fun_induction search counters stack with
  | case1 => cases succeeded
  | case2 counters frame rest failed ih =>
      exact ih (fun other member => residuals other (List.mem_cons_of_mem _ member)) succeeded
  | case3 counters frame rest remaining environment entered done =>
      cases succeeded
      have fits := nextMove_fits remaining
      rw [done] at fits
      exact (Frame.residual_enter (residuals frame List.mem_cons_self) entered).solves fits
  | case4 counters frame rest remaining environment entered stuck ih =>
      exact ih (fun other member => residuals other (List.mem_cons_of_mem _ member)) succeeded
  | case5 counters frame rest remaining environment entered literal forced ih =>
      refine ih ?_ succeeded
      have residual := Frame.residual_enter (residuals frame List.mem_cons_self) entered
      intro other member
      rcases List.mem_cons.mp member with rfl | member
      · exact residual
      · exact residuals other (List.mem_cons_of_mem _ member)
  | case6 counters frame rest remaining environment entered literal chosen ih =>
      refine ih ?_ succeeded
      have residual := Frame.residual_enter (residuals frame List.mem_cons_self) entered
      intro other member
      rcases List.mem_cons.mp member with rfl | member
      · exact residual
      · rcases List.mem_cons.mp member with rfl | member
        · exact residual
        · exact residuals other (List.mem_cons_of_mem _ member)

/-- The search gives up only when no pending state is satisfiable. -/
theorem search_complete {counters : Counters} {stack : List Frame}
    (failed : (search counters stack).environment = none) : ∀ frame ∈ stack, ¬ frame.Satisfiable := by
  fun_induction search counters stack with
  | case1 => simp
  | case2 counters frame rest falsified ih =>
      exact List.forall_mem_cons.mpr ⟨Frame.not_satisfiable_of_enter_eq_none falsified, ih failed⟩
  | case3 counters frame rest remaining environment entered done => cases failed
  | case4 counters frame rest remaining environment entered stuck ih =>
      refine List.forall_mem_cons.mpr ⟨fun satisfiable => ?_, ih failed⟩
      have fits := nextMove_fits remaining
      rw [stuck] at fits
      exact Formula.not_satisfiable_of_hasEmptyClause fits
        (Frame.satisfiable_of_enter entered satisfiable)
  | case5 counters frame rest remaining environment entered literal forced ih =>
      obtain ⟨refuted, others⟩ := List.forall_mem_cons.mp (ih failed)
      refine List.forall_mem_cons.mpr ⟨fun satisfiable => refuted ?_, others⟩
      have fits := nextMove_fits remaining
      rw [forced] at fits
      exact satisfiable_of_forced fits (Frame.satisfiable_of_enter entered satisfiable)
  | case6 counters frame rest remaining environment entered literal chosen ih =>
      obtain ⟨refuted, later⟩ := List.forall_mem_cons.mp (ih failed)
      obtain ⟨oppositeRefuted, others⟩ := List.forall_mem_cons.mp later
      refine List.forall_mem_cons.mpr ⟨fun satisfiable => ?_, others⟩
      exact (satisfiable_of_choice rfl (Frame.satisfiable_of_enter entered satisfiable)).elim
        refuted oppositeRefuted

theorem solve_sound {complete : Bool} {formula : Formula} {found : Environment}
    (succeeded : (solve complete formula).environment = some found) :
    found.Solves formula ∧ (complete = true → found.atoms.Perm formula.atoms) := by
  unfold solve at succeeded
  split at succeeded
  · cases succeeded
  · obtain ⟨environment, searched, rfl⟩ := Option.map_eq_some_iff.mp succeeded
    have solves : environment.Solves formula := by
      refine search_sound ?_ searched
      intro frame member
      rw [List.mem_singleton.mp member]
      exact .start formula
    cases complete with
    | true => exact ⟨solves.completeWith, fun _ => Environment.atoms_completeWith_perm solves.known⟩
    | false => exact ⟨solves, fun impossible => Bool.noConfusion impossible⟩

theorem solve_complete {complete : Bool} {formula : Formula}
    (failed : (solve complete formula).environment = none) : ¬ formula.Satisfiable := by
  unfold solve at failed
  split at failed
  · next empty => exact Formula.not_satisfiable_of_hasEmptyClause empty
  · intro satisfiable
    obtain ⟨valuation, holds⟩ := satisfiable
    refine search_complete (Option.map_eq_none_iff.mp failed) _ List.mem_cons_self ?_
    exact ⟨valuation, holds, fun _ pending => by cases pending⟩

end Clausal.Dpll
