import Clausal.Proofs.RandomWalk.Walk

/-!
The course of a walk: which clauses it picks for repair, and where it ends. The walk that commits variables
as it reads them takes the same course as the walk over total assignments that starts with all variables
false, for a variable that has not been read is as good as false.
-/

set_option autoImplicit false

namespace Clausal.RandomWalk

/-- How a walk looks for a clause to repair, and how it flips the variable of a literal. Looking may
change the assignment. -/
structure Strategy (Assignment : Type) where
  find : Assignment → Assignment × Option Clause
  flip : Assignment → Literal → Assignment

/-- The clauses picked for repair, in order, and the assignment at the end of the walk, with whether no
clause was left to repair. -/
structure Course (Assignment : Type) where
  repaired : List Clause
  last : Assignment
  satisfied : Bool

def Course.after {Assignment : Type} (clause : Clause) (course : Course Assignment) :
    Course Assignment :=
  { course with repaired := clause :: course.repaired }

/-- Repairs one clause after another with at most the given number of flips. A clause without literals ends
the walk. -/
def Strategy.course {Assignment State : Type} (strategy : Strategy Assignment)
    (chooser : Random.Chooser State) : (remaining : Nat) → State → Assignment → Course Assignment
  | remaining, state, assignment =>
      match strategy.find assignment with
      | (reached, none) => ⟨[], reached, true⟩
      | (reached, some clause) =>
          match remaining with
          | 0 => ⟨[], reached, false⟩
          | remaining + 1 =>
              if nonempty : 0 < clause.literals.length then
                let (position, state) := chooser.pick state clause.literals.length nonempty
                (strategy.course chooser remaining state
                  (strategy.flip reached (clause.literals.get position))).after clause
              else ⟨[], reached, false⟩

section Simulation

variable {First Second : Type} {first : Strategy First} {second : Strategy Second}
  {related : First → Second → Prop}

/-- From related assignments both strategies find the same clause, and what they make of the assignments
is related again. -/
structure Simulates (first : Strategy First) (second : Strategy Second)
    (related : First → Second → Prop) : Prop where
  find : ∀ left right, related left right →
    (first.find left).2 = (second.find right).2 ∧
      related (first.find left).1 (second.find right).1
  flip : ∀ left right clause literal, related left right →
    (first.find left).2 = some clause → literal ∈ clause.literals →
      related (first.flip (first.find left).1 literal) (second.flip (second.find right).1 literal)

structure Course.Agrees (related : First → Second → Prop) (left : Course First)
    (right : Course Second) : Prop where
  repaired : left.repaired = right.repaired
  last : related left.last right.last
  satisfied : left.satisfied = right.satisfied

theorem Course.Agrees.after {left : Course First} {right : Course Second}
    (agrees : left.Agrees related right) (clause : Clause) :
    (left.after clause).Agrees related (right.after clause) where
  repaired := congrArg (clause :: ·) agrees.repaired
  last := agrees.last
  satisfied := agrees.satisfied

theorem Simulates.course {State : Type} (simulates : Simulates first second related)
    (chooser : Random.Chooser State) {remaining : Nat} {state : State} {left : First} {right : Second}
    (start : related left right) :
    (first.course chooser remaining state left).Agrees related
      (second.course chooser remaining state right) := by
  induction remaining generalizing state left right with
  | zero =>
      obtain ⟨same, reached⟩ := simulates.find left right start
      rw [Strategy.course, Strategy.course]
      generalize first.find left = leftFound at same reached
      generalize second.find right = rightFound at same reached
      obtain ⟨leftReached, found⟩ := leftFound
      obtain ⟨rightReached, _⟩ := rightFound
      cases same
      cases found with
      | none => exact ⟨rfl, reached, rfl⟩
      | some clause => exact ⟨rfl, reached, rfl⟩
  | succ remaining ih =>
      obtain ⟨same, reached⟩ := simulates.find left right start
      have flipped := fun clause literal => simulates.flip left right clause literal start
      rw [Strategy.course, Strategy.course]
      generalize first.find left = leftFound at same reached flipped
      generalize second.find right = rightFound at same reached flipped
      obtain ⟨leftReached, found⟩ := leftFound
      obtain ⟨rightReached, _⟩ := rightFound
      cases same
      cases found with
      | none => exact ⟨rfl, reached, rfl⟩
      | some clause =>
          dsimp only
          split
          · exact (ih (flipped clause _ rfl (List.get_mem _ _))).after clause
          · exact ⟨rfl, reached, rfl⟩

end Simulation

/-! A variable that has not been read is as good as false. -/

variable {environment : Environment} {formula : Formula}

theorem valuation_commit (environment : Environment) (atom : Variable) :
    (commit environment atom).valuation = environment.valuation := by
  funext other
  rw [commit]
  split
  · next undecided =>
      simp only [Environment.valuation, Environment.get_put]
      split
      · next same =>
          rw [← same, undecided]
          rfl
      · rfl
  · rfl

theorem get_commit_ne_undefined (environment : Environment) (atom : Variable) :
    (commit environment atom).get atom ≠ .undefined := by
  rw [commit]
  split
  · rw [Environment.get_put, if_pos rfl]
    exact Truth.noConfusion
  · next decided => exact decided

theorem eval_commit_eq_yes_iff (environment : Environment) (literal : Literal) :
    (commit environment literal.atom).eval literal = .yes ↔ literal.Holds environment.valuation := by
  have decided := get_commit_ne_undefined environment literal.atom
  rw [← valuation_commit environment literal.atom, Literal.Holds, Environment.valuation,
    Environment.eval]
  cases value : (commit environment literal.atom).get literal.atom with
  | yes => cases literal.positive <;> decide
  | no => cases literal.positive <;> decide
  | undefined => exact absurd value decided

theorem scanLiterals_eq (environment : Environment) (literals : List Literal) :
    (scanLiterals environment literals).1.valuation = environment.valuation ∧
      (scanLiterals environment literals).2 =
        decide (∃ literal ∈ literals, literal.Holds environment.valuation) := by
  induction literals generalizing environment with
  | nil => exact ⟨rfl, by simp [scanLiterals]⟩
  | cons literal rest ih =>
      obtain ⟨kept, found⟩ := ih (commit environment literal.atom)
      rw [valuation_commit] at kept found
      rw [scanLiterals]
      simp only [eval_commit_eq_yes_iff]
      split
      · next holds => exact ⟨valuation_commit _ _, by simp [holds]⟩
      · next fails =>
          refine ⟨kept, ?_⟩
          rw [found]
          simp [fails]

/-- Variables that the walk has never read are false in the end. -/
def Course.answer (formula : Formula) (flips : Nat) (course : Course Environment) : Answer :=
  if course.satisfied then
    .satisfied (formula.atoms.foldl commit course.last) (flips + course.repaired.length)
  else .exhausted (flips + course.repaired.length)

end Clausal.RandomWalk
