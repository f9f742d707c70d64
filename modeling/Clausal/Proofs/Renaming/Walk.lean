import Clausal.Proofs.RandomWalk.Walk
import Clausal.Proofs.Renaming.Environment

/-!
The random walk under new names. A choice is a position in a clause, so that the same choices flip the same
variables.
-/

set_option autoImplicit false

namespace Clausal.RandomWalk

variable (names : Renaming) (environment : Environment)

theorem commit_rename (atom : Variable) :
    commit (environment.rename names) (names atom) = (commit environment atom).rename names := by
  rw [commit, commit, Environment.get_rename, Environment.put_rename]
  split <;> rfl

theorem foldl_commit_rename (atoms : List Variable) :
    (atoms.map names).foldl commit (environment.rename names) =
      (atoms.foldl commit environment).rename names := by
  rw [List.foldl_map]
  exact List.foldl_hom (Environment.rename names) fun bound atom => commit_rename names bound atom

theorem scanLiterals_rename (literals : List Literal) :
    scanLiterals (environment.rename names) (literals.map (Literal.rename names)) =
      (scanLiterals environment literals).map (Environment.rename names) id := by
  induction literals generalizing environment with
  | nil => rfl
  | cons literal rest ih =>
      simp only [List.map_cons, scanLiterals, Literal.atom_rename, commit_rename,
        Environment.eval_rename, ih]
      split <;> rfl

theorem scan_rename (clauses : List Clause) :
    scan (environment.rename names) (clauses.map (Clause.rename names)) =
      (scan environment clauses).map (Environment.rename names) (Option.map (Clause.rename names)) := by
  induction clauses generalizing environment with
  | nil => rfl
  | cons clause rest ih =>
      simp only [List.map_cons, scan, Clause.literals_rename, scanLiterals_rename]
      obtain ⟨committed, holds⟩ := scanLiterals environment clause.literals
      cases holds with
      | true => exact ih committed
      | false => rfl

theorem flip_rename (literal : Literal) :
    flip (environment.rename names) (literal.rename names) = (flip environment literal).rename names := by
  rw [flip, flip, Literal.atom_rename, Environment.get_rename, Environment.put_rename]

def Answer.rename : Answer → Answer
  | .satisfied environment flips => .satisfied (environment.rename names) flips
  | .exhausted flips => .exhausted flips
  | .emptyClause => .emptyClause

section Walk

variable {State : Type} {chooser : Random.Chooser State} {formula : Formula} {remaining flips : Nat}
  {state next : State} {environment reached : Environment} {clause : Clause}

theorem scan_formula_rename {found : Option Clause}
    (scanned : scan environment formula.clauses = (reached, found)) :
    scan (environment.rename names) (formula.rename names).clauses =
      (reached.rename names, found.map (Clause.rename names)) := by
  rw [Formula.clauses_rename, scan_rename, scanned]
  rfl

theorem pick_cast {count other : Nat} {positive : 0 < count} {position : Fin count}
    (same : count = other) (picked : chooser.pick state count positive = (position, next))
    (otherPositive : 0 < other) :
    chooser.pick state other otherPositive = (position.cast same, next) := by
  subst same
  exact picked

variable (chooser formula)

theorem walk_rename (remaining flips : Nat) (state : State) (environment : Environment) :
    walk chooser (formula.rename names) remaining flips state (environment.rename names) =
      (walk chooser formula remaining flips state environment).rename names := by
  have length : ∀ clause : Clause, clause.literals.length = (clause.rename names).literals.length :=
    fun clause => (List.length_map (Literal.rename names)).symm
  fun_induction walk chooser formula remaining flips state environment with
  | case1 remaining flips state environment reached found =>
      rw [walk_of_satisfied (scan_formula_rename names found), Formula.atoms_rename, foldl_commit_rename]
      rfl
  | case2 flips state environment reached clause found nonempty =>
      exact walk_of_exhausted (scan_formula_rename names found) (length clause ▸ nonempty)
  | case3 flips state environment reached clause found nonempty remaining position next picked ih =>
      have chosen : (clause.rename names).literals.get (position.cast (length clause)) =
          (clause.literals.get position).rename names := by
        apply List.getElem_map
      have pickedToo := pick_cast (length clause) picked (length clause ▸ nonempty)
      rw [walk_of_picked (scan_formula_rename names found) pickedToo, chosen, flip_rename]
      exact ih
  | case4 remaining flips state environment reached clause found empty =>
      exact walk_of_empty (scan_formula_rename names found) (length clause ▸ empty)

theorem solve_rename (start : State) (limit : Nat) :
    solve chooser start limit (formula.rename names) =
      (solve chooser start limit formula).rename names := by
  rw [solve, solve, Formula.hasEmptyClause_rename]
  split
  · rfl
  · exact walk_rename names chooser formula limit 0 start .empty

end Walk

end Clausal.RandomWalk
