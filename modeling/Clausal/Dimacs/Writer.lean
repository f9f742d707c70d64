import Clausal.Dimacs

/-!
Writing the DIMACS format: comment lines, the problem line, and one line for each clause, without a
line end after the last.
-/

set_option autoImplicit false

namespace Clausal.Dimacs

/-- The highest index among integer clauses; zero when there is none. -/
def highestIndex (clauses : List (List Int)) : Nat :=
  (clauses.flatten.map Int.natAbs).foldr max 0

/-- The line of a clause: its integers and the closing zero. -/
def clauseLine (clause : List Int) : String :=
  String.intercalate " " (clause.map toString ++ ["0"])

def documentLines (clauses : List (List Int)) (atomCount : Int) (comments : List String) :
    List String :=
  comments.map ("c " ++ ·)
    ++ ("p cnf " ++ toString atomCount ++ " " ++ toString clauses.length)
    :: clauses.map clauseLine

/-- Writes a formula. Without a number of variables the highest index is declared; a number that is
given is written as it is. -/
def write (formula : Formula) (atomCount : Option Int) (comments : List String) :
    Except Fault String := do
  let clauses ← formula.clauses.mapM fun clause => clause.literals.mapM intOf?
  return String.intercalate "\n"
    (documentLines clauses (atomCount.getD (highestIndex clauses)) comments)

end Clausal.Dimacs
