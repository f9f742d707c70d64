import Clausal.Clause
import Clausal.Quantity

/-!
Misuse of the solvers. Unsatisfiability and an exhausted budget are ordinary answers; the faults here
say that a request makes no sense: a clause that does not fit, a solver that nobody registered.
-/

set_option autoImplicit false

namespace Clausal

/-- A clause that does not fit the solver or graph it was given to. -/
structure InvalidClause where
  summary : String := "Invalid clause detected"
  clause : Option Clause := none
  maxWidth : Option Quantity := none

namespace InvalidClause

/-- The summary, followed by the clause and the limit as far as they are known. -/
def message (fault : InvalidClause) : String :=
  fault.summary
    ++ (fault.clause.map fun clause => ": " ++ clause.text).getD ""
    ++ (fault.maxWidth.map fun limit => " (max width " ++ limit.text ++ ")").getD ""

def noImplications : InvalidClause := { summary := "Empty clause has no implications" }

end InvalidClause

/-- A solver name that is not registered, with the names that are. -/
structure UnknownSolver where
  name : String
  available : List String := []
  deriving DecidableEq

/-- The available names are listed only if there are any. -/
def UnknownSolver.message (fault : UnknownSolver) : String :=
  "No solver registered with name '" ++ fault.name ++ "'"
    ++ (if fault.available.isEmpty then ""
        else " (available: " ++ String.intercalate ", " fault.available ++ ")")

inductive EmptyChoice where
  /-- The empty clause has no literal to branch on. -/
  | literal
  /-- A formula without clauses has no smallest clause. -/
  | clause
  deriving DecidableEq

def EmptyChoice.message : EmptyChoice → String
  | .literal => "Cannot choose a literal from an empty clause"
  | .clause => "Formula has no clauses"

end Clausal
