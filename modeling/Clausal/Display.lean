import Clausal.Formula
import Clausal.Text.Quoted

/-!
Displays that name the type of a value: variables, literals, clauses and formulas as they would be built.
-/

set_option autoImplicit false

namespace Clausal

def Variable.display (atom : Variable) : String :=
  "Variable(name=" ++ Text.quoted atom.name ++ ")"

def Literal.display (literal : Literal) : String :=
  "Literal(variable=" ++ literal.atom.display ++ ", positive="
    ++ (if literal.positive then "True" else "False") ++ ")"

/-- A clause as the list of its literals' texts, each in quotes. -/
def Clause.display (clause : Clause) : String :=
  "Clause([" ++ String.intercalate ", " (clause.literals.map fun literal => Text.quoted literal.text)
    ++ "])"

def Formula.display (formula : Formula) : String :=
  "Formula([" ++ String.intercalate ", " (formula.clauses.map Clause.display) ++ "])"

end Clausal
