import Clausal.Formula
import Clausal.Text.Integer

/-!
Numbered literals. A nonzero integer stands for the literal over the variable that is named by its
absolute value; zero ends a clause and stands for no literal.
-/

set_option autoImplicit false

namespace Clausal.Dimacs

/-- What can be wrong with a text in DIMACS format, or with a formula to be written in it. -/
inductive Fault where
  /-- Zero was given as a literal. -/
  | zeroLiteral
  /-- A variable's name does not read as an index. -/
  | notAnIndex (name : String)
  /-- A second problem line. -/
  | repeatedHeader
  /-- A problem line of the wrong form. -/
  | badHeader (line : String)
  /-- A problem line whose counts are no integers. -/
  | badCounts (line : String)
  /-- A clause line before any problem line. -/
  | earlyClause (line : String)
  /-- A clause line with a word that is no integer. -/
  | badLiteral (line : String)
  /-- A literal beyond the declared number of variables. -/
  | undeclared (value declared : Int)
  /-- No problem line at all. -/
  | noHeader
  /-- Another number of clauses than declared. -/
  | clauseCount (declared : Int) (found : Nat)
  deriving DecidableEq

def Fault.message : Fault → String
  | .zeroLiteral => "0 is a clause terminator, not a literal"
  | .notAnIndex name => "Variable name " ++ Text.quoted name ++ " is not a DIMACS index"
  | .repeatedHeader => "Multiple problem lines in CNF file"
  | .badHeader line => "Invalid problem line: " ++ line
  | .badCounts line => "Invalid numbers in problem line: " ++ line
  | .earlyClause line => "Clause data before problem line: " ++ line
  | .badLiteral line => "Invalid literal in clause line: " ++ line
  | .undeclared value declared =>
      "Literal " ++ toString value ++ " exceeds declared variable count " ++ toString declared
  | .noHeader => "No problem line found in CNF file"
  | .clauseCount declared found =>
      "Expected " ++ toString declared ++ " clauses, but found " ++ toString found

def literalOf (value : Int) : Literal :=
  ⟨⟨toString value.natAbs⟩, decide (0 < value)⟩

/-- The literal that an integer stands for; zero stands for none. -/
def literalOf? (value : Int) : Except Fault Literal :=
  if value = 0 then .error .zeroLiteral else .ok (literalOf value)

/-- The integer that stands for a literal, read from its variable's name by the rules for integers. -/
def intOf? (literal : Literal) : Except Fault Int :=
  match Text.readInteger? literal.atom.name.toList with
  | none => .error (.notAnIndex literal.atom.name)
  | some index => .ok (if literal.positive then index else -index)

/-- The formula of lists of integers, one clause for each list. -/
def buildFormula (clauses : List (List Int)) : Except Fault Formula := do
  let literals ← clauses.mapM fun clause => clause.mapM literalOf?
  return .ofLists literals

end Clausal.Dimacs
