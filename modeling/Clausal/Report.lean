import Clausal.Outcome
import Clausal.Text.Integer

/-!
The report of an outcome: one line for each variable, numeric names first and by value, the other
names after them by code point; or a single line when there is no assignment.
-/

set_option autoImplicit false

namespace Clausal.Report

inductive Key where
  | numeric (value : Int)
  | named (name : String)
  deriving DecidableEq

def Key.le : Key → Key → Bool
  | .numeric left, .numeric right => left ≤ right
  | .numeric _, .named _ => true
  | .named _, .numeric _ => false
  | .named left, .named right => left ≤ right

/-- The key of a variable. A name made of digits is read as an integer, which fails for digits that
belong to no numeral. -/
def keyOf (atom : Variable) : Except Text.IntegerFault Key :=
  if Text.isNumeric atom.name.toList then
    (Text.readInteger atom.name.toList).map Key.numeric
  else .ok (.named atom.name)

def declaredAtom (index : Nat) : Variable := ⟨toString (index + 1)⟩

/-- Adds the declared variables that have no value yet, as false, in numeric order. -/
def withDeclared (count : Int) (assignment : List (Variable × Bool)) : List (Variable × Bool) :=
  let absent := ((List.range count.toNat).map declaredAtom).filter fun atom =>
    !Assoc.contains atom assignment
  assignment ++ absent.map fun atom => (atom, false)

def line (atom : Variable) (value : Bool) : String :=
  atom.name ++ ":" ++ (Truth.ofBool value).label

/-- The lines of an assignment, sorted by key; variables with equal keys keep their order. -/
def assignmentLines (assignment : List (Variable × Bool)) :
    Except Text.IntegerFault (List String) := do
  let keyed ← assignment.mapM fun entry => (keyOf entry.1).map fun key => (key, entry)
  let sorted := keyed.mergeSort fun left right => left.1.le right.1
  return sorted.map fun (_, atom, value) => line atom value

/-- The lines of an outcome. The declared variables that the assignment leaves out are false. -/
def lines (outcome : Outcome) (declared : Option Int) : Except Text.IntegerFault (List String) :=
  if outcome.isUnsatisfiable then .ok ["UNSAT"]
  else
    match outcome.assignment? with
    | none => .ok ["UNKNOWN"]
    | some assignment => assignmentLines (withDeclared (declared.getD 0) assignment)

end Clausal.Report
