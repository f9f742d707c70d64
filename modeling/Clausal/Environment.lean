import Clausal.Assoc
import Clausal.Formula

/-!
Three-valued truth and environments. An environment binds variables to truth values in the order in
which they were first bound; a variable without a binding reads as undefined.
-/

set_option autoImplicit false

namespace Clausal

inductive Truth where
  | yes
  | no
  | undefined
  deriving DecidableEq

namespace Truth

def ofBool (value : Bool) : Truth := if value then .yes else .no

/-- Logical negation; what is undefined stays undefined. -/
def negate : Truth → Truth
  | .yes => .no
  | .no => .yes
  | .undefined => .undefined

def label : Truth → String
  | .yes => "TRUE"
  | .no => "FALSE"
  | .undefined => "UNDEFINED"

/-- Reads the name of a truth value; the case of the letters counts. -/
def ofLabel? (label : String) : Option Truth :=
  [yes, no, undefined].find? fun value => value.label == label

def decided? : Truth → Option Bool
  | .yes => some true
  | .no => some false
  | .undefined => none

@[simp] theorem negate_negate (value : Truth) : value.negate.negate = value := by
  cases value <;> rfl

@[simp] theorem ofLabel?_label (value : Truth) : ofLabel? value.label = some value := by
  cases value <;> decide

end Truth

/-- Bindings of variables to truth values, one for each variable, in the order of first binding. -/
structure Environment where
  bindings : List (Variable × Truth)
  distinct : (Assoc.keys bindings).Nodup
  deriving DecidableEq

namespace Environment

def empty : Environment := ⟨[], List.nodup_nil⟩

/-- The bound variables, in order. -/
def atoms (environment : Environment) : List Variable := Assoc.keys environment.bindings

/-- The truth value of a variable; undefined when it has no binding. -/
def get (environment : Environment) (atom : Variable) : Truth :=
  (Assoc.get? atom environment.bindings).getD .undefined

/-- Whether the variable has a binding, be it to undefined. -/
def binds (environment : Environment) (atom : Variable) : Bool :=
  Assoc.contains atom environment.bindings

/-- Binds a variable; one that is already bound keeps its place. -/
def put (environment : Environment) (atom : Variable) (value : Truth) : Environment :=
  ⟨Assoc.insert atom value environment.bindings, Assoc.nodup_keys_insert environment.distinct⟩

/-- Binds the literal's variable so that the literal evaluates to true. -/
def assert (environment : Environment) (literal : Literal) : Environment :=
  environment.put literal.atom (.ofBool literal.positive)

/-- The environment of the given bindings; a repeated variable keeps its first place and last value. -/
def ofList (bindings : List (Variable × Truth)) : Environment :=
  bindings.foldl (fun environment binding => environment.put binding.1 binding.2) empty

def eval (environment : Environment) (literal : Literal) : Truth :=
  let value := environment.get literal.atom
  if literal.positive then value else value.negate

/-- A clause is satisfied by a literal that evaluates to true. -/
def satisfiesClause (environment : Environment) (clause : Clause) : Bool :=
  clause.literals.any fun literal => environment.eval literal == .yes

/-- A formula is satisfied when each of its clauses is. -/
def satisfies (environment : Environment) (formula : Formula) : Bool :=
  formula.clauses.all environment.satisfiesClause

def countSatisfied (environment : Environment) (formula : Formula) : Nat :=
  formula.clauses.countP environment.satisfiesClause

/-- The decided variables with their two-valued truth, in order. -/
def decided (environment : Environment) : List (Variable × Bool) :=
  environment.bindings.filterMap fun (atom, value) => value.decided?.map (atom, ·)

/-- The environment that decides exactly the given variables. -/
def ofDecided (assignment : List (Variable × Bool)) : Environment :=
  ofList (assignment.map fun (atom, value) => (atom, .ofBool value))

/-- Equality as a mapping: the order of the bindings does not count. -/
def equiv (left right : Environment) : Bool :=
  left.bindings.length == right.bindings.length
    && left.bindings.all fun (atom, value) => Assoc.get? atom right.bindings == some value

/-- Binds to false each of the variables that has no binding yet, in the given order. -/
def completeWith (environment : Environment) (atoms : List Variable) : Environment :=
  atoms.foldl (fun completed atom =>
    if completed.binds atom then completed else completed.put atom .no) environment

/-- The bindings between parentheses, in order. -/
def text (environment : Environment) : String :=
  let binding := fun (entry : Variable × Truth) => entry.1.name ++ "=" ++ entry.2.label
  "Environment(" ++ String.intercalate ", " (environment.bindings.map binding) ++ ")"

theorem nodup_atoms (environment : Environment) : environment.atoms.Nodup := environment.distinct

theorem get_put (environment : Environment) (atom other : Variable) (value : Truth) :
    (environment.put atom value).get other = if atom = other then value else environment.get other := by
  simp only [get, put, Assoc.get?_insert]
  split <;> rfl

theorem eval_negate (environment : Environment) (literal : Literal) :
    environment.eval literal.negate = (environment.eval literal).negate := by
  cases polarity : literal.positive <;> simp [eval, polarity]

@[simp] theorem eval_assert (environment : Environment) (literal : Literal) :
    (environment.assert literal).eval literal = .yes := by
  cases polarity : literal.positive <;>
    simp [eval, assert, get_put, polarity, Truth.ofBool, Truth.negate]

end Environment

end Clausal
