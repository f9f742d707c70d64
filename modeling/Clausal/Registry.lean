import Clausal.Assoc
import Clausal.Fault
import Clausal.Quantity

/-!
The registry of solvers. A kind of solver may be registered under several names and itself bears the last
of them. For a clause width the registry selects the complete solver with the narrowest limit that still
accepts it.
-/

set_option autoImplicit false

namespace Clausal

inductive Algorithm where
  | backtracking
  | implication
  | randomWalk
  /-- No algorithm of its own: the outcome is always unknown. -/
  | custom
  deriving DecidableEq

/-- The name of the type of solver that follows an algorithm. -/
def Algorithm.typeName : Algorithm → String
  | .backtracking => "DPLLSolver"
  | .implication => "TwoSatSolver"
  | .randomWalk => "RandomWalkSolver"
  | .custom => "Custom"

/-- A kind of solver: its own name, the widest clause that it accepts (any width without a limit), and
whether it can prove unsatisfiability. -/
structure SolverKind where
  algorithm : Algorithm
  name : String
  maxWidth : Option Quantity
  complete : Bool

/-- Where a limit stands. To have none is to be above every number. -/
def limitStanding? : Option Quantity → Option Quantity.Standing
  | none => some .top
  | some limit => limit.standing?

def SolverKind.accepts (kind : SolverKind) (width : Quantity) : Bool :=
  Quantity.isAtMost? width.standing? (limitStanding? kind.maxWidth)

/-- Whether a limit is strictly narrower than another one. -/
def isNarrower (left right : Option Quantity) : Bool :=
  !Quantity.isAtMost? (limitStanding? right) (limitStanding? left)

/-- The name that stands for selection by width. -/
def automatic : String := "auto"

inductive Candidate where
  /-- The kind of solver at a position. -/
  | kind (position : Nat)
  /-- Something that is no kind of solver, as it is displayed. -/
  | other (shown : String)
  deriving DecidableEq

inductive RegistrationFault where
  | noSolver (shown : String)
  | reserved
  deriving DecidableEq

def RegistrationFault.message : RegistrationFault → String
  | .noSolver shown => "Solver class " ++ shown ++ " must inherit from SolverBase"
  | .reserved => "'" ++ automatic ++ "' is reserved for width-based selection"

/-- The kinds of solvers, and the registered names in order of registration with the positions of their
kinds. -/
structure Registry where
  kinds : List SolverKind
  entries : List (String × Nat)

namespace Registry

/-- The positions of the kinds that are there from the beginning. -/
def backtrackingKind : Nat := 0

def randomWalkKind : Nat := 1

def implicationKind : Nat := 2

def implicationName : String := "2sat"

def randomWalkName : String := "random_walk"

def initial : Registry where
  kinds :=
    [
      ⟨.backtracking, "dpll", none, true⟩,
      ⟨.randomWalk, randomWalkName, none, false⟩,
      ⟨.implication, implicationName, some (.whole 2), true⟩
    ]
  entries :=
    [("dpll", backtrackingKind), (randomWalkName, randomWalkKind), (implicationName, implicationKind)]

/-- The registered names, in order. -/
def names (registry : Registry) : List String := Assoc.keys registry.entries

def contains (registry : Registry) (name : String) : Bool :=
  Assoc.contains name registry.entries

/-- Adds a kind that is not registered yet and returns its position. -/
def addKind (registry : Registry) (kind : SolverKind) : Registry × Nat :=
  ({ registry with kinds := registry.kinds ++ [kind] }, registry.kinds.length)

/-- Registers a candidate. A name that is taken keeps its place; the kind takes the name as its own. -/
def register (registry : Registry) (name : String) :
    Candidate → Except RegistrationFault Registry
  | .other shown => .error (.noSolver shown)
  | .kind position =>
      if name = automatic then .error .reserved
      else
        .ok
          { kinds := registry.kinds.modify position fun kind => { kind with name }
            entries := Assoc.insert name position registry.entries }

def kindAt? (registry : Registry) (position : Nat) : Option SolverKind := registry.kinds[position]?

/-- The position of the kind that is registered under a name. -/
def position? (registry : Registry) (name : String) : Option Nat :=
  Assoc.get? name registry.entries

/-- The position of the kind under a name; an unregistered name is refused. -/
def find (registry : Registry) (name : String) : Except UnknownSolver Nat :=
  match registry.position? name with
  | some position => .ok position
  | none => .error ⟨name, registry.names⟩

/-- The names of the complete solvers that accept a width, with their limits. -/
def candidates (registry : Registry) (width : Quantity) : List (String × Option Quantity) :=
  registry.entries.filterMap fun (name, position) =>
    match registry.kindAt? position with
    | some kind => if kind.complete && kind.accepts width then some (name, kind.maxWidth) else none
    | none => none

/-- The earlier of two candidates wins unless the later one has a narrower limit. -/
def narrowerOf (best candidate : String × Option Quantity) : String × Option Quantity :=
  if isNarrower candidate.2 best.2 then candidate else best

/-- The name of the complete solver with the narrowest limit that accepts a width, the first of several;
refused when there is none. -/
def select (registry : Registry) (width : Quantity) : Except UnknownSolver String :=
  match registry.candidates width with
  | [] => .error ⟨automatic, registry.names⟩
  | first :: rest => .ok (rest.foldl narrowerOf first).1

end Registry

end Clausal
