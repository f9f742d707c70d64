import Clausal.Datum
import Clausal.Decimal.Fixed
import Clausal.Environment

/-!
Outcomes of solver runs: a status, the environment found, how long it took, and what was counted.
-/

set_option autoImplicit false

namespace Clausal

/-- The verdict of a run. An incomplete search that gives up says nothing about satisfiability. -/
inductive Status where
  | satisfiable
  | unsatisfiable
  | unknown
  | error
  deriving DecidableEq

namespace Status

def label : Status → String
  | .satisfiable => "satisfiable"
  | .unsatisfiable => "unsatisfiable"
  | .unknown => "unknown"
  | .error => "error"

def title : Status → String
  | .satisfiable => "SATISFIABLE"
  | .unsatisfiable => "UNSATISFIABLE"
  | .unknown => "UNKNOWN"
  | .error => "ERROR"

def ofTitle? (title : String) : Option Status :=
  [satisfiable, unsatisfiable, unknown, error].find? fun status => status.title == title

@[simp] theorem ofTitle?_title (status : Status) : ofTitle? status.title = some status := by
  cases status <;> decide

end Status

/-- The outcome of a run. Statistics stay in the order in which they were recorded; the message says
why there is no answer. -/
structure Outcome where
  status : Status := .unknown
  environment : Option Environment := none
  runtime : Quantity := .real 0
  statistics : List (String × Datum) := []
  message : Option String := none

namespace Outcome

/-- The decided variables of a satisfiable outcome; other outcomes have no assignment. -/
def assignment? (outcome : Outcome) : Option (List (Variable × Bool)) :=
  match outcome.status with
  | .satisfiable => outcome.environment.map Environment.decided
  | _ => none

def isSatisfiable (outcome : Outcome) : Bool := outcome.status == .satisfiable

def isUnsatisfiable (outcome : Outcome) : Bool := outcome.status == .unsatisfiable

def isUnknown (outcome : Outcome) : Bool := outcome.status == .unknown

def seconds (outcome : Outcome) : String := Decimal.fixed 4 outcome.runtime.toFloat

/-- A satisfiable outcome came without an environment, so that there are no variables to count. -/
structure NothingToCount where
  deriving DecidableEq

def NothingToCount.message (_ : NothingToCount) : String := "object of type 'NoneType' has no len()"

/-- One line on the outcome. An empty message counts as none where nothing was found, and stands as it
is in an error. -/
def summary (outcome : Outcome) : Except NothingToCount String :=
  let headed := fun (detail : String) =>
    "SAT Result: " ++ outcome.status.title ++ " (" ++ detail ++ ")"
  match outcome.status with
  | .satisfiable =>
      match outcome.assignment? with
      | some assignment =>
          .ok (headed (toString assignment.length ++ " variables, " ++ outcome.seconds ++ "s"))
      | none => .error {}
  | .unsatisfiable => .ok (headed ("proved in " ++ outcome.seconds ++ "s"))
  | .error => .ok (headed (outcome.message.getD "None"))
  | .unknown =>
      let reason := outcome.message.getD ""
      .ok (headed (if reason.isEmpty then "no answer found" else reason))

end Outcome

end Clausal
