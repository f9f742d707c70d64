import Clausal.Datum.Display

/-!
Levels of log records, and the records. A level is a number; some have names.
-/

set_option autoImplicit false

namespace Clausal.Logging

/-- The named levels; where two names share a number, the first is the one shown. -/
def namedLevels : List (String × Int) :=
  [
    ("CRITICAL", 50), ("FATAL", 50), ("ERROR", 40), ("WARNING", 30), ("WARN", 30), ("INFO", 20),
    ("DEBUG", 10), ("NOTSET", 0)
  ]

def debug : Int := 10

def info : Int := 20

def warning : Int := 30

def error : Int := 40

/-- The name of a number, or the number itself after a word. -/
def levelName (number : Int) : String :=
  match namedLevels.find? fun named => named.2 = number with
  | some (name, _) => name
  | none => "Level " ++ toString number

/-- A level as it was given: a number, or a truth value that acts as one. -/
inductive Level where
  | number (value : Int)
  | flag (value : Bool)
  deriving DecidableEq

def Level.value : Level → Int
  | .number value => value
  | .flag value => if value then 1 else 0

def Level.datum : Level → Datum
  | .number value => .int value
  | .flag value => .bool value

/-- What is no level: an unknown name, or a value that is neither a name nor a number. -/
inductive LevelFault where
  | unknownName (shown : String)
  | notALevel (shown : String)
  deriving DecidableEq

def LevelFault.message : LevelFault → String
  | .unknownName shown => "Unknown level: " ++ shown
  | .notALevel shown => "Level not an integer or a valid string: " ++ shown

def Level.ofDatum (given : Datum) : Except LevelFault Level :=
  match given with
  | .int value => .ok (.number value)
  | .bool value => .ok (.flag value)
  | .text name =>
      match Assoc.get? name namedLevels with
      | some value => .ok (.number value)
      | none => .error (.unknownName given.display)
  | _ => .error (.notALevel given.display)

/-- A message on its way to the logs: where it comes from, and how grave it is. -/
structure Record where
  source : String
  level : Int
  message : String
  deriving DecidableEq

end Clausal.Logging
