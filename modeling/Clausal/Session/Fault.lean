import Clausal.Dimacs
import Clausal.EventLog
import Clausal.Logging
import Clausal.Solver

/-!
The faults of a session: what can go wrong in any of its operations, with the name of its kind and its
text.
-/

set_option autoImplicit false

namespace Clausal

inductive Session.Fault where
  | unknownSolver (fault : UnknownSolver)
  | registration (fault : RegistrationFault)
  /-- A solver is to be selected for a formula of which no width is known. -/
  | noWidth
  | solver (fault : SolverFault)
  | config (fault : ConfigFault)
  /-- No formula stands at the path. -/
  | noFormula (path : String)
  | file (fault : FileFault)
  | encoding (fault : Text.Utf8.Fault)
  | dimacs (fault : Dimacs.Fault)
  /-- A variable's name is made of digits that belong to no numeral. -/
  | numeral (fault : Text.IntegerFault)
  | event (fault : EventFault)
  | logging (fault : Logging.SetupFault)
  /-- An event was to be logged where no event log was asked for. -/
  | noEventLog
  /-- An integer has more digits than are written. -/
  | noNumeral

namespace Session.Fault

def solverKind : SolverFault → String
  | .unexpectedArgument _ _ => "TypeError"
  | .unknownParameter _ _ => "ValueError"
  | .noProperty _ _ => "AttributeError"
  | .clause _ => "InvalidClauseError"
  | .operand _ => "TypeError"

def loggingKind : Logging.SetupFault → String
  | .level (.unknownName _) => "ValueError"
  | .level (.notALevel _) => "TypeError"
  | .format (.noField _) => "ValueError"
  | .format (.notText _) => "TypeError"
  | .noPath _ => "TypeError"
  | .file fault => fault.cause.kind

def loggingMessage : Logging.SetupFault → String
  | .level fault => fault.message
  | .format fault => fault.message
  | .noPath typeName => "expected str, bytes or os.PathLike object, not " ++ typeName
  | .file fault => fault.message

def kind : Fault → String
  | .unknownSolver _ => "SolverNotFoundError"
  | .registration (.noSolver _) => "TypeError"
  | .registration .reserved => "ValueError"
  | .noWidth => "ValueError"
  | .solver fault => solverKind fault
  | .config fault => fault.kind
  | .noFormula _ => "FileNotFoundError"
  | .file fault => fault.cause.kind
  | .encoding _ => "UnicodeDecodeError"
  | .dimacs _ => "ValueError"
  | .numeral _ => "ValueError"
  | .event (.file fault) => fault.cause.kind
  | .event (.value _) => "TypeError"
  | .logging fault => loggingKind fault
  | .noEventLog => "AttributeError"
  | .noNumeral => "ValueError"

/-- The text of a fault; some faults go by their kind alone. -/
def message? : Fault → Option String
  | .unknownSolver fault => some fault.message
  | .registration fault => some fault.message
  | .noWidth => some "Selecting a solver automatically needs the clause width"
  | .solver fault => some fault.message
  | .config fault => fault.message?
  | .noFormula path => some ("CNF file not found: " ++ path)
  | .file fault => some fault.message
  | .encoding fault => some fault.message
  | .dimacs fault => some fault.message
  | .numeral fault => some fault.message
  | .event fault => some fault.message
  | .logging fault => some (loggingMessage fault)
  | .noEventLog => some "'NoneType' object has no attribute 'log_exception'"
  | .noNumeral =>
      some
        ("Exceeds the limit (" ++ toString Text.digitLimit
          ++ " digits) for integer string conversion; use sys.set_int_max_str_digits() to increase the "
          ++ "limit")

/-- The text of a fault, empty if it goes by its kind alone. -/
def message (fault : Fault) : String := fault.message?.getD ""

end Session.Fault

end Clausal
