import Clausal.Command.Arguments
import Clausal.Session

/-!
The command: reads a formula from a file, decides it with the solver asked for, and prints and writes what
it finds. A run begins by preparing everything up to the point where the solver starts, and is concluded
when the solver has run, so that the time between can be taken.
-/

set_option autoImplicit false

namespace Clausal.Command

open Session

def source : String := "satengine.cli"

inductive Ending where
  /-- With an exit code. -/
  | code (value : Nat)
  /-- The command line was refused. -/
  | refused (refusal : Refusal)
  /-- With a fault that the command does not deal with. -/
  | fault (fault : Fault)

def failureCode : Nat := 1

def codeOf : Status → Nat
  | .satisfiable => 10
  | .unsatisfiable => 20
  | _ => 0

def verdictLine : Status → String
  | .satisfiable => "satisfiable"
  | .unsatisfiable => "not satisfiable"
  | .unknown => "no answer found"
  | .error => "error"

/-- Carries out an action and returns its fault, if it has one, as a value. -/
def attempt {α : Type} (action : Action α) : Action (Except Fault α) :=
  ExceptT.lift action.run

/-- The result of a part of a run, with the manager of its logs as the part leaves it. -/
structure Managed (α : Type) where
  manager : Manager
  result : Except Fault α

/-- Logs a fault as an event, if there is an event log, and ends the run with the exit code for
failures. -/
def failWith (manager : Manager) (path : String) (fault : Fault) : Action (Managed Nat) := do
  match manager.events with
  | none => return ⟨manager, .ok failureCode⟩
  | some events =>
      let (events, result) ← logException events path fault.kind fault.message
      return ⟨{ manager with events := some events }, result.map fun _ => failureCode⟩

/-- Everything that the solver of a run needs, and what comes after it. -/
structure Prepared where
  arguments : Arguments
  manager : Manager
  document : Dimacs.Document
  solver : Solver
  kind : SolverKind

def solverArguments (arguments : Arguments) (name : String) (declared : Int) :
    List (String × Datum) :=
  if name = Registry.randomWalkName then
    [
      ("budget", (arguments.budget.map Datum.int).getD .null),
      ("seed", (arguments.seed.map Datum.int).getD .null), ("num_variables", .int declared)
    ]
  else []

def prepareSolver (arguments : Arguments) (name : String) (document : Dimacs.Document) :
    Action (Solver × SolverKind) := do
  let solver ←
    createSolver (some (.text name)) none (solverArguments arguments name document.atomCount)
  return (solver, ← kindOf solver.kind)

/-- A part of a run that ended it, or the preparations for the solver. -/
inductive Preparation where
  | ended (managed : Managed Nat)
  | ready (prepared : Prepared)

def prepare (arguments : Arguments) (manager : Manager) : Action Preparation := do
  match ← attempt (loadFormula arguments.formula) with
  | .error fault => do
      log source Logging.error ("Could not read " ++ arguments.formula ++ ": " ++ fault.message)
      return .ended (← failWith manager arguments.formula fault)
  | .ok document => do
      match ← attempt
          (resolve (arguments.solver.map Datum.text) (some (.whole document.width))) with
      | .error (.unknownSolver fault) => do
          log source Logging.error fault.message
          return .ended ⟨manager, .ok failureCode⟩
      | .error fault => return .ended ⟨manager, .error fault⟩
      | .ok name => do
          match ← attempt (prepareSolver arguments name document) with
          | .error fault => return .ended ⟨manager, .error fault⟩
          | .ok (solver, kind) => do
              print "SAT solver starts!!!"
              return .ready ⟨arguments, manager, document, solver, kind⟩

/-- Logs an outcome as an event, if there is an event log, and writes the report if it is asked for. -/
def deliver (prepared : Prepared) (outcome : Outcome) : Action (Managed Nat) := do
  let (manager, logged) ← match prepared.manager.events with
    | none => pure (prepared.manager, Except.ok ())
    | some events => do
        let (events, logged) ← logSolve events prepared.arguments.formula outcome
        pure ({ prepared.manager with events := some events }, logged)
  match logged with
  | .error fault => return ⟨manager, .error fault⟩
  | .ok () => do
      let path := prepared.arguments.output.getD ""
      let written ←
        if path.isEmpty then pure (.ok ())
        else attempt (writeOutcome path outcome (some prepared.document.atomCount))
      return ⟨manager, written.map fun _ => codeOf outcome.status⟩

/-- Whether the numbers that a run was given can be written. Its counts always can. -/
def isWritable (statistics : List (String × Datum)) : Bool :=
  ["budget", "seed"].all fun key =>
    match Assoc.get? key statistics with
    | some (.int value) => Text.hasNumeral value
    | _ => true

/-- Prints what was found and delivers it. The statistics are written before it is delivered, and a number
in them that cannot be written ends the run. -/
def report (prepared : Prepared) (run : Solver.Run) : Action (Managed Nat) := do
  let (_, result) ← endRun prepared.solver run
  match result with
  | .error (.solver (.clause fault)) => do
      log source Logging.error fault.message
      failWith prepared.manager prepared.arguments.formula (.solver (.clause fault))
  | .error fault => return ⟨prepared.manager, .error fault⟩
  | .ok outcome => do
      print (verdictLine outcome.status)
      print ("Time: " ++ Decimal.fixed 3 ((← get).elapsed * 1000) ++ "ms")
      if isWritable outcome.statistics then
        log source Logging.debug ("Statistics: " ++ (Datum.map outcome.statistics).display)
        deliver prepared outcome
      else return ⟨prepared.manager, .error .noNumeral⟩

/-- Closes the logs of a run; a fault in closing takes the place of the run's result. -/
def finish (managed : Managed Nat) : Action Ending := do
  let (_, closed) ← closeManager managed.manager
  match closed with
  | .error fault => return .fault fault
  | .ok () =>
      match managed.result with
      | .ok code => return .code code
      | .error fault => return .fault fault

/-- Sets up the logs of a run as the options and the configuration say. -/
def openLogs (arguments : Arguments) : Action Manager := do
  let config := (← get).config
  let level :=
    if arguments.verbose then Datum.text "DEBUG"
    else config.getD "logging.level" (.text "INFO")
  let directory :=
    if (arguments.logDirectory.getD "").isEmpty then config.getD "output.log_dir" .null
    else .text (arguments.logDirectory.getD "")
  openManager
    { level
      format := config.getD "logging.format" .null
      file := config.getD "logging.file" .null }
    directory (Path.stem arguments.formula)

/-- The paths that the arguments and a configuration name for reading and writing. -/
def paths (arguments : Arguments) (config : Config) : List String :=
  let configured := ["output.log_dir", "logging.file"].filterMap fun key =>
    match config.get? key with
    | some (.text path) => some path
    | _ => none
  arguments.formula :: arguments.output.toList ++ arguments.config.toList
    ++ arguments.logDirectory.toList ++ configured

/-- A run that has ended, or one whose solver is to run next. -/
inductive Stage where
  | ended (ending : Ending)
  | ready (prepared : Prepared)

/-- Begins a run, up to the point where the solver starts. A configuration file that is missing ends it
before logging is set up. -/
def begin (line : List String) : Action Stage := do
  match Arguments.read line with
  | .error refusal => do
      if refusal ≠ .help then printError ("satengine: error: " ++ refusal.message)
      return .ended (.refused refusal)
  | .ok arguments => do
      match ← attempt (loadConfig arguments.config) with
      | .error (.config (.missing path)) => do
          printError ("error: " ++ (ConfigFault.missing path).message?.getD "")
          return .ended (.code failureCode)
      | .error fault => return .ended (.fault fault)
      | .ok () => do
          match ← attempt (openLogs arguments) with
          | .error fault => return .ended (.fault fault)
          | .ok manager => do
              match ← prepare arguments manager with
              | .ended managed => return .ended (← finish managed)
              | .ready prepared => return .ready prepared

def conclude (prepared : Prepared) (run : Solver.Run) : Action Ending := do
  finish (← report prepared run)

def Prepared.run (prepared : Prepared) (entropy : Int) : Solver.Run :=
  prepared.solver.run prepared.kind entropy prepared.document.formula

def run (line : List String) : Action Ending := do
  match ← begin line with
  | .ended ending => return ending
  | .ready prepared => conclude prepared (prepared.run (← get).entropy)

def runIn (session : Session) (line : List String) : Session × Ending :=
  match (run line).run session with
  | (.ok ending, later) => (later, ending)
  | (.error fault, later) => (later, .fault fault)

end Clausal.Command
