import Clausal.Dimacs.Reader
import Clausal.Dimacs.Writer
import Clausal.Report
import Clausal.Session.Fault

/-!
Sessions: files, configuration, registry and loggers, and what was printed. The operations of a session
change it step by step; what happened before a fault stays. A session reads no clock: the time that it
notes and the time that every run takes are given to it.
-/

set_option autoImplicit false

namespace Clausal

/-- Everything that the operations of a session read and change. -/
structure Session where
  files : Files := {}
  config : Config := .default
  registry : Registry := .initial
  loggers : Logging.Loggers := {}
  /-- What was printed. -/
  output : String := ""
  /-- What was logged to the console, or printed as an error. -/
  errors : String := ""
  /-- The time of everything that happens now. -/
  now : Instant := ⟨0⟩
  /-- The seconds that every run takes. -/
  elapsed : Float := 0
  /-- What seeds random walks that have no seed. -/
  entropy : Int := 0

namespace Session

abbrev Action := ExceptT Fault (StateM Session)

def logAll (records : List Logging.Record) : Action Unit :=
  modify fun session =>
    let target :=
      Logging.emitAll session.loggers session.now ⟨session.files, session.errors⟩ records
    { session with files := target.files, errors := target.console }

def log (source : String) (level : Int) (message : String) : Action Unit :=
  logAll [⟨source, level, message⟩]

def print (line : String) : Action Unit :=
  modify fun session => { session with output := session.output ++ line ++ "\n" }

def printError (line : String) : Action Unit :=
  modify fun session => { session with errors := session.errors ++ line ++ "\n" }

/-- Fails with a fault of the given form unless there is a value. -/
def orFail {α ε : Type} (form : ε → Fault) (result : Except ε α) : Action α :=
  match result with
  | .ok value => return value
  | .error fault => throw (form fault)

/-- Changes the files, if the change succeeds. -/
def changeFiles {ε : Type} (form : ε → Fault) (change : Files → Except ε Files) : Action Unit := do
  let files ← orFail form (change (← get).files)
  modify fun session => { session with files }

/-! Configuration. -/

/-- Reads a configuration from a file over the defaults; without a path the defaults stand. -/
def readConfig (path : Option String) : Action Config := do
  match path.getD "" with
  | "" => return .default
  | path =>
      let config ← orFail .config (Config.load (← get).files path)
      log "satengine.solvers.config" Logging.debug ("Loaded configuration from " ++ path)
      return config

/-- Makes the configuration of a file the current one; without a path it stays. -/
def loadConfig (path : Option String) : Action Unit := do
  if (path.getD "").isEmpty then return
  let config ← readConfig path
  modify fun session => { session with config }

def resetConfig : Action Unit := modify fun session => { session with config := .default }

def setConfig (key : String) (value : Datum) : Action Unit := do
  let (config, fault) := (← get).config.set key value
  modify fun session => { session with config }
  match fault with
  | none => return
  | some fault => throw (.config fault)

def updateConfig (tree : Datum) : Action Unit := do
  let config ← orFail .config ((← get).config.update tree)
  modify fun session => { session with config }

def saveConfig (path : String) : Action Unit := do
  let config := (← get).config
  changeFiles .file fun files => config.save files path

/-! Registry and solvers. -/

/-- Registers a candidate; taking over a name is noted as a warning. -/
def register (name : String) (candidate : Candidate) : Action Unit := do
  let before := (← get).registry
  let registry ← orFail .registration (before.register name candidate)
  if before.contains name then
    log "satengine.solvers.registry" Logging.warning
      ("Overriding existing solver registration for '" ++ name ++ "'")
  modify fun session => { session with registry }

/-- The name of the complete solver that suits a width. -/
def select (width : Quantity) : Action String := do
  orFail .unknownSolver ((← get).registry.select width)

/-- The registered name that a request stands for. Without a name the configured one counts; the automatic
name needs a width to select by. -/
def resolve (name : Option Datum) (width : Option Quantity) : Action String := do
  let requested := name.getD ((← get).config.getD "solver.name" (.text automatic))
  let chosen ← match requested with
    | .text name =>
        if name = automatic then
          match width with
          | none => throw .noWidth
          | some width => do
              let name ← select width
              log "satengine.solvers.registry" Logging.debug
                ("Clause width " ++ width.text ++ ": selected solver '" ++ name ++ "'")
              pure name
        else pure name
    | other => throw (.unknownSolver ⟨other.plain, (← get).registry.names⟩)
  let _ ← orFail .unknownSolver ((← get).registry.find chosen)
  return chosen

def kindOf (position : Nat) : Action SolverKind := do
  match (← get).registry.kindAt? position with
  | some kind => return kind
  | none => throw (.unknownSolver ⟨"", (← get).registry.names⟩)

def makeSolver (position : Nat) (arguments : List (String × Datum)) : Action Solver := do
  let kind ← kindOf position
  orFail .solver (Solver.create (← get).config position kind arguments)

def createSolver (name : Option Datum) (width : Option Quantity)
    (arguments : List (String × Datum)) : Action Solver := do
  let name ← resolve name width
  let position ← orFail .unknownSolver ((← get).registry.find name)
  makeSolver position arguments

/-- Ends a run: its records are logged and its time is noted. The solver comes back with new statistics,
also after a fault. -/
def endRun (solver : Solver) (run : Solver.Run) : Action (Solver × Except Fault Outcome) := do
  let elapsed := (← get).elapsed
  logAll run.records
  return (run.solverAfter solver elapsed, (run.outcome elapsed).mapError .solver)

def runSolver (solver : Solver) (formula : Formula) : Action (Solver × Except Fault Outcome) := do
  let kind ← kindOf solver.kind
  endRun solver (solver.run kind (← get).entropy formula)

/-- The budget that a random walk would have for a formula; other solvers have none. -/
def defaultBudget (solver : Solver) (formula : Formula) : Action Datum := do
  let kind ← kindOf solver.kind
  orFail .solver (kind.algorithm.offers "default_budget")
  orFail (fun fault => .solver (.operand fault)) (solver.defaultBudget kind formula)

/-- Refuses a formula that is too wide for a solver that has a limit to check. -/
def validate (solver : Solver) (formula : Formula) : Action Unit := do
  let kind ← kindOf solver.kind
  orFail .solver (kind.algorithm.offers "validate")
  orFail .solver (solver.validate kind formula)

def solveWith (position : Nat) (arguments : List (String × Datum)) (formula : Formula) :
    Action Outcome := do
  let solver ← makeSolver position arguments
  let (_, result) ← runSolver solver formula
  match result with
  | .ok outcome => return outcome
  | .error fault => throw fault

def solveTwoSat (formula : Formula) : Action Outcome :=
  solveWith Registry.implicationKind [] formula

def solveDpll (formula : Formula) : Action Outcome :=
  solveWith Registry.backtrackingKind [] formula

/-- Runs the random walk with a budget and a seed, where null stands for what is configured. -/
def solveRandomly (budget seed : Datum) (formula : Formula) : Action Outcome :=
  solveWith Registry.randomWalkKind [("budget", budget), ("seed", seed)] formula

/-- Decides a formula: by its implication graph if the solver for narrow clauses suits the width, and by
search otherwise. Without a width that of the formula counts. -/
def solve (formula : Formula) (width : Option Quantity) : Action Outcome := do
  let width := width.getD (.whole formula.width)
  let name ← select width
  let source := "satengine.solvers.dispatch"
  if name = Registry.implicationName then
    log source Logging.debug ("Clause width " ++ width.text ++ ": using 2-SAT solver")
    solveTwoSat formula
  else
    log source Logging.debug ("Clause width " ++ width.text ++ ": using DPLL solver")
    solveDpll formula

/-! Formulas and outcomes in files. -/

def formulaSource : String := "satengine.utils.cnf"

def noteDocument (document : Dimacs.Document) : Action Unit :=
  log formulaSource Logging.debug
    ("Parsed DIMACS formula: " ++ toString document.atomCount ++ " variables, "
      ++ toString document.clauseCount ++ " clauses, width " ++ toString document.width)

def loadFormula (path : String) : Action Dimacs.Document := do
  let files := (← get).files
  if !files.contains path then throw (.noFormula path)
  let bytes ← orFail .file (files.read path)
  let text ← orFail .encoding (Text.Utf8.decode bytes)
  let document ← orFail .dimacs (Dimacs.parseFile text)
  noteDocument document
  return document

/-- Saves a formula to a file. The file is emptied before the formula is written out. -/
def saveFormula (path : String) (formula : Formula) (atomCount : Option Int)
    (comments : List String) : Action Unit := do
  changeFiles .file fun files => files.save path ""
  let text ← orFail .dimacs (Dimacs.write formula atomCount comments)
  changeFiles .file fun files => files.save path text

/-- Writes the report of an outcome to a file, making the directories above it. The file is emptied before
the report is made. -/
def writeOutcome (path : String) (outcome : Outcome) (declared : Option Int) : Action Unit := do
  changeFiles .file fun files => files.makeDirectoryOf path
  changeFiles .file fun files => files.save path ""
  let lines ← orFail .numeral (Report.lines outcome declared)
  changeFiles .file fun files => files.save path (String.join (lines.map (· ++ "\n")))
  log formulaSource Logging.info ("Wrote result to " ++ path)

/-! Logging. -/

/-- What takes care of the logs of a run: the logger that was set up, and the event log if there is
one. -/
structure Manager where
  logger : String
  events : Option EventLog

/-- Starts an event log in a directory; null and other empty values ask for none. -/
def startEvents (directory : Datum) (runName : String) : Action (Option EventLog) := do
  if !directory.isTruthy then return none
  match directory with
  | .text directory =>
      let session ← get
      let (files, events) ← orFail .file (EventLog.start session.files session.now directory runName)
      modify fun session => { session with files }
      return some events
  | other => throw (.logging (.noPath other.typeName))

def openManager (request : Logging.Request) (directory : Datum) (runName : String) :
    Action Manager := do
  let session ← get
  let setup := Logging.setUp session.loggers session.files request
  modify fun session => { session with loggers := setup.loggers, files := setup.files }
  match setup.fault with
  | some fault => throw (.logging fault)
  | none => return ⟨request.name, ← startEvents directory runName⟩

/-- Runs a step of an event log. The log comes back also after a fault. -/
def stepEvents {α : Type} (step : Files → EventLog.Step α) :
    Action (EventLog × Except Fault α) := do
  let done := step (← get).files
  modify fun session => { session with files := done.files }
  return (done.log, done.result.mapError .event)

def logSolve (events : EventLog) (source : String) (outcome : Outcome) :
    Action (EventLog × Except Fault Unit) := do
  let now := (← get).now
  stepEvents fun files => EventLog.logSolve files events now source outcome

def logException (events : EventLog) (source kind message : String) :
    Action (EventLog × Except Fault Unit) := do
  let now := (← get).now
  stepEvents fun files => EventLog.logException files events now source kind message

/-- Closes an event log with its summary and answers the path of the summary. -/
def finalizeEvents (events : EventLog) : Action (EventLog × Except Fault String) := do
  let now := (← get).now
  stepEvents fun files => EventLog.finalize files events now

/-- Closes the event log of a manager, if there is one. -/
def closeEvents (manager : Manager) : Action (Manager × Except Fault Unit) := do
  match manager.events with
  | none => return (manager, .ok ())
  | some events =>
      let (closed, result) ← finalizeEvents events
      return ({ manager with events := some closed }, result.map fun _ => ())

/-- Closes the event log, if there is one, and takes the handlers off the logger. The handlers stay if the
event log cannot be closed. -/
def closeManager (manager : Manager) : Action (Manager × Except Fault Unit) := do
  let (closed, result) ← closeEvents manager
  if result.toOption.isSome then
    modify fun session =>
      { session with loggers := Logging.tearDown session.loggers manager.logger }
  return (closed, result)

/-- Logs a fault by way of a manager, which needs an event log for it. -/
def noteException (manager : Manager) (source kind message : String) :
    Action (Manager × Except Fault Unit) := do
  match manager.events with
  | none => return (manager, .error .noEventLog)
  | some events =>
      let (events, result) ← logException events source kind message
      return ({ manager with events := some events }, result)

end Session

end Clausal
