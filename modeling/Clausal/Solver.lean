import Clausal.Config
import Clausal.Datum.Display
import Clausal.Logging.Level
import Clausal.Outcome
import Clausal.Random.Twister
import Clausal.Registry
import Clausal.Solver.Dpll
import Clausal.Solver.RandomWalk
import Clausal.Solver.TwoSat

/-!
Solvers made of a kind: settings of their own, the statistics of the last run, and the run itself. A run
yields an outcome or a fault, what it reported to the logs, and the solver with new statistics.
-/

set_option autoImplicit false

namespace Clausal

/-- A solver of a registered kind. Settings come before the properties of the kind. -/
structure Solver where
  kind : Nat
  settings : List (String × Datum)
  statistics : Datum

/-- Why a solver cannot be made, configured, read or run. -/
inductive SolverFault where
  /-- An argument that solvers of the kind do not take. -/
  | unexpectedArgument (owner key : String)
  /-- A parameter that the solver does not have. -/
  | unknownParameter (solver key : String)
  /-- A property that the solver does not have. -/
  | noProperty (owner key : String)
  /-- A clause that does not fit the solver. -/
  | clause (fault : InvalidClause)
  /-- A setting of a type that the run cannot compute with. -/
  | operand (fault : Datum.OperandFault)

def SolverFault.message : SolverFault → String
  | .unexpectedArgument owner key =>
      owner ++ ".__init__() got an unexpected keyword argument '" ++ key ++ "'"
  | .unknownParameter solver key =>
      "Unknown configuration parameter for " ++ solver ++ ": " ++ key
  | .noProperty owner key => "'" ++ owner ++ "' object has no attribute '" ++ key ++ "'"
  | .clause fault => fault.message
  | .operand fault => fault.message

namespace Algorithm

/-- The name under which faults in the arguments are reported. -/
def constructorName : Algorithm → String
  | .backtracking => "DPLLSolver"
  | .randomWalk => "RandomWalkSolver"
  | .implication => "SolverBase"
  | .custom => "SolverBase"

def parameters : Algorithm → List String
  | .backtracking => ["complete_assignment"]
  | .randomWalk => ["budget", "budget_factor", "seed", "num_variables"]
  | .implication => []
  | .custom => []

/-- The operations of solvers. Their names are taken as properties. -/
def operations : Algorithm → List String
  | .randomWalk =>
      ["solve", "configure", "get_statistics", "reset_statistics", "default_budget"]
  | .implication => ["solve", "configure", "get_statistics", "reset_statistics", "validate"]
  | _ => ["solve", "configure", "get_statistics", "reset_statistics"]

def offers (algorithm : Algorithm) (operation : String) : Except SolverFault Unit :=
  if algorithm.operations.contains operation then .ok ()
  else .error (.noProperty algorithm.typeName operation)

end Algorithm

def SolverKind.properties (kind : SolverKind) : List (String × Datum) :=
  [
    ("solver_name", .text kind.name),
    ("max_width", (kind.maxWidth.map Datum.ofQuantity).getD .null),
    ("complete", .bool kind.complete)
  ]

namespace Solver

/-- The name of the property that holds the statistics. -/
def statisticsKey : String := "stats"

/-- The value of a property: the solver's own, or its kind's. -/
def property? (solver : Solver) (kind : SolverKind) (key : String) : Option Datum :=
  if key = statisticsKey then some solver.statistics
  else
    match Assoc.get? key solver.settings with
    | some value => some value
    | none => Assoc.get? key kind.properties

/-- The value of a property; null when there is none. -/
def property (solver : Solver) (kind : SolverKind) (key : String) : Datum :=
  (solver.property? kind key).getD .null

def read (solver : Solver) (kind : SolverKind) (key : String) : Except SolverFault Datum :=
  match solver.property? kind key with
  | some value => .ok value
  | none => .error (.noProperty kind.algorithm.typeName key)

/-- Statistics as they are before a run: the solver's name alone. -/
def freshStatistics (solver : Solver) (kind : SolverKind) : List (String × Datum) :=
  [("solver_name", solver.property kind "solver_name")]

def resetStatistics (solver : Solver) (kind : SolverKind) : Solver :=
  { solver with statistics := .map (solver.freshStatistics kind) }

def set (solver : Solver) (key : String) (value : Datum) : Solver :=
  if key = statisticsKey then { solver with statistics := value }
  else { solver with settings := Assoc.insert key value solver.settings }

def configurable (solver : Solver) (kind : SolverKind) (key : String) : Bool :=
  key.toList.head? != some '_'
    && ((solver.property? kind key).isSome || kind.algorithm.operations.contains key)

/-- Sets parameters one after another, up to the first that is unknown. What was set before stays. -/
def configure (kind : SolverKind) (solver : Solver) :
    List (String × Datum) → Solver × Option SolverFault
  | [] => (solver, none)
  | (key, value) :: rest =>
      if solver.configurable kind key then configure kind (solver.set key value) rest
      else
        (solver, some (.unknownParameter (solver.property kind "solver_name").plain key))

/-- The argument under a key, or the configured value if there is no argument or it is null. -/
def argumentOr (arguments : List (String × Datum)) (key : String) (configured : Datum) : Datum :=
  match Assoc.get? key arguments with
  | none => configured
  | some .null => configured
  | some value => value

/-- The settings of a new solver. A random walk takes the factor of its budget and its seed from the
configuration where no argument gives them. -/
def initialSettings (config : Config) (algorithm : Algorithm) (arguments : List (String × Datum)) :
    List (String × Datum) :=
  let given := fun (key : String) (fallback : Datum) => (Assoc.get? key arguments).getD fallback
  match algorithm with
  | .backtracking => [("complete_assignment", given "complete_assignment" (.bool true))]
  | .randomWalk =>
      [
        ("budget", given "budget" .null),
        ("budget_factor",
          argumentOr arguments "budget_factor"
            (config.getD "solver.random_walk.budget_factor" (.int 100))),
        ("seed",
          argumentOr arguments "seed" (config.getD "solver.random_walk.seed" .null)),
        ("num_variables", given "num_variables" .null)
      ]
  | _ => []

/-- Makes a solver of the kind at a position. The first argument that is not taken is refused. -/
def create (config : Config) (position : Nat) (kind : SolverKind)
    (arguments : List (String × Datum)) : Except SolverFault Solver :=
  let algorithm := kind.algorithm
  match arguments.find? fun argument => !algorithm.parameters.contains argument.1 with
  | some (key, _) => .error (.unexpectedArgument algorithm.constructorName key)
  | none =>
      .ok
        { kind := position
          settings := initialSettings config algorithm arguments
          statistics := .map [("solver_name", .text kind.name)] }

structure Verdict where
  status : Status := .unknown
  environment : Option Environment := none
  message : Option String := none
  deriving DecidableEq

/-- A run: what it reported to the logs, its statistics but for the time, and what it finds. The time of a
run is noted if it is `timed` and ends without a fault. -/
structure Run where
  records : List Logging.Record
  statistics : List (String × Datum)
  result : Except SolverFault Verdict
  timed : Bool := true

namespace Run

def statisticsAfter (run : Run) (elapsed : Float) : List (String × Datum) :=
  match run.timed, run.result with
  | true, .ok _ => run.statistics ++ [("runtime", .real elapsed)]
  | _, _ => run.statistics

def outcome (run : Run) (elapsed : Float) : Except SolverFault Outcome :=
  run.result.map fun verdict =>
    { status := verdict.status
      environment := verdict.environment
      runtime := .real (if run.timed then elapsed else 0)
      statistics := run.statisticsAfter elapsed
      message := verdict.message }

def solverAfter (run : Run) (solver : Solver) (elapsed : Float) : Solver :=
  { solver with statistics := .map (run.statisticsAfter elapsed) }

end Run

def emptyClauseText : String := "Formula contains an empty clause"

def runDpll (solver : Solver) (kind : SolverKind) (formula : Formula) : Run :=
  let source := "satengine.solvers.dpll_solver"
  let complete := (solver.property kind "complete_assignment").isTruthy
  let answer := Dpll.solve complete formula
  let status := if answer.environment.isSome then Status.satisfiable else Status.unsatisfiable
  let noted : List Logging.Record :=
    if formula.hasEmptyClause then [⟨source, Logging.debug, emptyClauseText⟩] else []
  let finished : Logging.Record :=
    ⟨source, Logging.debug,
      "DPLL finished: " ++ status.label ++ " after " ++ toString answer.counters.decisions
        ++ " decisions"⟩
  let statistics :=
    solver.freshStatistics kind
      ++ [
        ("decisions", .int answer.counters.decisions),
        ("propagations", .int answer.counters.propagations),
        ("backtracks", .int answer.counters.backtracks)
      ]
  { records := noted ++ [finished]
    statistics
    result := .ok { status, environment := answer.environment } }

/-- Refuses a formula with a clause wider than the solver's limit. -/
def validate (solver : Solver) (kind : SolverKind) (formula : Formula) : Except SolverFault Unit :=
  let limit := solver.property kind "max_width"
  match limit.quantity? with
  | some limit => (TwoSat.validate limit formula).mapError .clause
  | none =>
      if formula.isEmpty then .ok ()
      else .error (.operand (.noOrder ">" "int" limit.typeName))

/-- The message on an implication graph that was built. -/
def builtRecord (extent : TwoSat.Extent) : Logging.Record :=
  ⟨"satengine.solvers.implication_graph", Logging.debug,
    "Built implication graph: " ++ toString extent.vertices ++ " vertices, "
      ++ toString extent.edges ++ " edges"⟩

def extentStatistics (extent : TwoSat.Extent) : List (String × Datum) :=
  [
    ("vertices", .int extent.vertices), ("edges", .int extent.edges),
    ("components", .int extent.components)
  ]

/-- Runs the decision by components of the implication graph. -/
def runTwoSat (solver : Solver) (kind : SolverKind) (formula : Formula) : Run :=
  let source := "satengine.solvers.two_sat_solver"
  let fresh := solver.freshStatistics kind
  match solver.validate kind formula with
  | .error fault => { records := [], statistics := fresh, result := .error fault }
  | .ok () =>
      match TwoSat.solve (.whole formula.width) formula with
      | .error fault => { records := [], statistics := fresh, result := .error (.clause fault) }
      | .ok .emptyClause =>
          { records := [⟨source, Logging.debug, emptyClauseText⟩]
            statistics := fresh
            result := .ok { status := .unsatisfiable } }
      | .ok (.conflict extent atom) =>
          let clash := atom.name ++ " and ~" ++ atom.name ++ " share a component"
          { records := [builtRecord extent, ⟨source, Logging.debug, clash⟩]
            statistics :=
              fresh ++ extentStatistics extent ++ [("conflict_variable", .text atom.name)]
            result := .ok { status := .unsatisfiable } }
      | .ok (.satisfied extent environment) =>
          { records := [builtRecord extent]
            statistics := fresh ++ extentStatistics extent
            result := .ok { status := .satisfiable, environment := some environment } }

/-- The budget of a random walk that was given none: the factor times the square of the number of
variables. A larger declared number counts instead of the formula's. -/
def defaultBudget (solver : Solver) (kind : SolverKind) (formula : Formula) :
    Except Datum.OperandFault Datum := do
  let counted : Datum := .int formula.atoms.length
  let declared := solver.property kind "num_variables"
  let declared : Datum := if declared.isTruthy then declared else .int 0
  let fits ← declared.le ">" counted
  let number := if fits then counted else declared
  let once ← (solver.property kind "budget_factor").mul number
  once.mul number

def budget (solver : Solver) (kind : SolverKind) (formula : Formula) :
    Except Datum.OperandFault Datum :=
  match solver.property kind "budget" with
  | .null => solver.defaultBudget kind formula
  | budget => .ok budget

/-- Runs the random walk with the choices that a chooser makes from a state on. A budget that is no number
comes to light when the first flip is due. -/
def runWalk {State : Type} (solver : Solver) (kind : SolverKind) (chooser : Random.Chooser State)
    (start : State) (formula : Formula) : Run :=
  let source := "satengine.solvers.random_walk_solver"
  let fresh := solver.freshStatistics kind
  match solver.budget kind formula with
  | .error fault => { records := [], statistics := fresh, result := .error (.operand fault) }
  | .ok budget =>
      let seed := solver.property kind "seed"
      let statistics := fun (flips : Nat) =>
        fresh ++ [("flips", Datum.int flips), ("budget", budget), ("seed", seed)]
      let limit := (budget.quantity?.map Quantity.ceiling).getD 0
      match RandomWalk.solve chooser start limit formula with
      | .emptyClause =>
          { records :=
              [⟨source, Logging.warning, emptyClauseText ++ "; no assignment can satisfy it"⟩]
            statistics := statistics 0
            result := .ok { message := some emptyClauseText } }
      | .satisfied environment flips =>
          { records := []
            statistics := statistics flips
            result := .ok { status := .satisfiable, environment := some environment } }
      | .exhausted flips =>
          if budget.quantity?.isSome then
            { records :=
                [⟨source, Logging.debug,
                  "Random walk budget of " ++ budget.plain ++ " flips exhausted"⟩]
              statistics := statistics flips
              result := .ok
                { message := some ("No answer found within " ++ budget.plain ++ " flips") } }
          else
            { records := []
              statistics := statistics flips
              result := .error (.operand (.noOrder ">=" "int" budget.typeName)) }

/-- Runs the random walk from a seed; without one, from the entropy given. -/
def runRandomWalk (solver : Solver) (kind : SolverKind) (entropy : Int) (formula : Formula) : Run :=
  let seed := (solver.property kind "seed").int?.getD entropy
  solver.runWalk kind Random.Twister.chooser (Random.Twister.ofSeed seed) formula

/-- Runs a solver on a formula. A custom solver reports the statistics that it has and knows nothing. -/
def run (solver : Solver) (kind : SolverKind) (entropy : Int) (formula : Formula) : Run :=
  match kind.algorithm with
  | .backtracking => solver.runDpll kind formula
  | .implication => solver.runTwoSat kind formula
  | .randomWalk => solver.runRandomWalk kind entropy formula
  | .custom =>
      { records := [], statistics := solver.statistics.entries, result := .ok {}, timed := false }

end Solver

end Clausal
