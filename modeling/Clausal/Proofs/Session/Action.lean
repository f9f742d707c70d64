import Clausal.Session

/-!
Running the operations of a session: how they follow one another, and what a run of a solver answers.
Logging touches the files and the console and nothing else.
-/

set_option autoImplicit false

namespace Clausal

/-- The settings of a solver that could be made depend on the arguments; nothing else does. -/
theorem Solver.eq_of_create {config : Config} {position : Nat} {kind : SolverKind}
    {arguments : List (String × Datum)} {solver : Solver}
    (made : Solver.create config position kind arguments = .ok solver) :
    solver = ⟨position, initialSettings config kind.algorithm arguments,
      .map [("solver_name", .text kind.name)]⟩ := by
  unfold Solver.create at made
  dsimp only at made
  split at made
  · cases made
  · cases made
    rfl

theorem Solver.kind_of_create {config : Config} {position : Nat} {kind : SolverKind}
    {arguments : List (String × Datum)} {solver : Solver}
    (made : Solver.create config position kind arguments = .ok solver) : solver.kind = position := by
  rw [eq_of_create made]

namespace Session

/-- What an operation answers, whatever it makes of the session. -/
def result {α : Type} (action : Action α) (session : Session) : Except Fault α :=
  (action.run session).1

variable {α β : Type} {session later : Session}

theorem run_bind_of_ok {action : Action α} {value : α} (next : α → Action β)
    (ran : action.run session = (.ok value, later)) :
    (action >>= next).run session = (next value).run later := by
  have answered : action session = (.ok value, later) := ran
  change (StateT.bind action (ExceptT.bindCont next)) session = next value later
  rw [StateT.bind]
  simp only [answered]
  rfl

theorem run_bind_of_error {action : Action α} {fault : Fault} (next : α → Action β)
    (ran : action.run session = (.error fault, later)) :
    (action >>= next).run session = (.error fault, later) := by
  have answered : action session = (.error fault, later) := ran
  change (StateT.bind action (ExceptT.bindCont next)) session = (.error fault, later)
  rw [StateT.bind]
  simp only [answered]
  rfl

theorem exists_of_run_bind_eq_ok {action : Action α} {next : α → Action β} {answer : β}
    (ran : (action >>= next).run session = (.ok answer, later)) :
    ∃ value between, action.run session = (.ok value, between) ∧
      (next value).run between = (.ok answer, later) := by
  cases first : action.run session with
  | mk outcome between =>
      cases outcome with
      | ok value => exact ⟨value, between, rfl, (run_bind_of_ok next first).symm.trans ran⟩
      | error fault => cases (run_bind_of_error next first).symm.trans ran

theorem run_get (session : Session) : (get : Action Session).run session = (.ok session, session) :=
  rfl

theorem run_print (line : String) (session : Session) :
    (print line).run session = (.ok (), { session with output := session.output ++ line ++ "\n" }) := rfl

theorem run_orFail {ε : Type} (form : ε → Fault) (answer : Except ε α) (session : Session) :
    (orFail form answer).run session = (answer.mapError form, session) := by
  cases answer <;> rfl

theorem eq_of_run_orFail_eq_ok {ε : Type} {form : ε → Fault} {answer : Except ε α} {value : α}
    (ran : (orFail form answer).run session = (.ok value, later)) : answer = .ok value ∧ later = session := by
  cases answer with
  | ok found =>
      cases ran
      exact ⟨rfl, rfl⟩
  | error fault => cases ran

theorem run_logAll (records : List Logging.Record) (session : Session) :
    ∃ files errors, (logAll records).run session = (.ok (), { session with files, errors }) :=
  ⟨_, _, rfl⟩

variable {position : Nat} {kind : SolverKind} {arguments : List (String × Datum)} {solver : Solver}

theorem run_kindOf (found : session.registry.kindAt? position = some kind) :
    (kindOf position).run session = (.ok kind, session) := by
  rw [kindOf, run_bind_of_ok _ (run_get session)]
  simp only [found]
  rfl

theorem run_makeSolver (found : session.registry.kindAt? position = some kind)
    (made : Solver.create session.config position kind arguments = .ok solver) :
    (makeSolver position arguments).run session = (.ok solver, session) := by
  rw [makeSolver, run_bind_of_ok _ (run_kindOf found), run_bind_of_ok _ (run_get session), run_orFail,
    made]
  rfl

theorem run_select (session : Session) (width : Quantity) :
    (select width).run session = ((session.registry.select width).mapError .unknownSolver, session) := by
  rw [select, run_bind_of_ok _ (run_get session), run_orFail]

/-- The message on the solver that is selected for a width. -/
def selectionRecord (width : Quantity) (name : String) : Logging.Record :=
  ⟨"satengine.solvers.registry", Logging.debug,
    "Clause width " ++ width.text ++ ": selected solver '" ++ name ++ "'"⟩

/-- Where the automatic name is meant, the registry is asked for the width, and its answer is logged. -/
theorem run_resolve_of_select {requested : Option Datum} {width : Quantity} {name : String}
    (meant : requested.getD (session.config.getD "solver.name" (.text automatic)) = .text automatic)
    (selected : session.registry.select width = .ok name) (found : session.registry.find name = .ok position)
    (logged : (logAll [selectionRecord width name]).run session = (.ok (), later))
    (kept : later.registry = session.registry) :
    (resolve requested (some width)).run session = (.ok name, later) := by
  have answered : (select width).run session = (.ok name, session) := by
    rw [run_select, selected]
    rfl
  unfold resolve
  rw [run_bind_of_ok _ (run_get session)]
  simp only [meant, if_pos]
  rw [run_bind_of_ok _ answered, log, ← selectionRecord, run_bind_of_ok _ logged, pure_bind,
    run_bind_of_ok _ (run_get later)]
  simp only [kept, found]
  rfl

theorem run_resolve_named {name : String} (named : name ≠ automatic)
    (found : session.registry.find name = .ok position) (width : Option Quantity) :
    (resolve (some (.text name)) width).run session = (.ok name, session) := by
  unfold resolve
  simp only [Option.getD_some, if_neg named, pure_bind]
  rw [run_bind_of_ok _ (run_get session), run_bind_of_ok _ (run_get session), found]
  rfl

theorem run_createSolver {name : String} (named : name ≠ automatic)
    (found : session.registry.find name = .ok position)
    (standing : session.registry.kindAt? position = some kind)
    (made : Solver.create session.config position kind arguments = .ok solver) :
    (createSolver (some (.text name)) none arguments).run session = (.ok solver, session) := by
  rw [createSolver, run_bind_of_ok _ (run_resolve_named named found none), run_bind_of_ok _ (run_get session)]
  simp only [found]
  exact run_makeSolver standing made

theorem run_runSolver (found : session.registry.kindAt? solver.kind = some kind) (formula : Formula) :
    ∃ files errors, (runSolver solver formula).run session =
      (.ok ((solver.run kind session.entropy formula).solverAfter solver session.elapsed,
        ((solver.run kind session.entropy formula).outcome session.elapsed).mapError .solver),
        { session with files, errors }) := by
  obtain ⟨files, errors, logged⟩ :=
    run_logAll (solver.run kind session.entropy formula).records session
  refine ⟨files, errors, ?_⟩
  rw [runSolver, run_bind_of_ok _ (run_kindOf found), run_bind_of_ok _ (run_get session), endRun,
    run_bind_of_ok _ (run_get session), run_bind_of_ok _ logged]
  rfl

/-- A solver that can be made answers what its run finds. -/
theorem run_solveWith (found : session.registry.kindAt? position = some kind)
    (made : Solver.create session.config position kind arguments = .ok solver) (formula : Formula) :
    ∃ files errors, (solveWith position arguments formula).run session =
      (((solver.run kind session.entropy formula).outcome session.elapsed).mapError .solver,
        { session with files, errors }) := by
  have foundSolver : session.registry.kindAt? solver.kind = some kind := by
    rw [Solver.kind_of_create made]
    exact found
  obtain ⟨files, errors, ran⟩ := run_runSolver foundSolver formula
  refine ⟨files, errors, ?_⟩
  rw [solveWith, run_bind_of_ok _ (run_makeSolver found made), run_bind_of_ok _ ran]
  cases ((solver.run kind session.entropy formula).outcome session.elapsed).mapError Fault.solver <;> rfl

theorem result_solveWith (found : session.registry.kindAt? position = some kind)
    (made : Solver.create session.config position kind arguments = .ok solver) (formula : Formula) :
    result (solveWith position arguments formula) session =
      ((solver.run kind session.entropy formula).outcome session.elapsed).mapError .solver := by
  obtain ⟨files, errors, ran⟩ := run_solveWith found made formula
  rw [result, ran]

end Session

end Clausal
