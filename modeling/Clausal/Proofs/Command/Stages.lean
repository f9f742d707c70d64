import Clausal.Proofs.Command.Choice

/-!
The stages of a run of the command: loading and preparing, reporting what the solver found, and the end.
Each stage is run from a standard session, and no event log is kept.
-/

set_option autoImplicit false

namespace Clausal.Command

open Session

variable {session later : Session} {arguments : Arguments} {document : Dimacs.Document}

theorem run_attempt {α : Type} {action : Action α} {answer : Except Fault α}
    (ran : action.run session = (answer, later)) : (attempt action).run session = (.ok answer, later) := by
  have answered : action session = (answer, later) := ran
  change (Except.ok (action session).1, (action session).2) = (.ok answer, later)
  rw [answered]

/-- The manager of a run without an event log. -/
def plainManager : Manager := ⟨"satengine", none⟩

theorem run_failWith (path : String) (fault : Fault) (session : Session) :
    (failWith plainManager path fault).run session = (.ok ⟨plainManager, .ok failureCode⟩, session) := rfl

theorem run_finish (code : Nat) (session : Session) :
    (finish ⟨plainManager, .ok code⟩).run session =
      (.ok (.code code),
        { session with loggers := Logging.tearDown session.loggers plainManager.logger }) := rfl

theorem run_openLogs (standard : session.Standard) (logless : arguments.logDirectory.getD "" = "") :
    ∃ loggers : Logging.Loggers, loggers.ConsoleOnly ∧
      (openLogs arguments).run session = (.ok plainManager, { session with loggers }) := by
  have format : session.config.getD "logging.format" .null = .text Config.defaultFormat := by
    rw [standard.config]
    exact Config.getD_of_steps ["logging", "format"] _ (by decide) (by decide +kernel) rfl
  have file : session.config.getD "logging.file" .null = .null := by
    rw [standard.config]
    exact Config.getD_of_steps ["logging", "file"] _ (by decide) (by decide +kernel) rfl
  have directory : session.config.getD "output.log_dir" .null = .null := by
    rw [standard.config]
    exact Config.getD_of_steps ["output", "log_dir"] _ (by decide) (by decide +kernel) rfl
  have configured : session.config.getD "logging.level" (.text "INFO") = .text "INFO" := by
    rw [standard.config]
    exact Config.getD_of_steps ["logging", "level"] _ (by decide) (by decide +kernel) rfl
  have formatted : Logging.formatOf (.text Config.defaultFormat) = .ok Config.defaultFormat := by
    have fielded : Logging.Format.hasField Config.defaultFormat.toList = true := by decide +kernel
    rw [Logging.formatOf, if_neg (by decide)]
    exact if_pos fielded
  let request : Logging.Request :=
    { level := if arguments.verbose = true then .text "DEBUG" else .text "INFO"
      format := .text Config.defaultFormat
      file := .null }
  obtain ⟨level, leveled⟩ : ∃ level, Logging.Level.ofDatum request.level = .ok level := by
    simp only [request]
    cases arguments.verbose with
    | true => exact ⟨_, rfl⟩
    | false => exact ⟨_, rfl⟩
  have fileless : request.file.isTruthy = false := rfl
  obtain ⟨loggers, consoleOnly, opened⟩ :=
    standard.run_openManager leveled formatted fileless (Path.stem arguments.formula)
  refine ⟨loggers, consoleOnly, ?_⟩
  unfold openLogs
  rw [run_bind_of_ok _ (run_get session)]
  simp only [logless, format, file, directory, configured]
  exact opened

theorem run_prepare (standard : session.Standard) (admissible : arguments.Admissible)
    (loads : session.files.Loads arguments.formula document) :
    ∃ (solver : Solver) (kind : SolverKind) (errors : String), Chosen arguments document solver kind ∧
      (prepare arguments plainManager).run session =
        (.ok (.ready ⟨arguments, plainManager, document, solver, kind⟩),
          { session with errors, output := session.output ++ "SAT solver starts!!!" ++ "\n" }) := by
  obtain ⟨errors, loaded⟩ := standard.run_loadFormula loads
  have ready : { session with errors }.Standard := standard.changed _ _ _
  obtain ⟨name, solver, kind, errors, chosen, resolved, prepared⟩ := exists_chosen ready admissible document
  refine ⟨solver, kind, errors, chosen, ?_⟩
  unfold prepare
  rw [run_bind_of_ok _ (run_attempt loaded)]
  simp only
  rw [run_bind_of_ok _ (run_attempt resolved)]
  simp only
  rw [run_bind_of_ok _ (run_attempt prepared)]
  rfl

/-- Whatever the reason, it is logged, and nothing is prepared. -/
theorem run_prepare_of_unloadable (standard : session.Standard)
    (unloadable : session.files.Unloadable arguments.formula) :
    ∃ errors, (prepare arguments plainManager).run session =
      (.ok (.ended ⟨plainManager, .ok failureCode⟩), { session with errors }) := by
  obtain ⟨fault, failed⟩ := run_loadFormula_of_unloadable unloadable
  obtain ⟨errors, logged⟩ := standard.run_logAll
    [⟨source, Logging.error, "Could not read " ++ arguments.formula ++ ": " ++ fault.message⟩]
  refine ⟨errors, ?_⟩
  unfold prepare
  rw [run_bind_of_ok _ (run_attempt failed)]
  simp only
  rw [log, run_bind_of_ok _ logged, run_bind_of_ok _ (run_failWith _ _ _)]
  rfl

theorem run_loadConfig {path : Option String} (unconfigured : path.getD "" = "") (session : Session) :
    (loadConfig path).run session = (.ok (), session) := by
  unfold loadConfig
  rw [unconfigured]
  rfl

/-- Up to the solver: what a run begins with, before it is known whether there is a formula. -/
theorem run_begin_of_read (standard : session.Standard) {line : List String}
    (read : Arguments.read line = .ok arguments) (unconfigured : arguments.config.getD "" = "")
    (logless : arguments.logDirectory.getD "" = "") :
    ∃ loggers : Logging.Loggers, { session with loggers }.Standard ∧
      (begin line).run session =
        (prepare arguments plainManager >>= fun preparation =>
          match preparation with
          | .ended managed => return .ended (← finish managed)
          | .ready prepared => return .ready prepared).run { session with loggers } := by
  obtain ⟨loggers, consoleOnly, opened⟩ := run_openLogs standard logless
  refine ⟨loggers, ⟨standard.config, standard.registry, consoleOnly⟩, ?_⟩
  unfold begin
  simp only [read]
  refine (run_bind_of_ok _ (run_attempt (run_loadConfig unconfigured session))).trans ?_
  exact run_bind_of_ok _ (run_attempt opened)

theorem run_begin_of_unloadable (standard : session.Standard) {line : List String}
    (read : Arguments.read line = .ok arguments) (unconfigured : arguments.config.getD "" = "")
    (logless : arguments.logDirectory.getD "" = "")
    (unloadable : session.files.Unloadable arguments.formula) :
    ∃ later : Session, (begin line).run session = (.ok (.ended (.code failureCode)), later) ∧
      later.files = session.files := by
  obtain ⟨loggers, ready, began⟩ := run_begin_of_read standard read unconfigured logless
  obtain ⟨errors, failed⟩ := run_prepare_of_unloadable ready unloadable
  rw [run_bind_of_ok _ failed] at began
  exact ⟨_, began.trans (run_bind_of_ok _ (run_finish _ _)), rfl⟩

/-- What the beginning of a run leaves behind: the logs are open, and the solver is announced. -/
structure Started (session later : Session) : Prop where
  standard : later.Standard
  files : later.files = session.files
  elapsed : later.elapsed = session.elapsed
  output : later.output = session.output ++ "SAT solver starts!!!" ++ "\n"

theorem run_begin_of_loads (standard : session.Standard) {line : List String}
    (read : Arguments.read line = .ok arguments) (unconfigured : arguments.config.getD "" = "")
    (logless : arguments.logDirectory.getD "" = "")
    (loads : session.files.Loads arguments.formula document) :
    ∃ (solver : Solver) (kind : SolverKind) (later : Session), Chosen arguments document solver kind ∧
      (begin line).run session =
        (.ok (.ready ⟨arguments, plainManager, document, solver, kind⟩), later) ∧
      Started session later := by
  obtain ⟨loggers, ready, began⟩ := run_begin_of_read standard read unconfigured logless
  obtain ⟨solver, kind, errors, chosen, prepared⟩ :=
    run_prepare ready (Arguments.admissible_of_read read) loads
  exact ⟨solver, kind, _, chosen, began.trans (run_bind_of_ok _ prepared),
    ready.changed _ _ _, rfl, rfl, rfl⟩

/-! What a run of the solver comes to. -/

namespace Arguments

/-- There is no output, or it can be written once the directories above it are there. -/
def OutputWritable (arguments : Arguments) (files : Files) : Prop :=
  arguments.output.getD "" = "" ∨ ∃ prepared parts,
    files.makeDirectoryOf (arguments.output.getD "") = .ok prepared ∧
      prepared.writable (arguments.output.getD "") = .ok parts

/-- The output holds the lines; without an output the files are as before. -/
structure Outputs (arguments : Arguments) (before after : Files) (lines : List String) : Prop where
  silent : arguments.output.getD "" = "" → after = before
  written : arguments.output.getD "" ≠ "" → after.read (arguments.output.getD "") =
    .ok (Text.Utf8.encode (String.join (lines.map (· ++ "\n"))))

end Arguments

theorem run_endRun (standard : session.Standard) (solver : Solver) (run : Solver.Run) :
    ∃ errors, (endRun solver run).run session =
      (.ok (run.solverAfter solver session.elapsed, (run.outcome session.elapsed).mapError .solver),
        { session with errors }) := by
  obtain ⟨errors, logged⟩ := standard.run_logAll run.records
  refine ⟨errors, ?_⟩
  rw [endRun, run_bind_of_ok _ (run_get session)]
  exact run_bind_of_ok _ logged

variable {prepared : Prepared} {run : Solver.Run} {outcome : Outcome}

theorem run_report_of_refused (standard : session.Standard) (plain : prepared.manager = plainManager)
    {fault : InvalidClause} (refused : run.outcome session.elapsed = .error (.clause fault)) :
    ∃ errors, (report prepared run).run session =
      (.ok ⟨plainManager, .ok failureCode⟩, { session with errors }) := by
  obtain ⟨errors, ended⟩ := run_endRun standard prepared.solver run
  have ready : { session with errors }.Standard := standard.changed _ _ _
  obtain ⟨errors, logged⟩ := ready.run_logAll [⟨source, Logging.error, fault.message⟩]
  refine ⟨errors, ?_⟩
  unfold report
  rw [run_bind_of_ok _ ended, refused, plain]
  exact run_bind_of_ok _ logged

theorem run_deliver (standard : session.Standard) (plain : prepared.manager = plainManager)
    (writable : prepared.arguments.OutputWritable session.files) {lines : List String}
    (reported : Report.lines outcome (some prepared.document.atomCount) = .ok lines) :
    ∃ files errors, (deliver prepared outcome).run session =
        (.ok ⟨plainManager, .ok (codeOf outcome.status)⟩, { session with files, errors }) ∧
      prepared.arguments.Outputs session.files files lines := by
  unfold deliver
  simp only [plain, plainManager, pure_bind]
  by_cases silent : prepared.arguments.output.getD "" = ""
  · refine ⟨session.files, session.errors, ?_, fun _ => rfl, fun named => absurd silent named⟩
    simp only [silent]
    rfl
  · rcases writable with none | ⟨files, parts, made, opened⟩
    · exact absurd none silent
    · obtain ⟨files, errors, written, read⟩ := standard.run_writeOutcome reported made opened
      refine ⟨files, errors, ?_, fun none => absurd none silent, fun _ => read⟩
      have named : ¬ (prepared.arguments.output.getD "").isEmpty = true := by
        rw [String.isEmpty_iff]
        exact silent
      simp only [if_neg named]
      exact run_bind_of_ok _ (run_attempt written)

theorem run_report_of_outcome (standard : session.Standard) (plain : prepared.manager = plainManager)
    (writable : prepared.arguments.OutputWritable session.files)
    (ran : run.outcome session.elapsed = .ok outcome) (legible : isWritable outcome.statistics = true)
    {lines : List String}
    (reported : Report.lines outcome (some prepared.document.atomCount) = .ok lines) :
    ∃ files errors, (report prepared run).run session =
        (.ok ⟨plainManager, .ok (codeOf outcome.status)⟩,
          { session with
            files, errors
            output := session.output ++ verdictLine outcome.status ++ "\n"
              ++ ("Time: " ++ Decimal.fixed 3 (session.elapsed * 1000) ++ "ms") ++ "\n" }) ∧
      prepared.arguments.Outputs session.files files lines := by
  obtain ⟨errors, ended⟩ := run_endRun standard prepared.solver run
  let printed : Session :=
    { session with
      errors
      output := session.output ++ verdictLine outcome.status ++ "\n"
        ++ ("Time: " ++ Decimal.fixed 3 (session.elapsed * 1000) ++ "ms") ++ "\n" }
  have ready : printed.Standard := standard.changed _ _ _
  obtain ⟨errors, logged⟩ := ready.run_logAll
    [⟨source, Logging.debug, "Statistics: " ++ (Datum.map outcome.statistics).display⟩]
  have noted : { printed with errors }.Standard := standard.changed _ _ _
  obtain ⟨files, errors, delivered, outputs⟩ := run_deliver noted plain writable reported
  refine ⟨files, errors, ?_, outputs⟩
  unfold report
  rw [run_bind_of_ok _ ended, ran]
  refine (run_bind_of_ok _ (run_print _ _)).trans ?_
  refine (run_bind_of_ok _ (run_get _)).trans ?_
  refine (run_bind_of_ok _ (run_print _ _)).trans ?_
  rw [if_pos legible]
  exact (run_bind_of_ok _ logged).trans delivered

/-- Statistics that cannot be written end the run when the finding has been printed. -/
theorem run_report_of_illegible (standard : session.Standard) (plain : prepared.manager = plainManager)
    (ran : run.outcome session.elapsed = .ok outcome) (illegible : isWritable outcome.statistics = false) :
    ∃ later : Session, (report prepared run).run session =
      (.ok ⟨plainManager, .error .noNumeral⟩, later) := by
  obtain ⟨errors, ended⟩ := run_endRun standard prepared.solver run
  unfold report
  rw [run_bind_of_ok _ ended, ran]
  simp only [Except.mapError, illegible, plain]
  exact ⟨_, rfl⟩

theorem run_conclude_of_refused (standard : session.Standard) (plain : prepared.manager = plainManager)
    {fault : InvalidClause} (refused : run.outcome session.elapsed = .error (.clause fault)) :
    ∃ later : Session, (conclude prepared run).run session = (.ok (.code failureCode), later) ∧
      later.files = session.files := by
  obtain ⟨errors, reported⟩ := run_report_of_refused standard plain refused
  exact ⟨_, (run_bind_of_ok _ reported).trans (run_finish _ _), rfl⟩

theorem run_conclude_of_outcome (standard : session.Standard) (plain : prepared.manager = plainManager)
    (writable : prepared.arguments.OutputWritable session.files)
    (ran : run.outcome session.elapsed = .ok outcome) (legible : isWritable outcome.statistics = true)
    {lines : List String}
    (reported : Report.lines outcome (some prepared.document.atomCount) = .ok lines) :
    ∃ later : Session, (conclude prepared run).run session = (.ok (.code (codeOf outcome.status)), later) ∧
      later.output = session.output ++ verdictLine outcome.status ++ "\n"
        ++ ("Time: " ++ Decimal.fixed 3 (session.elapsed * 1000) ++ "ms") ++ "\n" ∧
      prepared.arguments.Outputs session.files later.files lines := by
  obtain ⟨files, errors, delivered, outputs⟩ :=
    run_report_of_outcome standard plain writable ran legible reported
  exact ⟨_, (run_bind_of_ok _ delivered).trans (run_finish _ _), rfl, outputs⟩

theorem run_conclude_of_illegible (standard : session.Standard) (plain : prepared.manager = plainManager)
    (ran : run.outcome session.elapsed = .ok outcome) (illegible : isWritable outcome.statistics = false) :
    ∃ later : Session, (conclude prepared run).run session = (.ok (.fault .noNumeral), later) := by
  obtain ⟨later, reported⟩ := run_report_of_illegible standard plain ran illegible
  exact ⟨_, (run_bind_of_ok _ reported).trans rfl⟩

end Clausal.Command
