import Clausal.Proofs.Command.Stages
import Clausal.Proofs.EventLog.Single
import Clausal.Proofs.Session.Continuation

/-!
What a run of the command leaves in its event log. A run that ends with an exit code has logged one event: its
outcome, or the fault that it ended with. Only a run for which no solver can be made out logs nothing.
-/

set_option autoImplicit false

namespace Clausal.Command

open Session EventLog

variable {session started between later : Session} {arguments : Arguments} {name : String} {events : EventLog}
  {fault : Fault} {outcome : Outcome} {prepared : Prepared} {managed : Managed Nat}

/-- The formula is there, and no solver can be made out for it. -/
def SolverUnknown (arguments : Arguments) (started : Session) : Prop :=
  ∃ document between fault later,
    (loadFormula arguments.formula).run started = (.ok document, between) ∧
      (resolve (arguments.solver.map Datum.text) (some (.whole document.width))).run between =
        (.error (.unknownSolver fault), later)

/-- There is no report, or the report and what is logged on writing it go elsewhere than to a file. -/
def Arguments.Spare (arguments : Arguments) (started : Session) (path : String) : Prop :=
  arguments.output.getD "" = "" ∨
    Path.resolve started.files.here (arguments.output.getD "") ≠ Path.resolve started.files.here path ∧
      started.loggers.Spare formulaSource started.files (Path.resolve started.files.here path)

/-- What a run has come to before its logs are closed. -/
inductive Concluded (arguments : Arguments) (events : EventLog) (started : Session) :
    Managed Nat → Files → Prop where
  | unresolved {name : String} {files : Files} (unknown : SolverUnknown arguments started) :
      Concluded arguments events started ⟨⟨name, some events⟩, .ok failureCode⟩ files
  | raised {name : String} {log : EventLog} {files : Files} (fault : Fault)
      (known : ¬ SolverUnknown arguments started) (took : events.Took [exceptionType] log)
      (alone : events.StandsAlone files exceptionType
        (exceptionEvent started.now arguments.formula fault.kind fault.message)) :
      Concluded arguments events started ⟨⟨name, some log⟩, .ok failureCode⟩ files
  | solved {name : String} {log : EventLog} {files : Files} (outcome : Outcome)
      (known : ¬ SolverUnknown arguments started) (decided : outcome.status ≠ .error)
      (took : events.Took [solveType] log)
      (alone : arguments.Spare started (events.eventPath solveType) →
        events.StandsAlone files solveType (solveEvent started.now arguments.formula outcome)) :
      Concluded arguments events started ⟨⟨name, some log⟩, .ok (codeOf outcome.status)⟩ files
  | faulty {name : String} {log : EventLog} {fault : Fault} {files : Files} :
      Concluded arguments events started ⟨⟨name, some log⟩, .error fault⟩ files

/-- Only a solver that is not found makes a fault of this kind. -/
theorem exists_unknownSolver_of_kind (same : fault.kind = "SolverNotFoundError") :
    ∃ unknown, fault = .unknownSolver unknown := by
  have file (cause : FileFault.Cause) : cause.kind ≠ "SolverNotFoundError" := by
    cases cause <;> decide
  have config (fault : ConfigFault) : fault.kind ≠ "SolverNotFoundError" := by
    unfold ConfigFault.kind
    split <;> first | exact file _ | decide
  have logging (fault : Logging.SetupFault) : Fault.loggingKind fault ≠ "SolverNotFoundError" := by
    unfold Fault.loggingKind
    split <;> first | exact file _ | decide
  have solver (fault : SolverFault) : Fault.solverKind fault ≠ "SolverNotFoundError" := by
    unfold Fault.solverKind
    split <;> decide
  unfold Fault.kind at same
  split at same
  · exact ⟨_, rfl⟩
  all_goals first
    | exact absurd same (solver _)
    | exact absurd same (config _)
    | exact absurd same (logging _)
    | exact absurd same (file _)
    | exact absurd same (by decide)

theorem exists_run_attempt {α : Type} (action : Action α) (session : Session) :
    ∃ answer later, (attempt action).run session = (.ok answer, later) ∧ action.run session = (answer, later) := by
  cases ran : action.run session with
  | mk answer later => exact ⟨answer, later, run_attempt ran, rfl⟩

theorem continuing_prepareSolver (arguments : Arguments) (name : String) (document : Dimacs.Document) :
    Continuing (prepareSolver arguments name document) :=
  .bind (.createSolver _ _ _) fun _ => .bind (.kindOf _) fun _ => .pure _

/-- A fault that is logged is the only event, if the run goes through. -/
theorem failWith_concluded (fresh : events.Fresh) (known : ¬ SolverUnknown arguments started)
    (now : between.now = started.now) (fault : Fault) :
    ∃ managed later, (failWith ⟨name, some events⟩ arguments.formula fault).run between = (.ok managed, later) ∧
      Concluded arguments events started managed later.files := by
  let step := EventLog.logException between.files events between.now arguments.formula fault.kind fault.message
  refine ⟨⟨⟨name, some step.log⟩, (step.result.mapError .event).map fun _ => failureCode⟩,
    { between with files := step.files }, rfl, ?_⟩
  cases done : step.result with
  | error refused => exact .faulty
  | ok answer =>
      obtain ⟨took, alone⟩ := fresh.append done
      refine .raised fault known took ?_
      rw [← now]
      exact alone

/-- The outcome that is logged is the only event, if the run goes through. -/
theorem deliver_concluded (fresh : events.Fresh) (known : ¬ SolverUnknown arguments started)
    (continues : started.Continues between) (decided : outcome.status ≠ .error)
    (manages : prepared.manager = ⟨name, some events⟩) (same : prepared.arguments = arguments) :
    ∃ managed later, (deliver prepared outcome).run between = (.ok managed, later) ∧
      Concluded arguments events started managed later.files := by
  let step := EventLog.logSolve between.files events between.now arguments.formula outcome
  let logged : Session := { between with files := step.files }
  have ran : (Session.logSolve events arguments.formula outcome).run between =
      (.ok (step.log, step.result.mapError .event), logged) := rfl
  unfold deliver
  simp only [manages, same]
  rw [run_bind_of_ok _ ran]
  simp only [pure_bind]
  cases done : step.result with
  | error refused => exact ⟨_, _, rfl, .faulty⟩
  | ok answer =>
      obtain ⟨took, alone⟩ := fresh.append done
      simp only [Except.mapError]
      have goneOn : started.Continues logged :=
        continues.trans ⟨continues_append _ _ _ _, rfl, rfl⟩
      have alone : events.StandsAlone logged.files solveType
          (solveEvent started.now arguments.formula outcome) := by
        rw [← continues.now]
        exact alone
      by_cases silent : arguments.output.getD "" = ""
      · rw [if_pos (String.isEmpty_iff.mpr silent)]
        exact ⟨_, _, rfl, .solved outcome known decided took fun _ => alone⟩
      · rw [if_neg (fun empty => silent (String.isEmpty_iff.mp empty))]
        obtain ⟨written, later, ranAttempt, ranWrite⟩ := exists_run_attempt
          (writeOutcome (arguments.output.getD "") outcome (some prepared.document.atomCount)) logged
        rw [run_bind_of_ok _ ranAttempt]
        cases written with
        | error fault => exact ⟨_, _, rfl, .faulty⟩
        | ok answer =>
            refine ⟨_, _, rfl, .solved outcome known decided took fun spare => ?_⟩
            rcases spare with none | ⟨apart, spare⟩
            · exact absurd none silent
            · obtain ⟨text, parts, encoded, stands⟩ := alone
              have place := Files.eq_resolve_of_writable stands.writable
              rw [goneOn.files.here] at place
              rw [← place] at apart spare
              rw [← goneOn.files.here] at apart
              have loggers : logged.loggers.Spare formulaSource logged.files parts := by
                rw [goneOn.loggers]
                exact spare.mono goneOn.files
              exact ⟨text, parts, encoded, stands_writeOutcome ranWrite stands apart loggers⟩

/-- Whatever a solver comes to, no outcome is an error. -/
theorem status_ne_error {solver : Solver} {kind : SolverKind} {entropy : Int} {formula : Formula}
    {elapsed : Float} (ran : (solver.run kind entropy formula).outcome elapsed = .ok outcome) :
    outcome.status ≠ .error := by
  obtain ⟨verdict, found, rfl⟩ := map_eq_ok_iff.mp ran
  change verdict.status ≠ .error
  unfold Solver.run at found
  split at found
  · cases found
    dsimp only
    split <;> exact fun same => nomatch same
  · unfold Solver.runTwoSat at found
    dsimp only at found
    split at found
    · cases found
    · split at found <;> cases found <;> exact fun same => nomatch same
  · unfold Solver.runRandomWalk Solver.runWalk at found
    dsimp only at found
    split at found
    · cases found
    · split at found
      · cases found
        exact fun same => nomatch same
      · cases found
        exact fun same => nomatch same
      · split at found <;> cases found
        exact fun same => nomatch same
  · cases found
    exact fun same => nomatch same

theorem report_concluded (fresh : events.Fresh) (known : ¬ SolverUnknown arguments started)
    (continues : started.Continues between) (manages : prepared.manager = ⟨name, some events⟩)
    (same : prepared.arguments = arguments) (entropy : Int) :
    ∃ managed later, (report prepared (prepared.run entropy)).run between = (.ok managed, later) ∧
      Concluded arguments events started managed later.files := by
  let run := prepared.run entropy
  obtain ⟨first, ranEnd⟩ : ∃ first, (endRun prepared.solver run).run between =
      (.ok (run.solverAfter prepared.solver between.elapsed,
        (run.outcome between.elapsed).mapError .solver), first) := ⟨_, rfl⟩
  have begun := continues.trans (Continuing.endRun _ _ _ _ _ ranEnd)
  unfold report
  rw [run_bind_of_ok _ ranEnd]
  cases found : run.outcome between.elapsed with
  | error fault =>
      cases fault with
      | clause fault =>
          obtain ⟨files, errors, logged⟩ := run_logAll [⟨source, Logging.error, fault.message⟩] first
          obtain ⟨managed, later, raised, concluded⟩ := failWith_concluded fresh known
            (begun.trans (Continuing.logAll _ _ _ _ logged)).now (.solver (.clause fault))
          refine ⟨managed, later, ?_, concluded⟩
          simp only [Except.mapError, manages, same]
          exact (run_bind_of_ok _ logged).trans raised
      | _ => exact ⟨_, _, rfl, by rw [manages]; exact .faulty⟩
  | ok outcome =>
      have decided : outcome.status ≠ .error := status_ne_error found
      simp only [Except.mapError]
      rw [run_bind_of_ok _ (run_print _ _), run_bind_of_ok _ (run_get _), run_bind_of_ok _ (run_print _ _)]
      by_cases legible : isWritable outcome.statistics = true
      · rw [if_pos legible]
        obtain ⟨files, errors, logged⟩ := run_logAll
          [⟨source, Logging.debug, "Statistics: " ++ (Datum.map outcome.statistics).display⟩]
          { first with
            output := first.output ++ verdictLine outcome.status ++ "\n"
              ++ ("Time: " ++ Decimal.fixed 3 (first.elapsed * 1000) ++ "ms") ++ "\n" }
        have goneOn := Continuing.logAll _ _ _ _ logged
        rw [log, run_bind_of_ok _ logged]
        exact deliver_concluded fresh known (begun.trans ⟨goneOn.files, goneOn.loggers, goneOn.now⟩)
          decided manages same
      · rw [if_neg legible]
        exact ⟨_, _, rfl, by rw [manages]; exact .faulty⟩

theorem prepare_concluded (fresh : events.Fresh) (arguments : Arguments) (started : Session) :
    ∃ preparation between,
      (prepare arguments ⟨name, some events⟩).run started = (.ok preparation, between) ∧
        ((∃ managed, preparation = .ended managed ∧ Concluded arguments events started managed between.files) ∨
          ∃ prepared, preparation = .ready prepared ∧ prepared.arguments = arguments ∧
            prepared.manager = ⟨name, some events⟩ ∧ ¬ SolverUnknown arguments started ∧
            started.Continues between) := by
  obtain ⟨loaded, first, attempted, ranLoad⟩ := exists_run_attempt (loadFormula arguments.formula) started
  have begun : started.Continues first := Continuing.loadFormula _ _ _ _ ranLoad
  unfold prepare
  rw [run_bind_of_ok _ attempted]
  cases loaded with
  | error fault =>
      have known : ¬ SolverUnknown arguments started := by
        rintro ⟨document, _, _, _, loaded, _⟩
        cases ranLoad.symm.trans loaded
      obtain ⟨files, errors, logged⟩ := run_logAll
        [⟨source, Logging.error, "Could not read " ++ arguments.formula ++ ": " ++ fault.message⟩] first
      obtain ⟨managed, later, raised, concluded⟩ := failWith_concluded fresh known
        (begun.trans (Continuing.logAll _ _ _ _ logged)).now fault
      refine ⟨.ended managed, later, ?_, .inl ⟨managed, rfl, concluded⟩⟩
      exact (run_bind_of_ok _ logged).trans (run_bind_of_ok _ raised)
  | ok document =>
      obtain ⟨resolved, second, attempted, ranResolve⟩ := exists_run_attempt
        (resolve (arguments.solver.map Datum.text) (some (.whole document.width))) first
      have goneOn := begun.trans (Continuing.resolve _ _ _ _ _ ranResolve)
      simp only
      rw [run_bind_of_ok _ attempted]
      cases resolved with
      | error fault =>
          cases fault with
          | unknownSolver fault =>
              refine ⟨_, _, rfl, .inl ⟨_, rfl, .unresolved ?_⟩⟩
              exact ⟨document, first, fault, second, ranLoad, ranResolve⟩
          | _ => exact ⟨_, _, rfl, .inl ⟨_, rfl, .faulty⟩⟩
      | ok chosen =>
          have known : ¬ SolverUnknown arguments started := by
            rintro ⟨other, _, _, _, loaded, unresolved⟩
            cases ranLoad.symm.trans loaded
            cases ranResolve.symm.trans unresolved
          obtain ⟨made, third, attempted, ranMake⟩ :=
            exists_run_attempt (prepareSolver arguments chosen document) second
          have arrived := goneOn.trans (continuing_prepareSolver _ _ _ _ _ _ ranMake)
          simp only
          rw [run_bind_of_ok _ attempted]
          cases made with
          | error fault => exact ⟨_, _, rfl, .inl ⟨_, rfl, .faulty⟩⟩
          | ok pair =>
              obtain ⟨solver, kind⟩ := pair
              refine ⟨_, _, rfl, .inr ⟨_, rfl, rfl, rfl, known, ?_⟩⟩
              exact ⟨arrived.files, arrived.loggers, arrived.now⟩

/-- A run that opened an event log comes to an end, and its logs are closed. -/
theorem exists_concluded {line : List String} {ending : Ending} {loaded : Session}
    (read : Arguments.read line = .ok arguments)
    (configured : (loadConfig arguments.config).run session = (.ok (), loaded))
    (opened : (openLogs arguments).run loaded = (.ok ⟨name, some events⟩, started)) (fresh : events.Fresh)
    (ran : (run line).run session = (.ok ending, later)) :
    ∃ managed before, Concluded arguments events started managed before.files ∧
      (finish managed).run before = (.ok ending, later) := by
  obtain ⟨preparation, between, ranPrepare, outcome⟩ := prepare_concluded fresh arguments started
  unfold run at ran
  obtain ⟨stage, middle, ranBegin, rest⟩ := exists_of_run_bind_eq_ok ran
  unfold begin at ranBegin
  simp only [read] at ranBegin
  rw [run_bind_of_ok _ (run_attempt configured)] at ranBegin
  simp only at ranBegin
  rw [run_bind_of_ok _ (run_attempt opened)] at ranBegin
  simp only at ranBegin
  rw [run_bind_of_ok _ ranPrepare] at ranBegin
  rcases outcome with ⟨managed, rfl, concluded⟩ | ⟨prepared, rfl, same, manages, known, continues⟩
  · obtain ⟨reached, last, finished, answered⟩ := exists_of_run_bind_eq_ok ranBegin
    cases answered
    cases rest
    exact ⟨managed, between, concluded, finished⟩
  · cases ranBegin
    simp only at rest
    rw [run_bind_of_ok _ (run_get between)] at rest
    obtain ⟨managed, final, reported, concluded⟩ :=
      report_concluded fresh known continues manages same between.entropy
    unfold conclude at rest
    rw [run_bind_of_ok _ reported] at rest
    exact ⟨managed, final, concluded, rest⟩

theorem fresh_of_startEvents {directory : Datum} {runName : String}
    (ran : (startEvents directory runName).run session = (.ok (some events), later)) : events.Fresh := by
  unfold startEvents at ran
  split at ran
  · cases ran
  · split at ran
    · rw [run_bind_of_ok _ (run_get session)] at ran
      obtain ⟨⟨files, log⟩, between, succeeded, noted⟩ := exists_of_run_bind_eq_ok ran
      obtain ⟨started, same⟩ := eq_of_run_orFail_eq_ok succeeded
      cases noted
      exact fresh_of_start started
    · cases ran

theorem fresh_of_openLogs (opened : (openLogs arguments).run session = (.ok ⟨name, some events⟩, later)) :
    events.Fresh := by
  unfold openLogs at opened
  rw [run_bind_of_ok _ (run_get session)] at opened
  unfold openManager at opened
  rw [run_bind_of_ok _ (run_get session)] at opened
  obtain ⟨_, set, _, opened⟩ := exists_of_run_bind_eq_ok opened
  split at opened
  · cases opened
  · obtain ⟨log, between, started, same⟩ := exists_of_run_bind_eq_ok opened
    cases same
    exact fresh_of_startEvents started

theorem codeOf_inj {left right : Status} (leftDecided : left ≠ .error) (rightDecided : right ≠ .error) :
    codeOf left = codeOf right ↔ left = right := by
  cases left <;> cases right <;> simp_all [codeOf]

theorem codeOf_ne_failureCode (status : Status) : codeOf status ≠ failureCode := by
  cases status <;> decide

/-- If a run ends with an exit code, its logs could be closed. -/
theorem exists_of_run_finish {log : EventLog} {result : Except Fault Nat} {code : Nat}
    (ran : (finish ⟨⟨name, some log⟩, result⟩).run between = (.ok (.code code), later)) :
    result = .ok code ∧ later.files = (EventLog.finalize between.files log between.now).files ∧
      ∃ path, (EventLog.finalize between.files log between.now).result = .ok path := by
  have closed : (closeEvents ⟨name, some log⟩).run between =
      (.ok (⟨name, some (EventLog.finalize between.files log between.now).log⟩,
        ((EventLog.finalize between.files log between.now).result.mapError .event).map fun _ => ()),
        { between with files := (EventLog.finalize between.files log between.now).files }) := rfl
  unfold finish closeManager at ran
  rw [bind_assoc, run_bind_of_ok _ closed] at ran
  cases done : (EventLog.finalize between.files log between.now).result with
  | error fault =>
      rw [done] at ran
      cases ran
  | ok path =>
      rw [done] at ran
      cases result with
      | error fault => cases ran
      | ok value =>
          cases ran
          exact ⟨rfl, rfl, path, rfl⟩

/-- A run that has an event log and ends with an exit code has logged one event, which is listed in the summary:
its outcome, with the status that goes with the code, or else, with the code for failures, a fault. The one
exception is a run for which no solver can be made out: it ends with the code for failures and logs nothing. -/
theorem run_logs_one_event {line : List String} {loaded : Session} {code : Nat}
    (read : Arguments.read line = .ok arguments)
    (configured : (loadConfig arguments.config).run session = (.ok (), loaded))
    (opened : (openLogs arguments).run loaded = (.ok ⟨name, some events⟩, started))
    (ran : runIn session line = (later, .code code)) :
    (SolverUnknown arguments started → code = failureCode ∧ events.Summarises later.files []) ∧
      (¬ SolverUnknown arguments started → code = failureCode →
        events.Summarises later.files [exceptionType] ∧ ∃ fault : Fault,
          let event := exceptionEvent started.now arguments.formula fault.kind fault.message
          TellsFault event started.now arguments.formula fault.kind fault.message ∧
            events.HoldsAlone later.files exceptionType event) ∧
      (code ≠ failureCode →
        events.Summarises later.files [solveType] ∧ ∃ outcome : Outcome,
          let event := solveEvent started.now arguments.formula outcome
          outcome.status ≠ .error ∧ code = codeOf outcome.status ∧
            TellsOutcome event started.now arguments.formula outcome ∧
            (∀ status : Status, status ≠ .error →
              (event.node? ["status"] = some (.text status.label) ↔ codeOf status = code)) ∧
            (arguments.Spare started (events.eventPath solveType) →
              events.HoldsAlone later.files solveType event)) := by
  have fresh := fresh_of_openLogs opened
  have ranLine : (run line).run session = (.ok (.code code), later) := by
    unfold runIn at ran
    split at ran
    · next ending final ranLine =>
        cases ran
        exact ranLine
    · cases ran
  obtain ⟨managed, before, concluded, finished⟩ := exists_concluded read configured opened fresh ranLine
  cases concluded with
  | faulty =>
      obtain ⟨same, _⟩ := exists_of_run_finish finished
      cases same
  | unresolved unknown =>
      obtain ⟨same, files, path, done⟩ := exists_of_run_finish finished
      cases same
      rw [files]
      obtain ⟨summary, _⟩ := fresh.took.finalize done
      exact ⟨fun _ => ⟨rfl, summary⟩, fun known => absurd unknown known, fun other => absurd rfl other⟩
  | raised fault known took alone =>
      obtain ⟨same, files, path, done⟩ := exists_of_run_finish finished
      cases same
      rw [files]
      obtain ⟨summary, kept⟩ := took.finalize done
      exact ⟨fun unknown => absurd unknown known,
        fun _ _ => ⟨summary, fault, exceptionEvent_tells _ _ _ _, (kept _ (by decide) _ alone).holdsAlone⟩,
        fun other => absurd rfl other⟩
  | solved outcome known decided took alone =>
      obtain ⟨same, files, path, done⟩ := exists_of_run_finish finished
      cases same
      rw [files]
      obtain ⟨summary, kept⟩ := took.finalize done
      refine ⟨fun unknown => absurd unknown known, fun _ failed => absurd failed (codeOf_ne_failureCode _),
        fun _ => ⟨summary, outcome, decided, rfl, solveEvent_tells _ _ _, ?_,
          fun spare => (kept _ (by decide) _ (alone spare)).holdsAlone⟩⟩
      intro status given
      rw [(solveEvent_tells started.now arguments.formula outcome).status, codeOf_inj given decided, eq_comm]

def Ending.code? : Ending → Option Nat
  | .code value => some value
  | .refused _ => none
  | .fault _ => none

theorem Ending.code?_eq_some_iff {ending : Ending} {value : Nat} :
    ending.code? = some value ↔ ending = .code value := by
  cases ending <;> simp [code?]

/-- A configuration asks for a solver that is not registered. -/
def misconfigured : Session :=
  { files :=
      { entries :=
          [
            (["config.yaml"], .file (Text.Utf8.encode "solver:\n  name: minisat\n")),
            (["easy.cnf"], .file (Text.Utf8.encode "p cnf 1 1\n1 0\n"))
          ] } }

theorem run_logs_one_event_misconfigured :
    let line := ["easy.cnf", "--config", "config.yaml", "--log-dir", "logs"]
    ∃ arguments loaded started later name events, Arguments.read line = .ok arguments ∧
      (loadConfig arguments.config).run misconfigured = (.ok (), loaded) ∧
      (openLogs arguments).run loaded = (.ok ⟨name, some events⟩, started) ∧
      runIn misconfigured line = (later, .code failureCode) ∧ events.Summarises later.files [] := by
  intro line
  let arguments : Arguments :=
    { formula := "easy.cnf", config := some "config.yaml", logDirectory := some "logs" }
  have read : Arguments.read line = .ok arguments := by decide +kernel
  let loaded := ((loadConfig arguments.config).run misconfigured).2
  let started := ((openLogs arguments).run loaded).2
  have configures : ((loadConfig arguments.config).run misconfigured).1.toOption.isSome = true := by
    decide +kernel
  have opens : ((openLogs arguments).run loaded).1.toOption.any (fun manager => manager.events.isSome) = true := by
    decide +kernel
  have ends : (runIn misconfigured line).2.code? = some failureCode := by decide +kernel
  let between := ((loadFormula arguments.formula).run started).2
  have loads : ((loadFormula arguments.formula).run started).1.toOption.any
      (fun document => (document.width : Int) == 1) = true := by
    decide +kernel
  have fails : ((resolve (arguments.solver.map Datum.text) (some (.whole 1))).run between).1.mapError Fault.kind =
      .error "SolverNotFoundError" := by
    decide +kernel
  have unknown : SolverUnknown arguments started := by
    obtain ⟨document, loaded, width⟩ := exists_of_any_toOption loads
    obtain ⟨fault, resolved, kind⟩ := mapError_eq_error_iff.mp fails
    obtain ⟨unknown, rfl⟩ := exists_unknownSolver_of_kind kind
    rw [← eq_of_beq width] at resolved
    exact ⟨document, between, unknown, _, Prod.ext loaded rfl, Prod.ext resolved rfl⟩
  have configured : (loadConfig arguments.config).run misconfigured = (.ok (), loaded) := by
    obtain ⟨_, answered⟩ := exists_of_isSome_toOption configures
    exact Prod.ext answered rfl
  obtain ⟨⟨name, given⟩, answered, present⟩ := exists_of_any_toOption opens
  obtain ⟨events, rfl⟩ := Option.isSome_iff_exists.mp present
  have opened : (openLogs arguments).run loaded = (.ok ⟨name, some events⟩, started) :=
    Prod.ext answered rfl
  have ran : runIn misconfigured line = ((runIn misconfigured line).1, .code failureCode) :=
    Prod.ext rfl (Ending.code?_eq_some_iff.mp ends)
  obtain ⟨silent, _⟩ := run_logs_one_event read configured opened ran
  exact ⟨arguments, loaded, started, _, name, events, read, configured, opened, ran, (silent unknown).2⟩

end Clausal.Command
