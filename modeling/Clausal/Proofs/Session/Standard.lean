import Clausal.Proofs.Config
import Clausal.Proofs.Logging
import Clausal.Proofs.Session.Dispatch

/-!
Sessions with the configuration and the registry that are there at the beginning, and without log files:
what logging leaves alone in them, and which solver a width selects.
-/

set_option autoImplicit false

namespace Clausal.Session

/-- Nothing was configured or registered, and logging goes to the console alone. -/
structure Standard (session : Session) : Prop where
  config : session.config = .default
  registry : session.registry = .initial
  loggers : session.loggers.ConsoleOnly

namespace Standard

variable {session : Session}

theorem changed (standard : session.Standard) (files : Files) (output errors : String) :
    { session with files, output, errors }.Standard :=
  ⟨standard.config, standard.registry, standard.loggers⟩

theorem run_logAll (standard : session.Standard) (records : List Logging.Record) :
    ∃ errors, (logAll records).run session = (.ok (), { session with errors }) := by
  let target := Logging.emitAll session.loggers session.now ⟨session.files, session.errors⟩ records
  have files : target.files = session.files := Logging.files_emitAll standard.loggers _ _ records
  refine ⟨target.console, ?_⟩
  change (Except.ok (), { session with files := target.files, errors := target.console }) = _
  rw [files]

/-- Without a name, or under the automatic one, the width decides. -/
theorem run_resolve_automatic (standard : session.Standard) {requested : Option String}
    (unnamed : requested.getD automatic = automatic) (width : Nat) :
    ∃ errors, (resolve (requested.map .text) (some (.whole width))).run session =
      (.ok (if (width : Int) ≤ 2 then Registry.implicationName else "dpll"),
        { session with errors }) := by
  have meant : (requested.map Datum.text).getD (session.config.getD "solver.name" (.text automatic)) =
      .text automatic := by
    cases requested with
    | none =>
        rw [standard.config]
        exact Config.getD_of_steps ["solver", "name"] _ (by decide) (by decide +kernel) rfl
    | some given => exact congrArg Datum.text unnamed
  let name := if (width : Int) ≤ 2 then Registry.implicationName else "dpll"
  have found : ∃ position, session.registry.find name = .ok position := by
    rw [standard.registry]
    by_cases narrow : (width : Int) ≤ 2
    · exact ⟨Registry.implicationKind, by simp only [name, if_pos narrow]; rfl⟩
    · exact ⟨Registry.backtrackingKind, by simp only [name, if_neg narrow]; rfl⟩
  obtain ⟨position, found⟩ := found
  have selected : session.registry.select (.whole width) = .ok name := by
    rw [standard.registry, Registry.select_initial]
  obtain ⟨errors, logged⟩ := standard.run_logAll [selectionRecord (.whole width) name]
  exact ⟨errors, run_resolve_of_select meant selected found logged rfl⟩

/-- Without a file for logs and a directory for events, the console is all there is to set up. -/
theorem run_openManager (standard : session.Standard) {request : Logging.Request}
    {level : Logging.Level} {format : String} (leveled : Logging.Level.ofDatum request.level = .ok level)
    (formatted : Logging.formatOf request.format = .ok format) (fileless : request.file.isTruthy = false)
    (runName : String) :
    ∃ loggers : Logging.Loggers, loggers.ConsoleOnly ∧
      (openManager request .null runName).run session =
        (.ok ⟨request.name, none⟩, { session with loggers }) := by
  obtain ⟨loggers, consoleOnly, ready⟩ :=
    Logging.exists_setUp standard.loggers session.files leveled formatted fileless
  refine ⟨loggers, consoleOnly, ?_⟩
  rw [openManager, run_bind_of_ok _ (run_get session)]
  simp only [ready]
  rfl

end Standard

end Clausal.Session
