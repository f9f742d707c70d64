import Clausal.Proofs.Files.Standing
import Clausal.Proofs.Session.Action

/-!
Sessions that go on. Whatever the operations on formulas and solvers come to, they log and print: no file is
taken away, and the loggers and the time stay. A report that is written spares the files in other places.
-/

set_option autoImplicit false

namespace Clausal

namespace Logging

variable {loggers : Loggers} {now : Instant} {target : Target}

theorem Target.continues_write (target : Target) (line : String) (sink : Sink) :
    target.files.Continues (target.write line sink).files := by
  cases sink with
  | console => exact .refl target.files
  | file handle => exact .setFile _ _ _

theorem continues_handle (now : Instant) (record : Record) (target : Target) (handler : Handler) :
    target.files.Continues (handle now record target handler).files := by
  unfold handle
  split
  · split
    · exact target.continues_write _ _
    · exact .refl target.files
  · exact .refl target.files

theorem continues_foldl {α : Type} {step : Target → α → Target}
    (each : ∀ (target : Target) item, target.files.Continues (step target item).files) (items : List α)
    (target : Target) : target.files.Continues (items.foldl step target).files := by
  induction items generalizing target with
  | nil => exact .refl target.files
  | cons item rest ih => exact (each target item).trans (ih _)

theorem continues_emit (loggers : Loggers) (now : Instant) (target : Target) (record : Record) :
    target.files.Continues (emit loggers now target record).files := by
  unfold emit
  split
  · exact .refl target.files
  · split
    · split
      · exact .refl target.files
      · exact target.continues_write _ _
    · exact continues_foldl (continues_handle now record) _ target

theorem continues_emitAll (loggers : Loggers) (now : Instant) (target : Target) (records : List Record) :
    target.files.Continues (emitAll loggers now target records).files :=
  continues_foldl (continues_emit loggers now) records target

/-- What is written goes to a file that stands, if to any, and not to the given place. -/
def Sink.Spare (sink : Sink) (files : Files) (parts : List String) : Prop :=
  ∀ handle, sink = .file handle →
    handle.parts ≠ parts ∧ ∃ content, files.node? handle.parts = some (.file content)

/-- None of the handlers that see the records of a source writes to the given place. -/
def Loggers.Spare (loggers : Loggers) (source : String) (files : Files) (parts : List String) : Prop :=
  ∀ handler ∈ loggers.handlersOf source, handler.sink.Spare files parts

variable {source path : String} {sink : Sink} {files after : Files} {parts : List String} {content : List UInt8}

theorem Sink.Spare.mono (spare : sink.Spare files parts) (continues : files.Continues after) :
    sink.Spare after parts := fun handle same =>
  have ⟨apart, content, standing⟩ := spare handle same
  ⟨apart, continues.standing _ content standing⟩

theorem Loggers.Spare.mono (spare : loggers.Spare source files parts) (continues : files.Continues after) :
    loggers.Spare source after parts := fun handler member => (spare handler member).mono continues

theorem Target.stands_write {line : String} (stands : target.files.Stands path parts content)
    (spare : sink.Spare target.files parts) : (target.write line sink).files.Stands path parts content := by
  cases sink with
  | console => exact stands
  | file handle =>
      obtain ⟨apart, old, standing⟩ := spare handle rfl
      refine stands.setFile (fun directory => ?_) apart _
      cases standing.symm.trans directory

theorem stands_handle {record : Record} {handler : Handler} (stands : target.files.Stands path parts content)
    (spare : handler.sink.Spare target.files parts) :
    (handle now record target handler).files.Stands path parts content := by
  unfold handle
  split
  · split
    · exact target.stands_write stands spare
    · exact stands
  · exact stands

theorem stands_emit {record : Record} (stands : target.files.Stands path parts content)
    (spare : loggers.Spare record.source target.files parts) :
    (emit loggers now target record).files.Stands path parts content := by
  unfold emit
  split
  · exact stands
  · split
    · split
      · exact stands
      · exact target.stands_write stands fun handle none => nomatch none
    · unfold Loggers.Spare at spare
      generalize loggers.handlersOf record.source = handlers at spare
      induction handlers generalizing target with
      | nil => exact stands
      | cons handler rest ih =>
          obtain ⟨first, others⟩ := List.forall_mem_cons.mp spare
          have continues := continues_handle now record target handler
          exact ih (stands_handle stands first) fun other member => (others other member).mono continues

end Logging

namespace Session

structure Continues (before after : Session) : Prop where
  files : before.files.Continues after.files
  loggers : after.loggers = before.loggers
  now : after.now = before.now

/-- The session goes on after an action, whatever the action answers. -/
def Continuing {α : Type} (action : Action α) : Prop :=
  ∀ session answer later, action.run session = (answer, later) → session.Continues later

variable {α β ε : Type} {before between after : Session}

theorem Continues.refl (session : Session) : Continues session session :=
  ⟨.refl session.files, rfl, rfl⟩

theorem Continues.trans (first : Continues before between) (second : Continues between after) :
    Continues before after :=
  ⟨first.files.trans second.files, second.loggers.trans first.loggers, second.now.trans first.now⟩

namespace Continuing

theorem pure (value : α) : Continuing (Pure.pure value) := by
  intro session answer later ran
  cases ran
  exact .refl session

theorem throw (fault : Fault) : Continuing (MonadExcept.throw fault : Action α) := by
  intro session answer later ran
  cases ran
  exact .refl session

theorem get : Continuing (MonadState.get : Action Session) := by
  intro session answer later ran
  cases ran
  exact .refl session

theorem print (line : String) : Continuing (Session.print line) := by
  intro session answer later ran
  cases ran
  exact ⟨.refl session.files, rfl, rfl⟩

theorem orFail (form : ε → Fault) (answer : Except ε α) : Continuing (Session.orFail form answer) := by
  cases answer with
  | ok value => exact pure value
  | error fault => exact throw (form fault)

theorem logAll (records : List Logging.Record) : Continuing (Session.logAll records) := by
  intro session answer later ran
  cases ran
  have emitted := Logging.continues_emitAll session.loggers session.now ⟨session.files, session.errors⟩ records
  exact ⟨emitted, rfl, rfl⟩

theorem bind {action : Action α} {next : α → Action β} (first : Continuing action)
    (second : ∀ value, Continuing (next value)) : Continuing (action >>= next) := by
  intro session answer later ran
  cases ranFirst : action.run session with
  | mk outcome between =>
      have begun := first session outcome between ranFirst
      cases outcome with
      | ok value =>
          rw [run_bind_of_ok next ranFirst] at ran
          exact begun.trans (second value between answer later ran)
      | error fault =>
          rw [run_bind_of_error next ranFirst] at ran
          cases ran
          exact begun

theorem log (source : String) (level : Int) (message : String) :
    Continuing (Session.log source level message) := logAll _

theorem loadFormula (path : String) : Continuing (Session.loadFormula path) := by
  unfold Session.loadFormula
  refine .bind .get fun session => ?_
  extract_lets files read
  have reading : ∀ value, Continuing (read value) := fun value =>
    .bind (.orFail _ _) fun bytes => .bind (.orFail _ _) fun text =>
      .bind (.orFail _ _) fun document => .bind (.log _ _ _) fun _ => .pure document
  split
  · exact .bind (.throw _) reading
  · exact reading ()

theorem resolve (name : Option Datum) (width : Option Quantity) : Continuing (Session.resolve name width) := by
  unfold Session.resolve
  refine .bind .get fun session => ?_
  extract_lets requested find
  have finding : ∀ chosen, Continuing (find chosen) := fun chosen =>
    .bind .get fun session => .bind (.orFail _ _) fun _ => .pure chosen
  clear_value requested
  split
  · split
    · split
      · exact .bind (.throw _) finding
      · next width =>
          have selecting : Continuing (select width) := .bind .get fun session => .orFail _ _
          exact .bind selecting fun name =>
            .bind (.log _ _ _) fun _ => .bind (.pure name) finding
    · exact .bind (.pure _) finding
  · exact .bind .get fun session => .bind (.throw _) finding

theorem kindOf (position : Nat) : Continuing (Session.kindOf position) := by
  unfold Session.kindOf
  refine .bind .get fun session => ?_
  split
  · exact .pure _
  · exact .bind .get fun session => .throw _

theorem createSolver (name : Option Datum) (width : Option Quantity) (arguments : List (String × Datum)) :
    Continuing (Session.createSolver name width arguments) := by
  refine .bind (.resolve name width) fun name => .bind .get fun session =>
    .bind (.orFail _ _) fun position => ?_
  exact .bind (.kindOf position) fun kind => .bind .get fun session => .orFail _ _

theorem endRun (solver : Solver) (run : Solver.Run) : Continuing (Session.endRun solver run) :=
  .bind .get fun _ => .bind (.logAll _) fun _ => .pure _

theorem stepEvents {step : Files → EventLog.Step α} (each : ∀ files : Files, files.Continues (step files).files) :
    Continuing (Session.stepEvents step) := by
  intro session answer later ran
  cases ran
  exact ⟨each session.files, rfl, rfl⟩

end Continuing

theorem eq_of_run_changeFiles_eq_ok {form : ε → Fault} {change : Files → Except ε Files}
    (ran : (changeFiles form change).run before = (.ok (), after)) :
    ∃ files, change before.files = .ok files ∧ after = { before with files } := by
  rw [changeFiles, run_bind_of_ok _ (run_get before)] at ran
  obtain ⟨files, between, failless, put⟩ := exists_of_run_bind_eq_ok ran
  obtain ⟨changed, same⟩ := eq_of_run_orFail_eq_ok failless
  cases same
  cases put
  exact ⟨files, changed, rfl⟩

theorem stands_log {path source message : String} {level : Int} {parts : List String} {content : List UInt8}
    (ran : (log source level message).run before = (.ok (), after))
    (stands : before.files.Stands path parts content)
    (spare : before.loggers.Spare source before.files parts) : after.files.Stands path parts content := by
  let target : Logging.Target := ⟨before.files, before.errors⟩
  let record : Logging.Record := ⟨source, level, message⟩
  let emitted := Logging.emitAll before.loggers before.now target [record]
  have logged : (logAll [record]).run before =
      (.ok (), { before with files := emitted.files, errors := emitted.console }) := rfl
  have same : after.files = emitted.files := congrArg (fun reached => reached.2.files) (ran.symm.trans logged)
  rw [same]
  simp only [emitted, Logging.emitAll, List.foldl_cons, List.foldl_nil]
  exact Logging.stands_emit stands spare

/-- A report that is written leaves a file in another place as it is, if the handlers do so too. -/
theorem stands_writeOutcome {path reportPath : String} {outcome : Outcome} {declared : Option Int}
    {parts : List String} {content : List UInt8}
    (ran : (writeOutcome reportPath outcome declared).run before = (.ok (), after))
    (stands : before.files.Stands path parts content)
    (apart : Path.resolve before.files.here reportPath ≠ parts)
    (spare : before.loggers.Spare formulaSource before.files parts) :
    after.files.Stands path parts content := by
  unfold writeOutcome at ran
  obtain ⟨_, between, ranMake, ran⟩ := exists_of_run_bind_eq_ok ran
  obtain ⟨prepared, made, rfl⟩ := eq_of_run_changeFiles_eq_ok ranMake
  obtain ⟨_, between, ranEmpty, ran⟩ := exists_of_run_bind_eq_ok ran
  obtain ⟨emptied, opened, rfl⟩ := eq_of_run_changeFiles_eq_ok ranEmpty
  obtain ⟨lines, between, failless, ran⟩ := exists_of_run_bind_eq_ok ran
  obtain ⟨_, rfl⟩ := eq_of_run_orFail_eq_ok failless
  obtain ⟨_, between, ranSave, ran⟩ := exists_of_run_bind_eq_ok ran
  obtain ⟨written, saved, rfl⟩ := eq_of_run_changeFiles_eq_ok ranSave
  have toPrepared := Files.continues_makeDirectories made
  have toEmptied := toPrepared.trans (Files.continues_save opened)
  have toWritten := toEmptied.trans (Files.continues_save saved)
  rw [← toPrepared.here] at apart
  have first := (stands.makeDirectories made).save apart opened
  rw [toPrepared.here, ← toEmptied.here] at apart
  have second := first.save apart saved
  exact stands_log ran second (Logging.Loggers.Spare.mono spare toWritten)

end Session

end Clausal
