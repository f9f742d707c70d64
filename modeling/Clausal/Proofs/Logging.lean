import Clausal.Logging

/-!
Logging that goes to the console alone: it stays so when loggers are set up without a file, and it leaves
the files as they are.
-/

set_option autoImplicit false

namespace Clausal.Logging

namespace Loggers

variable {loggers : Loggers} {name : String} {logger : Logger}

/-- No logger has a handler that writes to a file. -/
def ConsoleOnly (loggers : Loggers) : Prop :=
  ∀ name, ∀ handler ∈ (loggers.get name).handlers, handler.sink = .console

theorem get_set (name other : String) : (loggers.set name logger).get other =
    if name = other then logger else loggers.get other := by
  rw [get, set, Assoc.get?_insert]
  split <;> rfl

theorem ConsoleOnly.set (consoleOnly : loggers.ConsoleOnly)
    (console : ∀ handler ∈ logger.handlers, handler.sink = .console) :
    (loggers.set name logger).ConsoleOnly := by
  intro other
  rw [get_set]
  split
  · exact console
  · exact consoleOnly other

theorem consoleOnly_empty : ConsoleOnly {} := by
  intro name handler member
  cases member

theorem ConsoleOnly.handlersOf (consoleOnly : loggers.ConsoleOnly) {handler : Handler}
    (member : handler ∈ loggers.handlersOf name) : handler.sink = .console := by
  obtain ⟨above, _, inside⟩ := List.mem_flatMap.mp member
  exact consoleOnly above handler inside

end Loggers

variable {loggers : Loggers} {request : Request}

theorem files_handle (now : Instant) (record : Record) (target : Target) {handler : Handler}
    (console : handler.sink = .console) : (handle now record target handler).files = target.files := by
  unfold handle
  rw [console]
  split
  · split <;> rfl
  · rfl

theorem files_foldl_handle (now : Instant) (record : Record) (target : Target) {handlers : List Handler}
    (console : ∀ handler ∈ handlers, handler.sink = .console) :
    (handlers.foldl (handle now record) target).files = target.files := by
  induction handlers generalizing target with
  | nil => rfl
  | cons handler rest ih =>
      rw [List.foldl_cons, ih _ fun other later => console other (List.mem_cons_of_mem _ later)]
      exact files_handle now record target (console handler List.mem_cons_self)

theorem files_emit (consoleOnly : loggers.ConsoleOnly) (now : Instant) (target : Target) (record : Record) :
    (emit loggers now target record).files = target.files := by
  unfold emit
  split
  · rfl
  · split
    · split <;> rfl
    · exact files_foldl_handle now record target fun handler => consoleOnly.handlersOf

theorem files_emitAll (consoleOnly : loggers.ConsoleOnly) (now : Instant) (target : Target)
    (records : List Record) : (emitAll loggers now target records).files = target.files := by
  induction records generalizing target with
  | nil => rfl
  | cons record rest ih =>
      rw [emitAll, List.foldl_cons, ← emitAll, ih]
      exact files_emit consoleOnly now target record

/-- A level and a format are all that setting up needs when no file is asked for. -/
theorem exists_setUp (consoleOnly : loggers.ConsoleOnly) (files : Files) {level : Level} {format : String}
    (leveled : Level.ofDatum request.level = .ok level) (formatted : formatOf request.format = .ok format)
    (fileless : request.file.isTruthy = false) :
    ∃ ready : Loggers, ready.ConsoleOnly ∧ setUp loggers files request = ⟨ready, files, none⟩ := by
  let console : Handler := ⟨.console, level.value, format⟩
  let cleared := loggers.set request.name { level, handlers := [] }
  refine ⟨cleared.set request.name { level, handlers := [console] }, ?_, ?_⟩
  · refine Loggers.ConsoleOnly.set (consoleOnly.set fun handler member => nomatch member) ?_
    intro handler member
    rw [List.mem_singleton.mp member]
  · simp only [setUp, leveled, formatted, fileless]
    rfl

end Clausal.Logging
