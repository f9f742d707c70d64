import Clausal.Datum.Arithmetic
import Clausal.Files
import Clausal.Instant
import Clausal.Logging.Format
import Clausal.Logging.Level

/-!
Loggers in a hierarchy of dotted names. A logger without a level of its own takes that of the nearest
logger above it. A record that passes its logger's level goes to the handlers of the logger and of all
loggers above it, each of which has a level too; if there is no handler at all, grave records are written
to the console as they are.
-/

set_option autoImplicit false

namespace Clausal.Logging

inductive Sink where
  | console
  | file (handle : Files.Handle)
  deriving DecidableEq

/-- The name of the type of handler that writes to a sink. -/
def Sink.typeName : Sink → String
  | .console => "StreamHandler"
  | .file _ => "FileHandler"

/-- A handler writes the records of its level and above in its format. -/
structure Handler where
  sink : Sink
  level : Int
  format : String
  deriving DecidableEq

structure Logger where
  level : Level := .number 0
  handlers : List Handler := []
  deriving DecidableEq

/-- The loggers that were ever set up, by their names. All others have neither level nor handlers. -/
structure Loggers where
  entries : List (String × Logger) := []
  deriving DecidableEq

namespace Loggers

def get (loggers : Loggers) (name : String) : Logger := (Assoc.get? name loggers.entries).getD {}

def set (loggers : Loggers) (name : String) (logger : Logger) : Loggers :=
  ⟨Assoc.insert name logger loggers.entries⟩

/-- The names of a logger and of those above it, from the logger upwards. -/
def lineage (name : String) : List String :=
  let parts := (name.toList.splitOn '.').map String.ofList
  (List.range parts.length).map fun index =>
    String.intercalate "." (parts.take (parts.length - index))

/-- The level from which on records count where no logger has a level. -/
def rootLevel : Int := warning

def effectiveLevel (loggers : Loggers) (name : String) : Int :=
  ((lineage name).map fun above => (loggers.get above).level.value).find? (· ≠ 0) |>.getD rootLevel

/-- The handlers that see the records of a logger, its own first. -/
def handlersOf (loggers : Loggers) (name : String) : List Handler :=
  (lineage name).flatMap fun above => (loggers.get above).handlers

end Loggers

def fields (now : Instant) (record : Record) : List (String × Datum) :=
  [
    ("name", .text record.source), ("levelname", .text (levelName record.level)),
    ("levelno", .int record.level), ("message", .text record.message),
    ("asctime", .text now.stamp)
  ]

/-- What logging writes to: the files, and the console that collects lines. -/
structure Target where
  files : Files
  console : String

/-- Writes a line to a sink. A file that was written stays open in the same state. -/
def Target.write (target : Target) (line : String) : Sink → Target
  | .console => { target with console := target.console ++ line }
  | .file handle => { target with files := (target.files.write handle line).1 }

/-- Hands a record to a handler. A line that cannot be made is not written. -/
def handle (now : Instant) (record : Record) (target : Target) (handler : Handler) : Target :=
  if handler.level ≤ record.level then
    match Format.render handler.format (fields now record) with
    | some line => target.write (line ++ "\n") handler.sink
    | none => target
  else target

def emit (loggers : Loggers) (now : Instant) (target : Target) (record : Record) : Target :=
  if record.level < loggers.effectiveLevel record.source then target
  else
    match loggers.handlersOf record.source with
    | [] =>
        if record.level < warning then target
        else target.write (record.message ++ "\n") .console
    | handlers => handlers.foldl (handle now record) target

def emitAll (loggers : Loggers) (now : Instant) (target : Target) (records : List Record) : Target :=
  records.foldl (emit loggers now) target

structure Request where
  name : String := "satengine"
  level : Datum := .int info
  format : Datum := .text "%(asctime)s - %(name)s - %(levelname)s - %(message)s"
  file : Datum := .null

inductive SetupFault where
  | level (fault : LevelFault)
  | format (fault : Format.Fault)
  /-- The path of the log file is no text but a value of the given type. -/
  | noPath (typeName : String)
  | file (fault : FileFault)
  deriving DecidableEq

/-- The format that a value stands for; nothing stands for the message alone. -/
def formatOf (value : Datum) : Except Format.Fault String :=
  if !value.isTruthy then .ok Format.bare
  else
    match value with
    | .text format => if Format.hasField format.toList then .ok format else .error (.noField format)
    | _ => .error (.notText value.typeName)

/-- The loggers and files after an attempt to set up logging, and what stopped the attempt. -/
structure Setup where
  loggers : Loggers
  files : Files
  fault : Option SetupFault

/-- Gives a logger a level, and one handler for the console and one for a file if there is one, in place
of the handlers that it had. -/
def setUp (loggers : Loggers) (files : Files) (request : Request) : Setup :=
  match Level.ofDatum request.level with
  | .error fault => ⟨loggers, files, some (.level fault)⟩
  | .ok level =>
      let cleared := loggers.set request.name { level, handlers := [] }
      match formatOf request.format with
      | .error fault => ⟨cleared, files, some (.format fault)⟩
      | .ok format =>
          let console : Handler := ⟨.console, level.value, format⟩
          let started := cleared.set request.name { level, handlers := [console] }
          if !request.file.isTruthy then ⟨started, files, none⟩
          else
            match request.file with
            | .text path =>
                match files.makeDirectoryOf path with
                | .error fault => ⟨started, files, some (.file fault)⟩
                | .ok prepared =>
                    match prepared.openAtEnd (prepared.absolute path) with
                    | .error fault => ⟨started, prepared, some (.file fault)⟩
                    | .ok (opened, handle) =>
                        let file : Handler := ⟨.file handle, level.value, format⟩
                        ⟨started.set request.name { level, handlers := [console, file] },
                          opened, none⟩
            | other => ⟨started, files, some (.noPath other.typeName)⟩

/-- Takes all handlers off a logger; its level stays. -/
def tearDown (loggers : Loggers) (name : String) : Loggers :=
  loggers.set name { loggers.get name with handlers := [] }

example : Loggers.lineage "a.b.c" = ["a.b.c", "a.b", "a"] := by decide +kernel

end Clausal.Logging
