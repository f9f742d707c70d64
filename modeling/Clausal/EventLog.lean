import Clausal.Datum.Json
import Clausal.Files
import Clausal.Instant
import Clausal.Outcome

/-!
Event logs. The events of each type go to a file of their own, one JSON object on each line. A file is
opened by the first event of its type, which empties it and starts its count anew; closing the log forgets
the open files. A closing summary lists the files and counts.
-/

set_option autoImplicit false

namespace Clausal

/-- A log of the events of one run, with the files that are open and the counts of events by type. -/
structure EventLog where
  directory : String
  runName : String
  handles : List (String × Files.Handle)
  counts : List (String × Nat)
  metadata : List (String × Datum)

inductive EventFault where
  | file (fault : FileFault)
  /-- The event holds a value without JSON text. -/
  | value (fault : Json.Unserialisable)
  deriving DecidableEq

def EventFault.message : EventFault → String
  | .file fault => fault.message
  | .value fault => fault.message

namespace EventLog

def solveType : String := "solve"

def exceptionType : String := "exception"

/-- Starts a log in a directory, which is made if it is missing. -/
def start (files : Files) (now : Instant) (directory runName : String) :
    Except FileFault (Files × EventLog) := do
  let prepared ← files.makeDirectories directory
  return (prepared,
    { directory
      runName
      handles := []
      counts := []
      metadata :=
        [("run_name", .text runName), ("start_time", .text now.iso), ("log_files", .map [])] })

def path (log : EventLog) (ending : String) : String :=
  Path.join log.directory (log.runName ++ "_" ++ ending)

def eventPath (log : EventLog) (type : String) : String := log.path (type ++ ".jsonl")

def notePath (log : EventLog) (type : String) : EventLog :=
  let noted :=
    Assoc.insert type (.text (log.eventPath type))
      ((Assoc.get? "log_files" log.metadata).getD (.map [])).entries
  { log with metadata := Assoc.insert "log_files" (.map noted) log.metadata }

/-- A step of the log: the files and the log after it, and its result. -/
structure Step (α : Type) where
  files : Files
  log : EventLog
  result : Except EventFault α

/-- The open file for a type of events; it is opened if it is not open yet. -/
def handleFor (files : Files) (log : EventLog) (type : String) : Step Files.Handle :=
  match Assoc.get? type log.handles with
  | some handle => ⟨files, log, .ok handle⟩
  | none =>
      let noted := log.notePath type
      match files.create (log.eventPath type) with
      | .error fault => ⟨files, noted, .error (.file fault)⟩
      | .ok (created, handle) =>
          ⟨created,
            { noted with
              handles := Assoc.insert type handle noted.handles
              counts := Assoc.insert type 0 noted.counts },
            .ok handle⟩

/-- Writes an event and counts it. An event that has no JSON text leaves its file open and empty of it. -/
def append (files : Files) (log : EventLog) (type : String) (event : Datum) : Step Unit :=
  let opened := handleFor files log type
  match opened.result with
  | .error fault => ⟨opened.files, opened.log, .error fault⟩
  | .ok handle =>
      match Json.write event with
      | .error fault => ⟨opened.files, opened.log, .error (.value fault)⟩
      | .ok text =>
          let (files, handle) := opened.files.write handle (text ++ "\n")
          let count := (Assoc.get? type opened.log.counts).getD 0
          ⟨files,
            { opened.log with
              handles := Assoc.insert type handle opened.log.handles
              counts := Assoc.insert type (count + 1) opened.log.counts },
            .ok ()⟩

def solveEvent (now : Instant) (source : String) (outcome : Outcome) : Datum :=
  let assignment := outcome.assignment?.map fun assignment =>
    Datum.map (assignment.map fun (atom, value) => (atom.name, .bool value))
  .map
    [
      ("source", .text source), ("status", .text outcome.status.label),
      ("runtime", .ofQuantity outcome.runtime), ("statistics", .map outcome.statistics),
      ("assignment", assignment.getD .null), ("timestamp", .real now.seconds)
    ]

/-- The event of a fault: its kind and its text. -/
def exceptionEvent (now : Instant) (source kind message : String) : Datum :=
  .map
    [
      ("source", .text source), ("exception_type", .text kind),
      ("exception_message", .text message), ("timestamp", .real now.seconds)
    ]

/-- Logs the outcome of a run on what comes from the given source. -/
def logSolve (files : Files) (log : EventLog) (now : Instant) (source : String)
    (outcome : Outcome) : Step Unit :=
  append files log solveType (solveEvent now source outcome)

/-- Logs a fault that came up with what comes from the given source. -/
def logException (files : Files) (log : EventLog) (now : Instant) (source kind message : String) :
    Step Unit :=
  append files log exceptionType (exceptionEvent now source kind message)

def close (log : EventLog) : EventLog := { log with handles := [] }

/-- The types of events whose files are open, in order. -/
def openTypes (log : EventLog) : List String :=
  (Assoc.keys log.handles).mergeSort fun left right => decide (left ≤ right)

def countsDatum (log : EventLog) : Datum :=
  .map (log.counts.map fun (type, count) => (type, .int count))

/-- Closes all files and writes the summary of the run; answers the path of the summary. -/
def finalize (files : Files) (log : EventLog) (now : Instant) : Step String :=
  let ended := Assoc.insert "end_time" (.text now.iso) log.metadata
  let closed : EventLog :=
    { log.close with metadata := Assoc.insert "record_counts" log.countsDatum ended }
  let path := log.path "metadata.json"
  match files.create path with
  | .error fault => ⟨files, closed, .error (.file fault)⟩
  | .ok (created, handle) =>
      match Json.writeIndented (.map closed.metadata) with
      | .error fault => ⟨created, closed, .error (.value fault)⟩
      | .ok text => ⟨(created.write handle text).1, closed, .ok path⟩

end EventLog

end Clausal
