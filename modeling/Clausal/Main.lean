import Clausal.Command
import Std.Time.DateTime.Timestamp

/-!
The program. It looks at the paths that a run names, has the command carry out the run on that picture of
the files, and then writes what the run changed.
-/

set_option autoImplicit false

namespace Clausal.Program

open Command

def probe (path : String) : IO (Option Node) := do
  try
    return some (.file (← IO.FS.readBinFile path).data.toList)
  catch
    | .noFileOrDirectory .. => return none
    | .inappropriateType .. => return some .directory
    | error => throw error

/-- Adds to the picture of the files what stands at a path and above it, down to the first component that
is no directory. -/
def look (files : Files) (path : String) : IO Files := do
  let parts := Path.resolve files.here path
  let mut files := files
  for length in List.range parts.length do
    let reached := parts.take (length + 1)
    if (files.node? reached).isNone then
      match ← probe (Path.ofComponents reached) with
      | none => return files
      | some node => files := files.set reached node
    if files.node? reached != some .directory then
      return files
  return files

/-- Writes the directories and files that differ from how they were. -/
def writeChanges (before after : Files) : IO Unit := do
  for (parts, node) in after.entries do
    if before.node? parts != some node then
      let path := Path.ofComponents parts
      match node with
      | .directory => IO.FS.createDir path
      | .file content => IO.FS.writeBinFile path ⟨content.toArray⟩

def now : IO Instant := do
  let stamp ← Std.Time.Timestamp.now
  return ⟨stamp.toNanosecondsSinceUnixEpoch.toInt.toNat / 1000⟩

/-- Prints what a session has to say and leaves it with nothing to say. -/
def speak (session : Session) : IO Session := do
  (← IO.getStdout).putStr session.output
  (← IO.getStderr).putStr session.errors
  (← IO.getStdout).flush
  return { session with output := "", errors := "" }

def openSession (line : List String) : IO Session := do
  let mut session : Session :=
    { files := { here := Path.components (← IO.currentDir).toString }
      now := ← now
      entropy := (← IO.getRandomBytes 8).foldl (fun value byte => 256 * value + byte.toNat) 0 }
  if let .ok arguments := Arguments.read line then
    for path in paths arguments session.config do
      session := { session with files := ← look session.files path }
    let (_, configured) := (Session.loadConfig arguments.config).run session
    for path in paths arguments configured.config do
      session := { session with files := ← look session.files path }
  return session

/-- Runs the solver that was prepared, takes its time, and concludes the run. -/
def solve (prepared : Prepared) (session : Session) : IO (Session × Ending) := do
  let session ← speak session
  let started ← IO.monoNanosNow
  let run ← IO.lazyPure fun _ => prepared.run session.entropy
  let nanoseconds := (← IO.monoNanosNow) - started
  let session :=
    { session with now := ← now, elapsed := Float.ofScientific nanoseconds true 9 }
  match (conclude prepared run).run session with
  | (.ok ending, later) => return (later, ending)
  | (.error fault, later) => return (later, .fault fault)

/-- The exit code of an ending. A fault that the command does not deal with is printed with its kind. -/
def exitCode : Ending → IO UInt32
  | .code value => return value.toUInt32
  | .refused .help => do
      IO.println usage
      return 0
  | .refused _ => return 2
  | .fault fault => do
      IO.eprintln (fault.kind ++ ": " ++ fault.message)
      return 1

def run (line : List String) : IO UInt32 := do
  let session ← openSession line
  let (later, ending) ←
    match (begin line).run session with
    | (.ok (.ended ending), later) => pure (later, ending)
    | (.ok (.ready prepared), later) => solve prepared later
    | (.error fault, later) => pure (later, .fault fault)
  writeChanges session.files later.files
  let _ ← speak later
  exitCode ending

end Clausal.Program

def main (line : List String) : IO UInt32 := Clausal.Program.run line
