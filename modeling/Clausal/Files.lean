import Clausal.Assoc
import Clausal.Files.Path
import Clausal.Text.Quoted
import Clausal.Text.Utf8

/-!
A tree of files and directories, with the directory in which relative paths are read. Nothing is ever
removed. Operations that the tree does not allow fail with a cause and the path that was given.
-/

set_option autoImplicit false

namespace Clausal

inductive Node where
  | directory
  | file (content : List UInt8)
  deriving DecidableEq

inductive FileFault.Cause where
  | missing
  | present
  | notDirectory
  | isDirectory
  deriving DecidableEq

structure FileFault where
  cause : FileFault.Cause
  path : String
  deriving DecidableEq

namespace FileFault

def Cause.description : Cause → Nat × String
  | .missing => (2, "No such file or directory")
  | .present => (17, "File exists")
  | .notDirectory => (20, "Not a directory")
  | .isDirectory => (21, "Is a directory")

def Cause.kind : Cause → String
  | .missing => "FileNotFoundError"
  | .present => "FileExistsError"
  | .notDirectory => "NotADirectoryError"
  | .isDirectory => "IsADirectoryError"

def message (fault : FileFault) : String :=
  let (number, text) := fault.cause.description
  "[Errno " ++ toString number ++ "] " ++ text ++ ": " ++ Text.quoted fault.path

end FileFault

/-- The entries of the tree by their components from the root, and the working directory. The root, the
working directory and the directories above it exist without an entry. -/
structure Files where
  here : List String := []
  entries : List (List String × Node) := []
  deriving DecidableEq

namespace Files

def node? (files : Files) (parts : List String) : Option Node :=
  if parts.isPrefixOf files.here then some .directory else Assoc.get? parts files.entries

def set (files : Files) (parts : List String) (node : Node) : Files :=
  { files with entries := Assoc.insert parts node files.entries }

/-- Follows components from a directory. All but the last must lead to directories. -/
def walk (files : Files) (reached : List String) :
    List String → Except FileFault.Cause (List String)
  | [] => .ok reached
  | part :: rest =>
      match files.node? reached with
      | none => .error .missing
      | some (.file _) => .error .notDirectory
      | some .directory => walk files (Path.step reached part) rest

/-- The components from the root at which a path ends, whether something stands there or not. The empty
path leads nowhere. -/
def locate (files : Files) (path : String) : Except FileFault.Cause (List String) :=
  if path.isEmpty then .error .missing
  else files.walk (if Path.isAbsolute path then [] else files.here) (Path.components path)

/-- What a path leads to. A path that asks for a directory does not lead to a file. -/
def find (files : Files) (path : String) : Except FileFault.Cause Node := do
  let parts ← files.locate path
  match files.node? parts with
  | none => .error .missing
  | some .directory => .ok .directory
  | some (.file content) =>
      if Path.asksDirectory path then .error .notDirectory else .ok (.file content)

def contains (files : Files) (path : String) : Bool := (files.find path).toOption.isSome

def isDirectory (files : Files) (path : String) : Bool :=
  match files.find path with
  | .ok .directory => true
  | _ => false

def read (files : Files) (path : String) : Except FileFault (List UInt8) :=
  match files.find path with
  | .ok (.file content) => .ok content
  | .ok .directory => .error ⟨.isDirectory, path⟩
  | .error cause => .error ⟨cause, path⟩

/-- A file that is open for writing. Writing goes on at a position of its own, or always at the end of
the file when there is none. -/
structure Handle where
  parts : List String
  position : Option Nat
  deriving DecidableEq

/-- The content of the file at the given components; empty when there is no file. -/
def contentAt (files : Files) (parts : List String) : List UInt8 :=
  match files.node? parts with
  | some (.file content) => content
  | _ => []

/-- Where a file may be written: not at a directory, and not below anything but a directory. -/
def writable (files : Files) (path : String) : Except FileFault (List String) :=
  match files.locate path with
  | .error cause => .error ⟨cause, path⟩
  | .ok parts =>
      match files.node? parts with
      | some .directory => .error ⟨.isDirectory, path⟩
      | _ => if Path.asksDirectory path then .error ⟨.isDirectory, path⟩ else .ok parts

/-- Opens a file for writing from its beginning; what it held is lost. -/
def create (files : Files) (path : String) : Except FileFault (Files × Handle) := do
  let parts ← files.writable path
  return (files.set parts (.file []), ⟨parts, some 0⟩)

/-- Opens a file for writing at its end; what it holds stays. -/
def openAtEnd (files : Files) (path : String) : Except FileFault (Files × Handle) := do
  let parts ← files.writable path
  return (files.set parts (.file (files.contentAt parts)), ⟨parts, none⟩)

/-- Content with bytes written over it from a position on. A gap before the position is filled with
zeros. -/
def splice (content : List UInt8) (position : Nat) (bytes : List UInt8) : List UInt8 :=
  content.take position ++ List.replicate (position - content.length) 0 ++ bytes
    ++ content.drop (position + bytes.length)

def write (files : Files) (handle : Handle) (text : String) : Files × Handle :=
  let content := files.contentAt handle.parts
  let bytes := Text.Utf8.encode text
  let position := handle.position.getD content.length
  (files.set handle.parts (.file (splice content position bytes)),
    { handle with position := handle.position.map fun _ => position + bytes.length })

def save (files : Files) (path text : String) : Except FileFault Files := do
  let (created, handle) ← files.create path
  return (created.write handle text).1

def makeDirectory (files : Files) (path : String) : Except FileFault Files :=
  match files.locate path with
  | .error cause => .error ⟨cause, path⟩
  | .ok parts =>
      match files.node? parts with
      | some _ => .error ⟨.present, path⟩
      | none => .ok (files.set parts .directory)

/-- Makes a directory and those above it that are missing, within a number of levels. A directory that
is already there is no fault. -/
def makeDirectoriesWithin (files : Files) (path : String) : (levels : Nat) → Except FileFault Files
  | 0 => .ok files
  | levels + 1 =>
      let (above, name) :=
        let (front, name) := Path.split path
        if name.isEmpty then Path.split front else (front, name)
      let prepared : Except FileFault Files :=
        if above.isEmpty || name.isEmpty || files.contains above then .ok files
        else
          match makeDirectoriesWithin files above levels with
          | .error ⟨.present, _⟩ => .ok files
          | outcome => outcome
      match prepared with
      | .error fault => .error fault
      | .ok prepared =>
          if name = "." && !(above.isEmpty || files.contains above) then .ok prepared
          else
            match prepared.makeDirectory path with
            | .ok made => .ok made
            | .error fault => if prepared.isDirectory path then .ok prepared else .error fault

/-- Makes a directory and those above it that are missing. -/
def makeDirectories (files : Files) (path : String) : Except FileFault Files :=
  files.makeDirectoriesWithin path (path.length + 1)

/-- The absolute path of a path that is read in the working directory. -/
def absolute (files : Files) (path : String) : String :=
  Path.ofComponents (Path.resolve files.here path)

/-- Makes the directory that a file at the given path would stand in. -/
def makeDirectoryOf (files : Files) (path : String) : Except FileFault Files :=
  files.makeDirectories (Path.directory (files.absolute path))

/-- Puts content at a path, making the directories above it. -/
def place (files : Files) (path : String) (content : List UInt8) : Except FileFault Files := do
  let prepared ← files.makeDirectoryOf path
  return prepared.set (Path.resolve files.here path) (.file content)

/-- The files below the working directory, by their paths from there. -/
def contents (files : Files) : List (String × List UInt8) :=
  files.entries.filterMap fun (parts, node) =>
    match node with
    | .file content =>
        if files.here.isPrefixOf parts then
          some (String.intercalate "/" (parts.drop files.here.length), content)
        else none
    | .directory => none

end Files

end Clausal
