/-!
Paths as text. Slashes stand between the components; a path that begins with one is absolute. The last
component of a path is its name, and what precedes it is its directory.
-/

set_option autoImplicit false

namespace Clausal.Path

/-- The text before the name, with the slash, and the name: what follows the last slash. -/
def cut (path : List Char) : List Char × List Char :=
  let name := (path.reverse.takeWhile (· ≠ '/')).reverse
  (path.take (path.length - name.length), name)

/-- The text without slashes at its end, unless it consists of slashes only. -/
def withoutTrailing (path : List Char) : List Char :=
  let stripped := (path.reverse.dropWhile (· = '/')).reverse
  if stripped.isEmpty then path else stripped

def split (path : String) : String × String :=
  let (front, name) := cut path.toList
  (String.ofList (withoutTrailing front), String.ofList name)

def directory (path : String) : String := (split path).1

def name (path : String) : String := (split path).2

/-- The name without its extension, which is the last dot and what follows it. Dots at the beginning of
the name start no extension. -/
def stem (path : String) : String :=
  let name := (name path).toList
  let extension := (name.reverse.takeWhile (· ≠ '.')).reverse
  let front := (name.take (name.length - extension.length)).dropLast
  if front.all (· = '.') then String.ofList name else String.ofList front

/-- A path below a directory; an absolute path stands for itself. -/
def join (directory path : String) : String :=
  if path.toList.head? = some '/' then path
  else if directory.isEmpty ∨ directory.toList.getLast? = some '/' then directory ++ path
  else directory ++ "/" ++ path

/-- The components that name an entry: neither empty nor a single dot. -/
def components (path : String) : List String :=
  ((path.toList.splitOn '/').map String.ofList).filter fun part => part ≠ "" ∧ part ≠ "."

def isAbsolute (path : String) : Bool := path.toList.head? = some '/'

/-- Follows one component; two dots lead back to the directory above. -/
def step (reached : List String) (part : String) : List String :=
  if part = ".." then reached.dropLast else reached ++ [part]

/-- The components of a path seen from the root, for a path that is read in the directory `here`. -/
def resolve (here : List String) (path : String) : List String :=
  (components path).foldl step (if isAbsolute path then [] else here)

def ofComponents (parts : List String) : String := "/" ++ String.intercalate "/" parts

def asksDirectory (path : String) : Bool :=
  match ((path.toList.splitOn '/').map String.ofList).getLast? with
  | some last => last = "" ∨ last = "." ∨ last = ".."
  | none => false

example : split "a//b" = ("a", "b") ∧ split "/b" = ("/", "b") ∧ split "a/" = ("a", "") := by
  decide +kernel

example : stem "d/x.tar.gz" = "x.tar" ∧ stem "..a" = "..a" ∧ stem "x" = "x" := by decide +kernel

end Clausal.Path
