import Clausal.Datum
import Clausal.Text.Quoted

/-!
JSON text of data trees. Only ASCII characters appear; others are escaped by their UTF-16 units. A
compact text stands on one line, an indented one gives every item a line of its own.
-/

set_option autoImplicit false

namespace Clausal.Json

def unitEscape (unit : Nat) : List Char := '\\' :: 'u' :: Text.hex 4 unit

/-- One character of a JSON string. Beyond the basic plane it takes two surrogate units. -/
def escape (character : Char) : List Char :=
  if character = '"' then ['\\', '"']
  else if character = '\\' then ['\\', '\\']
  else if character = '\n' then ['\\', 'n']
  else if character = '\r' then ['\\', 'r']
  else if character = '\t' then ['\\', 't']
  else if character = '\x0c' then ['\\', 'f']
  else if character = '\x08' then ['\\', 'b']
  else
    let code := character.toNat
    if 32 ≤ code ∧ code < 127 then [character]
    else if code < 0x10000 then unitEscape code
    else
      unitEscape (0xd800 + (code - 0x10000) / 0x400)
        ++ unitEscape (0xdc00 + (code - 0x10000) % 0x400)

def string (value : String) : String :=
  String.ofList ('"' :: value.toList.flatMap escape ++ ['"'])

/-- The layout of special numbers differs from the display of data. -/
def layout : Decimal.Layout := { Decimal.general with infinity := "Infinity", notANumber := "NaN" }

def real (value : Float) : String := Decimal.write layout (Decimal.decode value)

/-- How the items of a list or map are set apart: by what comes before an item, between two, and
after the last one. -/
structure Spacing where
  before : Nat → String
  between : Nat → String
  after : Nat → String

def compact : Spacing where
  before _ := ""
  between _ := ", "
  after _ := ""

/-- A line of its own for every item, indented by two spaces for each level. -/
def indented : Spacing where
  before depth := "\n" ++ String.ofList (List.replicate (2 * (depth + 1)) ' ')
  between depth := ",\n" ++ String.ofList (List.replicate (2 * (depth + 1)) ' ')
  after depth := "\n" ++ String.ofList (List.replicate (2 * depth) ' ')

/-- Encloses items; without items nothing stands between the brackets. -/
def enclose (spacing : Spacing) (depth : Nat) (opening closing : String) (items : List String) :
    String :=
  if items.isEmpty then opening ++ closing
  else
    opening ++ spacing.before depth ++ String.intercalate (spacing.between depth) items
      ++ spacing.after depth ++ closing

structure Unserialisable where
  typeName : String
  deriving DecidableEq

def Unserialisable.message (fault : Unserialisable) : String :=
  "Object of type " ++ fault.typeName ++ " is not JSON serializable"

mutual

/-- The JSON text of a value at a depth of nesting; the first foreign value is refused. -/
def encode (spacing : Spacing) (depth : Nat) : Datum → Except Unserialisable String
  | .null => .ok "null"
  | .bool true => .ok "true"
  | .bool false => .ok "false"
  | .int value => .ok (toString value)
  | .real value => .ok (real value)
  | .text value => .ok (string value)
  | .list items => do
      let encoded ← encodeItems spacing (depth + 1) items
      return enclose spacing depth "[" "]" encoded
  | .map entries => do
      let encoded ← encodeEntries spacing (depth + 1) entries
      return enclose spacing depth "\x7b" "\x7d" encoded
  | .foreign typeName => .error ⟨typeName⟩

def encodeItems (spacing : Spacing) (depth : Nat) :
    List Datum → Except Unserialisable (List String)
  | [] => .ok []
  | item :: rest => do
      let encoded ← encode spacing depth item
      let others ← encodeItems spacing depth rest
      return encoded :: others

def encodeEntries (spacing : Spacing) (depth : Nat) :
    List (String × Datum) → Except Unserialisable (List String)
  | [] => .ok []
  | (key, value) :: rest => do
      let encoded ← encode spacing depth value
      let others ← encodeEntries spacing depth rest
      return (string key ++ ": " ++ encoded) :: others

end

def write (value : Datum) : Except Unserialisable String := encode compact 0 value

/-- The JSON text of a value on indented lines, without a line end after the last. -/
def writeIndented (value : Datum) : Except Unserialisable String := encode indented 0 value

end Clausal.Json
