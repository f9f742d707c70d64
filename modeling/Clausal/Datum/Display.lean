import Clausal.Datum
import Clausal.Text.Quoted

/-!
The display of data trees: nested values between brackets and braces, with text in quotes.
-/

set_option autoImplicit false

namespace Clausal.Datum

mutual

def display : Datum → String
  | .null => "None"
  | .bool true => "True"
  | .bool false => "False"
  | .int value => toString value
  | .real value => Decimal.shortest value
  | .text value => Text.quoted value
  | .list items => "[" ++ String.intercalate ", " (displayItems items) ++ "]"
  | .map entries => "\x7b" ++ String.intercalate ", " (displayEntries entries) ++ "\x7d"
  | .foreign typeName => "<" ++ typeName ++ ">"

def displayItems : List Datum → List String
  | [] => []
  | item :: rest => display item :: displayItems rest

def displayEntries : List (String × Datum) → List String
  | [] => []
  | (key, value) :: rest => (Text.quoted key ++ ": " ++ display value) :: displayEntries rest

end

/-- The plain text of a value: text stands as it is, everything else as displayed. -/
def plain : Datum → String
  | .text value => value
  | value => display value

end Clausal.Datum
