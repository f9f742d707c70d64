import Clausal.Assoc
import Clausal.Quantity

/-!
Data trees: the values of settings, statistics and log events. Maps keep their entries in order.
-/

set_option autoImplicit false

namespace Clausal

/-- A tree of scalars, lists and maps. A foreign value is one that has no data form; only the name of
its type is known. -/
inductive Datum where
  | null
  | bool (value : Bool)
  | int (value : Int)
  | real (value : Float)
  | text (value : String)
  | list (items : List Datum)
  | map (entries : List (String × Datum))
  | foreign (typeName : String)

namespace Datum

def ofQuantity : Quantity → Datum
  | .whole value => .int value
  | .real value => .real value

/-- The number that a value stands for; truth counts as one and falsehood as zero. -/
def quantity? : Datum → Option Quantity
  | .int value => some (.whole value)
  | .real value => some (.real value)
  | .bool value => some (.whole (if value then 1 else 0))
  | _ => none

def int? : Datum → Option Int
  | .int value => some value
  | .bool value => some (if value then 1 else 0)
  | _ => none

def isNull : Datum → Bool
  | .null => true
  | _ => false

/-- Whether a value counts as present: null, falsehood, zero and empty values do not. -/
def isTruthy : Datum → Bool
  | .null => false
  | .bool value => value
  | .int value => value != 0
  | .real value => value != 0
  | .text value => !value.isEmpty
  | .list items => !items.isEmpty
  | .map entries => !entries.isEmpty
  | .foreign _ => true

/-- The entries of a map; other values have none. -/
def entries : Datum → List (String × Datum)
  | .map entries => entries
  | _ => []

end Datum

end Clausal
