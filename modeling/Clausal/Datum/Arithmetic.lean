import Clausal.Datum

/-!
Products and comparisons of data. Truth values count as numbers; a text or a list times a number is
repeated; other operands are refused by the names of their types.
-/

set_option autoImplicit false

namespace Clausal.Datum

def typeName : Datum → String
  | .null => "NoneType"
  | .bool _ => "bool"
  | .int _ => "int"
  | .real _ => "float"
  | .text _ => "str"
  | .list _ => "list"
  | .map _ => "dict"
  | .foreign typeName => typeName

inductive OperandFault where
  /-- Values of these types have no product. -/
  | noProduct (left right : String)
  /-- Values of these types have no order. -/
  | noOrder (operator left right : String)
  /-- What can be repeated was multiplied by something other than an integer. -/
  | noCount (right : String)
  deriving DecidableEq

def OperandFault.message : OperandFault → String
  | .noProduct left right =>
      "unsupported operand type(s) for *: '" ++ left ++ "' and '" ++ right ++ "'"
  | .noOrder operator left right =>
      "'" ++ operator ++ "' not supported between instances of '" ++ left ++ "' and '" ++ right ++ "'"
  | .noCount right => "can't multiply sequence by non-int of type '" ++ right ++ "'"

def mul (left right : Datum) : Except OperandFault Datum :=
  match left.quantity?, right.quantity? with
  | some left, some right => .ok (ofQuantity (left.mul right))
  | _, _ =>
      match left, right.int? with
      | .text value, some count =>
          .ok (.text (String.join (List.replicate count.toNat value)))
      | .list items, some count => .ok (.list (List.replicate count.toNat items).flatten)
      | .text _, none => .error (.noCount right.typeName)
      | .list _, none => .error (.noCount right.typeName)
      | _, _ => .error (.noProduct left.typeName right.typeName)

/-- Whether the left value is at most the right one. The operator named in a fault is the one that was
asked for. -/
def le (operator : String) (left right : Datum) : Except OperandFault Bool :=
  match left.quantity?, right.quantity? with
  | some left, some right => .ok (left.le right)
  | _, _ => .error (.noOrder operator left.typeName right.typeName)

end Clausal.Datum
