import Clausal.Decimal.Shortest

/-!
Numeric settings: whole numbers without bound, and floating-point numbers. The two kinds compare by
their exact values, and a product is whole when both factors are.
-/

set_option autoImplicit false

namespace Clausal

inductive Quantity where
  | whole (value : Int)
  | real (value : Float)

namespace Quantity

def toFloat : Quantity → Float
  | .whole value => Float.ofInt value
  | .real value => value

/-- Decimal digits for a whole number, the shortest decimal that reads back for a real one. -/
def text : Quantity → String
  | .whole value => toString value
  | .real value => Decimal.shortest value

/-- The least natural number that is at least the given quantity. Infinity is out of reach for any
count, so it stands for more than any finite real; a quantity that is not a number is never reached. -/
def ceiling : Quantity → Nat
  | .whole value => value.toNat
  | .real value =>
      match Decimal.decode value with
      | .finite true _ _ => 0
      | .finite false mantissa exponent =>
          if 0 ≤ exponent then mantissa * Nat.pow 2 exponent.toNat
          else (mantissa + Nat.pow 2 (-exponent).toNat - 1) / Nat.pow 2 (-exponent).toNat
      | .infinite true => 0
      | .infinite false => Nat.pow 2 1024
      | .notANumber => Nat.pow 2 1024

/-- The exact ratio of a finite quantity, as numerator and positive denominator. -/
def ratio? : Quantity → Option (Int × Nat)
  | .whole value => some (value, 1)
  | .real value =>
      match Decimal.decode value with
      | .finite negative mantissa exponent =>
          let magnitude : Int := mantissa * Nat.pow 2 exponent.toNat
          some (if negative then -magnitude else magnitude, Nat.pow 2 (-exponent).toNat)
      | _ => none

/-- A place among all quantities: on a side, negative below every number, positive above them and zero for
numbers, and within a side at a ratio. -/
structure Standing where
  side : Int
  numerator : Int
  denominator : Nat

namespace Standing

/-- Above every number. -/
def top : Standing := ⟨1, 0, 1⟩

def bottom : Standing := ⟨-1, 0, 1⟩

def isAtMost (left right : Standing) : Bool :=
  decide (left.side < right.side)
    || (decide (left.side = right.side)
      && decide (left.numerator * right.denominator ≤ right.numerator * left.denominator))

end Standing

/-- Where a quantity stands. What is not a number stands nowhere. -/
def standing? (quantity : Quantity) : Option Standing :=
  match quantity.ratio? with
  | some (numerator, denominator) => some ⟨0, numerator, denominator⟩
  | none =>
      match quantity with
      | .whole _ => none
      | .real value =>
          match Decimal.decode value with
          | .infinite negative => some (if negative then .bottom else .top)
          | _ => none

/-- Nothing compares with what stands nowhere. -/
def isAtMost? : Option Standing → Option Standing → Bool
  | some left, some right => left.isAtMost right
  | _, _ => false

/-- Comparison by exact value. -/
def le (left right : Quantity) : Bool := isAtMost? left.standing? right.standing?

/-- The larger of two quantities; the left one when they are equal. -/
def max (left right : Quantity) : Quantity :=
  if right.le left then left else right

def mul : Quantity → Quantity → Quantity
  | .whole left, .whole right => .whole (left * right)
  | left, right => .real (left.toFloat * right.toFloat)

end Quantity

end Clausal
