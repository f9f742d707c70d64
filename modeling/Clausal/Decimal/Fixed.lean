import Clausal.Decimal.Shortest

/-!
Decimal text with a fixed number of places, rounded from the exact binary value.
-/

set_option autoImplicit false

namespace Clausal.Decimal

/-- The quotient rounded to the nearest whole number; a tie goes to the even neighbour. -/
def roundHalfEven (numerator denominator : Nat) : Nat :=
  let quotient := numerator / denominator
  let excess := 2 * (numerator % denominator)
  if excess < denominator ∨ (excess = denominator ∧ quotient % 2 = 0) then quotient
  else quotient + 1

/-- The text of a scaled number with the given number of places, at least one. -/
def placePoint (places scaled : Nat) : String :=
  let digits := padLeft (places + 1) (Nat.toDigits 10 scaled)
  let count := digits.length - places
  String.ofList (digits.take count ++ '.' :: digits.drop count)

/-- A decoded number with a fixed number of places. The sign stays when all places are zero. -/
def writeFixed (places : Nat) : Decoded → String
  | .notANumber => general.notANumber
  | .infinite negative => (if negative then "-" else "") ++ general.infinity
  | .finite negative mantissa exponent =>
      let scaled :=
        roundHalfEven (mantissa * Nat.pow 2 exponent.toNat * Nat.pow 10 places)
          (Nat.pow 2 (-exponent).toNat)
      (if negative then "-" else "") ++ placePoint places scaled

def fixed (places : Nat) (value : Float) : String := writeFixed places (decode value)

end Clausal.Decimal
