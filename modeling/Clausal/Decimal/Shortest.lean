/-!
Decimal text of floating-point numbers: the fewest digits that read back as the same number, and among
those the nearest to it. Positional notation is used from 0.0001 up to sixteen integer digits.
-/

set_option autoImplicit false

namespace Clausal.Decimal

/-- The value of a floating-point number: `mantissa * 2 ^ exponent` with a sign, or a special value. -/
inductive Decoded where
  | finite (negative : Bool) (mantissa : Nat) (exponent : Int)
  | infinite (negative : Bool)
  | notANumber
  deriving DecidableEq

/-- Reads the fields of the binary64 format: one sign bit, eleven exponent bits, and fifty-two
fraction bits behind a leading bit that is one except in the lowest binade. -/
def decodeBits (bits : Nat) : Decoded :=
  let negative := bits / Nat.pow 2 63 % 2 == 1
  let field : Nat := bits / Nat.pow 2 52 % Nat.pow 2 11
  let fraction : Nat := bits % Nat.pow 2 52
  if field = 2047 then
    if fraction = 0 then .infinite negative else .notANumber
  else if field = 0 then .finite negative fraction (-1074)
  else .finite negative (Nat.pow 2 52 + fraction) ((field : Int) - 1075)

def decode (value : Float) : Decoded := decodeBits value.toBits.toNat

/-- The reals that round to a positive number, as bounds over a common denominator. The ends belong
to the interval exactly when the mantissa is even. -/
structure Interval where
  lower : Nat
  value : Nat
  upper : Nat
  denominator : Nat
  closed : Bool

/-- The rounding interval of `mantissa * 2 ^ exponent`. Below a power of two the neighbour is half as
far away, except at the bottom of the range. -/
def interval (mantissa : Nat) (exponent : Int) : Interval :=
  let scale := Nat.pow 2 exponent.toNat
  let narrow := mantissa = Nat.pow 2 52 ∧ exponent ≠ -1074
  { lower := (4 * mantissa - if narrow then 1 else 2) * scale
    value := 4 * mantissa * scale
    upper := (4 * mantissa + 2) * scale
    denominator := 4 * Nat.pow 2 (-exponent).toNat
    closed := mantissa % 2 == 0 }

/-- Whether `digits / 10 ^ places` (or `digits * 10 ^ -places`) lies in the interval. -/
def Interval.holds (range : Interval) (digits : Nat) (places : Int) : Bool :=
  let numerator := digits * range.denominator * Nat.pow 10 (-places).toNat
  let scale := Nat.pow 10 places.toNat
  if range.closed then range.lower * scale ≤ numerator && numerator ≤ range.upper * scale
  else range.lower * scale < numerator && numerator < range.upper * scale

/-- The nearest point of the grid with the given number of places that lies in the interval, if one of
the two neighbours of the value does. A tie goes to the even digit. -/
def Interval.nearest? (range : Interval) (places : Int) : Option Nat :=
  let numerator := range.value * Nat.pow 10 places.toNat
  let denominator := range.denominator * Nat.pow 10 (-places).toNat
  let below := numerator / denominator
  let excess := 2 * (numerator % denominator)
  let roundsDown := excess < denominator || (excess == denominator && below % 2 == 0)
  let first := if roundsDown then below else below + 1
  let second := if roundsDown then below + 1 else below
  if range.holds first places then some first
  else if range.holds second places then some second
  else none

/-- The position of the leading decimal digit: the number of digits before the point, which is zero or
negative for a value below one tenth. Searched upwards from a bound that is never too high. -/
def leadingPosition (range : Interval) : Nat → Int → Int
  | 0, position => position
  | steps + 1, position =>
      let reached :=
        range.value * Nat.pow 10 (-position).toNat
          < range.denominator * Nat.pow 10 position.toNat
      if reached then position else leadingPosition range steps (position + 1)

/-- Digits on the coarsest grid that meets the interval, trying one digit first, then two, and so on.
Seventeen digits always suffice. -/
def searchDigits (range : Interval) (position : Int) : Nat → Nat → Nat × Int
  | 0, count => ((range.nearest? (count - position)).getD 0, count - position)
  | steps + 1, count =>
      match range.nearest? (count - position) with
      | some digits => (digits, count - position)
      | none => searchDigits range position steps (count + 1)

/-- Removes zeros at the end of the digits, each of which lowers the number of places by one. -/
def trimZeros : Nat → Nat → Int → Nat × Int
  | 0, digits, places => (digits, places)
  | steps + 1, digits, places =>
      if digits % 10 = 0 ∧ digits ≠ 0 then trimZeros steps (digits / 10) (places - 1)
      else (digits, places)

/-- The shortest digits of a positive number, with the number of decimal places they stand for. -/
def digitsOf (mantissa : Nat) (exponent : Int) : Nat × Int :=
  let range := interval mantissa exponent
  let guess := ((mantissa.log2 : Int) + exponent) * 30103 / 100000 - 1
  let position := leadingPosition range 5 guess
  let (digits, places) := searchDigits range position 17 1
  trimZeros 20 digits places

structure Layout where
  /-- Least and largest decimal exponent written positionally. -/
  positionalFrom : Int
  positionalTo : Int
  /-- Least number of digits in a written exponent. -/
  exponentDigits : Nat
  infinity : String
  notANumber : String

/-- Positional from 0.0001 up to sixteen integer digits; the exponent has a sign and two digits. -/
def general : Layout := ⟨-4, 15, 2, "inf", "nan"⟩

def padLeft (width : Nat) (digits : List Char) : List Char :=
  List.replicate (width - digits.length) '0' ++ digits

/-- Lays out a nonzero sequence of digits whose first digit has the given decimal exponent. A number
in positional notation always shows a fraction, if only a zero. -/
def layOut (layout : Layout) (digits : List Char) (exponent : Int) : List Char :=
  if layout.positionalFrom ≤ exponent ∧ exponent ≤ layout.positionalTo then
    if exponent < 0 then
      '0' :: '.' :: (List.replicate ((-exponent).toNat - 1) '0' ++ digits)
    else
      let wholeCount := exponent.toNat + 1
      let whole := digits.take wholeCount
      let fraction := digits.drop wholeCount
      whole ++ List.replicate (wholeCount - whole.length) '0'
        ++ '.' :: (if fraction.isEmpty then ['0'] else fraction)
  else
    let lead := digits.take 1 ++ (if digits.length > 1 then '.' :: digits.drop 1 else [])
    lead ++ 'e' :: (if exponent < 0 then '-' else '+')
      :: padLeft layout.exponentDigits (Nat.toDigits 10 exponent.natAbs)

def write (layout : Layout) : Decoded → String
  | .notANumber => layout.notANumber
  | .infinite negative => (if negative then "-" else "") ++ layout.infinity
  | .finite negative mantissa exponent =>
      let sign := if negative then "-" else ""
      if mantissa = 0 then sign ++ "0.0"
      else
        let (number, places) := digitsOf mantissa exponent
        let digits := Nat.toDigits 10 number
        sign ++ String.ofList (layOut layout digits ((digits.length : Int) - 1 - places))

/-- The shortest text that reads back as the given number. -/
def shortest (value : Float) : String := write general (decode value)

end Clausal.Decimal
