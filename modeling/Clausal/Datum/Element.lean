import Clausal.Datum.Display
import Clausal.Decimal.Fixed

/-!
Elements: values of types with a fixed format, alone or in arrays, as they turn up in statistics. As data
they are plain truth values, integers, reals and text. A real of a narrow format is the real that it rounds
to, and an integer type holds no integer beyond its bits.
-/

set_option autoImplicit false

namespace Clausal

/-- A binary format of reals: the number of bits of a mantissa, and the least and the largest exponent that
goes with a mantissa of so many bits. -/
structure BinaryFormat where
  precision : Nat
  leastExponent : Int
  largestExponent : Int
  deriving DecidableEq

namespace BinaryFormat

def half : BinaryFormat := ⟨11, -24, 5⟩

def single : BinaryFormat := ⟨24, -149, 104⟩

def double : BinaryFormat := ⟨53, -1074, 971⟩

/-- The nearest number of a format. A tie goes to the even mantissa, and what rounds beyond the largest
number is infinite. -/
def round (format : BinaryFormat) : Decimal.Decoded → Decimal.Decoded
  | .finite negative mantissa exponent =>
      let unit := max format.leastExponent (exponent + mantissa.log2 + 1 - format.precision)
      let shift := (unit - exponent).toNat
      let rounded := Decimal.roundHalfEven mantissa (Nat.pow 2 shift)
      let exponent := exponent + shift
      if format.precision + format.largestExponent ≤ rounded.log2 + exponent then
        .infinite negative
      else .finite negative rounded exponent
  | special => special

example : half.round (.finite false 65519 0) = .finite false 2047 5 := by decide +kernel

example : half.round (.finite false 65520 0) = .infinite false := by decide +kernel

example : half.round (.finite true 3 (-25)) = .finite true 2 (-24) := by decide +kernel

end BinaryFormat

def Decimal.Decoded.toFloat : Decimal.Decoded → Float
  | .finite negative mantissa exponent =>
      let magnitude := Float.scaleB (Float.ofNat mantissa) exponent
      if negative then -magnitude else magnitude
  | .infinite negative => if negative then -1.0 / 0.0 else 1.0 / 0.0
  | .notANumber => 0.0 / 0.0

inductive ElementType where
  | truth
  | signed (bits : Nat)
  | unsigned (bits : Nat)
  | real (format : BinaryFormat)
  | text
  /-- A type without data form, with the name of the type that its elements have outside arrays. -/
  | other (name listed : String)
  deriving DecidableEq

structure OutOfBounds where
  value : Int
  typeName : String
  deriving DecidableEq

def OutOfBounds.message (fault : OutOfBounds) : String :=
  toString fault.value ++ " is out of bounds for " ++ fault.typeName

namespace ElementType

def named : List (String × ElementType) :=
  [
    ("bool", .truth), ("bool_", .truth), ("int8", .signed 8), ("int16", .signed 16),
    ("int32", .signed 32), ("int64", .signed 64), ("int", .signed 64), ("int_", .signed 64),
    ("intp", .signed 64), ("uint8", .unsigned 8), ("uint16", .unsigned 16),
    ("uint32", .unsigned 32), ("uint64", .unsigned 64), ("uint", .unsigned 64),
    ("float16", .real .half), ("float32", .real .single), ("float64", .real .double),
    ("float", .real .double), ("half", .real .half), ("single", .real .single),
    ("double", .real .double), ("longdouble", .real .double), ("float128", .real .double), ("str", .text), ("str_", .text),
    ("complex64", .other "complex64" "complex"), ("complex128", .other "complex128" "complex"),
    ("datetime64", .other "datetime64" "date"), ("bytes_", .other "bytes_" "bytes")
  ]

/-- The type of a name; an unknown name stands for a type without data form. -/
def ofName (name : String) : ElementType := (Assoc.get? name named).getD (.other name name)

def name : ElementType → String
  | .truth => "bool"
  | .signed bits => "int" ++ toString bits
  | .unsigned bits => "uint" ++ toString bits
  | .real _ => "float"
  | .text => "str"
  | .other name _ => name

/-- Whether an integer type holds an integer; all other types do. -/
def holds (type : ElementType) (value : Int) : Bool :=
  match type with
  | .signed bits =>
      -(Nat.pow 2 (bits - 1) : Int) ≤ value && value < (Nat.pow 2 (bits - 1) : Int)
  | .unsigned bits => 0 ≤ value && value < (Nat.pow 2 bits : Int)
  | _ => true

def truncate : Quantity → Int
  | .whole value => value
  | .real value =>
      match Quantity.ratio? (.real value) with
      | some (numerator, denominator) => numerator.tdiv denominator
      | none => 0

def castInteger (type : ElementType) (value : Datum) : Except OutOfBounds Datum :=
  let number := truncate (value.quantity?.getD (.whole 0))
  if type.holds number then .ok (.int number) else .error ⟨number, type.name⟩

/-- The real number of a value; the special numbers also have names. -/
def realOf : Datum → Float
  | .text "nan" => 0.0 / 0.0
  | .text "inf" => 1.0 / 0.0
  | .text "-inf" => -1.0 / 0.0
  | value => (value.quantity?.getD (.whole 0)).toFloat

def cast (type : ElementType) (value : Datum) : Except OutOfBounds Datum :=
  match type with
  | .truth => .ok (.bool value.isTruthy)
  | .signed _ => type.castInteger value
  | .unsigned _ => type.castInteger value
  | .real format => .ok (.real (format.round (Decimal.decode (realOf value))).toFloat)
  | .text => .ok (.text value.plain)
  | .other name _ => .ok (.foreign name)

mutual

/-- The array that nested lists become, or the element that stands alone in it. -/
def castArray (type : ElementType) : Datum → Except OutOfBounds Datum
  | .list items => (castItems type items).map .list
  | value =>
      match type with
      | .other _ listed => .ok (.foreign listed)
      | _ => type.cast value

def castItems (type : ElementType) : List Datum → Except OutOfBounds (List Datum)
  | [] => .ok []
  | item :: rest => do
      let item ← castArray type item
      let others ← castItems type rest
      return item :: others

end

end ElementType

end Clausal
