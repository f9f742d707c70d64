import Clausal.Text.Digit
import Clausal.Text.Quoted

/-!
Reading integers: blanks around, an optional sign, and decimal digits of any script, between which
single underscores may stand. A numeral of more than 4300 digits is refused, and none is written.
-/

set_option autoImplicit false

namespace Clausal.Text

inductive IntegerFault where
  /-- The text is no numeral. -/
  | malformed (text : String)
  /-- The numeral has more digits than are converted. -/
  | tooLong (digits : Nat)
  deriving DecidableEq

/-- The most digits that a numeral may have; leading zeros count, the sign and underscores do not. -/
def digitLimit : Nat := 4300

/-- Whether an integer is short enough to be written as a numeral. -/
def hasNumeral (value : Int) : Bool := (Nat.toDigits 10 value.natAbs).length ≤ digitLimit

/-- The text of a fault. A malformed text is shown quoted, cut after two hundred characters. -/
def IntegerFault.message : IntegerFault → String
  | .malformed text =>
      "invalid literal for int() with base 10: "
        ++ String.ofList ((quotedChars text.toList).take 200)
  | .tooLong digits =>
      "Exceeds the limit (" ++ toString digitLimit
        ++ " digits) for integer string conversion: value has " ++ toString digits
        ++ " digits; use sys.set_int_max_str_digits() to increase the limit"

/-- The blanks that may stand around a numeral: all but the information separators. -/
def isNumeralBlank (character : Char) : Bool :=
  isBlank character && !(0x1c ≤ character.toNat && character.toNat ≤ 0x1f)

/-- The digits at the head of a text, and what follows them. Underscores stand between two digits;
`none` when one does not. -/
def scanDigits : List Char → Option (List Nat × List Char)
  | [] => some ([], [])
  | '_' :: character :: rest =>
      match decimalValue? character with
      | none => none
      | some digit => (scanDigits rest).map fun (digits, after) => (digit :: digits, after)
  | ['_'] => none
  | character :: rest =>
      match decimalValue? character with
      | none => some ([], character :: rest)
      | some digit => (scanDigits rest).map fun (digits, after) => (digit :: digits, after)

/-- The number that digits stand for, most significant first. -/
def ofDigits (digits : List Nat) : Nat :=
  digits.foldl (fun value digit => 10 * value + digit) 0

/-- Takes an optional sign off a text and says whether it was a minus. -/
def takeSign : List Char → Bool × List Char
  | '-' :: rest => (true, rest)
  | '+' :: rest => (false, rest)
  | text => (false, text)

/-- Reads an integer. The length of the numeral is checked before what follows it. -/
def readInteger (text : List Char) : Except IntegerFault Int :=
  let (negative, body) := takeSign (text.dropWhile isNumeralBlank)
  if body.head? = some '_' then .error (.malformed (String.ofList text))
  else
    match scanDigits body with
    | none => .error (.malformed (String.ofList text))
    | some (digits, after) =>
        if digitLimit < digits.length then .error (.tooLong digits.length)
        else if digits.isEmpty || !after.all isNumeralBlank then
          .error (.malformed (String.ofList text))
        else
          let magnitude : Int := ofDigits digits
          .ok (if negative then -magnitude else magnitude)

/-- Reads an integer, keeping nothing of a fault. -/
def readInteger? (text : List Char) : Option Int := (readInteger text).toOption

end Clausal.Text
