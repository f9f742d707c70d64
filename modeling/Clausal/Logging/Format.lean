import Clausal.Datum.Display

/-!
Formats of log lines. A format is text with fields: a percent sign, the name of the field between
parentheses, flags, a width, a precision, and a letter that says how the value is written. Two percent
signs stand for one.
-/

set_option autoImplicit false

namespace Clausal.Logging.Format

/-- A field of a format. A width or precision that is starred has no number of its own. -/
structure Field where
  name : List Char
  flags : List Char
  width : Option Nat
  precision : Option Nat
  starred : Bool
  conversion : Char
  deriving DecidableEq

/-- A number at the head of a text, or a star in place of it. -/
def takeAmount (text : List Char) : Option Nat × Bool × List Char :=
  match text with
  | '*' :: rest => (none, true, rest)
  | _ =>
      let digits := text.takeWhile Char.isDigit
      let amount := digits.foldl (fun value digit => 10 * value + (digit.toNat - '0'.toNat)) 0
      (if digits.isEmpty then none else some amount, false, text.drop digits.length)

/-- The letters of conversions, among them the percent sign. -/
def conversions : List Char := "diouxXeEfFgGcrsa%".toList

def readField? (text : List Char) : Option (Field × List Char) :=
  match text with
  | '(' :: rest =>
      let name := rest.takeWhile (· ≠ ')')
      let afterName := rest.drop (name.length + 1)
      if name.length = rest.length then none
      else
        let flags := afterName.takeWhile fun c => "#0+ -".toList.contains c
        let (width, starredWidth, afterWidth) := takeAmount (afterName.drop flags.length)
        let (precision, starredPrecision, afterPrecision) :=
          match afterWidth with
          | '.' :: rest =>
              let (precision, starred, rest) := takeAmount rest
              (some (precision.getD 0), starred, rest)
          | rest => (none, false, rest)
        match afterPrecision with
        | conversion :: rest =>
            if conversions.contains conversion then
              some
                (⟨name, flags, width, precision, starredWidth || starredPrecision, conversion⟩, rest)
            else none
        | [] => none
  | _ => none

def isWordCharacter (character : Char) : Bool :=
  character.isAlphanum || character = '_' || 0x80 ≤ character.toNat

/-- Whether a field whose name is a word begins after the percent sign. -/
def startsField (text : List Char) : Bool :=
  match readField? text with
  | some (field, _) => !field.name.isEmpty && field.name.all isWordCharacter
  | none => false

def hasField : List Char → Bool
  | [] => false
  | character :: rest => (character = '%' && startsField rest) || hasField rest

/-- Pads a text with blanks to the width of a field, on the left unless the field says otherwise. -/
def pad (field : Field) (text : List Char) : List Char :=
  let blanks := List.replicate (field.width.getD 0 - text.length) ' '
  if field.flags.contains '-' then text ++ blanks else blanks ++ text

/-- An integer with its sign, with zeros up to the precision, or up to the width if it is to be filled. -/
def writeInteger (field : Field) (value : Int) : List Char :=
  let sign :=
    if value < 0 then ['-']
    else if field.flags.contains '+' then ['+']
    else if field.flags.contains ' ' then [' ']
    else []
  let digits := Nat.toDigits 10 value.natAbs
  let filled := field.flags.contains '0' && !field.flags.contains '-'
  let least :=
    max (field.precision.getD 0) (if filled then field.width.getD 0 - sign.length else 0)
  pad field (sign ++ List.replicate (least - digits.length) '0' ++ digits)

/-- Writes a value into a field; `none` when the conversion does not fit the value. -/
def writeField (field : Field) (value : Datum) : Option (List Char) :=
  let asText := fun (text : String) =>
    let characters := text.toList
    some (pad field (characters.take (field.precision.getD characters.length)))
  if field.starred then none
  else if field.conversion = 's' then asText value.plain
  else if field.conversion = 'r' ∨ field.conversion = 'a' then asText value.display
  else if field.conversion = '%' then some ['%']
  else if "diu".toList.contains field.conversion then (value.int?).map (writeInteger field)
  else none

/-- The line that a format makes of named values, within a number of steps; `none` when a field has no
value or does not fit it. -/
def renderWithin (values : List (String × Datum)) : (steps : Nat) → List Char → Option (List Char)
  | _, [] => some []
  | 0, _ => none
  | steps + 1, '%' :: '%' :: rest => ('%' :: ·) <$> renderWithin values steps rest
  | steps + 1, '%' :: rest => do
      let (field, rest) ← readField? rest
      let value ← Assoc.get? (String.ofList field.name) values
      let written ← writeField field value
      let others ← renderWithin values steps rest
      return written ++ others
  | steps + 1, character :: rest => (character :: ·) <$> renderWithin values steps rest

def render (format : String) (values : List (String × Datum)) : Option String :=
  (renderWithin values (format.length + 1) format.toList).map String.ofList

inductive Fault where
  /-- The text has no field. -/
  | noField (format : String)
  /-- The format is no text but a value of the given type. -/
  | notText (typeName : String)
  deriving DecidableEq

def Fault.message : Fault → String
  | .noField format => "Invalid format '" ++ format ++ "' for '%' style"
  | .notText typeName => "expected string or bytes-like object, got '" ++ typeName ++ "'"

def bare : String := "%(message)s"

end Clausal.Logging.Format
