import Clausal.Datum

/-!
Plain scalars: what type a text without quotes has. Integers come in base two, eight, ten, sixteen and
sixty, with underscores between their digits; what is no null, truth value or number is text.
-/

set_option autoImplicit false

namespace Clausal.Yaml

def nullWords : List String := ["", "~", "null", "Null", "NULL"]

def trueWords : List String :=
  ["yes", "Yes", "YES", "true", "True", "TRUE", "on", "On", "ON"]

def falseWords : List String :=
  ["no", "No", "NO", "false", "False", "FALSE", "off", "Off", "OFF"]

def infinityWords : List String := [".inf", ".Inf", ".INF"]

def nanWords : List String := [".nan", ".NaN", ".NAN"]

def digitValue (character : Char) : Nat :=
  if character.isDigit then character.toNat - '0'.toNat
  else if character.toNat < 'a'.toNat then character.toNat - 'A'.toNat + 10
  else character.toNat - 'a'.toNat + 10

/-- The number that digits stand for in a base; underscores do not count. -/
def ofDigits (base : Nat) (digits : List Char) : Nat :=
  (digits.filter (· ≠ '_')).foldl (fun value digit => base * value + digitValue digit) 0

/-- Whether a text is nonempty and made of certain characters. -/
def madeOf (allowed : Char → Bool) (text : List Char) : Bool := !text.isEmpty && text.all allowed

def isDecimal (character : Char) : Bool := character.isDigit || character = '_'

def isHexadecimal (character : Char) : Bool :=
  isDecimal character || "abcdefABCDEF".toList.contains character

/-- The value of groups of digits in base sixty: each group after the first has one or two digits and a
value below sixty. -/
def sexagesimal? (text : List Char) : Option Nat :=
  match text.splitOn ':' with
  | first :: second :: rest =>
      let proper := fun (group : List Char) =>
        madeOf Char.isDigit group && group.length ≤ 2 && ofDigits 10 group < 60
      if first.head?.any Char.isDigit && madeOf isDecimal first && (second :: rest).all proper then
        some ((second :: rest).foldl (fun value group => 60 * value + ofDigits 10 group)
          (ofDigits 10 first))
      else none
  | _ => none

def natural? (text : List Char) : Option Nat :=
  match text with
  | ['0'] => some 0
  | '0' :: 'b' :: rest =>
      if madeOf (fun c => c = '0' ∨ c = '1' ∨ c = '_') rest then some (ofDigits 2 rest) else none
  | '0' :: 'x' :: rest => if madeOf isHexadecimal rest then some (ofDigits 16 rest) else none
  | '0' :: rest =>
      if madeOf (fun c => '0' ≤ c ∧ c ≤ '7' ∨ c = '_') rest then some (ofDigits 8 rest) else none
  | first :: _ =>
      if first.isDigit && madeOf isDecimal text then some (ofDigits 10 text)
      else if first.isDigit then sexagesimal? text
      else none
  | [] => none

/-- The exponent after a mantissa, with an optional sign; `none` when there is something else. -/
def exponent? : List Char → Option Int
  | [] => some 0
  | mark :: rest =>
      if mark = 'e' ∨ mark = 'E' then
        match rest with
        | '-' :: digits => if madeOf Char.isDigit digits then some (-(ofDigits 10 digits)) else none
        | '+' :: digits => if madeOf Char.isDigit digits then some (ofDigits 10 digits) else none
        | digits => if madeOf Char.isDigit digits then some (ofDigits 10 digits) else none
      else none

/-- The number with the given digits before and after the point, and an exponent. -/
def decimal (whole fraction : List Char) (exponent : Int) : Float :=
  let fraction := fraction.filter (· ≠ '_')
  let shift := exponent - fraction.length
  Float.ofScientific (ofDigits 10 (whole ++ fraction)) (shift < 0) shift.natAbs

/-- The real number that a plain scalar without sign stands for: digits with a point, with an exponent,
or with both. -/
def real? (text : List Char) : Option Float :=
  let whole := text.takeWhile isDecimal
  match text.drop whole.length with
  | '.' :: rest =>
      let fraction := rest.takeWhile isDecimal
      if whole.isEmpty && !fraction.any Char.isDigit then none
      else if whole.head? = some '_' then none
      else (exponent? (rest.drop fraction.length)).map (decimal whole fraction)
  | mark :: rest =>
      if whole.head?.any Char.isDigit then
        (exponent? (mark :: rest)).map (decimal whole [])
      else none
  | [] => none

def unsigned : List Char → Bool × List Char
  | '-' :: rest => (true, rest)
  | '+' :: rest => (false, rest)
  | text => (false, text)

def number? (text : List Char) : Option Datum :=
  let (negative, magnitude) := unsigned text
  match natural? magnitude with
  | some value => some (.int (if negative then -value else value))
  | none =>
      if infinityWords.contains (String.ofList magnitude) then
        some (.real (if negative then -1 / 0 else 1 / 0))
      else if nanWords.contains (String.ofList text) then some (.real (0 / 0))
      else (real? magnitude).map fun value => .real (if negative then -value else value)

def plain (text : List Char) : Datum :=
  let word := String.ofList text
  if nullWords.contains word then .null
  else if trueWords.contains word then .bool true
  else if falseWords.contains word then .bool false
  else (number? text).getD (.text word)

end Clausal.Yaml
