import Clausal.Text.Integer
import Clausal.Yaml.Scalar

/-!
Writing YAML: block maps indented by two spaces, the items of a list at the indentation of its key, empty
collections in brackets, and scalars plain where they read back as themselves. Long scalars are folded at
single spaces.
-/

set_option autoImplicit false

namespace Clausal.Yaml

/-- Words that are quoted although not all of them would be read as truth values. -/
def truthWords : List String := ["y", "Y", "n", "N"] ++ trueWords ++ falseWords

/-- Whether a text is a real number in the usual notation: a point, an exponent, or a special word. -/
def isReal (text : List Char) : Bool :=
  let (_, magnitude) := unsigned (Text.strip text)
  let word := String.ofList (magnitude.map Char.toLower)
  if ["inf", "infinity", "nan"].contains word then true
  else
    let grouped := fun (digits : List Char) => (digits.splitOn '_').all (madeOf Char.isDigit)
    let whole := magnitude.takeWhile isDecimal
    let hasExponent := fun (rest : List Char) =>
      match rest with
      | [] => true
      | mark :: exponent => (mark = 'e' ∨ mark = 'E') && grouped (unsigned exponent).2
    match magnitude.drop whole.length with
    | '.' :: rest =>
        let fraction := rest.takeWhile isDecimal
        (whole.isEmpty || grouped whole) && (fraction.isEmpty || grouped fraction)
          && !(whole.isEmpty && fraction.isEmpty) && hasExponent (rest.drop fraction.length)
    | rest => grouped whole && hasExponent rest

/-- Whether a text is a date of digits and hyphens, alone or with a time after it. -/
def isDate (text : List Char) : Bool :=
  let digits := fun (least most : Nat) (part : List Char) =>
    part.all Char.isDigit && least ≤ part.length && part.length ≤ most
  match text.splitOn '-' with
  | [year, month, day] =>
      let dayDigits := day.takeWhile Char.isDigit
      let time := day.drop dayDigits.length
      if time.isEmpty then digits 4 4 year && digits 2 2 month && digits 2 2 day
      else
        digits 4 4 year && digits 1 2 month && digits 1 2 dayDigits
          && (time.head?.any fun c => c = 'T' ∨ c = 't' ∨ c = ' ' ∨ c = '\t')
          && time.all (fun c => c.isDigit || "Tt :.Z\t".toList.contains c) && time.contains ':'
  | _ => false

/-- Whether a text would not read back as text if it stood without quotes. -/
def isAmbiguous (text : List Char) : Bool :=
  let word := String.ofList text
  truthWords.contains word || (Text.readInteger? text).isSome || isReal text || isDate text
    || word = "=" || word = "<<"
    || match plain text with
       | .text _ => false
       | _ => true

def isGap (character : Char) : Bool :=
  " \t\r\n\x00\u0085\u2028\u2029".toList.contains character

def isBreak (character : Char) : Bool := "\n\u0085\u2028\u2029".toList.contains character

/-- Characters that only stand in a scalar between double quotes, by an escape. -/
def isSpecial (character : Char) : Bool :=
  let code := character.toNat
  !(character = '\n' || (0x20 ≤ code && code ≤ 0x7e)
    || ((code = 0x85 || (0xa0 ≤ code && code ≤ 0xfffd) || (0x10000 ≤ code && code < 0x10ffff))
        && code ≠ 0xfeff))

/-- Whether two characters of certain kinds follow each other somewhere. -/
def hasPair (first second : Char → Bool) (text : List Char) : Bool :=
  (text.zip (text.drop 1)).any fun (left, right) => first left && second right

/-- Whether a text holds characters that would be taken for the structure of a block. -/
def hasIndicator (text : List Char) : Bool :=
  let word := String.ofList text
  word.startsWith "---" || word.startsWith "..."
    || hasPair (· = ':') isGap text || text.getLast? = some ':' || hasPair isGap (· = '#') text
    || match text with
       | [] => false
       | first :: rest =>
           "#,[]\x7b\x7d&*!|>'\"%@`".toList.contains first
             || ("-?:".toList.contains first && rest.head?.all isGap)

inductive Style where
  | plain
  | single
  | double
  deriving DecidableEq

/-- The style of a text. A key with a line break needs double quotes. -/
def styleOf (isKey : Bool) (text : List Char) : Style :=
  let edges := text.head?.any isGap || text.getLast?.any isGap
  let broken := text.any isBreak
  let mixed := hasPair (· = ' ') isBreak text || hasPair isBreak (· = ' ') text
  if text.any isSpecial || mixed then .double
  else if isAmbiguous text || edges || broken || hasIndicator text then
    if broken && isKey then .double else .single
  else .plain

/-- The widest column at which a word may begin after a space that stands alone. -/
def widestColumn : Nat := 80

def newLine (indent : Nat) : List Char := '\n' :: List.replicate indent ' '

/-- The run of spaces at the head of a text, and what follows. -/
def spaceRun (text : List Char) : Nat × List Char :=
  let run := text.takeWhile (· = ' ')
  (run.length, text.drop run.length)

/-- Writes a text that is plain or between single quotes. A quote is doubled, a line break takes an empty
line, and past the widest column a single space inside the text becomes a line end. -/
def fold (quote : Bool) (indent : Nat) (first : Bool) (column : Nat) :
    (steps : Nat) → List Char → List Char
  | 0, text => text
  | _, [] => []
  | steps + 1, ' ' :: rest =>
      let (more, after) := spaceRun rest
      if more = 0 && !first && !after.isEmpty && widestColumn < column then
        newLine indent ++ fold quote indent false indent steps after
      else
        List.replicate (more + 1) ' ' ++ fold quote indent false (column + more + 1) steps after
  | steps + 1, character :: rest =>
      if isBreak character then
        let breaks := rest.takeWhile isBreak
        (if character = '\n' then ['\n'] else [])
          ++ character :: breaks ++ List.replicate indent ' '
          ++ fold quote indent false indent steps (rest.drop breaks.length)
      else if quote && character = '\'' then
        '\'' :: '\'' :: fold quote indent false (column + 2) steps rest
      else character :: fold quote indent false (column + 1) steps rest

/-- The letters for characters that are escaped by one. -/
def shortEscapes : List (Char × Char) :=
  [
    ('\x00', '0'), ('\x07', 'a'), ('\x08', 'b'), ('\t', 't'), ('\n', 'n'), ('\x0b', 'v'), ('\x0c', 'f'),
    ('\r', 'r'), ('\x1b', 'e'), ('"', '"'), ('\\', '\\'), ('\u0085', 'N'), ('\u00a0', '_'),
    ('\u2028', 'L'), ('\u2029', 'P')
  ]

def capitalHex (width value : Nat) : List Char := (Text.hex width value).map Char.toUpper

def escape (character : Char) : List Char :=
  let code := character.toNat
  let stands := (0x20 ≤ code && code ≤ 0x7e) || (0xa0 ≤ code && code ≤ 0xfffd && code ≠ 0xfeff)
  if stands && !("\"\\\u2028\u2029".toList.contains character) then [character]
  else
    match Assoc.get? character shortEscapes with
    | some letter => ['\\', letter]
    | none =>
        if code ≤ 0xff then '\\' :: 'x' :: capitalHex 2 code
        else if code ≤ 0xffff then '\\' :: 'u' :: capitalHex 4 code
        else '\\' :: 'U' :: capitalHex 8 code

/-- A text in its style. Lines that continue it begin at the given indentation. -/
def writeText (isKey : Bool) (indent column : Nat) (value : String) : List Char :=
  let text := value.toList
  match styleOf isKey text with
  | .plain => if isKey then text else fold false indent true column (text.length + 1) text
  | .single =>
      if isKey then '\'' :: text.flatMap (fun c => if c = '\'' then [c, c] else [c]) ++ ['\'']
      else '\'' :: fold true indent true (column + 1) (text.length + 1) text ++ ['\'']
  | .double => '"' :: text.flatMap escape ++ ['"']

/-- A real number. A number without a point in its digits takes one before the exponent. -/
def writeReal (value : Float) : List Char :=
  let layout : Decimal.Layout :=
    { Decimal.general with infinity := ".inf", notANumber := ".nan" }
  let text := (Decimal.write layout (Decimal.decode value)).toList
  if text.contains 'e' && !text.contains '.' then
    text.flatMap fun c => if c = 'e' then ['.', '0', 'e'] else [c]
  else text

mutual

/-- A value as it follows a key or a dash, the mark included. A block in a list begins on the line of the
dash; one under a key begins on the next line. -/
def writeValue (indent column : Nat) (inList : Bool) : Datum → List Char
  | .null => " null".toList
  | .bool true => " true".toList
  | .bool false => " false".toList
  | .int value => ' ' :: (toString value).toList
  | .real value => ' ' :: writeReal value
  | .text value => ' ' :: writeText false (indent + 2) (column + 1) value
  | .list [] => " []".toList
  | .list (item :: rest) =>
      if inList then
        ' ' :: '-' :: writeValue (indent + 2) (indent + 3) true item
          ++ writeItems (indent + 2) rest
      else writeItems indent (item :: rest)
  | .map [] => " \x7b\x7d".toList
  | .map ((key, value) :: rest) =>
      let head := writeText true 0 0 key ++ [':']
      let lead := if inList then [' '] else newLine (indent + 2)
      lead ++ head ++ writeValue (indent + 2) (indent + 2 + head.length) false value
        ++ writeEntries (indent + 2) rest
  | .foreign typeName => ' ' :: typeName.toList

/-- The items of a list, each on a line of its own. -/
def writeItems (indent : Nat) : List Datum → List Char
  | [] => []
  | item :: rest =>
      newLine indent ++ '-' :: writeValue indent (indent + 1) true item ++ writeItems indent rest

/-- The entries of a map, each on a line of its own. -/
def writeEntries (indent : Nat) : List (String × Datum) → List Char
  | [] => []
  | (key, value) :: rest =>
      let head := writeText true 0 0 key ++ [':']
      newLine indent ++ head ++ writeValue indent (indent + head.length) false value
        ++ writeEntries indent rest

end

def write (entries : List (String × Datum)) : String :=
  if entries.isEmpty then "\x7b\x7d\n"
  else String.ofList ((writeEntries 0 entries).drop 1 ++ ['\n'])

end Clausal.Yaml
