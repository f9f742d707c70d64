import Clausal.Text.Blank
import Clausal.Yaml.Scalar

/-!
Reading YAML: block maps and lists by indentation, flow maps and lists between brackets, plain and quoted
scalars, and comments. Anchors, tags, block scalars and keys that are not scalars are refused.
-/

set_option autoImplicit false

namespace Clausal.Yaml

inductive Fault where
  /-- A character that may not stand in a document. -/
  | unreadable
  /-- A token that cannot be made out. -/
  | badToken
  /-- A token where another one was expected, or the end of the text. -/
  | unexpected
  /-- A key that occurs twice in a map. -/
  | repeatedKey
  deriving DecidableEq

/-- A line: how far it is indented, and what follows the indentation. -/
structure Line where
  indent : Nat
  body : List Char
  deriving DecidableEq

def Line.ofChars (text : List Char) : Line :=
  let spaces := text.takeWhile (· = ' ')
  ⟨spaces.length, text.drop spaces.length⟩

def isSpace (character : Char) : Bool := character = ' ' || character = '\t'

def trimLeft (text : List Char) : List Char := text.dropWhile isSpace

def trimRight (text : List Char) : List Char := (text.reverse.dropWhile isSpace).reverse

/-- Nothing, or only a comment. -/
def isVoid (text : List Char) : Bool :=
  match trimLeft text with
  | [] => true
  | first :: _ => first = '#'

def Line.isVoid (line : Line) : Bool := Yaml.isVoid line.body

/-- The lines from the first one that is not void. -/
def settle (lines : List Line) : List Line := lines.dropWhile Line.isVoid

def endsWord (text : List Char) : Bool :=
  match text with
  | [] => true
  | first :: _ => isSpace first

/-- The characters that separate the items of a flow collection. -/
def isFlowMark (character : Char) : Bool := ",[]\x7b\x7d".toList.contains character

/-- What a plain scalar may not begin with; the last three may begin one if a word follows. -/
def mayStart (text : List Char) : Bool :=
  match text with
  | [] => false
  | first :: rest =>
      if "-?:".toList.contains first then !endsWord rest
      else !("\t,[]\x7b\x7d#&*!|>'\"%@`".toList.contains first)

/-- The characters of a plain scalar and what follows it. It ends before a colon that ends a word, before a
comment, and inside flow collections before their marks. -/
def plainRun (flow : Bool) (previous : Char) : List Char → List Char × List Char
  | [] => ([], [])
  | character :: rest =>
      if character = ':' && (endsWord rest || (flow && rest.head?.any isFlowMark)) then
        ([], character :: rest)
      else if character = '#' && isSpace previous then ([], character :: rest)
      else if flow && isFlowMark character then ([], character :: rest)
      else
        let (run, after) := plainRun flow character rest
        (character :: run, after)

/-- Lines that continue a scalar: one line end between words reads as a space, further empty lines as
line ends. -/
def foldedBreak (emptyLines : Nat) : List Char :=
  if emptyLines = 0 then [' '] else List.replicate emptyLines '\n'

/-- Text between single quotes, up to the closing quote. A quote is written twice. -/
def singleQuoted (emptyLines : Nat) (text : List Char) (lines : List Line) :
    (steps : Nat) → Except Fault (List Char × List Char × List Line)
  | 0 => .error .badToken
  | steps + 1 =>
      match text with
      | '\'' :: '\'' :: rest => do
          let (value, after) ← singleQuoted 0 rest lines steps
          return ('\'' :: value, after)
      | '\'' :: rest => .ok ([], rest, lines)
      | [] =>
          match lines with
          | [] => .error .badToken
          | line :: others =>
              if (trimLeft line.body).isEmpty && !others.isEmpty then
                singleQuoted (emptyLines + 1) [] others steps
              else do
                let (value, after) ← singleQuoted 0 (trimLeft line.body) others steps
                return (foldedBreak emptyLines ++ value, after)
      | character :: rest =>
          if (trimLeft (character :: rest)).isEmpty then singleQuoted emptyLines [] lines steps
          else do
            let (value, after) ← singleQuoted 0 rest lines steps
            return (character :: value, after)

/-- The characters that single letters stand for after a backslash. -/
def letterEscapes : List (Char × Char) :=
  [
    ('0', '\x00'), ('a', '\x07'), ('b', '\x08'), ('t', '\t'), ('\t', '\t'), ('n', '\n'), ('v', '\x0b'),
    ('f', '\x0c'), ('r', '\r'), ('e', '\x1b'), (' ', ' '), ('"', '"'), ('\\', '\\'), ('/', '/'),
    ('N', '\u0085'), ('_', '\u00a0'), ('L', '\u2028'), ('P', '\u2029')
  ]

def numberEscapes : List (Char × Nat) := [('x', 2), ('u', 4), ('U', 8)]

/-- Reads what follows a backslash: the character that is meant and the number of characters taken. -/
def escape? (text : List Char) : Option (Char × Nat) := do
  let letter ← text.head?
  match Assoc.get? letter letterEscapes with
  | some meant => some (meant, 1)
  | none =>
      let width ← Assoc.get? letter numberEscapes
      let digits := (text.drop 1).take width
      if digits.length = width ∧ madeOf isHexadecimal digits ∧ '_' ∉ digits then
        some (Char.ofNat (ofDigits 16 digits), width + 1)
      else none

/-- Text between double quotes, up to the closing quote. -/
def doubleQuoted (emptyLines : Nat) (text : List Char) (lines : List Line) :
    (steps : Nat) → Except Fault (List Char × List Char × List Line)
  | 0 => .error .badToken
  | steps + 1 =>
      match text with
      | '"' :: rest => .ok ([], rest, lines)
      | ['\\'] =>
          match lines with
          | [] => .error .badToken
          | line :: others => doubleQuoted 0 (trimLeft line.body) others steps
      | '\\' :: rest =>
          match escape? rest with
          | none => .error .badToken
          | some (meant, taken) => do
              let (value, after) ← doubleQuoted 0 (rest.drop taken) lines steps
              return (meant :: value, after)
      | [] =>
          match lines with
          | [] => .error .badToken
          | line :: others =>
              if (trimLeft line.body).isEmpty && !others.isEmpty then
                doubleQuoted (emptyLines + 1) [] others steps
              else do
                let (value, after) ← doubleQuoted 0 (trimLeft line.body) others steps
                return (foldedBreak emptyLines ++ value, after)
      | character :: rest =>
          if (trimLeft (character :: rest)).isEmpty then doubleQuoted emptyLines [] lines steps
          else do
            let (value, after) ← doubleQuoted 0 rest lines steps
            return (character :: value, after)

/-- What is left to read: the rest of the current line, and the lines after it. -/
structure Rest where
  text : List Char
  lines : List Line

/-- Skips blanks, comments and line ends inside a flow collection. -/
def skipVoid (text : List Char) : List Line → Rest
  | [] => if isVoid text then ⟨[], []⟩ else ⟨trimLeft text, []⟩
  | line :: lines =>
      if isVoid text then skipVoid line.body lines else ⟨trimLeft text, line :: lines⟩

/-- The lines that continue a plain scalar of a block: those indented far enough. -/
def continuation (least : Nat) (emptyLines : Nat) :
    List Line → Except Fault (List Char × List Line)
  | [] => .ok ([], [])
  | line :: lines =>
      if line.body.all isSpace then
        match continuation least (emptyLines + 1) lines with
        | .ok ([], _) => .ok ([], line :: lines)
        | outcome => outcome
      else if line.indent < least ∨ line.isVoid then .ok ([], line :: lines)
      else
        let (run, after) := plainRun false ' ' line.body
        if after.head? = some ':' then .error .badToken
        else if after.isEmpty then do
          let (more, later) ← continuation least 0 lines
          return (foldedBreak emptyLines ++ trimRight run ++ more, later)
        else .ok (foldedBreak emptyLines ++ trimRight run, lines)

/-- A scalar with quotes, or one of a flow collection. -/
def flowScalar (text : List Char) (lines : List Line) (steps : Nat) :
    Except Fault (Datum × Rest) :=
  match text with
  | '\'' :: rest => do
      let (value, after, later) ← singleQuoted 0 rest lines steps
      return (.text (String.ofList value), ⟨after, later⟩)
  | '"' :: rest => do
      let (value, after, later) ← doubleQuoted 0 rest lines steps
      return (.text (String.ofList value), ⟨after, later⟩)
  | _ =>
      if mayStart text then
        let (run, after) := plainRun true ' ' text
        .ok (plain (trimRight run), ⟨after, lines⟩)
      else .error .badToken

/-- Whether a key was written in quotes, after which a colon needs no blank. -/
def isQuoted (text : List Char) : Bool := text.head? = some '\'' ∨ text.head? = some '"'

def keyText : Datum → String
  | .text value => value
  | .bool true => "true"
  | .bool false => "false"
  | .int value => toString value
  | .real value => Decimal.shortest value
  | _ => "null"

mutual

/-- A value inside a flow collection, or a flow collection in a block. -/
def flowValue (text : List Char) (lines : List Line) :
    (steps : Nat) → Except Fault (Datum × Rest)
  | 0 => .error .unexpected
  | steps + 1 =>
      match text with
      | '[' :: rest => flowItems rest lines steps
      | '\x7b' :: rest => flowEntries rest lines steps
      | _ => flowScalar text lines steps

/-- The items of a flow list, up to its end. A comma may follow the last one. -/
def flowItems (text : List Char) (lines : List Line) :
    (steps : Nat) → Except Fault (Datum × Rest)
  | 0 => .error .unexpected
  | steps + 1 =>
      let start := skipVoid text lines
      match start.text with
      | [] => .error .unexpected
      | ']' :: rest => .ok (.list [], ⟨rest, start.lines⟩)
      | ',' :: _ => .error .unexpected
      | _ => do
          let (item, after) ← flowValue start.text start.lines steps
          let after := skipVoid after.text after.lines
          match after.text with
          | ',' :: rest => do
              let (others, later) ← flowItems rest after.lines steps
              match others with
              | .list items => return (.list (item :: items), later)
              | _ => return (.list [item], later)
          | ']' :: rest => return (.list [item], ⟨rest, after.lines⟩)
          | _ => .error .unexpected

/-- The entries of a flow map, up to its end. A key without a value has the value null. -/
def flowEntries (text : List Char) (lines : List Line) :
    (steps : Nat) → Except Fault (Datum × Rest)
  | 0 => .error .unexpected
  | steps + 1 =>
      let start := skipVoid text lines
      match start.text with
      | [] => .error .unexpected
      | '\x7d' :: rest => .ok (.map [], ⟨rest, start.lines⟩)
      | ',' :: _ => .error .unexpected
      | _ => do
          let (key, after) ← flowScalar start.text start.lines steps
          let after := skipVoid after.text after.lines
          let (value, after) ← match after.text with
            | ':' :: rest =>
                if isQuoted start.text || endsWord rest || rest.head?.any isFlowMark then
                  let begun := skipVoid rest after.lines
                  match begun.text with
                  | ',' :: _ => .ok (Datum.null, begun)
                  | '\x7d' :: _ => .ok (Datum.null, begun)
                  | _ => flowValue begun.text begun.lines steps
                else .error .unexpected
            | _ => .ok (Datum.null, after)
          let after := skipVoid after.text after.lines
          match after.text with
          | ',' :: rest => do
              let (others, later) ← flowEntries rest after.lines steps
              return (.map ((keyText key, value) :: others.entries), later)
          | '\x7d' :: rest => return (.map [(keyText key, value)], ⟨rest, after.lines⟩)
          | _ => .error .unexpected

end

/-- The key at the head of a line and what follows its colon; `none` when the line is no entry. -/
def entryOf? (text : List Char) (steps : Nat) : Option (String × List Char) :=
  match text with
  | '\'' :: rest =>
      match singleQuoted 0 rest [] steps with
      | .ok (key, after, _) => colon? (String.ofList key) (trimLeft after)
      | .error _ => none
  | '"' :: rest =>
      match doubleQuoted 0 rest [] steps with
      | .ok (key, after, _) => colon? (String.ofList key) (trimLeft after)
      | .error _ => none
  | _ =>
      if mayStart text then
        let (run, after) := plainRun false ' ' text
        colon? (String.ofList (trimRight run)) after
      else none
where
  /-- What follows the colon after a key. -/
  colon? (key : String) : List Char → Option (String × List Char)
    | ':' :: rest => if endsWord rest then some (key, rest) else none
    | _ => none

def isItem (text : List Char) : Bool :=
  match text with
  | '-' :: rest => endsWord rest
  | _ => false

/-- A value that begins on a line: a flow collection, or a scalar. Only a comment may follow it on its
last line. -/
def inlineValue (least : Nat) (text : List Char) (lines : List Line) (steps : Nat) :
    Except Fault (Datum × List Line) :=
  if text.head? = some '[' ∨ text.head? = some '\x7b' ∨ isQuoted text then do
    let (value, after) ← flowValue text lines steps
    if isVoid after.text then return (value, after.lines)
    else if (trimLeft after.text).head? = some ':' then .error .badToken
    else .error .unexpected
  else if isItem text || !mayStart text then .error .badToken
  else
    let (run, after) := plainRun false ' ' text
    if after.head? = some ':' then .error .badToken
    else if after.isEmpty then do
      let (more, later) ← continuation least 0 lines
      return (plain (trimRight run ++ more), later)
    else .ok (plain (trimRight run), lines)

mutual

/-- The value that the lines begin with. The first line is not void; `least` is the least indentation of
the lines that may continue a scalar. -/
def blockValue (least : Nat) (line : Line) (lines : List Line) :
    (steps : Nat) → Except Fault (Datum × List Line)
  | 0 => .error .unexpected
  | steps + 1 =>
      if isItem line.body then do
        let (items, later) ← blockItems line.indent (line :: lines) steps
        return (.list items, later)
      else
        match entryOf? line.body steps with
        | some _ => do
            let (entries, later) ← blockEntries line.indent (line :: lines) steps
            return (.map entries, later)
        | none => inlineValue least line.body lines steps
termination_by structural steps => steps

def blockItems (indent : Nat) (lines : List Line) :
    (steps : Nat) → Except Fault (List Datum × List Line)
  | 0 => .error .unexpected
  | steps + 1 =>
      match settle lines with
      | [] => .ok ([], [])
      | line :: rest =>
          if line.indent < indent then .ok ([], line :: rest)
          else if indent < line.indent then .error .unexpected
          else if !isItem line.body then .ok ([], line :: rest)
          else do
            let body := line.body.drop 1
            let inner : Line :=
              ⟨indent + 1 + (body.takeWhile isSpace).length, trimLeft body⟩
            let (item, later) ←
              if isVoid body then nested (indent + 1) rest steps
              else blockValue (indent + 1) inner rest steps
            let (others, later) ← blockItems indent later steps
            return (item :: others, later)
termination_by structural steps => steps

def blockEntries (indent : Nat) (lines : List Line) :
    (steps : Nat) → Except Fault (List (String × Datum) × List Line)
  | 0 => .error .unexpected
  | steps + 1 =>
      match settle lines with
      | [] => .ok ([], [])
      | line :: rest =>
          if line.indent < indent then .ok ([], line :: rest)
          else if indent < line.indent then .error .unexpected
          else
            match entryOf? line.body steps with
            | none => if isItem line.body then .error .unexpected else .error .badToken
            | some (key, after) => do
                let (value, later) ←
                  if isVoid after then
                    match settle rest with
                    | next :: others =>
                        if next.indent = indent && isItem next.body then do
                          let (items, later) ← blockItems indent (next :: others) steps
                          .ok (Datum.list items, later)
                        else nested (indent + 1) rest steps
                    | [] => .ok (Datum.null, [])
                  else inlineValue (indent + 1) (trimLeft after) rest steps
                let (others, later) ← blockEntries indent later steps
                return ((key, value) :: others, later)
termination_by structural steps => steps

/-- The value on the lines after a key or a dash; null when they are not indented as far as needed. -/
def nested (least : Nat) (lines : List Line) :
    (steps : Nat) → Except Fault (Datum × List Line)
  | 0 => .error .unexpected
  | steps + 1 =>
      match settle lines with
      | [] => .ok (.null, [])
      | line :: rest =>
          if line.indent < least then .ok (.null, line :: rest)
          else blockValue least line rest steps
termination_by structural steps => steps

end

def isReadable (character : Char) : Bool :=
  let code := character.toNat
  code = 0x9 || code = 0xa || code = 0xd || (0x20 ≤ code && code ≤ 0x7e) || code = 0x85
    || (0xa0 ≤ code && code ≤ 0xfffd) || 0x10000 ≤ code

mutual

def keysDiffer : Datum → Bool
  | .list items => itemsDiffer items
  | .map entries => decide (Assoc.keys entries).Nodup && entriesDiffer entries
  | _ => true

def itemsDiffer : List Datum → Bool
  | [] => true
  | item :: rest => keysDiffer item && itemsDiffer rest

def entriesDiffer : List (String × Datum) → Bool
  | [] => true
  | (_, value) :: rest => keysDiffer value && entriesDiffer rest

end

/-- The lines of a document; a mark that begins the document is dropped. -/
def documentLines (text : List Char) : List Line :=
  let lines := settle ((Text.lines (Text.unifyLineEnds text)).map Line.ofChars)
  match lines with
  | ⟨0, '-' :: '-' :: '-' :: body⟩ :: rest =>
      if isVoid body then rest
      else if endsWord body then Line.ofChars (trimLeft body) :: rest
      else lines
  | _ => lines

/-- Reads the value that a document holds. A document without content holds null. -/
def read (text : String) : Except Fault Datum :=
  let characters := text.toList
  if !characters.all isReadable then .error .unreadable
  else
    let steps := 4 * characters.length + 16
    match settle (documentLines characters) with
    | [] => .ok .null
    | line :: rest => do
        let (value, later) ← blockValue 0 line rest steps
        match settle later with
        | [] => if keysDiffer value then .ok value else .error .repeatedKey
        | _ => .error .unexpected

end Clausal.Yaml
