/-!
Blank characters, and the three ways of cutting text that depend on them or on line ends: stripping,
splitting into words and splitting into lines.
-/

set_option autoImplicit false

namespace Clausal.Text

/-- Whether a code point lies in one of the given closed ranges. -/
def inRanges (ranges : List (Nat × Nat)) (code : Nat) : Bool :=
  ranges.any fun (first, last) => first ≤ code && code ≤ last

/-- The closed ranges of blank characters: the white space of Unicode together with the four
information separators. -/
def blankRanges : List (Nat × Nat) :=
  [
    (0x9, 0xd), (0x1c, 0x20), (0x85, 0x85), (0xa0, 0xa0), (0x1680, 0x1680), (0x2000, 0x200a),
    (0x2028, 0x2029), (0x202f, 0x202f), (0x205f, 0x205f), (0x3000, 0x3000)
  ]

def isBlank (character : Char) : Bool := inRanges blankRanges character.toNat

/-- The text without the characters of a class at both ends. -/
def stripWhere (drop : Char → Bool) (text : List Char) : List Char :=
  ((text.dropWhile drop).reverse.dropWhile drop).reverse

def strip (text : List Char) : List Char := stripWhere isBlank text

/-- The maximal runs of characters that are not blank. -/
def words (text : List Char) : List (List Char) :=
  (text.splitOnP isBlank).filter fun word => !word.isEmpty

/-- The pieces between line feeds; no other character ends a line. There is one more piece than there
are line feeds. -/
def lines (text : List Char) : List (List Char) := text.splitOn '\n'

/-- Turns a carriage return, together with a line feed right after it, into one line feed. -/
def unifyLineEnds : List Char → List Char
  | [] => []
  | '\r' :: '\n' :: rest => '\n' :: unifyLineEnds rest
  | '\r' :: rest => '\n' :: unifyLineEnds rest
  | character :: rest => character :: unifyLineEnds rest

example : isBlank '\x1c' = true ∧ isBlank '\u200b' = false := by decide

end Clausal.Text
