import Clausal.Text.Printable

/-!
Quoted text. Single quotes stand around the text unless it holds a single quote and no double quote.
The quote in use and the backslash are escaped, and so is every character that is not printable.
-/

set_option autoImplicit false

namespace Clausal.Text

/-- The hexadecimal digits of a number in lower case, padded with zeros to a width. -/
def hex (width value : Nat) : List Char :=
  let digits := Nat.toDigits 16 value
  List.replicate (width - digits.length) '0' ++ digits

/-- One character between the given quotes. Escapes by number take two, four or eight digits. -/
def escape (quote character : Char) : List Char :=
  if character = quote ∨ character = '\\' then ['\\', character]
  else if character = '\n' then ['\\', 'n']
  else if character = '\r' then ['\\', 'r']
  else if character = '\t' then ['\\', 't']
  else if isPrintable character then [character]
  else if character.toNat < 0x100 then '\\' :: 'x' :: hex 2 character.toNat
  else if character.toNat < 0x10000 then '\\' :: 'u' :: hex 4 character.toNat
  else '\\' :: 'U' :: hex 8 character.toNat

/-- The quote for a text: double only if the text holds a single quote and no double one. -/
def quoteFor (text : List Char) : Char :=
  if text.contains '\'' && !text.contains '"' then '"' else '\''

def quotedChars (text : List Char) : List Char :=
  let quote := quoteFor text
  quote :: text.flatMap (escape quote) ++ [quote]

def quoted (text : String) : String := String.ofList (quotedChars text.toList)

end Clausal.Text
