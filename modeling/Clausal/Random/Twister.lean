import Clausal.Random.Chooser

/-!
The Mersenne Twister MT19937: 624 words of state, seeded from an integer through its 32-bit words, and
a choice of a position below a bound by rejection of the leading bits of its output.
-/

set_option autoImplicit false

namespace Clausal.Random

def stateSize : Nat := 624

/-- The state words and the position of the next one to be read. -/
structure Twister where
  words : Array UInt32
  position : Nat
  deriving DecidableEq

namespace Twister

def word (words : Array UInt32) (index : Nat) : UInt32 := words[index]?.getD 0

/-- The state that follows from a single word by the linear congruence of the generator. -/
def ofWord (seed : UInt32) : Array UInt32 :=
  (List.range (stateSize - 1)).foldl
    (fun (words : Array UInt32) index =>
      let previous := word words index
      words.push ((1812433253 : UInt32) * (previous ^^^ (previous >>> 30)) + UInt32.ofNat (index + 1)))
    #[seed]

/-- The words of a natural number, least significant first; zero has the one word zero. -/
def keyOf (value : Nat) : List UInt32 :=
  if small : value < 0x100000000 then [UInt32.ofNat value]
  else UInt32.ofNat value :: keyOf (value / 0x100000000)
termination_by value
decreasing_by
  exact Nat.div_lt_self (by omega) (by decide)

structure Mixing where
  words : Array UInt32
  index : Nat

/-- Moves to the next index; past the end the last word is copied to the front. -/
def Mixing.advance (mixing : Mixing) : Mixing :=
  if mixing.index + 1 < stateSize then { mixing with index := mixing.index + 1 }
  else ⟨mixing.words.setIfInBounds 0 (word mixing.words (stateSize - 1)), 1⟩

/-- Stirs one word with the word before it by the given multiplier, then adds a summand. -/
def Mixing.stir (mixing : Mixing) (multiplier summand : UInt32) : Mixing :=
  let previous := word mixing.words (mixing.index - 1)
  let stirred :=
    (word mixing.words mixing.index ^^^ ((previous ^^^ (previous >>> 30)) * multiplier)) + summand
  advance { mixing with words := mixing.words.setIfInBounds mixing.index stirred }

/-- Seeds the state from a key: each key word in turn is added, with its position in the key, while
the state is stirred; a second pass subtracts the index. -/
def ofKey (key : Array UInt32) : Twister :=
  let rounds := max stateSize key.size
  let first := (List.range rounds).foldl
    (fun (mixing : Mixing) round =>
      let position := round % key.size
      mixing.stir 1664525 (word key position + UInt32.ofNat position))
    ⟨ofWord 19650218, 1⟩
  let second := (List.range (stateSize - 1)).foldl
    (fun (mixing : Mixing) _ => mixing.stir 1566083941 (0 - UInt32.ofNat mixing.index))
    first
  ⟨second.words.setIfInBounds 0 0x80000000, stateSize⟩

/-- Seeds from an integer; its sign does not count. -/
def ofSeed (seed : Int) : Twister := ofKey (keyOf seed.natAbs).toArray

/-- Joins the upper bit of one word to the lower bits of another and applies the twist. -/
def twist (upper lower : UInt32) : UInt32 :=
  let joined := (upper &&& 0x80000000) ||| (lower &&& 0x7fffffff)
  (joined >>> 1) ^^^ (if joined &&& 1 = 1 then 0x9908b0df else 0)

/-- Replaces every state word, in order, each from its successor and the word 397 places on. -/
def regenerate (words : Array UInt32) : Array UInt32 :=
  (List.range stateSize).foldl
    (fun current index =>
      current.setIfInBounds index
        (word current ((index + 397) % stateSize)
          ^^^ twist (word current index) (word current ((index + 1) % stateSize))))
    words

def temper (value : UInt32) : UInt32 :=
  let first := value ^^^ (value >>> 11)
  let second := first ^^^ ((first <<< 7) &&& 0x9d2c5680)
  let third := second ^^^ ((second <<< 15) &&& 0xefc60000)
  third ^^^ (third >>> 18)

def next (generator : Twister) : UInt32 × Twister :=
  let ready : Twister :=
    if generator.position < stateSize then generator else ⟨regenerate generator.words, 0⟩
  (temper (word ready.words ready.position), { ready with position := ready.position + 1 })

def bitLength (value : Nat) : Nat := if value = 0 then 0 else value.log2 + 1

/-- Draws the leading bits of successive outputs until their value is below the count. Only a value
whose own leading bit is set is rejected, and the leading bits of the output obey a linear recurrence of
degree 19937 that a longer run of set bits would break; so the given attempts suffice, and the
remainder taken after them is never used. Counts have at most 32 bits. -/
def draw (count : Nat) (positive : 0 < count) : Nat → Twister → Fin count × Twister
  | 0, generator =>
      let (output, later) := generator.next
      (⟨output.toNat % count, Nat.mod_lt _ positive⟩, later)
  | attempts + 1, generator =>
      let (output, later) := generator.next
      let value := output.toNat / Nat.pow 2 (32 - bitLength count)
      if bound : value < count then (⟨value, bound⟩, later) else draw count positive attempts later

/-- The degree of the recurrence, which bounds the number of rejections. -/
def recurrenceDegree : Nat := 19937

def chooser : Chooser Twister where
  pick generator count positive := draw count positive recurrenceDegree generator

end Twister

end Clausal.Random
