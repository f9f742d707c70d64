import Clausal.Text.Quoted

/-!
Reading bytes as UTF-8. Bytes that are no text are refused with the place of the first flaw. The bytes
arrive in portions, and a place is counted from the beginning of the portion, together with what was left
unfinished by the one before.
-/

set_option autoImplicit false

namespace Clausal.Text.Utf8

inductive Flaw where
  | badStart
  | badContinuation
  | unfinished
  deriving DecidableEq

/-- A flaw with the bytes it covers: the first of them, where it stands, and how many there are. -/
structure Fault where
  flaw : Flaw
  byte : UInt8
  position : Nat
  width : Nat
  deriving DecidableEq

def Flaw.reason : Flaw → String
  | .badStart => "invalid start byte"
  | .badContinuation => "invalid continuation byte"
  | .unfinished => "unexpected end of data"

/-- A single byte is shown by its value, several by the range of their positions. -/
def Fault.message (fault : Fault) : String :=
  let place :=
    if fault.width = 1 then
      "byte 0x" ++ String.ofList (hex 2 fault.byte.toNat) ++ " in position "
        ++ toString fault.position
    else
      "bytes in position " ++ toString fault.position ++ "-"
        ++ toString (fault.position + fault.width - 1)
  "'utf-8' codec can't decode " ++ place ++ ": " ++ fault.flaw.reason

def continues (byte : UInt8) : Bool := 0x80 ≤ byte && byte ≤ 0xbf

/-- Whether a second byte may follow the first byte of three or four: overlong forms, surrogates and
numbers beyond the last code point are excluded. -/
def mayFollow (lead byte : UInt8) : Bool :=
  continues byte
    && (if lead = 0xe0 then 0xa0 ≤ byte
        else if lead = 0xed then byte ≤ 0x9f
        else if lead = 0xf0 then 0x90 ≤ byte
        else if lead = 0xf4 then byte ≤ 0x8f
        else true)

/-- What a first byte announces: the number of bytes that follow it. -/
def followers (lead : UInt8) : Option Nat :=
  if lead < 0x80 then some 0
  else if lead < 0xc2 then none
  else if lead < 0xe0 then some 1
  else if lead < 0xf0 then some 2
  else if lead < 0xf5 then some 3
  else none

/-- How a character at the head of some bytes turns out. -/
inductive Head where
  /-- It is complete and takes this many bytes after the first. -/
  | whole (taken : Nat)
  /-- It is cut off by the end of the bytes. -/
  | short
  /-- It breaks off after this many bytes. -/
  | broken (flaw : Flaw) (width : Nat)
  deriving DecidableEq

/-- Looks at the bytes after a first byte that announces the given number of them. -/
def inspect (lead : UInt8) (announced : Nat) (rest : List UInt8) : Head :=
  match announced, rest with
  | 0, _ => .whole 0
  | _ + 1, [] => .short
  | more + 1, second :: others =>
      if !mayFollow lead second then .broken .badContinuation 1
      else
        let good := (others.take more).takeWhile continues
        if good.length = more then .whole (more + 1)
        else if good.length = others.length then .short
        else .broken .badContinuation (good.length + 2)

def head (lead : UInt8) (rest : List UInt8) : Head :=
  match followers lead with
  | none => .broken .badStart 1
  | some announced => inspect lead announced rest

/-- A surrogate of which only two bytes have arrived; the flaw is not seen before the third. -/
def isCutSurrogate (bytes : List UInt8) : Bool :=
  match bytes with
  | [lead, second] => lead = 0xed && continues second
  | _ => false

/-- Scans a portion. Without a flaw, the bytes of a character that the portion cuts off are left over;
at the very end such bytes are a flaw. -/
def scan (last : Bool) (position : Nat) : List UInt8 → Except Fault (List UInt8)
  | [] => .ok []
  | lead :: rest =>
      match head lead rest with
      | .whole taken => scan last (position + taken + 1) (rest.drop taken)
      | .broken flaw width =>
          if !last && isCutSurrogate (lead :: rest) then .ok (lead :: rest)
          else .error ⟨flaw, lead, position, width⟩
      | .short =>
          if last then .error ⟨.unfinished, lead, position, rest.length + 1⟩
          else .ok (lead :: rest)
termination_by bytes => bytes.length
decreasing_by simp only [List.length_drop, List.length_cons]; omega

def portion : Nat := 8192

/-- Scans the remaining bytes portion by portion, with what the portion before left over. -/
def scanPortions (leftover bytes : List UInt8) : Option Fault :=
  if bytes.isEmpty then
    match scan true 0 leftover with
    | .ok _ => none
    | .error fault => some fault
  else
    match scan false 0 (leftover ++ bytes.take portion) with
    | .ok leftover => scanPortions leftover (bytes.drop portion)
    | .error fault => some fault
termination_by bytes.length
decreasing_by
  cases bytes
  · contradiction
  · simp only [portion, List.length_drop, List.length_cons]
    omega

def flaw? (bytes : List UInt8) : Option Fault := scanPortions [] bytes

/-- The text that bytes stand for; bytes that stand for none are refused at their first flaw. -/
def decode (bytes : List UInt8) : Except Fault String :=
  match String.fromUTF8? ⟨bytes.toArray⟩ with
  | some text => .ok text
  | none => .error ((flaw? bytes).getD ⟨.badStart, 0, 0, 1⟩)

def encode (text : String) : List UInt8 := text.toByteArray.data.toList

@[simp] theorem decode_encode (text : String) : decode (encode text) = .ok text := by
  have valid : String.fromUTF8? ⟨text.toByteArray.data.toList.toArray⟩ = some text := by
    simp only [Array.toArray_toList, String.fromUTF8?, text.isValidUTF8, ↓reduceDIte]
    rfl
  simp only [decode, encode, valid]

end Clausal.Text.Utf8
