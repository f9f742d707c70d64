import Clausal.Datum.Json
import Clausal.Proofs.Fallible
import Clausal.Proofs.Text.Numeral

/-!
JSON text of data trees. A compact text is made of visible ASCII characters and spaces, so that it stands on
one line whatever the tree holds. Trees without foreign values always have a text.
-/

set_option autoImplicit false

namespace Clausal

namespace Text

/-- A visible ASCII character or a space. -/
def IsPlain (character : Char) : Prop := 32 ≤ character.toNat ∧ character.toNat < 127

instance (character : Char) : Decidable (IsPlain character) :=
  inferInstanceAs (Decidable (_ ∧ _))

def AllPlain (text : List Char) : Prop := ∀ character ∈ text, IsPlain character

instance (text : List Char) : Decidable (AllPlain text) :=
  List.decidableBAll IsPlain text

variable {text first second : List Char} {character : Char}

theorem AllPlain.append (left : AllPlain first) (right : AllPlain second) : AllPlain (first ++ second) :=
  List.forall_mem_append.mpr ⟨left, right⟩

theorem AllPlain.cons (head : IsPlain character) (rest : AllPlain text) : AllPlain (character :: text) :=
  List.forall_mem_cons.mpr ⟨head, rest⟩

theorem AllPlain.singleton (plain : IsPlain character) : AllPlain [character] :=
  List.forall_mem_singleton.mpr plain

theorem AllPlain.not_mem_feed (plain : AllPlain text) : '\n' ∉ text := fun member =>
  absurd (plain _ member) (by decide)

theorem AllPlain.replicate (count : Nat) (plain : IsPlain character) :
    AllPlain (List.replicate count character) := fun _ member =>
  List.eq_of_mem_replicate member ▸ plain

theorem AllPlain.intercalate {separator : List Char} {texts : List (List Char)}
    (between : AllPlain separator) (plain : ∀ text ∈ texts, AllPlain text) :
    AllPlain (separator.intercalate texts) := by
  induction texts with
  | nil => exact fun character member => nomatch member
  | cons text rest ih =>
      obtain ⟨head, others⟩ := List.forall_mem_cons.mp plain
      cases rest with
      | nil => simpa using head
      | cons next later =>
          rw [List.intercalate_cons_of_ne_nil (List.cons_ne_nil next later)]
          exact (head.append between).append (ih others)

theorem isPlain_digitChar : ∀ digit < 16, IsPlain (Nat.digitChar digit) := by decide

theorem allPlain_toDigits {base : Nat} (positional : 1 < base) (small : base ≤ 16) (number : Nat) :
    AllPlain (Nat.toDigits base number) := by
  induction number using Nat.strongRecOn with
  | ind number ih =>
      rw [Nat.toDigits_eq_if positional]
      split
      · next single => exact .singleton (isPlain_digitChar number (by omega))
      · have last : number % base < base := Nat.mod_lt _ (by omega)
        have shorter : number / base < number := Nat.div_lt_self (by omega) positional
        exact (ih _ shorter).append (.singleton (isPlain_digitChar _ (by omega)))

theorem allPlain_toString (value : Int) : AllPlain (toString value).toList := by
  by_cases negative : value < 0
  · rw [toList_toString_of_neg negative]
    exact .cons (by decide) (allPlain_toDigits (by decide) (by decide) _)
  · rw [toList_toString_of_nonneg (Int.not_lt.mp negative)]
    exact allPlain_toDigits (by decide) (by decide) _

end Text

namespace Decimal

open Text (AllPlain allPlain_toDigits)

variable {digits : List Char}

theorem allPlain_padLeft (plain : AllPlain digits) (width : Nat) : AllPlain (padLeft width digits) :=
  (AllPlain.replicate _ (by decide)).append plain

theorem allPlain_layOut (layout : Layout) (plain : AllPlain digits) (exponent : Int) :
    AllPlain (layOut layout digits exponent) := by
  have front (count : Nat) : AllPlain (digits.take count) := fun _ member =>
    plain _ (List.mem_of_mem_take member)
  have back (count : Nat) : AllPlain (digits.drop count) := fun _ member =>
    plain _ (List.mem_of_mem_drop member)
  have zeros (count : Nat) : AllPlain (List.replicate count '0') := .replicate count (by decide)
  unfold layOut
  split
  · split
    · exact .cons (by decide) (.cons (by decide) ((zeros _).append plain))
    · refine ((front _).append (zeros _)).append (.cons (by decide) ?_)
      split
      · decide
      · exact back _
  · refine AllPlain.append ((front 1).append ?_) (.cons (by decide) (.cons ?_ ?_))
    · split
      · exact .cons (by decide) (back 1)
      · exact fun _ none => nomatch none
    · split <;> decide
    · exact allPlain_padLeft (allPlain_toDigits (by decide) (by decide) _) _

theorem allPlain_write {layout : Layout} (infinity : AllPlain layout.infinity.toList)
    (notANumber : AllPlain layout.notANumber.toList) (decoded : Decoded) :
    AllPlain (write layout decoded).toList := by
  have sign (negative : Bool) : AllPlain (if negative then "-" else "").toList := by
    cases negative <;> decide
  cases decoded with
  | notANumber => exact notANumber
  | infinite negative =>
      rw [write, String.toList_append]
      exact (sign negative).append infinity
  | finite negative mantissa exponent =>
      unfold write
      dsimp only
      split
      · rw [String.toList_append]
        exact (sign negative).append (by decide)
      · rw [String.toList_append, String.toList_ofList]
        exact (sign negative).append (allPlain_layOut layout (allPlain_toDigits (by decide) (by decide) _) _)

end Decimal

namespace Json

open Text (AllPlain IsPlain)

theorem allPlain_unitEscape (unit : Nat) : AllPlain (unitEscape unit) :=
  .cons (by decide) (.cons (by decide)
    ((AllPlain.replicate _ (by decide)).append (Text.allPlain_toDigits (by decide) (by decide) unit)))

theorem allPlain_escape (character : Char) : AllPlain (escape character) := by
  unfold escape
  dsimp only
  iterate 7
    refine iteInduction (fun _ => by decide) fun _ => ?_
  split
  · next visible => exact .singleton visible
  · split
    · exact allPlain_unitEscape _
    · exact (allPlain_unitEscape _).append (allPlain_unitEscape _)

theorem allPlain_string (value : String) : AllPlain (string value).toList := by
  have body : AllPlain (value.toList.flatMap escape) := fun character member =>
    let ⟨source, _, escaped⟩ := List.mem_flatMap.mp member
    allPlain_escape source character escaped
  rw [string, String.toList_ofList]
  exact (AllPlain.cons (by decide) body).append (by decide)

theorem allPlain_real (value : Float) : AllPlain (real value).toList :=
  Decimal.allPlain_write (by decide) (by decide) _

theorem allPlain_enclose {opening closing : String} {items : List String} (depth : Nat)
    (front : AllPlain opening.toList) (back : AllPlain closing.toList)
    (plain : ∀ item ∈ items, AllPlain item.toList) :
    AllPlain (enclose compact depth opening closing items).toList := by
  unfold enclose
  split
  · rw [String.toList_append]
    exact front.append back
  · have inside : AllPlain (String.intercalate (compact.between depth) items).toList := by
      rw [String.toList_intercalate]
      have between : AllPlain (compact.between depth).toList := by
        change AllPlain ", ".toList
        decide
      refine between.intercalate fun text member => ?_
      obtain ⟨item, listed, rfl⟩ := List.mem_map.mp member
      exact plain item listed
    have spaced : opening ++ compact.before depth ++ String.intercalate (compact.between depth) items
        ++ compact.after depth ++ closing =
        opening ++ String.intercalate (compact.between depth) items ++ closing := by
      simp [compact]
    rw [spaced, String.toList_append, String.toList_append]
    exact (front.append inside).append back

/-! The cases are those of the tree; items and entries are written one after another. -/

mutual

theorem allPlain_of_encode : (value : Datum) → {depth : Nat} → {text : String} →
    encode compact depth value = .ok text → AllPlain text.toList
  | .null, _, _, rfl => by decide
  | .bool true, _, _, rfl => by decide
  | .bool false, _, _, rfl => by decide
  | .int value, _, _, rfl => Text.allPlain_toString value
  | .real value, _, _, rfl => allPlain_real value
  | .text value, _, _, rfl => allPlain_string value
  | .list items, _, _, written => by
      obtain ⟨encoded, inner, same⟩ := bind_eq_ok written
      cases same
      exact allPlain_enclose _ (by decide) (by decide) (allPlain_of_encodeItems items inner)
  | .map entries, _, _, written => by
      obtain ⟨encoded, inner, same⟩ := bind_eq_ok written
      cases same
      exact allPlain_enclose _ (by decide) (by decide) (allPlain_of_encodeEntries entries inner)

theorem allPlain_of_encodeItems : (items : List Datum) → {depth : Nat} → {encoded : List String} →
    encodeItems compact depth items = .ok encoded → ∀ text ∈ encoded, AllPlain text.toList
  | [], _, _, rfl => fun _ none => nomatch none
  | item :: rest, _, _, written => by
      obtain ⟨text, first, written⟩ := bind_eq_ok written
      obtain ⟨texts, others, same⟩ := bind_eq_ok written
      cases same
      exact List.forall_mem_cons.mpr
        ⟨allPlain_of_encode item first, allPlain_of_encodeItems rest others⟩

theorem allPlain_of_encodeEntries : (entries : List (String × Datum)) → {depth : Nat} →
    {encoded : List String} → encodeEntries compact depth entries = .ok encoded →
      ∀ text ∈ encoded, AllPlain text.toList
  | [], _, _, rfl => fun _ none => nomatch none
  | (key, value) :: rest, _, _, written => by
      obtain ⟨text, first, written⟩ := bind_eq_ok written
      obtain ⟨texts, others, same⟩ := bind_eq_ok written
      cases same
      refine List.forall_mem_cons.mpr ⟨?_, allPlain_of_encodeEntries rest others⟩
      rw [String.toList_append, String.toList_append]
      exact ((allPlain_string key).append (by decide)).append (allPlain_of_encode value first)

end

/-- Whatever text the data hold, their line holds no line feed. -/
theorem not_mem_feed_of_write {value : Datum} {text : String} (written : write value = .ok text) :
    '\n' ∉ text.toList :=
  (allPlain_of_encode value written).not_mem_feed

/-- The value has a text, however its parts are spaced. -/
def Writable (value : Datum) : Prop := ∀ spacing depth, ∃ text, encode spacing depth value = .ok text

theorem writable_text (value : String) : Writable (.text value) := fun _ _ => ⟨_, rfl⟩

theorem writable_int (value : Int) : Writable (.int value) := fun _ _ => ⟨_, rfl⟩

theorem writable_map {entries : List (String × Datum)} (each : ∀ entry ∈ entries, Writable entry.2) :
    Writable (.map entries) := by
  intro spacing depth
  have inner : ∃ encoded, encodeEntries spacing (depth + 1) entries = .ok encoded := by
    induction entries with
    | nil => exact ⟨[], rfl⟩
    | cons entry rest ih =>
        obtain ⟨head, others⟩ := List.forall_mem_cons.mp each
        obtain ⟨text, first⟩ := head spacing (depth + 1)
        obtain ⟨texts, later⟩ := ih others
        rw [encodeEntries, first, later]
        exact ⟨_, rfl⟩
  obtain ⟨encoded, inner⟩ := inner
  rw [encode, inner]
  exact ⟨_, rfl⟩

end Json

end Clausal
