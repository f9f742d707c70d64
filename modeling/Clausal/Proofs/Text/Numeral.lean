import Clausal.Text.Integer
import Mathlib.Algebra.Group.Nat.Defs
import Mathlib.Data.List.Basic
import Mathlib.Data.List.TakeWhile

/-!
Decimal numerals. A number is read back from its numeral as long as the numeral is not too long, and no
other number is read from any text.
-/

set_option autoImplicit false

namespace Clausal.Text

variable {character : Char} {text : List Char}

/-- The numeral has no more digits than are read. -/
def Fits (value : Int) : Prop := (Nat.toDigits 10 value.natAbs).length ≤ digitLimit

theorem hasNumeral_iff {value : Int} : hasNumeral value = true ↔ Fits value := decide_eq_true_iff

instance (value : Int) : Decidable (Fits value) := inferInstanceAs (Decidable (_ ≤ _))

theorem fits_iff {value : Int} : Fits value ↔ value.natAbs < 10 ^ digitLimit :=
  Nat.length_toDigits_le_iff (by decide) (by decide)

/-- Numbers below one that fits do as well. -/
theorem Fits.of_natAbs_le {value other : Int} (fits : Fits value)
    (smaller : other.natAbs ≤ value.natAbs) : Fits other :=
  fits_iff.mpr (Nat.lt_of_le_of_lt smaller (fits_iff.mp fits))

theorem toList_toString_natCast (number : Nat) :
    (toString number).toList = Nat.toDigits 10 number := by
  rw [Nat.toString_eq_repr, Nat.toList_repr]

theorem toList_toString_of_nonneg {value : Int} (nonneg : 0 ≤ value) :
    (toString value).toList = Nat.toDigits 10 value.natAbs := by
  rw [Int.toString_eq_repr, Int.repr_eq_if, if_pos nonneg, Nat.toList_repr]
  congr 1
  omega

theorem toList_toString_of_neg {value : Int} (negative : value < 0) :
    (toString value).toList = '-' :: Nat.toDigits 10 value.natAbs := by
  have magnitude : (-value).toNat = value.natAbs := by omega
  rw [Int.toString_eq_repr, Int.repr_eq_if, if_neg (Int.not_le.mpr negative), String.toList_append,
    Nat.toList_repr, magnitude]
  rfl

theorem isDigit_of_mem_toDigits {number : Nat} (member : character ∈ Nat.toDigits 10 number) :
    character.isDigit = true :=
  Nat.isDigit_of_mem_toDigits (by decide) (by decide) member

/-! Digits are apart from all that has a meaning in a numeral. -/

/-- The closed ranges of all digits. -/
def digitRanges : List (Nat × Nat) := decimalZeros.map (fun first => (first, first + 9)) ++ otherDigitRanges

/-- The closed ranges of blanks, signs and the underscore. -/
def markRanges : List (Nat × Nat) := blankRanges ++ [(0x2b, 0x2b), (0x2d, 0x2d), (0x5f, 0x5f)]

theorem inRanges_iff {ranges : List (Nat × Nat)} {code : Nat} :
    inRanges ranges code = true ↔ ∃ range ∈ ranges, range.1 ≤ code ∧ code ≤ range.2 := by
  simp [inRanges]

theorem inRanges_digitRanges_of_isDigit (digit : isDigit character = true) :
    inRanges digitRanges character.toNat = true := by
  rw [inRanges, digitRanges, List.any_append, Bool.or_eq_true]
  rcases Bool.or_eq_true .. ▸ digit with decimal | other
  · rw [decimalValue?, Option.isSome_map, List.find?_isSome] at decimal
    obtain ⟨first, listed, within⟩ := decimal
    exact .inl (List.any_eq_true.mpr ⟨(first, first + 9), List.mem_map_of_mem listed, within⟩)
  · exact .inr other

theorem not_inRanges_markRanges_of_isDigit (digit : isDigit character = true) :
    inRanges markRanges character.toNat = false := by
  have apart : ∀ range ∈ digitRanges, ∀ other ∈ markRanges, range.2 < other.1 ∨ other.2 < range.1 := by
    decide +kernel
  obtain ⟨range, listed, lower, upper⟩ := inRanges_iff.mp (inRanges_digitRanges_of_isDigit digit)
  refine Bool.eq_false_iff.mpr fun marked => ?_
  obtain ⟨other, otherListed, otherLower, otherUpper⟩ := inRanges_iff.mp marked
  rcases apart range listed other otherListed with below | above <;> omega

theorem isBlank_eq_false_of_digit (digit : isDigit character = true) : isBlank character = false := by
  have unmarked := not_inRanges_markRanges_of_isDigit digit
  rw [inRanges, markRanges, List.any_append, Bool.or_eq_false_iff] at unmarked
  exact unmarked.1

theorem ne_of_digit (digit : isDigit character = true) (mark : Char)
    (marked : inRanges markRanges mark.toNat = true) : character ≠ mark := by
  rintro rfl
  cases marked.symm.trans (not_inRanges_markRanges_of_isDigit digit)

theorem takeSign_of_digits (digits : ∀ character ∈ text, isDigit character = true) :
    takeSign text = (false, text) := by
  rw [takeSign.eq_def]
  split
  · exact absurd rfl (ne_of_digit (digits '-' List.mem_cons_self) '-' (by decide))
  · exact absurd rfl (ne_of_digit (digits '+' List.mem_cons_self) '+' (by decide))
  · rfl

theorem dropWhile_isNumeralBlank (visible : isBlank character = false) (rest : List Char) :
    (character :: rest).dropWhile isNumeralBlank = character :: rest := by
  rw [List.dropWhile_cons_of_neg]
  simp [isNumeralBlank, visible]

theorem dropWhile_isNumeralBlank_of_digits (digits : ∀ character ∈ text, isDigit character = true) :
    text.dropWhile isNumeralBlank = text := by
  cases text with
  | nil => rfl
  | cons character rest =>
      exact dropWhile_isNumeralBlank (isBlank_eq_false_of_digit (digits character List.mem_cons_self)) rest

/-! Decimal digits of the first script. -/

theorem code_of_isDigit (digit : character.isDigit = true) :
    48 ≤ character.toNat ∧ character.toNat ≤ 57 := by
  simpa [Char.isDigit, UInt32.le_iff_toNat_le] using digit

theorem decimalValue?_of_isDigit (digit : character.isDigit = true) :
    decimalValue? character = some (character.toNat - 48) := by
  obtain ⟨lower, upper⟩ := code_of_isDigit digit
  rw [decimalValue?, decimalZeros, List.find?_cons_of_pos]
  · rfl
  · simpa using ⟨lower, upper⟩

theorem digit_of_isDigit (digit : character.isDigit = true) : isDigit character = true := by
  rw [isDigit, decimalValue?_of_isDigit digit]
  rfl

theorem isBlank_of_isDigit (digit : character.isDigit = true) : isBlank character = false :=
  isBlank_eq_false_of_digit (digit_of_isDigit digit)

theorem ne_of_isDigit (digit : character.isDigit = true) {other : Char}
    (different : other.isDigit = false) : character ≠ other := by
  rintro rfl
  rw [digit] at different
  cases different

/-! Reading numerals. -/

theorem scanDigits_cons (plain : character ≠ '_') (rest : List Char) :
    scanDigits (character :: rest) =
      match decimalValue? character with
      | none => some ([], character :: rest)
      | some digit => (scanDigits rest).map fun (digits, after) => (digit :: digits, after) := by
  rw [scanDigits.eq_def]
  split
  · next same => cases same
  · next same => exact absurd (List.cons.inj same).1 plain
  · next same => exact absurd (List.cons.inj same).1 plain
  · next same =>
      cases same
      cases decimalValue? character <;> rfl

def isDecimal (character : Char) : Bool := (decimalValue? character).isSome

theorem scanDigits_eq_of_forall_ne (plain : ∀ character ∈ text, character ≠ '_') :
    scanDigits text = some ((text.takeWhile isDecimal).filterMap decimalValue?, text.dropWhile isDecimal) := by
  induction text with
  | nil => rfl
  | cons character rest ih =>
      obtain ⟨here, others⟩ := List.forall_mem_cons.mp plain
      rw [scanDigits_cons here, List.takeWhile_cons, List.dropWhile_cons, isDecimal, ih others]
      cases found : decimalValue? character with
      | none => rfl
      | some digit => simp [found]

theorem scanDigits_of_isDigit (digits : ∀ character ∈ text, character.isDigit = true) :
    scanDigits text = some (text.map fun character => character.toNat - 48, []) := by
  have decimal : ∀ character ∈ text, isDecimal character = true := fun character member => by
    rw [isDecimal, decimalValue?_of_isDigit (digits character member)]
    rfl
  have values : text.filterMap decimalValue? = text.map fun character => character.toNat - 48 := by
    rw [← List.filterMap_eq_map]
    exact List.filterMap_congr fun character member => decimalValue?_of_isDigit (digits character member)
  rw [scanDigits_eq_of_forall_ne fun character member => ne_of_isDigit (digits character member) (by decide),
    List.takeWhile_eq_self_iff.mpr decimal, List.dropWhile_eq_nil_iff.mpr decimal, values]

theorem ofDigits_map (text : List Char) :
    ofDigits (text.map fun character => character.toNat - 48) = Nat.ofDigitChars 10 text 0 := by
  rw [ofDigits, Nat.ofDigitChars, List.foldl_map]
  rfl

/-- The second half of reading, once the sign is off. -/
theorem readInteger_of_takeSign {negative : Bool} {body : List Char}
    (visible : text.dropWhile isNumeralBlank = text) (signed : takeSign text = (negative, body))
    (digits : ∀ character ∈ body, character.isDigit = true) (nonempty : body ≠ [])
    (short : body.length ≤ digitLimit) :
    readInteger text =
      .ok (if negative then -(Nat.ofDigitChars 10 body 0 : Int) else Nat.ofDigitChars 10 body 0) := by
  have start : body.head? ≠ some '_' := by
    cases body with
    | nil => exact absurd rfl nonempty
    | cons character rest =>
        have digit := digits character List.mem_cons_self
        simpa using ne_of_isDigit digit (by decide)
  have filled : (body.map fun character => character.toNat - 48).isEmpty = false := by
    cases body with
    | nil => exact absurd rfl nonempty
    | cons character rest => rfl
  rw [readInteger, visible, signed]
  simp only [start, ↓reduceIte, scanDigits_of_isDigit digits, List.length_map,
    Nat.not_lt.mpr short, filled, List.all_nil, Bool.not_true, Bool.or_self, Bool.false_eq_true,
    ofDigits_map]

/-- A number that fits is read from its numeral. -/
theorem readInteger_toString {value : Int} (fits : Fits value) :
    readInteger (toString value).toList = .ok value := by
  have digits : ∀ character ∈ Nat.toDigits 10 value.natAbs, character.isDigit = true :=
    fun character member => isDigit_of_mem_toDigits member
  have nonempty : Nat.toDigits 10 value.natAbs ≠ [] := Nat.toDigits_ne_nil
  by_cases nonneg : 0 ≤ value
  · have general : ∀ character ∈ Nat.toDigits 10 value.natAbs, isDigit character = true :=
      fun character member => digit_of_isDigit (digits character member)
    have visible := dropWhile_isNumeralBlank_of_digits general
    rw [toList_toString_of_nonneg nonneg,
      readInteger_of_takeSign visible (takeSign_of_digits general) digits nonempty fits,
      Nat.ofDigitChars_ten_toDigits, if_neg Bool.false_ne_true, Int.natAbs_of_nonneg nonneg]
  · have negative := Int.not_le.mp nonneg
    have visible := @dropWhile_isNumeralBlank '-' (by decide)
      (Nat.toDigits 10 value.natAbs)
    have signed : takeSign ('-' :: Nat.toDigits 10 value.natAbs) =
        (true, Nat.toDigits 10 value.natAbs) := rfl
    rw [toList_toString_of_neg negative,
      readInteger_of_takeSign visible signed digits nonempty fits,
      Nat.ofDigitChars_ten_toDigits, if_pos rfl]
    congr 1
    omega

theorem readInteger_toString_natCast {number : Nat} (fits : Fits number) :
    readInteger (toString number).toList = .ok (number : Int) := by
  have same : (toString number).toList = (toString (number : Int)).toList := by
    rw [toList_toString_natCast, toList_toString_of_nonneg (Int.natCast_nonneg number),
      Int.natAbs_natCast]
  rw [same, readInteger_toString fits]

theorem readInteger?_toString {value : Int} (fits : Fits value) :
    readInteger? (toString value).toList = some value := by
  rw [readInteger?, readInteger_toString fits]
  rfl

theorem readInteger?_toString_natCast {number : Nat} (fits : Fits number) :
    readInteger? (toString number).toList = some (number : Int) := by
  rw [readInteger?, readInteger_toString_natCast fits]
  rfl

/-! Every number that is read fits. -/

theorem decimalValue?_lt {digit : Nat} (found : decimalValue? character = some digit) :
    digit < 10 := by
  obtain ⟨first, listed, rfl⟩ := Option.map_eq_some_iff.mp found
  have range := List.find?_some listed
  simp only [Bool.and_eq_true, decide_eq_true_eq] at range
  omega

theorem scanDigits_lt {digits : List Nat} {after : List Char}
    (scanned : scanDigits text = some (digits, after)) : ∀ digit ∈ digits, digit < 10 := by
  fun_induction scanDigits text generalizing digits after with
  | case1 => cases scanned; simp
  | case2 => cases scanned
  | case3 character rest digit found ih =>
      obtain ⟨⟨others, tail⟩, scannedRest, same⟩ := Option.map_eq_some_iff.mp scanned
      cases same
      exact List.forall_mem_cons.mpr ⟨decimalValue?_lt found, ih scannedRest⟩
  | case4 => cases scanned
  | case5 => cases scanned; simp
  | case6 character rest _ _ digit found ih =>
      obtain ⟨⟨others, tail⟩, scannedRest, same⟩ := Option.map_eq_some_iff.mp scanned
      cases same
      exact List.forall_mem_cons.mpr ⟨decimalValue?_lt found, ih scannedRest⟩

theorem foldl_digits_lt {digits : List Nat} (small : ∀ digit ∈ digits, digit < 10) (value : Nat) :
    digits.foldl (fun value digit => 10 * value + digit) value < (value + 1) * 10 ^ digits.length := by
  induction digits generalizing value with
  | nil => simp
  | cons digit rest ih =>
      obtain ⟨digitSmall, restSmall⟩ := List.forall_mem_cons.mp small
      have later := ih restSmall (10 * value + digit)
      calc
        rest.foldl (fun value digit => 10 * value + digit) (10 * value + digit)
            < (10 * value + digit + 1) * 10 ^ rest.length := later
        _ ≤ ((value + 1) * 10) * 10 ^ rest.length := Nat.mul_le_mul_right _ (by omega)
        _ = (value + 1) * 10 ^ (digit :: rest).length := by
          rw [List.length_cons, Nat.pow_succ', Nat.mul_assoc]

theorem ofDigits_lt {digits : List Nat} (small : ∀ digit ∈ digits, digit < 10) :
    ofDigits digits < 10 ^ digits.length := by
  have bound := foldl_digits_lt small 0
  rwa [Nat.zero_add, Nat.one_mul] at bound

theorem fits_of_readInteger {value : Int} (read : readInteger text = .ok value) : Fits value := by
  unfold readInteger at read
  simp only at read
  split at read
  · cases read
  · split at read
    · cases read
    · next digits after scanned =>
        split at read
        · cases read
        · next short =>
            split at read
            · cases read
            · have small := ofDigits_lt (scanDigits_lt scanned)
              have wide : 10 ^ digits.length ≤ 10 ^ digitLimit :=
                Nat.pow_le_pow_right (by decide) (Nat.not_lt.mp short)
              cases read
              refine fits_iff.mpr (lt_of_eq_of_lt ?_ (Nat.lt_of_lt_of_le small wide))
              split <;> simp

theorem fits_of_readInteger? {value : Int} (read : readInteger? text = some value) : Fits value := by
  rw [readInteger?] at read
  cases outcome : readInteger text with
  | error fault => rw [outcome] at read; cases read
  | ok found => rw [outcome] at read; cases read; exact fits_of_readInteger outcome

end Clausal.Text
