import Clausal.Proofs.Text.Numeral

/-!
Names made of digits. They hold no blank, sign or underscore, so that such a name is a number if all its
digits are decimal and not too many, and refused otherwise.
-/

set_option autoImplicit false

namespace Clausal.Text

variable {name text : List Char}

def digitsValue (text : List Char) : Nat := ofDigits (text.filterMap decimalValue?)

theorem length_filterMap_decimalValue? (decimal : ∀ character ∈ text, isDecimal character = true) :
    (text.filterMap decimalValue?).length = text.length := by
  rw [List.length_filterMap_eq_countP, List.countP_eq_length]
  exact decimal

/-- A name of decimal digits that is short enough is a numeral. -/
structure IsNumeral (name : List Char) : Prop where
  nonempty : name ≠ []
  decimal : ∀ character ∈ name, isDecimal character = true
  short : name.length ≤ digitLimit

instance (name : List Char) : Decidable (IsNumeral name) :=
  decidable_of_iff (name.isEmpty = false ∧ name.all isDecimal = true ∧ name.length ≤ digitLimit)
    ⟨fun ⟨filled, decimal, short⟩ =>
        ⟨List.isEmpty_eq_false_iff.mp filled, List.all_eq_true.mp decimal, short⟩,
      fun numeral =>
        ⟨List.isEmpty_eq_false_iff.mpr numeral.nonempty, List.all_eq_true.mpr numeral.decimal, numeral.short⟩⟩

/-- Why a name of digits is refused. Too many decimal digits in front count first. -/
def nameFault (name : List Char) : IntegerFault :=
  let leading := (name.takeWhile isDecimal).length
  if digitLimit < leading then .tooLong leading else .malformed (String.ofList name)

theorem isNumeric_iff : isNumeric name = true ↔ name ≠ [] ∧ ∀ character ∈ name, isDigit character = true := by
  simp [isNumeric]

/-- What follows the decimal digits of a name starts with another digit, which is no blank. -/
theorem all_isNumeralBlank_dropWhile (numeric : isNumeric name = true) :
    (name.dropWhile isDecimal).all isNumeralBlank = true ↔ ∀ character ∈ name, isDecimal character = true := by
  rw [← List.dropWhile_eq_nil_iff]
  constructor
  · intro blanks
    refine List.eq_nil_iff_forall_not_mem.mpr fun character member => ?_
    have digit := (isNumeric_iff.mp numeric).2 character ((List.dropWhile_sublist _).subset member)
    have blank := List.all_eq_true.mp blanks character member
    rw [isNumeralBlank, isBlank_eq_false_of_digit digit] at blank
    cases blank
  · intro none
    rw [none]
    rfl

theorem readInteger_of_isNumeric (numeric : isNumeric name = true) :
    readInteger name = if IsNumeral name then .ok (digitsValue name : Int) else .error (nameFault name) := by
  obtain ⟨nonempty, digits⟩ := isNumeric_iff.mp numeric
  have plain : ∀ character ∈ name, character ≠ '_' := fun character member =>
    ne_of_digit (digits character member) '_' (by decide)
  have start : name.head? ≠ some '_' := fun first => plain '_' (List.mem_of_head? first) rfl
  have length : ((name.takeWhile isDecimal).filterMap decimalValue?).length =
      (name.takeWhile isDecimal).length :=
    length_filterMap_decimalValue? fun _ member => List.mem_takeWhile_imp member
  rw [readInteger, dropWhile_isNumeralBlank_of_digits digits, takeSign_of_digits digits]
  dsimp only
  rw [if_neg start, scanDigits_eq_of_forall_ne plain]
  dsimp only
  rw [length, nameFault]
  by_cases decimal : ∀ character ∈ name, isDecimal character = true
  · rw [List.takeWhile_eq_self_iff.mpr decimal, (all_isNumeralBlank_dropWhile numeric).mpr decimal]
    by_cases short : name.length ≤ digitLimit
    · have numeral : IsNumeral name := ⟨nonempty, decimal, short⟩
      have filled : (name.filterMap decimalValue?).isEmpty = false := by
        rw [List.isEmpty_eq_false_iff, ← List.length_pos_iff, length_filterMap_decimalValue? decimal]
        exact List.length_pos_iff.mpr nonempty
      simp [numeral, Nat.not_lt.mpr short, filled, digitsValue]
    · have refused : ¬ IsNumeral name := fun numeral => short numeral.short
      simp [refused, Nat.not_le.mp short]
  · have refused : ¬ IsNumeral name := fun numeral => decimal numeral.decimal
    have tail : (name.dropWhile isDecimal).all isNumeralBlank = false :=
      Bool.eq_false_iff.mpr (mt (all_isNumeralBlank_dropWhile numeric).mp decimal)
    rw [tail, Bool.not_false, Bool.or_true, if_pos rfl, if_neg refused]
    split <;> rfl

end Clausal.Text
