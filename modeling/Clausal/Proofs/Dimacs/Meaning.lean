import Mathlib.Data.Set.Basic
import Clausal.Proofs.Dimacs.RoundTrip
import Clausal.Valuation

/-!
What a text means that was written for a formula over arbitrary names. A name is written as the integer that
it reads as. Zero ends a clause, and names of the same absolute value become one variable; all other names
keep the meaning.
-/

set_option autoImplicit false

namespace Clausal

namespace Dimacs

variable {formula : Formula} {atom : Variable} {literal : Literal} {valuation : Valuation}

/-- The integer that the variable's name reads as. -/
def indexOf? (atom : Variable) : Option Int := Text.readInteger? atom.name.toList

def indexOf (atom : Variable) : Int := (indexOf? atom).getD 0

theorem integerOf_eq (literal : Literal) :
    integerOf literal = if literal.positive then indexOf literal.atom else -indexOf literal.atom := by
  rw [integerOf, intOf?, indexOf, indexOf?]
  cases Text.readInteger? literal.atom.name.toList with
  | none => simp [Except.toOption]
  | some index => rfl

theorem natAbs_integerOf (literal : Literal) :
    (integerOf literal).natAbs = (indexOf literal.atom).natAbs := by
  rw [integerOf_eq]
  split <;> omega

theorem fits_indexOf (atom : Variable) : Text.Fits (indexOf atom) := by
  cases found : indexOf? atom with
  | none =>
      rw [indexOf, found]
      exact (by decide : 1 ≤ Text.digitLimit)
  | some index =>
      rw [indexOf, found]
      exact Text.fits_of_readInteger? found

/-! Writing. -/

theorem intOf?_of_ne_none (readable : indexOf? literal.atom ≠ none) :
    intOf? literal = .ok (integerOf literal) := by
  obtain ⟨index, found⟩ := Option.ne_none_iff_exists'.mp readable
  rw [integerOf_eq, indexOf, found, intOf?, ← indexOf?, found]
  rfl

theorem intOf?_eq_error_iff {fault : Fault} :
    intOf? literal = .error fault ↔ indexOf? literal.atom = none ∧ fault = .notAnIndex literal.atom.name := by
  rw [intOf?, ← indexOf?]
  cases indexOf? literal.atom with
  | none => simp only [Except.error.injEq, true_and, eq_comm]
  | some index => simp only [reduceCtorEq, false_and]

theorem ne_none_of_intOf? {value : Int} (read : intOf? literal = .ok value) :
    indexOf? literal.atom ≠ none := by
  intro unreadable
  rw [intOf?_eq_error_iff.mpr ⟨unreadable, rfl⟩] at read
  cases read

variable {declared : Option Int} {comments : List String} {text : String}

def textOf (formula : Formula) (declared : Option Int) (comments : List String) : String :=
  writtenText (integers formula) (declared.getD (highestIndex (integers formula))) comments

theorem write_of_readable (readable : ∀ atom ∈ formula.atoms, indexOf? atom ≠ none) :
    write formula declared comments = .ok (textOf formula declared comments) := by
  have computed : formula.clauses.mapM (fun clause => clause.literals.mapM intOf?) =
      .ok (integers formula) := by
    apply mapM_eq_pure
    intro clause member
    apply mapM_eq_pure
    intro literal inside
    exact intOf?_of_ne_none (readable literal.atom (Formula.atom_mem_atoms member inside))
  rw [write, computed]
  rfl

theorem write_cases (formula : Formula) (declared : Option Int) (comments : List String) :
    ((∀ atom ∈ formula.atoms, indexOf? atom ≠ none) ∧
        write formula declared comments = .ok (textOf formula declared comments)) ∨
      ∃ atom ∈ formula.atoms, indexOf? atom = none ∧
        write formula declared comments = .error (.notAnIndex atom.name) := by
  cases computed : formula.clauses.mapM fun clause => clause.literals.mapM intOf? with
  | ok lists =>
      have readable : ∀ atom ∈ formula.atoms, indexOf? atom ≠ none := by
        intro atom occurs
        obtain ⟨clause, member, literal, inside, rfl⟩ := Formula.mem_atoms_iff.mp occurs
        obtain ⟨values, read⟩ := exists_of_mapM_eq_ok computed clause member
        obtain ⟨value, readLiteral⟩ := exists_of_mapM_eq_ok read literal inside
        exact ne_none_of_intOf? readLiteral
      exact .inl ⟨readable, write_of_readable readable⟩
  | error fault =>
      obtain ⟨clause, member, failed⟩ := exists_of_mapM_eq_error computed
      obtain ⟨literal, inside, refused⟩ := exists_of_mapM_eq_error failed
      obtain ⟨unreadable, rfl⟩ := intOf?_eq_error_iff.mp refused
      refine .inr ⟨literal.atom, Formula.atom_mem_atoms member inside, unreadable, ?_⟩
      rw [write, computed]
      rfl

/-! What a written text is read as. -/

theorem mem_integers_iff {value : Int} :
    value ∈ (integers formula).flatten ↔
      ∃ clause ∈ formula.clauses, ∃ literal ∈ clause.literals, integerOf literal = value := by
  simp [integers]

theorem zero_mem_integers_iff :
    0 ∈ (integers formula).flatten ↔ ∃ atom ∈ formula.atoms, indexOf atom = 0 := by
  rw [mem_integers_iff]
  constructor
  · intro found
    obtain ⟨clause, member, literal, inside, zero⟩ := found
    refine ⟨literal.atom, Formula.atom_mem_atoms member inside, ?_⟩
    have magnitude := natAbs_integerOf literal
    omega
  · intro found
    obtain ⟨atom, occurs, zero⟩ := found
    obtain ⟨clause, member, literal, inside, rfl⟩ := Formula.mem_atoms_iff.mp occurs
    refine ⟨clause, member, literal, inside, ?_⟩
    have magnitude := natAbs_integerOf literal
    omega

/-- The comments are single lines, and the counts have numerals; a number of variables that is given covers
the indices. -/
structure Fitting (formula : Formula) (declared : Option Int) (comments : List String) : Prop where
  single : ∀ comment ∈ comments, '\n' ∉ comment.toList
  fits : ∀ count, declared = some count → Text.Fits count
  covers : ∀ count, declared = some count → ∀ atom ∈ formula.atoms, ((indexOf atom).natAbs : Int) ≤ count
  clauseCount : Text.Fits (formula.length : Int)

theorem fits_of_mem_integers {value : Int} (member : value ∈ (integers formula).flatten) :
    Text.Fits value := by
  obtain ⟨clause, _, literal, _, rfl⟩ := mem_integers_iff.mp member
  exact (fits_indexOf literal.atom).of_natAbs_le (Nat.le_of_eq (natAbs_integerOf literal))

namespace Fitting

theorem fitsAtoms (fitting : Fitting formula declared comments) :
    Text.Fits (declared.getD (highestIndex (integers formula))) := by
  cases declared with
  | none => exact fits_highestIndex fun _ member => fits_of_mem_integers member
  | some count => exact fitting.fits count rfl

theorem within (fitting : Fitting formula declared comments) :
    ∀ value ∈ (integers formula).flatten,
      (value.natAbs : Int) ≤ declared.getD (highestIndex (integers formula)) := by
  intro value member
  cases declared with
  | none => exact Int.ofNat_le.mpr (le_highestIndex member)
  | some count =>
      obtain ⟨clause, listed, literal, inside, rfl⟩ := mem_integers_iff.mp member
      rw [natAbs_integerOf]
      exact fitting.covers count rfl _ (Formula.atom_mem_atoms listed inside)

theorem fitsClauses (fitting : Fitting formula declared comments) :
    Text.Fits ((integers formula).length : Int) := by
  rw [integers, List.length_map]
  exact fitting.clauseCount

theorem parse_textOf (fitting : Fitting formula declared comments)
    (nonzero : ∀ atom ∈ formula.atoms, indexOf atom ≠ 0) :
    ∃ document, parse (textOf formula declared comments) = .ok document ∧
      document.formula = ofIntegers (integers formula) := by
  have areIndices : ∀ value ∈ (integers formula).flatten, IsIndex value := by
    intro value member
    refine ⟨?_, fits_of_mem_integers member⟩
    rintro rfl
    obtain ⟨atom, occurs, zero⟩ := zero_mem_integers_iff.mp member
    exact nonzero atom occurs zero
  exact ⟨_, parse_writtenText fitting.single areIndices fitting.fitsAtoms fitting.fitsClauses fitting.within,
    rfl⟩

end Fitting

/-! A zero among the indices makes too many clauses. -/

theorem length_splitOn_zero (values : List Int) : (values.splitOn 0).length = values.count 0 + 1 := by
  induction values with
  | nil => rfl
  | cons value rest ih =>
      rw [List.splitOn_cons_eq_if_modifyHead, List.count_cons]
      split <;> simp [ih]

theorem groups_terminated_eq (clauses : List (List Int)) :
    groups (terminated clauses) = clauses.flatMap (·.splitOn 0) := by
  have pieces : clauses.flatMap (·.splitOn 0) ++ [[]] = (terminated clauses).splitOn 0 := by
    rw [terminated]
    induction clauses with
    | nil => rfl
    | cons clause rest ih =>
        rw [List.flatMap_cons, List.flatMap_cons, List.append_assoc, List.append_assoc, ih,
          List.singleton_append, List.splitOn_append_cons_self]
  rw [groups_eq pieces]
  rfl

theorem length_groups_terminated (clauses : List (List Int)) :
    (groups (terminated clauses)).length = clauses.length + clauses.flatten.count 0 := by
  rw [groups_terminated_eq]
  induction clauses with
  | nil => rfl
  | cons clause rest ih =>
      rw [List.flatMap_cons, List.length_append, ih, length_splitOn_zero, List.length_cons, List.flatten_cons,
        List.count_append]
      omega

/-- A text is cut into its values in one way only. -/
theorem Tokenized.unique {text header otherHeader : List Char} {body otherBody : List (List Char)}
    {atomCount otherAtomCount clauseCount otherClauseCount : Int} {values otherValues : List Int}
    (left : Tokenized text header body atomCount clauseCount values)
    (right : Tokenized text otherHeader otherBody otherAtomCount otherClauseCount otherValues) :
    clauseCount = otherClauseCount ∧ values = otherValues := by
  obtain ⟨sameHeader, sameBody⟩ := List.cons.inj (left.lines.symm.trans right.lines)
  subst sameHeader sameBody
  obtain ⟨_, _, counted, words, _, read⟩ := left.counts
  obtain ⟨_, _, otherCounted, otherWords, _, otherRead⟩ := right.counts
  cases words.symm.trans otherWords
  exact ⟨Option.some.inj (read.symm.trans otherRead), Option.some.inj (left.tokens.symm.trans right.tokens)⟩

theorem Fitting.nonzero_of_parse (fitting : Fitting formula declared comments) {document : Document}
    (read : parse (textOf formula declared comments) = .ok document) :
    ∀ atom ∈ formula.atoms, indexOf atom ≠ 0 := by
  intro atom occurs zero
  have tokenized := tokenized_writtenText fitting.single (fun _ member => fits_of_mem_integers member)
    fitting.fitsAtoms fitting.fitsClauses
  obtain ⟨_, _, values, conforms, _⟩ := parse_eq_ok_iff.mp read
  obtain ⟨counted, rfl⟩ := tokenized.unique conforms.toTokenized
  -- Each zero among the integers adds a clause to those that the header counts.
  have total := conforms.total
  rw [length_groups_terminated, ← counted] at total
  have present := List.count_pos_iff.mpr (zero_mem_integers_iff.mpr ⟨atom, occurs, zero⟩)
  omega

/-! The formula that is read. -/

/-- The variable that stands for another in a text. -/
def numeralOf (atom : Variable) : Variable := ⟨toString (indexOf atom).natAbs⟩

/-- The truth that a valuation of the text gives to a name: the opposite one if its index is negative. -/
def pulledBack (valuation : Valuation) : Valuation :=
  fun atom => valuation (numeralOf atom) == decide (0 < indexOf atom)

theorem holds_literalOf_integerOf (nonzero : indexOf literal.atom ≠ 0) :
    (literalOf (integerOf literal)).Holds valuation ↔ literal.Holds (pulledBack valuation) := by
  rw [Literal.Holds, Literal.Holds, literalOf, natAbs_integerOf, integerOf_eq, pulledBack, numeralOf]
  generalize indexOf literal.atom = index at nonzero
  rcases Int.lt_or_gt_of_ne nonzero with negative | positive
  · have other : ¬ 0 < index := Int.lt_asymm negative
    cases literal.positive <;> simp [negative, other]
  · have other : ¬ index < 0 := Int.lt_asymm positive
    cases literal.positive <;> simp [positive, other]

theorem holds_ofIntegers_integers (nonzero : ∀ atom ∈ formula.atoms, indexOf atom ≠ 0) :
    (ofIntegers (integers formula)).Holds valuation ↔ formula.Holds (pulledBack valuation) := by
  have clauses : ∀ clause ∈ formula.clauses,
      ((Clause.ofList ((clause.literals.map integerOf).map literalOf)).Holds valuation ↔
        clause.Holds (pulledBack valuation)) := by
    intro clause member
    simp only [Clause.Holds, Clause.mem_ofList, List.mem_map, exists_exists_and_eq_and]
    refine exists_congr fun literal => and_congr_right fun inside => ?_
    exact holds_literalOf_integerOf (nonzero literal.atom (Formula.atom_mem_atoms member inside))
  simp only [Formula.Holds, ofIntegers, integers, Formula.ofLists, List.map_map, List.forall_mem_map]
  exact forall₂_congr clauses

theorem satisfiable_of_ofIntegers (nonzero : ∀ atom ∈ formula.atoms, indexOf atom ≠ 0)
    (satisfiable : (ofIntegers (integers formula)).Satisfiable) : formula.Satisfiable := by
  obtain ⟨valuation, holds⟩ := satisfiable
  exact ⟨pulledBack valuation, (holds_ofIntegers_integers nonzero).mp holds⟩

/-- No two variables have indices of the same absolute value. -/
def Apart (atoms : List Variable) : Prop :=
  ∀ left ∈ atoms, ∀ right ∈ atoms, (indexOf left).natAbs = (indexOf right).natAbs → left = right

theorem natAbs_eq_of_numeralOf_eq {left right : Variable} (same : numeralOf left = numeralOf right) :
    (indexOf left).natAbs = (indexOf right).natAbs := by
  have read : ∀ atom, Text.readInteger? (numeralOf atom).name.toList = some ((indexOf atom).natAbs : Int) := by
    intro atom
    exact Text.readInteger?_toString_natCast ((fits_indexOf atom).of_natAbs_le (Nat.le_refl _))
  have both := read left
  rw [same, read right] at both
  exact Int.ofNat.inj (Option.some.inj both).symm

/-- On variables that stay apart, every valuation comes from one of the text. -/
theorem exists_pulledBack (apart : Apart formula.atoms) (valuation : Valuation) :
    ∃ numbered : Valuation, ∀ atom ∈ formula.atoms, pulledBack numbered atom = valuation atom := by
  let source (numeral : Variable) : Option Variable :=
    formula.atoms.find? fun atom => decide (numeralOf atom = numeral)
  refine ⟨fun numeral => (source numeral).any fun atom => valuation atom == decide (0 < indexOf atom), ?_⟩
  intro atom occurs
  have found : source (numeralOf atom) = some atom := by
    cases first : source (numeralOf atom) with
    | none =>
        have absent := List.find?_eq_none.mp first atom occurs
        simp at absent
    | some other =>
        have same := List.find?_some first
        rw [decide_eq_true_eq] at same
        have listed := List.mem_of_find?_eq_some first
        rw [apart other listed atom occurs (natAbs_eq_of_numeralOf_eq same)]
  simp [pulledBack, found]

theorem satisfiable_ofIntegers_iff (nonzero : ∀ atom ∈ formula.atoms, indexOf atom ≠ 0)
    (apart : Apart formula.atoms) :
    (ofIntegers (integers formula)).Satisfiable ↔ formula.Satisfiable := by
  refine ⟨satisfiable_of_ofIntegers nonzero, ?_⟩
  intro satisfiable
  obtain ⟨valuation, holds⟩ := satisfiable
  obtain ⟨numbered, same⟩ := exists_pulledBack apart valuation
  refine ⟨numbered, (holds_ofIntegers_integers nonzero).mpr ?_⟩
  exact holds.congr fun atom occurs => (same atom occurs).symm

/-! Two names that become one variable. -/

/-- A variable is to be true, and another is to be what the text says of it when the first is false. -/
def clash (left right : Variable) : Formula :=
  .ofLists [[⟨left, true⟩], [⟨right, indexOf left != indexOf right⟩]]

theorem holds_clash_iff {left right : Variable} :
    (clash left right).Holds valuation ↔
      valuation left = true ∧ valuation right = (indexOf left != indexOf right) := by
  simp [clash, Formula.ofLists, Formula.Holds, Clause.Holds, Clause.mem_ofList, Literal.Holds]

theorem mem_atoms_clash_iff {left right : Variable} :
    atom ∈ (clash left right).atoms ↔ atom = left ∨ atom = right := by
  simp [Formula.mem_atoms_iff, clash, Formula.ofLists, Clause.mem_ofList, eq_comm]

theorem satisfiable_clash {left right : Variable} (different : left ≠ right) :
    (clash left right).Satisfiable := by
  refine ⟨fun atom => if atom = left then true else indexOf left != indexOf right, ?_⟩
  simp [holds_clash_iff, different.symm]

theorem not_satisfiable_integers_clash {left right : Variable} (nonzero : indexOf left ≠ 0)
    (same : (indexOf left).natAbs = (indexOf right).natAbs) :
    ¬ (ofIntegers (integers (clash left right))).Satisfiable := by
  intro satisfiable
  obtain ⟨valuation, holds⟩ := satisfiable
  have nonzeroBoth : ∀ atom ∈ (clash left right).atoms, indexOf atom ≠ 0 := by
    intro atom occurs
    rcases mem_atoms_clash_iff.mp occurs with rfl | rfl
    · exact nonzero
    · omega
  obtain ⟨holdsLeft, holdsRight⟩ := holds_clash_iff.mp ((holds_ofIntegers_integers nonzeroBoth).mp holds)
  have numeral : numeralOf left = numeralOf right := by rw [numeralOf, numeralOf, same]
  rw [pulledBack, beq_iff_eq] at holdsLeft
  rw [pulledBack, ← numeral, holdsLeft] at holdsRight
  rcases Int.natAbs_eq_natAbs_iff.mp same with equal | opposite
  · simp [equal] at holdsRight
  · have negated : indexOf left ≠ indexOf right := by omega
    have signs : decide (0 < indexOf left) ≠ decide (0 < indexOf right) := by
      simp only [ne_eq, decide_eq_decide]
      omega
    rw [bne_iff_ne.mpr negated, beq_iff_eq] at holdsRight
    exact signs holdsRight

/-- No name reads as zero, and no two read as integers of the same absolute value. -/
structure Faithful (vocabulary : Set Variable) : Prop where
  nonzero : ∀ atom ∈ vocabulary, indexOf? atom ≠ some 0
  apart : ∀ left ∈ vocabulary, ∀ right ∈ vocabulary, ∀ index other, indexOf? left = some index →
    indexOf? right = some other → index.natAbs = other.natAbs → left = right

/-- Reading the text of a formula over some vocabulary gives a formula that is satisfiable just if the first
one is. -/
def KeepsMeaning (vocabulary : Set Variable) : Prop :=
  ∀ formula declared comments text, (∀ atom ∈ formula.atoms, atom ∈ vocabulary) →
    Fitting formula declared comments → write formula declared comments = .ok text →
    ∃ document, parse text = .ok document ∧ (document.formula.Satisfiable ↔ formula.Satisfiable)

theorem indexOf_of_ne_none (readable : indexOf? atom ≠ none) : indexOf? atom = some (indexOf atom) := by
  obtain ⟨index, found⟩ := Option.ne_none_iff_exists'.mp readable
  rw [indexOf, found]
  rfl

theorem readable_of_write (written : write formula declared comments = .ok text) :
    (∀ atom ∈ formula.atoms, indexOf? atom = some (indexOf atom)) ∧
      text = textOf formula declared comments := by
  rcases write_cases formula declared comments with ⟨readable, same⟩ | ⟨_, _, _, refused⟩
  · exact ⟨fun atom occurs => indexOf_of_ne_none (readable atom occurs),
      Except.ok.inj (written.symm.trans same)⟩
  · cases written.symm.trans refused

theorem Faithful.keepsMeaning {vocabulary : Set Variable} (faithful : Faithful vocabulary) :
    KeepsMeaning vocabulary := by
  intro formula declared comments text among fitting written
  obtain ⟨readable, rfl⟩ := readable_of_write written
  have nonzero : ∀ atom ∈ formula.atoms, indexOf atom ≠ 0 := by
    intro atom occurs zero
    exact faithful.nonzero atom (among atom occurs) (zero ▸ readable atom occurs)
  have apart : Apart formula.atoms := by
    intro left leftOccurs right rightOccurs same
    exact faithful.apart left (among left leftOccurs) right (among right rightOccurs) _ _
      (readable left leftOccurs) (readable right rightOccurs) same
  obtain ⟨document, read, built⟩ := fitting.parse_textOf nonzero
  exact ⟨document, read, built ▸ satisfiable_ofIntegers_iff nonzero apart⟩

theorem fitting_clash (left right : Variable) : Fitting (clash left right) none [] where
  single := nofun
  fits := nofun
  covers := nofun
  clauseCount := (by decide : Text.Fits 2)

theorem KeepsMeaning.faithful {vocabulary : Set Variable} (keeps : KeepsMeaning vocabulary) :
    Faithful vocabulary := by
  -- Both properties are tested on formulas of two unit clauses.
  have read : ∀ left ∈ vocabulary, ∀ right ∈ vocabulary, indexOf? left ≠ none → indexOf? right ≠ none →
      indexOf left ≠ 0 ∧ ((ofIntegers (integers (clash left right))).Satisfiable ↔
        (clash left right).Satisfiable) := by
    intro left leftMember right rightMember leftReadable rightReadable
    have among : ∀ atom ∈ (clash left right).atoms, atom ∈ vocabulary ∧ indexOf? atom ≠ none := by
      intro atom occurs
      rcases mem_atoms_clash_iff.mp occurs with rfl | rfl
      · exact ⟨leftMember, leftReadable⟩
      · exact ⟨rightMember, rightReadable⟩
    have fitting := fitting_clash left right
    obtain ⟨document, read, same⟩ := keeps _ none [] _ (fun atom occurs => (among atom occurs).1) fitting
      (write_of_readable fun atom occurs => (among atom occurs).2)
    have nonzero := fitting.nonzero_of_parse read
    obtain ⟨again, readAgain, built⟩ := fitting.parse_textOf nonzero
    cases read.symm.trans readAgain
    exact ⟨nonzero left (mem_atoms_clash_iff.mpr (.inl rfl)), built ▸ same⟩
  constructor
  · intro atom member zero
    have readable : indexOf? atom ≠ none := by simp [zero]
    obtain ⟨nonzero, _⟩ := read atom member atom member readable readable
    simp [indexOf, zero] at nonzero
  · intro left leftMember right rightMember index other leftRead rightRead same
    refine Classical.byContradiction fun different => ?_
    obtain ⟨nonzero, kept⟩ := read left leftMember right rightMember (by simp [leftRead]) (by simp [rightRead])
    refine not_satisfiable_integers_clash nonzero ?_ (kept.mpr (satisfiable_clash different))
    simpa [indexOf, leftRead, rightRead] using same

/-- Texts keep the meaning over exactly the vocabularies in which no name reads as zero and different names
read as integers of different absolute values. Over any names, a formula is written unless some name reads
as no integer, which is then refused; the text is accepted unless some name reads as zero, and what it says
is satisfiable only if the formula is. -/
theorem written_text_keeps_meaning_iff (vocabulary : Set Variable) (formula : Formula)
    (declared : Option Int) (comments : List String) :
    (KeepsMeaning vocabulary ↔ Faithful vocabulary) ∧
      ((∀ atom ∈ formula.atoms, indexOf? atom ≠ none) ∧
          (∃ text, write formula declared comments = .ok text) ∨
        ∃ atom ∈ formula.atoms, indexOf? atom = none ∧
          write formula declared comments = .error (.notAnIndex atom.name) ∧
          (Session.Fault.dimacs (.notAnIndex atom.name)).kind = "ValueError") ∧
      ∀ text, Fitting formula declared comments → write formula declared comments = .ok text →
        ((∃ document, parse text = .ok document) ↔ ∀ atom ∈ formula.atoms, indexOf? atom ≠ some 0) ∧
          ∀ document, parse text = .ok document → document.formula.Satisfiable → formula.Satisfiable := by
  refine ⟨⟨KeepsMeaning.faithful, Faithful.keepsMeaning⟩, ?_, ?_⟩
  · rcases write_cases formula declared comments with ⟨readable, written⟩ | ⟨atom, occurs, none, refused⟩
    · exact .inl ⟨readable, _, written⟩
    · exact .inr ⟨atom, occurs, none, refused, rfl⟩
  · intro text fitting written
    obtain ⟨readable, rfl⟩ := readable_of_write written
    constructor
    · constructor
      · intro accepted atom occurs zero
        obtain ⟨document, read⟩ := accepted
        exact fitting.nonzero_of_parse read atom occurs
          (Option.some.inj ((readable atom occurs).symm.trans zero))
      · intro nonzero
        obtain ⟨document, read, _⟩ := fitting.parse_textOf fun atom occurs zero =>
          nonzero atom occurs (zero ▸ readable atom occurs)
        exact ⟨document, read⟩
    · intro document read satisfiable
      have nonzero := fitting.nonzero_of_parse read
      obtain ⟨again, readAgain, built⟩ := fitting.parse_textOf nonzero
      cases read.symm.trans readAgain
      exact satisfiable_of_ofIntegers nonzero (built ▸ satisfiable)

end Dimacs

end Clausal
