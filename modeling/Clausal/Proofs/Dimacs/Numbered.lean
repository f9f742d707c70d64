import Clausal.Dimacs.Writer
import Clausal.Proofs.Fallible
import Clausal.Proofs.Text.Numeral

/-!
Formulas over numbered variables and the lists of integers that stand for them. The integers of such a
formula are found again from its literals, and the formula from its integers.
-/

set_option autoImplicit false

namespace Clausal.Dimacs

variable {value : Int} {formula : Formula} {clauses : List (List Int)}

/-- An integer that stands for a literal, with a numeral that can be read. -/
structure IsIndex (value : Int) : Prop where
  nonzero : value ≠ 0
  fits : Text.Fits value

/-- The formula of lists of integers, none of them zero. -/
def ofIntegers (clauses : List (List Int)) : Formula :=
  .ofLists (clauses.map fun clause => clause.map literalOf)

theorem buildFormula_eq (nonzero : ∀ value ∈ clauses.flatten, value ≠ 0) :
    buildFormula clauses = .ok (ofIntegers clauses) := by
  have literals : clauses.mapM (fun clause => clause.mapM literalOf?) =
      pure (clauses.map fun clause => clause.map literalOf) := by
    refine mapM_eq_pure fun clause member => mapM_eq_pure fun value inside => ?_
    exact if_neg (nonzero value (List.mem_flatten_of_mem member inside))
  rw [buildFormula, literals]
  rfl

theorem intOf?_literalOf (isIndex : IsIndex value) : intOf? (literalOf value) = .ok value := by
  have magnitude : Text.Fits (value.natAbs : Int) := isIndex.fits.of_natAbs_le (Nat.le_of_eq (Int.natAbs_natCast value.natAbs))
  have nonzero := isIndex.nonzero
  simp only [intOf?, literalOf, Text.readInteger?_toString_natCast magnitude, decide_eq_true_eq]
  split <;> congr 1 <;> omega

/-- Every literal is that of an integer which can be read back. -/
def Numbered (formula : Formula) : Prop :=
  ∀ clause ∈ formula.clauses, ∀ literal ∈ clause.literals,
    ∃ value, IsIndex value ∧ literal = literalOf value

/-- The integer of a literal over a numbered variable. -/
def integerOf (literal : Literal) : Int := (intOf? literal).toOption.getD 0

def integers (formula : Formula) : List (List Int) :=
  formula.clauses.map fun clause => clause.literals.map integerOf

theorem integerOf_literalOf (isIndex : IsIndex value) : integerOf (literalOf value) = value := by
  rw [integerOf, intOf?_literalOf isIndex]
  rfl

theorem numbered_ofIntegers (areIndices : ∀ value ∈ clauses.flatten, IsIndex value) :
    Numbered (ofIntegers clauses) := by
  intro clause member literal inside
  obtain ⟨literals, listed, rfl⟩ := List.mem_map.mp member
  obtain ⟨values, given, rfl⟩ := List.mem_map.mp listed
  obtain ⟨value, among, rfl⟩ := List.mem_map.mp (Clause.mem_ofList.mp inside)
  exact ⟨value, areIndices value (List.mem_flatten_of_mem given among), rfl⟩

theorem eraseDups_of_nodup {literals : List Literal} (distinct : literals.Nodup) :
    literals.eraseDups = literals := by
  induction literals with
  | nil => rfl
  | cons literal rest ih =>
      obtain ⟨new, others⟩ := List.nodup_cons.mp distinct
      have kept : rest.filter (fun other => !other == literal) = rest := by
        refine List.filter_eq_self.mpr fun other member => ?_
        have different : other ≠ literal := fun same => new (same ▸ member)
        simpa using different
      rw [List.eraseDups_cons, kept, ih others]

theorem ofList_literals (clause : Clause) : Clause.ofList clause.literals = clause := by
  obtain ⟨literals, distinct⟩ := clause
  simp only [Clause.ofList, eraseDups_of_nodup distinct]

namespace Numbered

theorem mapM_intOf? (numbered : Numbered formula) :
    formula.clauses.mapM (fun clause => clause.literals.mapM intOf?) = .ok (integers formula) := by
  refine mapM_eq_pure fun clause member => mapM_eq_pure fun literal inside => ?_
  obtain ⟨value, isIndex, rfl⟩ := numbered clause member literal inside
  rw [intOf?_literalOf isIndex, integerOf_literalOf isIndex]
  rfl

theorem isIndex (numbered : Numbered formula) :
    ∀ value ∈ (integers formula).flatten, IsIndex value := by
  refine List.forall_mem_flatten.mpr fun values listed value among => ?_
  obtain ⟨clause, member, rfl⟩ := List.mem_map.mp listed
  obtain ⟨literal, inside, rfl⟩ := List.mem_map.mp among
  obtain ⟨value, isIndex, rfl⟩ := numbered clause member literal inside
  rwa [integerOf_literalOf isIndex]

theorem ofIntegers_integers (numbered : Numbered formula) :
    ofIntegers (integers formula) = formula := by
  have each : ∀ clause ∈ formula.clauses,
      Clause.ofList ((clause.literals.map integerOf).map literalOf) = clause := by
    intro clause member
    have literals : (clause.literals.map integerOf).map literalOf = clause.literals := by
      rw [List.map_map]
      refine (List.map_congr_left fun literal inside => ?_).trans (List.map_id _)
      obtain ⟨value, isIndex, rfl⟩ := numbered clause member literal inside
      exact congrArg literalOf (integerOf_literalOf isIndex)
    rw [literals, ofList_literals]
  obtain ⟨clauses⟩ := formula
  rw [ofIntegers, integers, Formula.ofLists, List.map_map, List.map_map]
  exact congrArg Formula.mk ((List.map_congr_left each).trans (List.map_id _))

end Numbered

/-- The integers that a formula was built of are its integers, though a clause may repeat them. -/
theorem mem_integers_ofIntegers_iff (areIndices : ∀ value ∈ clauses.flatten, IsIndex value) :
    value ∈ (integers (ofIntegers clauses)).flatten ↔ value ∈ clauses.flatten := by
  have shape : integers (ofIntegers clauses) = clauses.map fun clause =>
      (Clause.ofList (clause.map literalOf)).literals.map integerOf := by
    rw [integers, ofIntegers, Formula.ofLists, List.map_map, List.map_map]
    rfl
  have each : ∀ clause ∈ clauses,
      (value ∈ (Clause.ofList (clause.map literalOf)).literals.map integerOf ↔ value ∈ clause) := by
    intro clause member
    constructor
    · intro inside
      obtain ⟨literal, kept, rfl⟩ := List.mem_map.mp inside
      obtain ⟨value, among, rfl⟩ := List.mem_map.mp (Clause.mem_ofList.mp kept)
      rwa [integerOf_literalOf (areIndices value (List.mem_flatten_of_mem member among))]
    · intro among
      refine List.mem_map.mpr ⟨literalOf value, ?_, ?_⟩
      · exact Clause.mem_ofList.mpr (List.mem_map_of_mem among)
      · exact integerOf_literalOf (areIndices value (List.mem_flatten_of_mem member among))
  rw [shape, ← List.flatMap_def, List.mem_flatMap, List.mem_flatten]
  exact exists_congr fun clause => and_congr_right (each clause)

theorem length_integers_ofIntegers (clauses : List (List Int)) :
    (integers (ofIntegers clauses)).length = clauses.length := by
  rw [integers, ofIntegers, Formula.ofLists, List.length_map, List.length_map, List.length_map]

/-! The highest index. -/

theorem highestIndex_le_iff {bound : Nat} :
    highestIndex clauses ≤ bound ↔ ∀ value ∈ clauses.flatten, value.natAbs ≤ bound := by
  rw [highestIndex]
  induction clauses.flatten with
  | nil => simp
  | cons value rest ih => rw [List.map_cons, List.foldr_cons, Nat.max_le, ih, List.forall_mem_cons]

theorem le_highestIndex (member : value ∈ clauses.flatten) : value.natAbs ≤ highestIndex clauses :=
  highestIndex_le_iff.mp (Nat.le_refl _) value member

/-- The highest index is that of some integer, if there is one. -/
theorem highestIndex_eq_zero_or :
    highestIndex clauses = 0 ∨ ∃ value ∈ clauses.flatten, value.natAbs = highestIndex clauses := by
  rw [highestIndex]
  induction clauses.flatten with
  | nil => exact .inl rfl
  | cons first rest ih =>
      rw [List.map_cons, List.foldr_cons]
      rcases Nat.le_total (rest.map Int.natAbs |>.foldr max 0) first.natAbs with lower | higher
      · rw [Nat.max_eq_left lower]
        exact .inr ⟨first, List.mem_cons_self, rfl⟩
      · rw [Nat.max_eq_right higher]
        refine ih.imp_right fun found => ?_
        obtain ⟨value, member, same⟩ := found
        exact ⟨value, List.mem_cons_of_mem first member, same⟩

theorem fits_highestIndex (fits : ∀ value ∈ clauses.flatten, Text.Fits value) :
    Text.Fits (highestIndex clauses : Int) := by
  rcases @highestIndex_eq_zero_or clauses with none | ⟨value, member, same⟩
  · rw [none]
    exact (by decide : 1 ≤ Text.digitLimit)
  · exact (fits value member).of_natAbs_le (Nat.le_of_eq ((Int.natAbs_natCast _).trans same.symm))

theorem highestIndex_eq {other : List (List Int)}
    (same : ∀ value, value ∈ clauses.flatten ↔ value ∈ other.flatten) :
    highestIndex clauses = highestIndex other := by
  refine Nat.le_antisymm (highestIndex_le_iff.mpr ?_) (highestIndex_le_iff.mpr ?_)
  · exact fun value member => le_highestIndex ((same value).mp member)
  · exact fun value member => le_highestIndex ((same value).mpr member)

end Clausal.Dimacs
