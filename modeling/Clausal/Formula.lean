import Clausal.Clause

/-!
Formulas in conjunctive normal form: ordered lists of clauses. Asserting a literal drops the clauses
it satisfies and shortens those that contain its negation; it fails when a clause would become empty.
-/

set_option autoImplicit false

namespace Clausal

/-- A conjunction of clauses, in order. -/
structure Formula where
  clauses : List Clause
  deriving DecidableEq

namespace Formula

/-- The formula of the given literal lists, one clause for each. -/
def ofLists (clauses : List (List Literal)) : Formula :=
  ⟨clauses.map Clause.ofList⟩

def length (formula : Formula) : Nat := formula.clauses.length

def isEmpty (formula : Formula) : Bool := formula.clauses.isEmpty

def hasEmptyClause (formula : Formula) : Bool := formula.clauses.any Clause.isEmpty

/-- The size of the widest clause; zero when there is none. -/
def width (formula : Formula) : Nat :=
  (formula.clauses.map Clause.size).foldr max 0

/-- The variables in the order of first appearance. -/
def atoms (formula : Formula) : List Variable :=
  (formula.clauses.flatMap fun clause => clause.literals.map Literal.atom).eraseDups

def add (formula : Formula) (clause : Clause) : Formula :=
  ⟨formula.clauses ++ [clause]⟩

/-- Removes the first clause equivalent to the given one; `none` when there is no such clause. -/
def remove? (formula : Formula) (clause : Clause) : Option Formula :=
  if formula.clauses.any clause.equiv then some ⟨formula.clauses.eraseP clause.equiv⟩ else none

/-- Two formulas are equivalent clause by clause; the order of the clauses counts. -/
def equiv (left right : Formula) : Bool :=
  left.length == right.length
    && (left.clauses.zip right.clauses).all fun pair => pair.1.equiv pair.2

/-- The earlier of two clauses wins unless the later one is strictly smaller. -/
def smallerOf (best candidate : Clause) : Clause :=
  if candidate.size < best.size then candidate else best

/-- The first clause of least size; a formula without clauses has none. -/
def smallest? (formula : Formula) : Option Clause :=
  match formula.clauses with
  | [] => none
  | first :: rest => some (rest.foldl smallerOf first)

/-- The clauses joined by carets; the formula without clauses is written as the constant it is. -/
def text (formula : Formula) : String :=
  if formula.isEmpty then "TRUE"
  else String.intercalate " ^ " (formula.clauses.map Clause.text)

/-- Takes `literal` to be true in every clause, stopping at the first that is falsified. -/
def reduceClauses (literal : Literal) : List Clause → Option (List Clause)
  | [] => some []
  | clause :: rest =>
      match clause.reduce literal with
      | .falsified => none
      | .eliminated => reduceClauses literal rest
      | .reduced shorter => (reduceClauses literal rest).map (shorter :: ·)
      | .unchanged => (reduceClauses literal rest).map (clause :: ·)

/-- Takes `literal` to be true; `none` when the negation is the only literal of some clause. -/
def reduce (formula : Formula) (literal : Literal) : Option Formula :=
  (reduceClauses literal formula.clauses).map Formula.mk

/-- The number of literals in some clauses, each counted in every clause in which it occurs. -/
def totalSize : List Clause → Nat
  | [] => 0
  | clause :: rest => clause.size + totalSize rest

/-- The number of literal occurrences, which every useful assertion lowers. -/
def occurrences (formula : Formula) : Nat := totalSize formula.clauses

theorem nodup_atoms (formula : Formula) : formula.atoms.Nodup := nodup_eraseDups _

theorem mem_atoms_iff {formula : Formula} {atom : Variable} :
    atom ∈ formula.atoms ↔ ∃ clause ∈ formula.clauses, ∃ literal ∈ clause.literals, literal.atom = atom := by
  simp only [atoms, List.mem_eraseDups, List.mem_flatMap, List.mem_map]

theorem atom_mem_atoms {formula : Formula} {clause : Clause} {literal : Literal}
    (member : clause ∈ formula.clauses) (inside : literal ∈ clause.literals) :
    literal.atom ∈ formula.atoms :=
  mem_atoms_iff.mpr ⟨clause, member, literal, inside, rfl⟩

theorem map_atom_subset_atoms {formula : Formula} {clause : Clause} (member : clause ∈ formula.clauses) :
    clause.literals.map Literal.atom ⊆ formula.atoms := by
  intro atom listed
  obtain ⟨literal, inside, rfl⟩ := List.mem_map.mp listed
  exact atom_mem_atoms member inside

theorem hasEmptyClause_iff {formula : Formula} :
    formula.hasEmptyClause = true ↔ ∃ clause ∈ formula.clauses, clause.literals = [] := by
  simp [hasEmptyClause, Clause.isEmpty]

theorem literals_ne_nil {formula : Formula} {clause : Clause} (full : formula.hasEmptyClause = false)
    (member : clause ∈ formula.clauses) : clause.literals ≠ [] := by
  intro empty
  have found := hasEmptyClause_iff.mpr ⟨clause, member, empty⟩
  rw [full] at found
  cases found

theorem size_le_width {formula : Formula} {clause : Clause} (member : clause ∈ formula.clauses) :
    clause.size ≤ formula.width := by
  obtain ⟨clauses⟩ := formula
  unfold width
  induction clauses with
  | nil => cases member
  | cons first rest ih =>
      simp only [List.map_cons, List.foldr_cons]
      rcases List.mem_cons.mp member with rfl | member
      · exact Nat.le_max_left _ _
      · exact Nat.le_trans (ih member) (Nat.le_max_right _ _)

theorem smallerOf_eq_or (best candidate : Clause) :
    smallerOf best candidate = best ∨ smallerOf best candidate = candidate := by
  unfold smallerOf
  split
  · exact .inr rfl
  · exact .inl rfl

theorem foldl_smallerOf_mem (first : Clause) (rest : List Clause) :
    rest.foldl smallerOf first ∈ first :: rest := by
  induction rest generalizing first with
  | nil => simp
  | cons candidate rest ih =>
      have member := ih (smallerOf first candidate)
      simp only [List.foldl_cons, List.mem_cons] at member ⊢
      rcases smallerOf_eq_or first candidate with same | same <;> rw [same] at member ⊢ <;> grind

theorem mem_of_smallest? {formula : Formula} {clause : Clause}
    (found : formula.smallest? = some clause) : clause ∈ formula.clauses := by
  unfold smallest? at found
  split at found
  · cases found
  · next first rest split =>
      cases found
      rw [split]
      exact foldl_smallerOf_mem first rest

theorem smallest?_eq_none_iff {formula : Formula} :
    formula.smallest? = none ↔ formula.clauses = [] := by
  unfold smallest?
  split <;> simp_all

/-- Assertion never adds an occurrence, and removes one where the literal's variable occurs. -/
theorem reduceClauses_occurrences {literal : Literal} {clauses reduced : List Clause}
    (succeeded : reduceClauses literal clauses = some reduced) :
    totalSize reduced ≤ totalSize clauses ∧
      ((∃ clause ∈ clauses, literal ∈ clause.literals ∨ literal.negate ∈ clause.literals) →
        totalSize reduced < totalSize clauses) := by
  induction clauses generalizing reduced with
  | nil => simp_all [reduceClauses]
  | cons clause rest ih =>
      unfold reduceClauses at succeeded
      split at succeeded
      · cases succeeded
      · next outcome =>
          have bound := ih succeeded
          have positive := Clause.size_pos_of_mem (Clause.reduce_eq_eliminated_iff.mp outcome)
          simp only [totalSize]
          omega
      · next shorter outcome =>
          obtain ⟨tail, tailReduced, rfl⟩ := Option.map_eq_some_iff.mp succeeded
          have bound := ih tailReduced
          obtain ⟨_, member, rfl, _⟩ := Clause.reduce_eq_reduced_iff.mp outcome
          have shrinks := Clause.size_without_lt member
          simp only [totalSize]
          omega
      · next outcome =>
          obtain ⟨tail, tailReduced, rfl⟩ := Option.map_eq_some_iff.mp succeeded
          have bound := ih tailReduced
          have absent := Clause.reduce_eq_unchanged_iff.mp outcome
          simp only [totalSize]
          refine ⟨by omega, fun occurs => ?_⟩
          have occursLater : ∃ clause ∈ rest,
              literal ∈ clause.literals ∨ literal.negate ∈ clause.literals := by
            obtain ⟨candidate, member, occurs⟩ := occurs
            rcases List.mem_cons.mp member with rfl | member
            · exact (occurs.elim absent.1 absent.2).elim
            · exact ⟨candidate, member, occurs⟩
          have := bound.2 occursLater
          omega

/-- Asserting a literal whose variable occurs leaves fewer occurrences. -/
theorem occurrences_reduce_lt {formula reduced : Formula} {literal : Literal} {clause : Clause}
    (member : clause ∈ formula.clauses)
    (occurs : literal ∈ clause.literals ∨ literal.negate ∈ clause.literals)
    (succeeded : formula.reduce literal = some reduced) :
    reduced.occurrences < formula.occurrences := by
  obtain ⟨clauses, reducedClauses, rfl⟩ := Option.map_eq_some_iff.mp succeeded
  exact (reduceClauses_occurrences reducedClauses).2 ⟨clause, member, occurs⟩

end Formula

end Clausal
