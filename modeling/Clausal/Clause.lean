import Clausal.Literal

/-!
Clauses: disjunctions of literals without repetition, in the order of first insertion. Asserting a
literal on a clause has one of four outcomes (`Clause.Reduction`).
-/

set_option autoImplicit false

namespace Clausal

/-- Keeping only first occurrences leaves no repetition. -/
theorem nodup_eraseDups {α : Type} [DecidableEq α] (items : List α) : items.eraseDups.Nodup := by
  match items with
  | [] => simp
  | item :: rest =>
      rw [List.eraseDups_cons, List.nodup_cons]
      refine ⟨fun member => ?_, nodup_eraseDups _⟩
      have kept := List.mem_eraseDups.mp member
      simp at kept
termination_by items.length
decreasing_by
  simp only [List.length_cons]
  exact Nat.lt_succ_of_le (List.length_filter_le _ _)

/-- A disjunction of literals. No literal occurs twice; the order is that of first insertion. -/
structure Clause where
  literals : List Literal
  nodup : literals.Nodup
  deriving DecidableEq

namespace Clause

/-- The clause of the given literals; a repeated literal counts once, where it first stands. -/
def ofList (literals : List Literal) : Clause :=
  ⟨literals.eraseDups, nodup_eraseDups literals⟩

def size (clause : Clause) : Nat := clause.literals.length

def isEmpty (clause : Clause) : Bool := clause.literals.isEmpty

def contains (clause : Clause) (literal : Literal) : Bool :=
  decide (literal ∈ clause.literals)

/-- Appends a literal; one that is already there keeps its place. -/
def add (clause : Clause) (literal : Literal) : Clause :=
  ofList (clause.literals ++ [literal])

/-- The clause without one literal; the others keep their order. -/
def without (clause : Clause) (literal : Literal) : Clause :=
  ⟨clause.literals.filter (· ≠ literal), clause.nodup.sublist List.filter_sublist⟩

/-- The first literal, which is the one to branch on. The empty clause has none. -/
def first? (clause : Clause) : Option Literal := clause.literals.head?

/-- The variables in the order of first appearance. -/
def atoms (clause : Clause) : List Variable :=
  (clause.literals.map Literal.atom).eraseDups

/-- Two clauses are equivalent when they hold the same literals, in whatever order. -/
def equiv (left right : Clause) : Bool :=
  left.literals.all right.contains && right.literals.all left.contains

/-- The literals between parentheses, joined by a lower-case v. -/
def text (clause : Clause) : String :=
  "(" ++ String.intercalate " v " (clause.literals.map Literal.text) ++ ")"

/-- What becomes of a clause when a literal is taken to be true. -/
inductive Reduction where
  /-- The clause contains the literal and holds. -/
  | eliminated
  /-- The negation was the only literal of the clause. -/
  | falsified
  /-- The negation is removed and other literals remain. -/
  | reduced (shorter : Clause)
  /-- Neither polarity occurs. -/
  | unchanged
  deriving DecidableEq

def Reduction.label : Reduction → String
  | .eliminated => "eliminated"
  | .falsified => "falsified"
  | .reduced _ => "reduced"
  | .unchanged => "unchanged"

/-- Takes `literal` to be true. A clause that holds both polarities is eliminated. -/
def reduce (clause : Clause) (literal : Literal) : Reduction :=
  if clause.contains literal then .eliminated
  else if !clause.contains literal.negate then .unchanged
  else if (clause.without literal.negate).isEmpty then .falsified
  else .reduced (clause.without literal.negate)

theorem contains_iff {clause : Clause} {literal : Literal} :
    clause.contains literal = true ↔ literal ∈ clause.literals := by
  simp [contains]

theorem mem_ofList {literals : List Literal} {literal : Literal} :
    literal ∈ (ofList literals).literals ↔ literal ∈ literals := by
  simp [ofList]

theorem mem_without {clause : Clause} {removed literal : Literal} :
    literal ∈ (clause.without removed).literals ↔ literal ∈ clause.literals ∧ literal ≠ removed := by
  simp [without]

/-- Removing a literal that occurs makes the clause shorter. -/
theorem size_without_lt {clause : Clause} {literal : Literal} (member : literal ∈ clause.literals) :
    (clause.without literal).size < clause.size := by
  simp only [size, without]
  exact List.length_filter_lt_length_iff_exists.mpr ⟨literal, member, by simp⟩

theorem size_pos_of_mem {clause : Clause} {literal : Literal} (member : literal ∈ clause.literals) :
    0 < clause.size :=
  List.length_pos_of_mem member

theorem reduce_eq_eliminated_iff {clause : Clause} {literal : Literal} :
    clause.reduce literal = .eliminated ↔ literal ∈ clause.literals := by
  unfold reduce
  repeat' split
  all_goals simp_all [contains]

theorem reduce_eq_unchanged_iff {clause : Clause} {literal : Literal} :
    clause.reduce literal = .unchanged ↔
      literal ∉ clause.literals ∧ literal.negate ∉ clause.literals := by
  unfold reduce
  repeat' split
  all_goals simp_all [contains]

theorem reduce_eq_reduced_iff {clause shorter : Clause} {literal : Literal} :
    clause.reduce literal = .reduced shorter ↔
      literal ∉ clause.literals ∧ literal.negate ∈ clause.literals ∧
        clause.without literal.negate = shorter ∧ shorter.literals ≠ [] := by
  unfold reduce
  repeat' split
  · simp_all [contains]
  · simp_all [contains]
  · simp_all [contains, isEmpty]
    grind
  · simp_all [contains, isEmpty]
    grind

/-- A literal stands alone when it occurs and nothing is left without it. -/
theorem literals_eq_singleton_iff {clause : Clause} {literal : Literal} :
    clause.literals = [literal] ↔
      literal ∈ clause.literals ∧ (clause.without literal).literals = [] := by
  constructor
  · intro alone
    simp [without, alone]
  · intro both
    obtain ⟨member, empty⟩ := both
    have same : ∀ other ∈ clause.literals, other = literal := by
      simpa [without, List.filter_eq_nil_iff] using empty
    have distinct := clause.nodup
    match shape : clause.literals with
    | [] => simp [shape] at member
    | [only] => rw [same only (by simp [shape])]
    | first :: second :: rest =>
        rw [shape] at distinct same
        have firstSame := same first (by simp)
        have secondSame := same second (by simp)
        simp [firstSame, secondSame] at distinct

/-- A clause is falsified exactly when the negation is its only literal. -/
theorem reduce_eq_falsified_iff {clause : Clause} {literal : Literal} :
    clause.reduce literal = .falsified ↔ clause.literals = [literal.negate] := by
  have alone : clause.literals = [literal.negate] ↔
      literal.negate ∈ clause.literals ∧ (clause.without literal.negate).literals = [] :=
    literals_eq_singleton_iff
  rw [alone]
  unfold reduce
  repeat' split
  · next present =>
      simp only [reduceCtorEq, false_iff, not_and]
      intro member empty
      have same := alone.mpr ⟨member, empty⟩
      rw [contains_iff, same, List.mem_singleton] at present
      exact literal.negate_ne present.symm
  all_goals simp_all [contains, isEmpty]

end Clause

end Clausal
