import Mathlib.Data.List.Induction
import Mathlib.Logic.Embedding.Basic
import Clausal.Proofs.ImplicationGraph.OfFormula

/-!
Formulas under new names. A renaming that keeps different variables different keeps everything that the
solvers ask of a formula: which literals are the same, which clause is smallest, what an assertion leaves.
-/

set_option autoImplicit false

namespace Clausal

/-- A change of names under which different variables stay different. -/
abbrev Renaming := Variable ↪ Variable

variable (names : Renaming)

namespace Literal

def rename (literal : Literal) : Literal := ⟨names literal.atom, literal.positive⟩

@[simp] theorem atom_rename (literal : Literal) :
    (literal.rename names).atom = names literal.atom := rfl

@[simp] theorem positive_rename (literal : Literal) :
    (literal.rename names).positive = literal.positive := rfl

@[simp] theorem negate_rename (literal : Literal) :
    (literal.rename names).negate = literal.negate.rename names := rfl

theorem rename_injective : Function.Injective (rename names) := by
  intro left right same
  obtain ⟨leftAtom, leftSign⟩ := left
  obtain ⟨rightAtom, rightSign⟩ := right
  simp only [rename, Literal.mk.injEq] at same
  rw [names.injective same.1, same.2]

@[simp] theorem rename_inj {left right : Literal} :
    left.rename names = right.rename names ↔ left = right :=
  (rename_injective names).eq_iff

end Literal

namespace Clause

def rename (clause : Clause) : Clause :=
  ⟨clause.literals.map (Literal.rename names), clause.nodup.map (Literal.rename_injective names)⟩

def Reduction.rename : Reduction → Reduction
  | .eliminated => .eliminated
  | .falsified => .falsified
  | .reduced shorter => .reduced (shorter.rename names)
  | .unchanged => .unchanged

@[simp] theorem literals_rename (clause : Clause) :
    (clause.rename names).literals = clause.literals.map (Literal.rename names) := rfl

@[simp] theorem size_rename (clause : Clause) : (clause.rename names).size = clause.size := by
  simp [size]

@[simp] theorem isEmpty_rename (clause : Clause) :
    (clause.rename names).isEmpty = clause.isEmpty := by
  simp [isEmpty]

@[simp] theorem contains_rename (clause : Clause) (literal : Literal) :
    (clause.rename names).contains (literal.rename names) = clause.contains literal := by
  simp [contains]

theorem without_rename (clause : Clause) (literal : Literal) :
    (clause.rename names).without (literal.rename names) =
      (clause.without literal).rename names := by
  simp only [without, rename, Clause.mk.injEq, List.filter_map, ne_eq]
  congr 1
  apply List.filter_congr
  simp

theorem reduce_rename (clause : Clause) (literal : Literal) :
    (clause.rename names).reduce (literal.rename names) =
      (clause.reduce literal).rename names := by
  simp only [reduce, contains_rename, Literal.negate_rename, without_rename, isEmpty_rename]
  repeat' split
  all_goals rfl

end Clause

theorem eraseDups_map {α β : Type} [DecidableEq α] [DecidableEq β] {change : α → β}
    (injective : Function.Injective change) (items : List α) :
    (items.map change).eraseDups = items.eraseDups.map change := by
  induction items using List.reverseRecOn with
  | nil => rfl
  | append_singleton items item ih =>
      rw [List.map_append, List.map_singleton, eraseDups_concat, eraseDups_concat, ih]
      simp only [List.mem_map_of_injective injective]
      split
      · rfl
      · simp

namespace Formula

def rename (formula : Formula) : Formula := ⟨formula.clauses.map (Clause.rename names)⟩

variable (formula : Formula)

@[simp] theorem clauses_rename :
    (formula.rename names).clauses = formula.clauses.map (Clause.rename names) := rfl

@[simp] theorem isEmpty_rename : (formula.rename names).isEmpty = formula.isEmpty := by
  simp [isEmpty]

@[simp] theorem hasEmptyClause_rename :
    (formula.rename names).hasEmptyClause = formula.hasEmptyClause := by
  simp only [hasEmptyClause, clauses_rename, List.any_map]
  congr 1
  funext clause
  simp

@[simp] theorem width_rename : (formula.rename names).width = formula.width := by
  simp [width, Function.comp_def]

@[simp] theorem atoms_rename : (formula.rename names).atoms = formula.atoms.map names := by
  simp [atoms, ← eraseDups_map names.injective, List.flatMap_map, List.map_flatMap, Function.comp_def]

theorem smallerOf_rename (best candidate : Clause) :
    smallerOf (best.rename names) (candidate.rename names) =
      (smallerOf best candidate).rename names := by
  simp only [smallerOf, Clause.size_rename]
  split <;> rfl

theorem smallest?_rename :
    (formula.rename names).smallest? = formula.smallest?.map (Clause.rename names) := by
  obtain ⟨clauses⟩ := formula
  cases clauses with
  | nil => rfl
  | cons first rest =>
      simp only [smallest?, clauses_rename, List.map_cons, Option.map_some, Option.some.injEq]
      exact List.foldl_map_hom fun best candidate => smallerOf_rename names best candidate

theorem reduceClauses_rename (literal : Literal) (clauses : List Clause) :
    reduceClauses (literal.rename names) (clauses.map (Clause.rename names)) =
      (reduceClauses literal clauses).map (List.map (Clause.rename names)) := by
  induction clauses with
  | nil => rfl
  | cons clause rest ih =>
      simp only [List.map_cons, reduceClauses, Clause.reduce_rename, ih]
      cases clause.reduce literal with
      | falsified => rfl
      | eliminated => rfl
      | reduced shorter => simp [Clause.Reduction.rename, Function.comp_def]
      | unchanged => simp [Clause.Reduction.rename, Function.comp_def]

theorem reduce_rename (literal : Literal) :
    (formula.rename names).reduce (literal.rename names) =
      (formula.reduce literal).map (rename names) := by
  simp only [reduce, clauses_rename, reduceClauses_rename, Option.map_map]
  rfl

end Formula

end Clausal
