import Clausal.Valuation
import Mathlib.Logic.Relation

/-!
The implications between literals that a formula of narrow clauses stands for.
-/

set_option autoImplicit false

namespace Clausal

/-- A unit clause implies its literal, a clause of two literals each from the negation of the other. -/
inductive Clause.Implies (clause : Clause) : Literal → Literal → Prop where
  | unit {literal : Literal} :
      clause.literals = [literal] → Implies clause literal.negate literal
  | second {first second : Literal} :
      clause.literals = [first, second] → Implies clause first.negate second
  | first {first second : Literal} :
      clause.literals = [first, second] → Implies clause second.negate first

/-- Clauses of one or two literals, the ones that implications can stand for. -/
def Clause.Narrow (clause : Clause) : Prop := 0 < clause.size ∧ clause.size ≤ 2

theorem Formula.narrow_of_nonempty {formula : Formula} (nonempty : formula.hasEmptyClause = false)
    (narrow : ∀ clause ∈ formula.clauses, clause.size ≤ 2) :
    ∀ clause ∈ formula.clauses, clause.Narrow := fun clause member =>
  ⟨List.length_pos_iff.mpr (literals_ne_nil nonempty member), narrow clause member⟩

namespace Clause

theorem Narrow.cases {clause : Clause} (narrow : clause.Narrow) :
    (∃ literal, clause.literals = [literal]) ∨
      ∃ first second, clause.literals = [first, second] := by
  obtain ⟨nonempty, bound⟩ := narrow
  unfold size at nonempty bound
  match shape : clause.literals with
  | [] => simp [shape] at nonempty
  | [literal] => exact .inl ⟨literal, rfl⟩
  | [first, second] => exact .inr ⟨first, second, rfl⟩
  | _ :: _ :: _ :: _ => simp [shape] at bound

theorem Implies.contrapositive {clause : Clause} {source target : Literal}
    (implies : clause.Implies source target) : clause.Implies target.negate source.negate := by
  cases implies with
  | unit shape =>
      rw [Literal.negate_negate]
      exact .unit shape
  | second shape =>
      rw [Literal.negate_negate]
      exact .first shape
  | first shape =>
      rw [Literal.negate_negate]
      exact .second shape

theorem implies_iff_of_unit {clause : Clause} {literal source target : Literal}
    (shape : clause.literals = [literal]) :
    clause.Implies source target ↔ source = literal.negate ∧ target = literal := by
  constructor
  · intro implies
    cases implies with
    | unit same => simp_all
    | second other => simp_all
    | first other => simp_all
  · intro ends
    obtain ⟨rfl, rfl⟩ := ends
    exact .unit shape

theorem implies_iff_of_pair {clause : Clause} {first second source target : Literal}
    (shape : clause.literals = [first, second]) :
    clause.Implies source target ↔
      (source = first.negate ∧ target = second) ∨ (source = second.negate ∧ target = first) := by
  constructor
  · intro implies
    cases implies with
    | unit other => simp_all
    | second same => simp_all
    | first same => simp_all
  · intro ends
    rcases ends with ⟨rfl, rfl⟩ | ⟨rfl, rfl⟩
    · exact .second shape
    · exact .first shape

theorem Implies.holds {clause : Clause} {valuation : Valuation} {source target : Literal}
    (implies : clause.Implies source target) (holds : clause.Holds valuation)
    (sourceHolds : source.Holds valuation) : target.Holds valuation := by
  obtain ⟨literal, member, literalHolds⟩ := holds
  cases implies with
  | unit shape =>
      rw [shape, List.mem_singleton] at member
      exact member ▸ literalHolds
  | second shape =>
      simp only [shape, List.mem_cons, List.not_mem_nil, or_false] at member
      rcases member with rfl | rfl
      · exact absurd literalHolds (Literal.holds_negate_iff.mp sourceHolds)
      · exact literalHolds
  | first shape =>
      simp only [shape, List.mem_cons, List.not_mem_nil, or_false] at member
      rcases member with rfl | rfl
      · exact literalHolds
      · exact absurd literalHolds (Literal.holds_negate_iff.mp sourceHolds)

end Clause

namespace Formula

def Implies (formula : Formula) (source target : Literal) : Prop :=
  ∃ clause ∈ formula.clauses, clause.Implies source target

/-- A chain of implications. -/
def Leads (formula : Formula) : Literal → Literal → Prop :=
  Relation.ReflTransGen formula.Implies

/-- The implications lead from each literal of the variable to the other one. -/
def Conflicting (formula : Formula) (atom : Variable) : Prop :=
  formula.Leads ⟨atom, true⟩ ⟨atom, false⟩ ∧ formula.Leads ⟨atom, false⟩ ⟨atom, true⟩

theorem Implies.contrapositive {formula : Formula} {source target : Literal}
    (implies : formula.Implies source target) : formula.Implies target.negate source.negate := by
  obtain ⟨clause, member, implies⟩ := implies
  exact ⟨clause, member, implies.contrapositive⟩

theorem Leads.holds {formula : Formula} {valuation : Valuation} {source target : Literal}
    (leads : formula.Leads source target) (holds : formula.Holds valuation)
    (sourceHolds : source.Holds valuation) : target.Holds valuation := by
  induction leads with
  | refl => exact sourceHolds
  | tail _ implies ih =>
      obtain ⟨clause, member, implies⟩ := implies
      exact implies.holds (holds clause member) ih

/-- A formula with a conflicting variable is unsatisfiable. -/
theorem not_satisfiable_of_conflicting {formula : Formula} {atom : Variable}
    (conflicting : formula.Conflicting atom) : ¬ formula.Satisfiable := by
  intro satisfiable
  obtain ⟨valuation, holds⟩ := satisfiable
  obtain ⟨toNegative, toPositive⟩ := conflicting
  cases value : valuation atom with
  | true =>
      have contrary : valuation atom = false := toNegative.holds holds value
      rw [value] at contrary
      cases contrary
  | false =>
      have contrary : valuation atom = true := toPositive.holds holds value
      rw [value] at contrary
      cases contrary

end Formula

end Clausal
