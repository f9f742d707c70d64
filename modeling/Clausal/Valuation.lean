import Clausal.Environment

/-!
Two-valued semantics: a valuation gives every variable a truth value, and a formula is satisfiable
when some valuation makes every clause hold.
-/

set_option autoImplicit false

namespace Clausal

/-- A total assignment of truth to variables. -/
abbrev Valuation := Variable → Bool

def Literal.Holds (valuation : Valuation) (literal : Literal) : Prop :=
  valuation literal.atom = literal.positive

/-- A clause holds when one of its literals does. -/
def Clause.Holds (valuation : Valuation) (clause : Clause) : Prop :=
  ∃ literal ∈ clause.literals, literal.Holds valuation

/-- A formula holds when all its clauses do. -/
def Formula.Holds (valuation : Valuation) (formula : Formula) : Prop :=
  ∀ clause ∈ formula.clauses, clause.Holds valuation

/-- Some valuation makes the formula hold. -/
def Formula.Satisfiable (formula : Formula) : Prop :=
  ∃ valuation, formula.Holds valuation

/-- A valuation agrees with an environment on every variable that the environment decides. -/
def Environment.Admits (environment : Environment) (valuation : Valuation) : Prop :=
  ∀ atom value, (environment.get atom).decided? = some value → valuation atom = value

instance (valuation : Valuation) (literal : Literal) : Decidable (literal.Holds valuation) :=
  inferInstanceAs (Decidable (_ = _))

instance (valuation : Valuation) (clause : Clause) : Decidable (clause.Holds valuation) :=
  inferInstanceAs (Decidable (∃ literal ∈ clause.literals, literal.Holds valuation))

instance (valuation : Valuation) (formula : Formula) : Decidable (formula.Holds valuation) :=
  inferInstanceAs (Decidable (∀ clause ∈ formula.clauses, clause.Holds valuation))

/-- A formula depends on its own variables only. -/
theorem Formula.Holds.congr {formula : Formula} {left right : Valuation}
    (same : ∀ atom ∈ formula.atoms, left atom = right atom) (holds : formula.Holds left) :
    formula.Holds right := by
  intro clause member
  obtain ⟨literal, inside, holding⟩ := holds clause member
  exact ⟨literal, inside, (same literal.atom (atom_mem_atoms member inside)).symm.trans holding⟩

/-- The empty clause holds nowhere. -/
theorem Formula.not_satisfiable_of_hasEmptyClause {formula : Formula}
    (empty : formula.hasEmptyClause = true) : ¬ formula.Satisfiable := by
  intro satisfiable
  obtain ⟨valuation, holds⟩ := satisfiable
  obtain ⟨clause, member, isEmpty⟩ := hasEmptyClause_iff.mp empty
  obtain ⟨literal, inside, _⟩ := holds clause member
  rw [isEmpty] at inside
  cases inside

theorem Literal.holds_negate_iff {valuation : Valuation} {literal : Literal} :
    literal.negate.Holds valuation ↔ ¬ literal.Holds valuation := by
  cases polarity : literal.positive <;> simp [Literal.Holds, polarity]

end Clausal
