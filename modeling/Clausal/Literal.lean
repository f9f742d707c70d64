/-!
Boolean variables and literals. A literal is a variable tagged with a polarity; negation flips the
polarity and keeps the variable.
-/

set_option autoImplicit false

namespace Clausal

/-- A Boolean variable, identified by its name. -/
structure Variable where
  name : String
  deriving DecidableEq

structure Literal where
  atom : Variable
  positive : Bool
  deriving DecidableEq

namespace Literal

/-- The literal of opposite polarity over the same variable. -/
def negate (literal : Literal) : Literal :=
  { literal with positive := !literal.positive }

/-- A positive literal is written as its variable, a negative one with a leading tilde. -/
def text (literal : Literal) : String :=
  if literal.positive then literal.atom.name else "~" ++ literal.atom.name

@[simp] theorem negate_negate (literal : Literal) : literal.negate.negate = literal := by
  simp [negate]

@[simp] theorem atom_negate (literal : Literal) : literal.negate.atom = literal.atom := rfl

@[simp] theorem positive_negate (literal : Literal) :
    literal.negate.positive = !literal.positive := rfl

theorem negate_ne (literal : Literal) : literal.negate ≠ literal := by
  intro same
  have polarity := congrArg Literal.positive same
  simp at polarity

theorem eq_or_eq_negate {left right : Literal} (same : left.atom = right.atom) :
    left = right ∨ left = right.negate := by
  obtain ⟨leftAtom, leftSign⟩ := left
  obtain ⟨rightAtom, rightSign⟩ := right
  cases leftSign <;> cases rightSign <;> simp_all [negate]

end Literal

end Clausal
