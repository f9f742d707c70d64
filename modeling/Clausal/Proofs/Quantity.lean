import Clausal.Quantity

/-!
The order of quantities. It is transitive, and total among all that stands somewhere; what is not a number is
not even comparable with itself.
-/

set_option autoImplicit false

namespace Clausal.Quantity

variable {left right first second third : Option Standing} {standing : Standing}

namespace Standing

def AtMost (left right : Standing) : Prop :=
  left.side < right.side ∨
    left.side = right.side ∧ left.numerator * right.denominator ≤ right.numerator * left.denominator

theorem isAtMost_iff {left right : Standing} : left.isAtMost right = true ↔ left.AtMost right := by
  simp [isAtMost, AtMost]

/-- Ratios over positive denominators are compared by cross-multiplication. -/
theorem cross_trans {first second third : Int} {firstBelow secondBelow thirdBelow : Nat}
    (positive : 0 < secondBelow) (lower : first * secondBelow ≤ second * firstBelow)
    (upper : second * thirdBelow ≤ third * secondBelow) : first * thirdBelow ≤ third * firstBelow := by
  have scaled : first * thirdBelow * secondBelow ≤ third * firstBelow * secondBelow := by
    calc
      first * thirdBelow * secondBelow = first * secondBelow * thirdBelow := Int.mul_right_comm ..
      _ ≤ second * firstBelow * thirdBelow := Int.mul_le_mul_of_nonneg_right lower (Int.natCast_nonneg _)
      _ = second * thirdBelow * firstBelow := Int.mul_right_comm ..
      _ ≤ third * secondBelow * firstBelow := Int.mul_le_mul_of_nonneg_right upper (Int.natCast_nonneg _)
      _ = third * firstBelow * secondBelow := Int.mul_right_comm ..
  exact Int.le_of_mul_le_mul_right scaled (Int.natCast_pos.mpr positive)

theorem AtMost.trans {first second third : Standing} (positive : 0 < second.denominator)
    (lower : first.AtMost second) (upper : second.AtMost third) : first.AtMost third := by
  rcases lower with lowerSide | ⟨firstSide, lowerRatio⟩
  · exact .inl (by rcases upper with upperSide | ⟨upperSide, _⟩ <;> omega)
  · rcases upper with upperSide | ⟨secondSide, upperRatio⟩
    · exact .inl (firstSide ▸ upperSide)
    · exact .inr ⟨firstSide.trans secondSide, cross_trans positive lowerRatio upperRatio⟩

theorem AtMost.total (left right : Standing) : left.AtMost right ∨ right.AtMost left := by
  rcases Int.lt_trichotomy left.side right.side with below | same | above
  · exact .inl (.inl below)
  · exact (Int.le_total _ _).imp (fun lower => .inr ⟨same, lower⟩) fun higher => .inr ⟨same.symm, higher⟩
  · exact .inr (.inl above)

end Standing

theorem denominator_pos {quantity : Quantity} (found : quantity.standing? = some standing) :
    0 < standing.denominator := by
  unfold standing? ratio? at found
  cases quantity with
  | whole value =>
      cases found
      exact Nat.one_pos
  | real value =>
      dsimp only at found
      cases decoded : Decimal.decode value with
      | finite negative mantissa exponent =>
          rw [decoded] at found
          cases found
          exact Nat.pow_pos Nat.two_pos
      | infinite negative =>
          rw [decoded] at found
          cases found
          cases negative <;> exact Nat.one_pos
      | notANumber =>
          rw [decoded] at found
          cases found

theorem isAtMost?_iff : isAtMost? left right = true ↔ ∃ leftStanding rightStanding,
    left = some leftStanding ∧ right = some rightStanding ∧ leftStanding.AtMost rightStanding := by
  cases left with
  | none => simp [isAtMost?]
  | some leftStanding =>
      cases right with
      | none => simp [isAtMost?]
      | some rightStanding => simp [isAtMost?, Standing.isAtMost_iff]

theorem isAtMost?_trans (positive : ∀ standing, second = some standing → 0 < standing.denominator)
    (lower : isAtMost? first second = true) (upper : isAtMost? second third = true) :
    isAtMost? first third = true := by
  obtain ⟨firstStanding, middle, rfl, rfl, below⟩ := isAtMost?_iff.mp lower
  obtain ⟨_, thirdStanding, same, rfl, above⟩ := isAtMost?_iff.mp upper
  cases same
  exact isAtMost?_iff.mpr ⟨firstStanding, thirdStanding, rfl, rfl, below.trans (positive middle rfl) above⟩

theorem isAtMost?_total (leftStands : left.isSome = true) (rightStands : right.isSome = true) :
    isAtMost? left right = true ∨ isAtMost? right left = true := by
  obtain ⟨leftStanding, rfl⟩ := Option.isSome_iff_exists.mp leftStands
  obtain ⟨rightStanding, rfl⟩ := Option.isSome_iff_exists.mp rightStands
  exact (Standing.AtMost.total leftStanding rightStanding).imp Standing.isAtMost_iff.mpr
    Standing.isAtMost_iff.mpr

theorem isSome_of_isAtMost? (below : isAtMost? left right = true) : right.isSome = true := by
  obtain ⟨_, standing, _, rfl, _⟩ := isAtMost?_iff.mp below
  rfl

theorem le_whole {left right : Int} : (whole left).le (whole right) = decide (left ≤ right) := by
  simp [le, standing?, ratio?, isAtMost?, Standing.isAtMost]

end Clausal.Quantity
