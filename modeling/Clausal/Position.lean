/-!
Positions in a list, counted from either end: zero is the first element, minus one the last.
-/

set_option autoImplicit false

namespace Clausal.Position

/-- The index below `length` that a position denotes; `none` when it lies beyond either end. -/
def resolve (length : Nat) (position : Int) : Option Nat :=
  if 0 ≤ position then
    if position < length then some position.toNat else none
  else if -position ≤ length then some (length - (-position).toNat)
  else none

/-- The element at a position, with its index. -/
def item? {α : Type} (items : List α) (position : Int) : Option (Nat × α) := do
  let index ← resolve items.length position
  let item ← items[index]?
  return (index, item)

theorem resolve_natCast {length index : Nat} :
    resolve length index = if index < length then some index else none := by
  simp [resolve]

end Clausal.Position
