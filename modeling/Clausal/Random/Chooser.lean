/-!
Sources of choices. A chooser picks a position below a positive count and moves to its next state; what
uses one depends on nothing else about it.
-/

set_option autoImplicit false

namespace Clausal.Random

structure Chooser (State : Type) where
  pick : State → (count : Nat) → 0 < count → Fin count × State

end Clausal.Random
