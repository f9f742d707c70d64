import Clausal.Datum
import Clausal.Proofs.Fallible

/-!
Comparing data trees. Trees without real numbers are compared by a function that can be evaluated.
-/

set_option autoImplicit false

namespace Clausal.Datum

mutual

/-- Whether two trees are the same. Real numbers are never taken to be the same. -/
def equals : Datum → Datum → Bool
  | .null, .null => true
  | .bool first, .bool second => first == second
  | .int first, .int second => first == second
  | .text first, .text second => first == second
  | .list first, .list second => itemsEqual first second
  | .map first, .map second => entriesEqual first second
  | .foreign first, .foreign second => first == second
  | _, _ => false

def itemsEqual : List Datum → List Datum → Bool
  | [], [] => true
  | first :: rest, second :: others => equals first second && itemsEqual rest others
  | _, _ => false

def entriesEqual : List (String × Datum) → List (String × Datum) → Bool
  | [], [] => true
  | (key, first) :: rest, (other, second) :: others =>
      key == other && equals first second && entriesEqual rest others
  | _, _ => false

end

mutual

theorem eq_of_equals (first second : Datum) (same : equals first second = true) : first = second := by
  unfold equals at same
  split at same
  · rfl
  · exact congrArg _ (eq_of_beq same)
  · exact congrArg _ (eq_of_beq same)
  · exact congrArg _ (eq_of_beq same)
  · exact congrArg _ (eq_of_itemsEqual _ _ same)
  · exact congrArg _ (eq_of_entriesEqual _ _ same)
  · exact congrArg _ (eq_of_beq same)
  · cases same

theorem eq_of_itemsEqual (first second : List Datum) (same : itemsEqual first second = true) :
    first = second := by
  unfold itemsEqual at same
  split at same
  · rfl
  · obtain ⟨head, tail⟩ := Bool.and_eq_true_iff.mp same
    rw [eq_of_equals _ _ head, eq_of_itemsEqual _ _ tail]
  · cases same

theorem eq_of_entriesEqual (first second : List (String × Datum)) (same : entriesEqual first second = true) :
    first = second := by
  unfold entriesEqual at same
  split at same
  · rfl
  · obtain ⟨head, tail⟩ := Bool.and_eq_true_iff.mp same
    obtain ⟨key, value⟩ := Bool.and_eq_true_iff.mp head
    rw [eq_of_beq key, eq_of_equals _ _ value, eq_of_entriesEqual _ _ tail]
  · cases same

end

theorem eq_ok_of_equals {ε : Type} {computation : Except ε Datum} {value : Datum}
    (same : computation.toOption.any (fun result => equals result value) = true) :
    computation = .ok value := by
  obtain ⟨result, rfl, equal⟩ := exists_of_any_toOption same
  rw [eq_of_equals _ _ equal]

end Clausal.Datum
