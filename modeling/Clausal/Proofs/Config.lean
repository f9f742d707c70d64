import Clausal.Config

/-!
Looking up settings: a key that begins with a step of its own leads along its steps.
-/

set_option autoImplicit false

namespace Clausal

/-- Whether the first step of a key stands at its very beginning. -/
def Datum.BeginsPlain (key : String) : Prop :=
  key.toList.head?.any (fun c => c ≠ '.' ∧ c ≠ '[') = true

instance (key : String) : Decidable (Datum.BeginsPlain key) :=
  inferInstanceAs (Decidable (_ = true))

theorem Datum.steps_ne_nil_of_plain {key : String} (plain : BeginsPlain key) : steps key ≠ [] := by
  unfold BeginsPlain at plain
  unfold steps
  cases letters : key.toList with
  | nil => simp [letters] at plain
  | cons c rest =>
      simp only [letters, List.head?_cons, Option.any_some, decide_eq_true_eq] at plain
      simp [plain]

theorem Datum.nodeAlong?_of_steps (tree : Datum) {key : String} {path : List String}
    (steps : Datum.steps key = path) (stepping : path ≠ []) :
    nodeAlong? key tree = node? path tree := by
  unfold nodeAlong?
  rw [steps]
  cases path with
  | nil => exact absurd rfl stepping
  | cons _ _ => rfl

theorem Datum.lookup_of_steps (tree : Datum) {key : String} {path : List String}
    (plain : BeginsPlain key) (steps : Datum.steps key = path) :
    tree.lookup key = node? path tree := by
  have along := nodeAlong?_of_steps tree steps (steps ▸ steps_ne_nil_of_plain plain)
  unfold BeginsPlain at plain
  unfold lookup
  split
  · next empty => simp [empty] at plain
  · next dotted => simp [dotted] at plain
  · exact along

theorem Config.getD_of_steps {config : Config} {key : String} (path : List String) {value : Datum}
    (fallback : Datum) (plain : Datum.BeginsPlain key) (steps : Datum.steps key = path)
    (found : Datum.node? path config.tree = some value) : config.getD key fallback = value := by
  rw [getD, get?, Datum.lookup_of_steps _ plain steps, found]
  rfl

end Clausal
