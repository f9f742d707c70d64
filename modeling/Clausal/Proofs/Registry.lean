import Clausal.Proofs.Environment
import Clausal.Proofs.Quantity
import Clausal.Registry

/-!
Registries that registration leads to. However often names are registered, the kinds that were there at the
beginning keep their place and everything but their name, and every name stands for a kind that is there.
-/

set_option autoImplicit false

namespace Clausal

namespace SolverKind

variable {kind : SolverKind}

theorem accepts_of_unlimited (unlimited : kind.maxWidth = none) (width : Int) :
    kind.accepts (.whole width) = true := by
  rw [accepts, unlimited]
  rfl

theorem accepts_of_limited {limit : Quantity} (limited : kind.maxWidth = some limit) (width : Quantity) :
    kind.accepts width = width.le limit := by
  rw [accepts, limited]
  rfl

end SolverKind

namespace Registry

variable {registry later : Registry} {name : String} {position : Nat} {kind : SolverKind}

/-- What new kinds and successful registrations make of the registry at the beginning. -/
inductive Reachable : Registry → Prop where
  | initial : Reachable initial
  | addKind {registry : Registry} (reached : Reachable registry) (kind : SolverKind) :
      Reachable (registry.addKind kind).1
  | register {registry later : Registry} {name : String} {position : Nat} (reached : Reachable registry)
      (standing : position < registry.kinds.length)
      (registered : registry.register name (.kind position) = .ok later) : Reachable later

theorem register_eq_ok_iff :
    registry.register name (.kind position) = .ok later ↔
      name ≠ automatic ∧
        later = ⟨registry.kinds.modify position fun kind => { kind with name },
          Assoc.insert name position registry.entries⟩ := by
  rw [register]
  split
  · next reserved => simp [reserved]
  · next free => simp [free, eq_comm]

theorem find_eq_ok_iff : registry.find name = .ok position ↔ registry.position? name = some position := by
  rw [find]
  cases registry.position? name <;> simp

theorem kindAt?_addKind (standing : registry.kindAt? position = some kind) (added : SolverKind) :
    (registry.addKind added).1.kindAt? position = some kind :=
  (List.getElem?_append_left (List.getElem?_eq_some_iff.mp standing).1).trans standing

theorem kindAt?_register (registered : registry.register name (.kind position) = .ok later) (other : Nat) :
    later.kindAt? other =
      (registry.kindAt? other).map fun kind => if position = other then { kind with name } else kind := by
  obtain ⟨_, rfl⟩ := register_eq_ok_iff.mp registered
  rw [kindAt?, kindAt?, List.getElem?_modify]
  split <;> cases registry.kinds[other]? <;> rfl

/-! Invariants. -/

/-- No name stands twice, and names stand for kinds that are there. -/
structure Sound (registry : Registry) : Prop where
  distinct : registry.names.Nodup
  standing : ∀ entry ∈ registry.entries, ∃ kind, registry.kindAt? entry.2 = some kind

theorem Reachable.sound (reachable : registry.Reachable) : registry.Sound := by
  induction reachable with
  | initial =>
      constructor
      · decide
      · simp [Registry.initial, kindAt?, backtrackingKind, randomWalkKind, implicationKind]
  | addKind _ added ih =>
      refine ⟨ih.distinct, fun entry member => ?_⟩
      obtain ⟨kind, standing⟩ := ih.standing entry member
      exact ⟨kind, kindAt?_addKind standing added⟩
  | @register registry later name position _ bound registered ih =>
      have kinds := kindAt?_register registered
      obtain ⟨_, rfl⟩ := register_eq_ok_iff.mp registered
      refine ⟨Assoc.nodup_keys_insert ih.distinct, fun entry member => ?_⟩
      rw [kinds]
      rcases Assoc.eq_or_mem_of_mem_insert member with rfl | old
      · exact ⟨_, congrArg _ (List.getElem?_eq_getElem bound)⟩
      · obtain ⟨kind, standing⟩ := ih.standing entry old
        exact ⟨_, congrArg _ standing⟩

/-- The kinds of the beginning stay where they are, with everything but their name. -/
theorem Reachable.kindAt?_builtin (reachable : registry.Reachable)
    (builtin : Registry.initial.kindAt? position = some kind) :
    ∃ name, registry.kindAt? position = some { kind with name } := by
  induction reachable with
  | initial => exact ⟨kind.name, builtin⟩
  | addKind _ added ih =>
      obtain ⟨name, standing⟩ := ih
      exact ⟨name, kindAt?_addKind standing added⟩
  | @register registry later given changed _ _ registered ih =>
      obtain ⟨name, standing⟩ := ih
      rw [kindAt?_register registered, standing]
      by_cases same : changed = position
      · exact ⟨given, by simp [same]⟩
      · exact ⟨name, by simp [same]⟩

end Registry

end Clausal
