import Clausal.Proofs.Registry

/-!
Histories of registries: all requests that led to a registry, the refused ones among them. A registry is the
table of the registrations that went through. A name stands for the kind that was last registered under it,
and a kind bears the name under which it was last registered; nothing keeps these two in step.
-/

set_option autoImplicit false

namespace Clausal.Registry

/-- A kind of solver comes up, or a candidate is offered under a name. -/
inductive Request where
  | define (kind : SolverKind)
  | register (name : String) (candidate : Candidate)

namespace Request

/-- What is offered is no kind of solver, or it is one that is there. -/
def Possible (registry : Registry) : Request → Prop
  | .register _ (.kind position) => position < registry.kinds.length
  | _ => True

instance (registry : Registry) : (request : Request) → Decidable (request.Possible registry)
  | .define _ => inferInstanceAs (Decidable True)
  | .register _ (.other _) => inferInstanceAs (Decidable True)
  | .register _ (.kind position) => inferInstanceAs (Decidable (position < registry.kinds.length))

/-- The name and the position that a request registers; refused requests register nothing. -/
def registration? : Request → Option (String × Nat)
  | .register name (.kind position) => if name = automatic then none else some (name, position)
  | _ => none

end Request

/-- The registry after a request. A registration that is refused leaves it as it is. -/
def after (registry : Registry) : Request → Registry
  | .define kind => (registry.addKind kind).1
  | .register name candidate =>
      match registry.register name candidate with
      | .ok later => later
      | .error _ => registry

/-- The requests, from first to last, that led to a registry. -/
inductive History : List Request → Registry → Prop where
  | initial : History [] initial
  | step {requests : List Request} {registry : Registry} {request : Request}
      (history : History requests registry) (possible : request.Possible registry) :
      History (requests ++ [request]) (registry.after request)

/-- The registrations that went through, behind those that were there at the beginning. -/
def registrations (requests : List Request) : List (String × Nat) :=
  initial.entries ++ requests.filterMap Request.registration?

/-- The kind that was last registered under a name. -/
def lastPosition? (name : String) (registrations : List (String × Nat)) : Option Nat :=
  Assoc.lastValue? name registrations

/-- The name under which a kind was last registered. -/
def lastName? (position : Nat) (registrations : List (String × Nat)) : Option String :=
  Assoc.lastValue? position (registrations.map Prod.swap)

variable {registry later : Registry} {request : Request} {requests : List Request} {name : String}
  {position : Nat} {kind : SolverKind}

theorem registrations_concat (requests : List Request) (request : Request) :
    registrations (requests ++ [request]) = registrations requests ++ request.registration?.toList := by
  rw [registrations, List.filterMap_append, ← List.append_assoc, registrations, List.filterMap_cons]
  cases request.registration? <;> rfl

theorem registrations_of_none (none : request.registration? = none) :
    registrations (requests ++ [request]) = registrations requests := by
  rw [registrations_concat, none, Option.toList_none, List.append_nil]

theorem registrations_of_some (some : request.registration? = some (name, position)) :
    registrations (requests ++ [request]) = registrations requests ++ [(name, position)] := by
  rw [registrations_concat, some, Option.toList_some]

theorem lastName?_concat (registrations : List (String × Nat)) (given : String) (changed position : Nat) :
    lastName? position (registrations ++ [(given, changed)]) =
      if changed = position then some given else lastName? position registrations := by
  rw [lastName?, List.map_append]
  exact Assoc.lastValue?_concat _ changed position given

theorem mem_of_lastName? {registrations : List (String × Nat)}
    (last : lastName? position registrations = some name) : (name, position) ∈ registrations := by
  obtain ⟨⟨_, _⟩, member, swapped⟩ := List.mem_map.mp (Assoc.mem_of_lastValue?_eq_some last)
  cases swapped
  exact member

/-- All that a request can do. -/
theorem after_cases (registry : Registry) (request : Request) :
    (∃ kind, request.registration? = none ∧ registry.after request = (registry.addKind kind).1) ∨
      (request.registration? = none ∧ registry.after request = registry) ∨
      ∃ name position, request = .register name (.kind position) ∧
        request.registration? = some (name, position) ∧
        registry.register name (.kind position) = .ok (registry.after request) := by
  cases request with
  | define kind => exact .inl ⟨kind, rfl, rfl⟩
  | register name candidate =>
      cases candidate with
      | other shown => exact .inr (.inl ⟨rfl, rfl⟩)
      | kind position =>
          by_cases reserved : name = automatic
          · exact .inr (.inl ⟨if_pos reserved, by rw [after, register, if_pos reserved]⟩)
          · refine .inr (.inr ⟨name, position, rfl, if_neg reserved, ?_⟩)
            rw [after, register, if_neg reserved]

namespace History

theorem reachable (history : History requests registry) : registry.Reachable := by
  induction history with
  | initial => exact .initial
  | @step requests registry request _ possible ih =>
      rcases registry.after_cases request with ⟨kind, _, grown⟩ | ⟨_, same⟩ |
        ⟨name, position, rfl, _, registered⟩
      · exact grown.symm ▸ ih.addKind kind
      · exact same.symm ▸ ih
      · exact ih.register possible registered

theorem entries_eq (history : History requests registry) :
    registry.entries = Assoc.ofList (registrations requests) := by
  induction history with
  | initial => rfl
  | @step requests registry request _ _ ih =>
      rcases registry.after_cases request with ⟨kind, none, grown⟩ | ⟨none, same⟩ |
        ⟨name, position, _, one, registered⟩
      · rw [registrations_of_none none, grown, ← ih]
        rfl
      · rw [registrations_of_none none, same, ih]
      · obtain ⟨_, made⟩ := register_eq_ok_iff.mp registered
        rw [registrations_of_some one, made, ih, Assoc.ofList_concat]

/-- A name keeps the place at which it first came. -/
theorem names_eq (history : History requests registry) :
    registry.names = ((registrations requests).map Prod.fst).eraseDups := by
  rw [names, history.entries_eq, Assoc.keys_ofList]

theorem position?_eq (history : History requests registry) (name : String) :
    registry.position? name = lastPosition? name (registrations requests) := by
  rw [position?, history.entries_eq, Assoc.get?_ofList, lastPosition?]

theorem automatic_not_mem_names (history : History requests registry) : automatic ∉ registry.names := by
  induction history with
  | initial => decide
  | @step requests registry request _ _ ih =>
      rcases registry.after_cases request with ⟨kind, _, grown⟩ | ⟨_, same⟩ |
        ⟨name, position, _, _, registered⟩
      · rwa [grown]
      · rwa [same]
      · obtain ⟨free, made⟩ := register_eq_ok_iff.mp registered
        rw [made, names, Assoc.mem_keys_insert]
        rintro (reserved | before)
        · exact free reserved.symm
        · exact ih before

theorem lt_length_of_mem (history : History requests registry) {registration : String × Nat}
    (member : registration ∈ registrations requests) : registration.2 < registry.kinds.length := by
  induction history with
  | initial =>
      have bounded : ∀ entry ∈ registrations [], entry.2 < Registry.initial.kinds.length := by decide
      exact bounded _ member
  | @step requests registry request _ possible ih =>
      rcases registry.after_cases request with ⟨kind, none, grown⟩ | ⟨none, same⟩ |
        ⟨name, position, rfl, one, registered⟩
      · rw [registrations_of_none none] at member
        rw [grown, addKind, List.length_append]
        exact Nat.lt_add_right _ (ih member)
      · rw [registrations_of_none none] at member
        rw [same]
        exact ih member
      · obtain ⟨_, made⟩ := register_eq_ok_iff.mp registered
        rw [made, List.length_modify]
        rw [registrations_of_some one] at member
        rcases List.mem_append.mp member with before | new
        · exact ih before
        · cases List.mem_singleton.mp new
          exact possible

theorem name_eq (history : History requests registry) (standing : registry.kindAt? position = some kind)
    (last : lastName? position (registrations requests) = some name) : kind.name = name := by
  induction history generalizing kind name with
  | initial =>
      have borne : ∀ kind ∈ Registry.initial.kindAt? position,
          ∀ name ∈ lastName? position (registrations []), kind.name = name := by
        match position with
        | 0 | 1 | 2 => simp [Registry.initial, kindAt?]; decide
        | _ + 3 => simp [Registry.initial, kindAt?]
      exact borne kind standing name last
  | @step requests registry request history possible ih =>
      rcases registry.after_cases request with ⟨added, none, grown⟩ | ⟨none, same⟩ |
        ⟨given, changed, _, one, registered⟩
      · -- The new kind was not registered yet, so that the position is that of another one.
        rw [registrations_of_none none] at last
        have old := List.getElem?_eq_getElem (history.lt_length_of_mem (mem_of_lastName? last))
        rw [grown, kindAt?_addKind old added] at standing
        exact ih (old.trans standing) last
      · rw [registrations_of_none none] at last
        rw [same] at standing
        exact ih standing last
      · rw [kindAt?_register registered] at standing
        obtain ⟨old, oldStanding, rfl⟩ := Option.map_eq_some_iff.mp standing
        rw [registrations_of_some one, lastName?_concat] at last
        by_cases same : changed = position
        · rw [if_pos same] at last ⊢
          exact Option.some.inj last
        · rw [if_neg same] at last ⊢
          exact ih oldStanding last

end History

end Clausal.Registry
