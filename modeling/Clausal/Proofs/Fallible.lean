/-!
Computations that can fail: what the success of a compound computation says of its parts.
-/

set_option autoImplicit false

namespace Clausal

variable {ε δ α β : Type}

theorem bind_eq_ok {computation : Except ε α} {next : α → Except ε β} {result : β}
    (succeeded : computation >>= next = .ok result) :
    ∃ value, computation = .ok value ∧ next value = .ok result := by
  cases computation with
  | error fault => cases succeeded
  | ok value => exact ⟨value, rfl, succeeded⟩

theorem bind_eq_error {computation : Except ε α} {next : α → Except ε β} {fault : ε}
    (failed : computation >>= next = .error fault) :
    computation = .error fault ∨ ∃ value, computation = .ok value ∧ next value = .error fault := by
  cases computation with
  | error found =>
      cases failed
      exact .inl rfl
  | ok value => exact .inr ⟨value, rfl, failed⟩

theorem exists_of_isSome_toOption {computation : Except ε α} (succeeds : computation.toOption.isSome = true) :
    ∃ value, computation = .ok value := by
  cases computation with
  | error fault => cases succeeds
  | ok value => exact ⟨value, rfl⟩

theorem exists_of_any_toOption {computation : Except ε α} {test : α → Bool}
    (passes : computation.toOption.any test = true) : ∃ value, computation = .ok value ∧ test value = true := by
  cases computation with
  | error fault => cases passes
  | ok value => exact ⟨value, rfl, passes⟩

theorem map_eq_ok_iff {computation : Except ε α} {change : α → β} {result : β} :
    computation.map change = .ok result ↔ ∃ value, computation = .ok value ∧ change value = result := by
  cases computation with
  | error fault => simp [Except.map]
  | ok value => simp [Except.map]

theorem mapError_eq_ok_iff {change : ε → δ} {computation : Except ε α} {value : α} :
    computation.mapError change = .ok value ↔ computation = .ok value := by
  cases computation with
  | error fault => exact ⟨nofun, nofun⟩
  | ok found =>
      constructor <;>
        · intro same
          cases same
          rfl

theorem mapError_eq_error_iff {change : ε → δ} {computation : Except ε α} {fault : δ} :
    computation.mapError change = .error fault ↔ ∃ cause, computation = .error cause ∧ change cause = fault := by
  constructor
  · intro failed
    cases computation with
    | error cause => exact ⟨cause, rfl, Except.error.inj failed⟩
    | ok found => cases failed
  · rintro ⟨cause, rfl, rfl⟩
    rfl

/-- Changes the fault or the result, whichever there is. -/
def mapBoth (onFault : ε → δ) (onResult : α → β) : Except ε α → Except δ β
  | .error fault => .error (onFault fault)
  | .ok value => .ok (onResult value)

theorem mapBoth_bind {onFault : ε → ε} {onValue : α → α} {onResult : β → β}
    {next changedNext : α → Except ε β} (computation : Except ε α)
    (same : ∀ value, changedNext (onValue value) = mapBoth onFault onResult (next value)) :
    mapBoth onFault onValue computation >>= changedNext =
      mapBoth onFault onResult (computation >>= next) := by
  cases computation with
  | error fault => rfl
  | ok value => exact same value

/-- A list through which nothing fails. -/
theorem mapM_eq_pure {m : Type → Type} [Monad m] [LawfulMonad m] {compute : α → m β} {result : α → β}
    {items : List α} (each : ∀ item ∈ items, compute item = pure (result item)) :
    items.mapM compute = pure (items.map result) := by
  induction items with
  | nil => rfl
  | cons item rest ih =>
      obtain ⟨first, others⟩ := List.forall_mem_cons.mp each
      rw [List.mapM_cons, first, pure_bind, ih others, pure_bind, List.map_cons]

/-- The first item that fails decides. -/
theorem mapM_eq_error {compute : α → Except ε β} {before behind : List α} {item : α} {fault : ε}
    (each : ∀ earlier ∈ before, ∃ value, compute earlier = .ok value)
    (failed : compute item = .error fault) :
    (before ++ item :: behind).mapM compute = .error fault := by
  induction before with
  | nil =>
      rw [List.nil_append, List.mapM_cons, failed]
      rfl
  | cons earlier rest ih =>
      obtain ⟨⟨value, found⟩, others⟩ := List.forall_mem_cons.mp each
      rw [List.cons_append, List.mapM_cons, found, ih others]
      rfl

/-- A list fails with the fault of one of its items. -/
theorem exists_of_mapM_eq_error {compute : α → Except ε β} {items : List α} {fault : ε}
    (failed : items.mapM compute = .error fault) : ∃ item ∈ items, compute item = .error fault := by
  induction items with
  | nil => cases failed
  | cons item rest ih =>
      rw [List.mapM_cons] at failed
      rcases bind_eq_error failed with here | ⟨first, _, later⟩
      · exact ⟨item, List.mem_cons_self, here⟩
      · rcases bind_eq_error later with there | ⟨others, _, joined⟩
        · obtain ⟨source, listed, found⟩ := ih there
          exact ⟨source, List.mem_cons_of_mem item listed, found⟩
        · cases joined

/-- If a list does not fail, none of its items does. -/
theorem exists_of_mapM_eq_ok {compute : α → Except ε β} {items : List α} {results : List β}
    (succeeded : items.mapM compute = .ok results) :
    ∀ item ∈ items, ∃ value, compute item = .ok value := by
  induction items generalizing results with
  | nil => simp
  | cons item rest ih =>
      rw [List.mapM_cons] at succeeded
      obtain ⟨first, computed, later⟩ := bind_eq_ok succeeded
      obtain ⟨others, computedOthers, _⟩ := bind_eq_ok later
      exact List.forall_mem_cons.mpr ⟨⟨first, computed⟩, ih computedOthers⟩

theorem length_of_mapM_eq_ok {compute : α → Except ε β} {items : List α} {results : List β}
    (succeeded : items.mapM compute = .ok results) : results.length = items.length := by
  induction items generalizing results with
  | nil =>
      cases succeeded
      rfl
  | cons item rest ih =>
      rw [List.mapM_cons] at succeeded
      obtain ⟨value, _, succeeded⟩ := bind_eq_ok succeeded
      obtain ⟨values, others, same⟩ := bind_eq_ok succeeded
      cases same
      rw [List.length_cons, List.length_cons, ih others]

/-- What a list was mapped to comes from its items. -/
theorem exists_of_mem_mapM {compute : α → Option β} {items : List α} {results : List β}
    (computed : items.mapM compute = some results) {result : β} (member : result ∈ results) :
    ∃ item ∈ items, compute item = some result := by
  induction items generalizing results with
  | nil =>
      cases computed
      cases member
  | cons item rest ih =>
      rw [List.mapM_cons] at computed
      obtain ⟨first, computedFirst, computedRest⟩ := Option.bind_eq_some_iff.mp computed
      obtain ⟨others, computedOthers, joined⟩ := Option.bind_eq_some_iff.mp computedRest
      cases joined
      rcases List.mem_cons.mp member with rfl | later
      · exact ⟨item, List.mem_cons_self, computedFirst⟩
      · obtain ⟨source, listed, found⟩ := ih computedOthers later
        exact ⟨source, List.mem_cons_of_mem item listed, found⟩

end Clausal
