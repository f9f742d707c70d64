import Clausal.Proofs.Assoc
import Clausal.Proofs.Session.Dispatch
import Mathlib.Data.List.TakeWhile

/-!
Configuring solvers. Parameters are set one after another up to the first that the solver does not have.
Those in front of it stay set, and nothing else changes.
-/

set_option autoImplicit false

namespace Clausal.Solver

variable {solver : Solver} {kind : SolverKind} {key : String} {value : Datum}
  {parameters : List (String × Datum)}

theorem kind_set (solver : Solver) (key : String) (value : Datum) :
    (solver.set key value).kind = solver.kind := by
  unfold set
  split <;> rfl

theorem property?_set (solver : Solver) (kind : SolverKind) (key other : String) (value : Datum) :
    (solver.set key value).property? kind other =
      if key = other then some value else solver.property? kind other := by
  by_cases named : key = statisticsKey
  · subst named
    by_cases same : statisticsKey = other
    · simp [set, property?, same]
    · simp [set, property?, same, Ne.symm same]
  · by_cases same : key = other
    · subst same
      simp [set, property?, named, Assoc.get?_insert]
    · simp [set, property?, named, same, Assoc.get?_insert]

theorem configurable_eq_false_iff :
    solver.configurable kind key = false ↔
      key.toList.head? = some '_' ∨
        solver.property? kind key = none ∧ key ∉ kind.algorithm.operations := by
  rw [configurable, Bool.and_eq_false_iff]
  simp

/-- What is set had a value or was an operation, so that nothing is new to the solver afterwards. -/
theorem configurable_set (configurable : solver.configurable kind key = true) (value : Datum)
    (other : String) :
    (solver.set key value).configurable kind other = solver.configurable kind other := by
  by_cases same : key = other
  · subst same
    rw [configurable]
    rw [Solver.configurable, Bool.and_eq_true] at configurable ⊢
    refine ⟨configurable.1, ?_⟩
    rw [property?_set, if_pos rfl]
    rfl
  · rw [Solver.configurable, property?_set, if_neg same]
    rfl

/-- The parameters in front of the first that the solver does not have. -/
def taken (kind : SolverKind) (solver : Solver) (parameters : List (String × Datum)) :
    List (String × Datum) :=
  parameters.takeWhile fun parameter => solver.configurable kind parameter.1

theorem nodup_keys_taken (distinct : (Assoc.keys parameters).Nodup) :
    (Assoc.keys (taken kind solver parameters)).Nodup :=
  distinct.sublist ((List.takeWhile_sublist _).map Prod.fst)

/-- The solver with each parameter set, from first to last. -/
def setEach (solver : Solver) (parameters : List (String × Datum)) : Solver :=
  parameters.foldl (fun solver parameter => solver.set parameter.1 parameter.2) solver

theorem kind_setEach (solver : Solver) (parameters : List (String × Datum)) :
    (solver.setEach parameters).kind = solver.kind := by
  induction parameters generalizing solver with
  | nil => rfl
  | cons parameter rest ih =>
      obtain ⟨key, value⟩ := parameter
      exact (ih _).trans (kind_set solver key value)

theorem property?_setEach_of_not_mem (solver : Solver) (kind : SolverKind)
    (absent : key ∉ Assoc.keys parameters) :
    (solver.setEach parameters).property? kind key = solver.property? kind key := by
  induction parameters generalizing solver with
  | nil => rfl
  | cons parameter rest ih =>
      obtain ⟨first, value⟩ := parameter
      obtain ⟨different, absent⟩ := not_or.mp (mt List.mem_cons.mpr absent)
      calc
        (setEach (solver.set first value) rest).property? kind key
            = (solver.set first value).property? kind key := ih _ absent
        _ = solver.property? kind key := by rw [property?_set, if_neg (Ne.symm different)]

theorem property?_setEach_of_mem (solver : Solver) (kind : SolverKind)
    (distinct : (Assoc.keys parameters).Nodup) (member : (key, value) ∈ parameters) :
    (solver.setEach parameters).property? kind key = some value := by
  induction parameters generalizing solver with
  | nil => cases member
  | cons parameter rest ih =>
      obtain ⟨absent, distinct⟩ := List.nodup_cons.mp distinct
      cases member with
      | head =>
          refine (property?_setEach_of_not_mem _ kind absent).trans ?_
          rw [property?_set, if_pos rfl]
      | tail _ later => exact ih _ distinct later

/-- Which parameters count as unknown is settled before any of them is set. -/
theorem configure_eq (kind : SolverKind) (solver : Solver) (parameters : List (String × Datum)) :
    configure kind solver parameters =
      (solver.setEach (taken kind solver parameters),
        (parameters.find? fun parameter => !solver.configurable kind parameter.1).map fun parameter =>
          .unknownParameter
            ((solver.setEach (taken kind solver parameters)).property kind "solver_name").plain
            parameter.1) := by
  induction parameters generalizing solver with
  | nil => rfl
  | cons parameter rest ih =>
      obtain ⟨key, value⟩ := parameter
      by_cases known : solver.configurable kind key = true
      · have others := configurable_set known value
        have front : taken kind solver ((key, value) :: rest) =
            (key, value) :: taken kind (solver.set key value) rest := by
          simp [taken, known, others]
        rw [configure, if_pos known, ih, front]
        simp [known, others, setEach]
      · have front : taken kind solver ((key, value) :: rest) = [] := by simp [taken, known]
        rw [configure, if_neg known, front]
        simp [known, setEach]

theorem taken_eq_of_find?_eq_none
    (known : (parameters.find? fun parameter => !solver.configurable kind parameter.1) = none) :
    taken kind solver parameters = parameters := by
  refine List.takeWhile_eq_self_iff.mpr fun parameter member => ?_
  simpa using List.find?_eq_none.mp known parameter member

theorem exists_of_find?_eq_some
    (refused : (parameters.find? fun parameter => !solver.configurable kind parameter.1) =
      some (key, value)) :
    ∃ rest, parameters = taken kind solver parameters ++ (key, value) :: rest ∧
      solver.configurable kind key = false := by
  obtain ⟨unknown, front, rest, split, known⟩ := List.find?_eq_some_iff_append.mp refused
  have unknown : solver.configurable kind key = false := by simpa using unknown
  have whole : taken kind solver parameters = front := by
    rw [taken, split, List.takeWhile_append_of_pos fun parameter member => by simpa using known parameter member]
    simp [unknown]
  exact ⟨rest, whole ▸ split, unknown⟩

/-- The parameters in front of the first unknown one are set to the values given, and no other property
changes. Without an unknown parameter these are all of them; otherwise the first unknown one is reported. -/
theorem configure_sets_taken_parameters (kind : SolverKind) (solver : Solver)
    (parameters : List (String × Datum)) (distinct : (Assoc.keys parameters).Nodup) :
    ∃ configured fault?, configure kind solver parameters = (configured, fault?) ∧
      configured.kind = solver.kind ∧
      (∀ key value, (key, value) ∈ taken kind solver parameters →
        configured.property? kind key = some value) ∧
      (∀ key, key ∉ Assoc.keys (taken kind solver parameters) →
        configured.property? kind key = solver.property? kind key) ∧
      (taken kind solver parameters = parameters ∧ fault? = none ∨
        ∃ key value rest fault, parameters = taken kind solver parameters ++ (key, value) :: rest ∧
          (key.toList.head? = some '_' ∨
            solver.property? kind key = none ∧ key ∉ kind.algorithm.operations) ∧
          fault? = some fault ∧
          fault = .unknownParameter (configured.property kind "solver_name").plain key ∧
          (Session.Fault.solver fault).kind = "ValueError") := by
  refine ⟨_, _, configure_eq kind solver parameters, kind_setEach _ _,
    fun key value member => property?_setEach_of_mem solver kind (nodup_keys_taken distinct) member,
    fun key absent => property?_setEach_of_not_mem solver kind absent, ?_⟩
  cases refused : parameters.find? fun parameter => !solver.configurable kind parameter.1 with
  | none => exact .inl ⟨taken_eq_of_find?_eq_none refused, rfl⟩
  | some parameter =>
      obtain ⟨key, value⟩ := parameter
      obtain ⟨rest, split, unknown⟩ := exists_of_find?_eq_some refused
      exact .inr ⟨key, value, rest, _, split, configurable_eq_false_iff.mp unknown, rfl, rfl, rfl⟩

theorem configure_sets_taken_parameters_refused :
    (Assoc.keys [("complete_assignment", Datum.bool false), ("nope", .int 1)]).Nodup ∧
      ∃ configured fault,
        configure Session.searchKind Session.searchSolver
            [("complete_assignment", .bool false), ("nope", .int 1)] = (configured, some fault) ∧
          configured.property? Session.searchKind "complete_assignment" = some (.bool false) ∧
          fault.message = "Unknown configuration parameter for dpll: nope" := by
  obtain ⟨configured, fault?, ran, _, set, _⟩ := configure_sets_taken_parameters
    Session.searchKind Session.searchSolver
    [("complete_assignment", .bool false), ("nope", .int 1)] (by decide)
  have found : configured.property? Session.searchKind "complete_assignment" = some (.bool false) :=
    set _ _ (.head _)
  cases ran
  exact ⟨by decide, _, _, rfl, found, by decide⟩

/-- Either all parameters are set and there is no fault, or there is one and no property changes. -/
def AllOrNothing (kind : SolverKind) (solver : Solver) (parameters : List (String × Datum)) : Prop :=
  ((configure kind solver parameters).2 = none ∧
    ∀ key value, (key, value) ∈ parameters →
      (configure kind solver parameters).1.property? kind key = some value) ∨
  ((configure kind solver parameters).2 ≠ none ∧
    ∀ key, (configure kind solver parameters).1.property? kind key = solver.property? kind key)

theorem allOrNothing_iff (kind : SolverKind) (solver : Solver)
    (distinct : (Assoc.keys parameters).Nodup) :
    AllOrNothing kind solver parameters ↔
      taken kind solver parameters = parameters ∨
        ∀ key value, (key, value) ∈ taken kind solver parameters →
          solver.property? kind key = some value := by
  have set : ∀ key value, (key, value) ∈ taken kind solver parameters →
      (solver.setEach (taken kind solver parameters)).property? kind key = some value :=
    fun key value member => property?_setEach_of_mem solver kind (nodup_keys_taken distinct) member
  rw [AllOrNothing, configure_eq]
  cases refused : parameters.find? fun parameter => !solver.configurable kind parameter.1 with
  | none =>
      have whole := taken_eq_of_find?_eq_none refused
      refine iff_of_true (.inl ⟨rfl, fun key value member => set key value ?_⟩) (.inl whole)
      rwa [whole]
  | some parameter =>
      obtain ⟨unknown, ignored⟩ := parameter
      obtain ⟨rest, split, _⟩ := exists_of_find?_eq_some refused
      constructor
      · intro either
        cases either with
        | inl none => exact nomatch none.1
        | inr unchanged =>
            refine .inr fun key value member => ?_
            rw [← unchanged.2 key]
            exact set key value member
      · intro either
        refine .inr ⟨fun none => (nomatch none), fun key => ?_⟩
        cases either with
        | inl whole =>
            have longer := congrArg List.length split
            rw [whole, List.length_append, List.length_cons] at longer
            omega
        | inr standing =>
            by_cases listed : key ∈ Assoc.keys (taken kind solver parameters)
            · obtain ⟨⟨_, value⟩, member, rfl⟩ := List.mem_map.mp listed
              rw [standing _ value member]
              exact set _ value member
            · exact property?_setEach_of_not_mem solver kind listed

theorem not_allOrNothing_of_later_unknown :
    create Config.default Registry.backtrackingKind Session.searchKind [] = .ok Session.searchSolver ∧
      ¬ AllOrNothing Session.searchKind Session.searchSolver
        [("complete_assignment", .bool false), ("nope", .int 1)] := by
  refine ⟨rfl, fun either => ?_⟩
  cases either with
  | inl set => exact nomatch set.1
  | inr unchanged => exact nomatch unchanged.2 "complete_assignment"

end Clausal.Solver
