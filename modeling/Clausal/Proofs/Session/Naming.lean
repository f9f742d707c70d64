import Clausal.Proofs.Session.Resolution

/-!
The names that solvers bear. A solver reports the name under which its kind was last registered. That is the
name under which it was asked for unless its kind was registered under another name since.
-/

set_option autoImplicit false

namespace Clausal

namespace Solver

variable {solver : Solver} {kind : SolverKind} {config : Config} {position : Nat}
  {arguments : List (String × Datum)}

theorem get?_initialSettings_name (config : Config) (algorithm : Algorithm)
    (arguments : List (String × Datum)) :
    Assoc.get? "solver_name" (initialSettings config algorithm arguments) = none := by
  cases algorithm <;> rfl

/-- No argument gives a solver another name than that of its kind. -/
theorem freshStatistics_of_create (made : create config position kind arguments = .ok solver) :
    solver.freshStatistics kind = [("solver_name", .text kind.name)] := by
  have named : solver.property? kind "solver_name" = some (.text kind.name) := by
    rw [property?, if_neg (by decide), eq_of_create made, get?_initialSettings_name]
    rfl
  rw [freshStatistics, property, named, Option.getD_some]

theorem Run.head?_statisticsAfter {run : Run} {entry : String × Datum}
    (first : run.statistics.head? = some entry) (elapsed : Float) :
    (run.statisticsAfter elapsed).head? = some entry := by
  unfold statisticsAfter
  split
  · rw [List.head?_append, first, Option.some_or]
  · exact first

theorem Run.statistics_of_outcome {run : Run} {elapsed : Float} {outcome : Outcome}
    (answered : run.outcome elapsed = .ok outcome) : outcome.statistics = run.statisticsAfter elapsed := by
  unfold Run.outcome at answered
  cases found : run.result with
  | error fault =>
      rw [found] at answered
      cases answered
  | ok verdict =>
      rw [found] at answered
      cases answered
      rfl

/-- However a run ends, its statistics start with the name of the kind. -/
theorem head?_statistics_run (made : create config position kind arguments = .ok solver) (entropy : Int)
    (formula : Formula) :
    (solver.run kind entropy formula).statistics.head? = some ("solver_name", .text kind.name) := by
  have fresh := freshStatistics_of_create made
  unfold run
  split
  · rw [runDpll]
    simp only [fresh]
    rfl
  · unfold runTwoSat
    simp only [fresh]
    split
    · rfl
    · split <;> rfl
  · unfold runRandomWalk runWalk
    simp only [fresh]
    split
    · rfl
    · split
      · rfl
      · rfl
      · split <;> rfl
  · rw [eq_of_create made]
    rfl

end Solver

namespace Registry

variable {registry later : Registry} {requests : List Request} {name : String} {position : Nat}
  {kind : SolverKind}

theorem History.lastName?_eq (history : History requests registry)
    (member : (name, position) ∈ registrations requests)
    (standing : registry.kindAt? position = some kind) :
    lastName? position (registrations requests) = some kind.name := by
  obtain ⟨last, found⟩ := Assoc.exists_lastValue?_of_mem (List.mem_map_of_mem (f := Prod.swap) member)
  rw [history.name_eq standing found]
  exact found

theorem History.mem_names (history : History requests registry)
    (member : (name, position) ∈ registrations requests) : name ∈ registry.names := by
  rw [history.names_eq, List.mem_eraseDups]
  exact List.mem_map_of_mem member

/-- A kind that is registered under another name takes that name everywhere. -/
theorem kindNamed?_after_register {other : String} (free : other ≠ automatic)
    (found : registry.position? name = some position) (standing : registry.kindAt? position = some kind) :
    (registry.after (.register other (.kind position))).kindNamed? name =
      some { kind with name := other } := by
  have registered : registry.register other (.kind position) =
      .ok (registry.after (.register other (.kind position))) := by
    rw [after, register, if_neg free]
  have stays : (registry.after (.register other (.kind position))).position? name = some position := by
    obtain ⟨_, made⟩ := register_eq_ok_iff.mp registered
    rw [made, position?, Assoc.get?_insert]
    split
    · rfl
    · exact found
  rw [kindNamed?, stays, Option.bind_some, kindAt?_register registered, standing, Option.map_some,
    if_pos rfl]

end Registry

namespace Session

/-- A run of a solver that was made of a kind reports the name of the kind, in the solver's statistics and in
those of the outcome if there is one. -/
theorem exists_run_reporting {session : Session} {position : Nat} {kind : SolverKind}
    {arguments : List (String × Datum)} {solver : Solver}
    (standing : session.registry.kindAt? position = some kind)
    (made : Solver.create session.config position kind arguments = .ok solver) (formula : Formula) :
    ∃ ended answer later, (runSolver solver formula).run session = (.ok (ended, answer), later) ∧
      ended.statistics.entries.head? = some ("solver_name", .text kind.name) ∧
      ∀ outcome, answer = .ok outcome →
        outcome.statistics.head? = some ("solver_name", .text kind.name) := by
  have standingSolver : session.registry.kindAt? solver.kind = some kind := by
    rw [Solver.kind_of_create made]
    exact standing
  obtain ⟨files, errors, ran⟩ := run_runSolver standingSolver formula
  have reported := Solver.Run.head?_statisticsAfter
    (Solver.head?_statistics_run made session.entropy formula) session.elapsed
  refine ⟨_, _, _, ran, reported, fun outcome answered => ?_⟩
  rw [Solver.Run.statistics_of_outcome (mapError_eq_ok_iff.mp answered)]
  exact reported

/-- The kind that a name stands for bears the name under which it was registered last. That is the name itself
if the kind was registered under no other; one more registration of the kind renames it, whatever name it is
asked for by. Every run of a solver of the kind reports the name that the kind bears. -/
theorem runs_report_last_registration {requests : List Registry.Request} (session : Session)
    (history : Registry.History requests session.registry) {name : String}
    (listed : name ∈ session.registry.names) :
    ∃ position kind, session.registry.find name = .ok position ∧
      session.registry.kindAt? position = some kind ∧
      Registry.lastName? position (Registry.registrations requests) = some kind.name ∧
      kind.name ∈ session.registry.names ∧
      ((∀ other, (other, position) ∈ Registry.registrations requests → other = name) → kind.name = name) ∧
      (∀ other, other ≠ automatic →
        (session.registry.after (.register other (.kind position))).kindNamed? name =
          some { kind with name := other }) ∧
      ∀ arguments solver formula, Solver.create session.config position kind arguments = .ok solver →
        (createSolver (some (.text name)) none arguments).run session = (.ok solver, session) ∧
        ∃ ended answer later, (runSolver solver formula).run session = (.ok (ended, answer), later) ∧
          ended.statistics.entries.head? = some ("solver_name", .text kind.name) ∧
          ∀ outcome, answer = .ok outcome →
            outcome.statistics.head? = some ("solver_name", .text kind.name) := by
  have sound := history.reachable.sound
  obtain ⟨position, entry⟩ : ∃ position, (name, position) ∈ session.registry.entries := by
    simpa [Registry.names, Assoc.keys] using listed
  obtain ⟨kind, standing⟩ := sound.standing _ entry
  have found : session.registry.position? name = some position := Assoc.get?_of_mem sound.distinct entry
  have finds := Registry.find_eq_ok_iff.mpr found
  have registration : (name, position) ∈ Registry.registrations requests :=
    Assoc.mem_of_lastValue?_eq_some ((history.position?_eq name).symm.trans found)
  have last := history.lastName?_eq registration standing
  have lastRegistration := Registry.mem_of_lastName? last
  have ordinary : name ≠ automatic := fun same => history.automatic_not_mem_names (same ▸ listed)
  exact ⟨position, kind, finds, standing, last, history.mem_names lastRegistration,
    fun only => only _ lastRegistration,
    fun other free => Registry.kindNamed?_after_register free found standing,
    fun arguments solver formula made =>
      ⟨run_createSolver ordinary finds standing made, exists_run_reporting standing made formula⟩⟩

/-- The search is registered under a second name and reports it also when it is asked for by the first. -/
theorem runs_report_last_registration_twice :
    let requests : List Registry.Request :=
      [.register "other" (.kind Registry.backtrackingKind)]
    let session : Session := { registry := requests.foldl Registry.after Registry.initial }
    Registry.History requests session.registry ∧ "dpll" ∈ session.registry.names ∧
      ∃ kind solver, session.registry.kindNamed? "dpll" = some kind ∧ kind.name = "other" ∧
        (createSolver (some (.text "dpll")) none []).run session = (.ok solver, session) ∧
        ∃ ended answer later,
          (runSolver solver ⟨[]⟩).run session = (.ok (ended, answer), later) ∧
          ended.statistics.entries.head? = some ("solver_name", .text "other") := by
  intro requests session
  have history : Registry.History requests session.registry := Registry.History.initial.step (by decide)
  have listed : "dpll" ∈ session.registry.names := by decide
  obtain ⟨position, kind, found, standing, _, _, _, _, runs⟩ :=
    runs_report_last_registration session history listed
  cases found
  cases standing
  obtain ⟨solver, made⟩ := create_nil session.config Registry.backtrackingKind
    { Session.searchKind with name := "other" }
  obtain ⟨created, ended, answer, later, ran, reported, _⟩ := runs [] solver ⟨[]⟩ made
  exact ⟨history, listed, _, solver, rfl, rfl, created, ended, answer, later, ran, reported⟩

end Session

end Clausal
