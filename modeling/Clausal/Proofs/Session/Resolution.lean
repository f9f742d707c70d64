import Clausal.Proofs.Registry.History
import Clausal.Proofs.Session.Selection

/-!
Names of solvers in a session. Whatever was registered before, the automatic name is resolved to the solver
that suits the width best, and a name that was resolved once stands for itself from then on.
-/

set_option autoImplicit false

namespace Clausal.Session

variable {α β : Type} {session later : Session}

/-- A session registers what its registry does; a refused registration leaves it as it is. -/
theorem registry_run_register (session : Session) (name : String) (candidate : Candidate) :
    ((register name candidate).run session).2.registry = session.registry.after (.register name candidate) := by
  rw [register, run_bind_of_ok _ (run_get session), Registry.after]
  dsimp only
  cases registered : session.registry.register name candidate with
  | error fault =>
      have refused : (orFail Fault.registration (Except.error fault : Except _ Registry)).run session =
          (.error (.registration fault), session) := rfl
      rw [run_bind_of_error _ refused]
  | ok registry =>
      have answered : (orFail Fault.registration (Except.ok registry)).run session = (.ok registry, session) :=
        rfl
      rw [run_bind_of_ok _ answered]
      split
      · obtain ⟨files, errors, logged⟩ := run_logAll
          [⟨"satengine.solvers.registry", Logging.warning,
            "Overriding existing solver registration for '" ++ name ++ "'"⟩] session
        rw [log, run_bind_of_ok _ logged]
        rfl
      · rfl

/-- The last step of every resolution. -/
theorem find_of_run_orFail_find {chosen name : String}
    (ran : (do let _ ← orFail Fault.unknownSolver ((← get).registry.find chosen); return chosen :
      Action String).run session = (.ok name, later)) :
    later = session ∧ ∃ position, session.registry.find name = .ok position := by
  rw [run_bind_of_ok _ (run_get session)] at ran
  obtain ⟨position, between, found, answered⟩ := exists_of_run_bind_eq_ok ran
  obtain ⟨registered, rfl⟩ := eq_of_run_orFail_eq_ok found
  cases answered
  exact ⟨rfl, position, registered⟩

/-- Whatever name is resolved, it is registered; at most something is logged on the way. -/
theorem exists_find_of_run_resolve {requested : Option Datum} {width : Option Quantity} {name : String}
    (ran : (resolve requested width).run session = (.ok name, later)) :
    (∃ files errors, later = { session with files, errors }) ∧
      ∃ position, session.registry.find name = .ok position := by
  unfold resolve at ran
  rw [run_bind_of_ok _ (run_get session)] at ran
  dsimp only at ran
  split at ran
  · next asked _ =>
      split at ran
      · split at ran
        · cases ran
        · next width =>
            obtain ⟨selected, between, choice, logging⟩ := exists_of_run_bind_eq_ok ran
            rw [run_select] at choice
            obtain ⟨_, rfl⟩ := Prod.mk.inj choice
            obtain ⟨files, errors, logged⟩ := run_logAll [selectionRecord width selected] session
            rw [log, ← selectionRecord, run_bind_of_ok _ logged, pure_bind] at logging
            obtain ⟨rfl, position, found⟩ := find_of_run_orFail_find logging
            exact ⟨⟨files, errors, rfl⟩, position, found⟩
      · rw [pure_bind] at ran
        obtain ⟨rfl, registered⟩ := find_of_run_orFail_find ran
        exact ⟨⟨_, _, rfl⟩, registered⟩
  · rw [run_bind_of_ok _ (run_get session)] at ran
    cases ran

/-- A name that was resolved is registered and stands for itself; a solver of its kind is made of it. -/
structure Settled (session : Session) (name : String) : Prop where
  registered : name ∈ session.registry.names
  ordinary : name ≠ automatic
  resolved : (resolve (some (.text name)) none).run session = (.ok name, session)
  creates : ∃ position kind, session.registry.position? name = some position ∧
    session.registry.kindAt? position = some kind ∧
    ∀ arguments, (createSolver (some (.text name)) none arguments).run session =
      ((Solver.create session.config position kind arguments).mapError .solver, session)

theorem settled_of_find {requests : List Registry.Request} {name : String} {position : Nat}
    (history : Registry.History requests session.registry)
    (found : session.registry.find name = .ok position) : session.Settled name := by
  have member := Registry.mem_entries_of_find found
  have registered : name ∈ session.registry.names := List.mem_map_of_mem member
  have ordinary : name ≠ automatic := fun same => history.automatic_not_mem_names (same ▸ registered)
  have resolved := run_resolve_named ordinary found none
  have sound := history.reachable.sound
  obtain ⟨kind, standing⟩ := sound.standing _ member
  refine ⟨registered, ordinary, resolved, position, kind, Assoc.get?_of_mem sound.distinct member, standing,
    fun arguments => ?_⟩
  have chosen : (orFail Fault.unknownSolver (session.registry.find name)).run session =
      (.ok position, session) := by
    rw [run_orFail, found]
    rfl
  rw [createSolver, run_bind_of_ok _ resolved, run_bind_of_ok _ (run_get session), run_bind_of_ok _ chosen,
    makeSolver, run_bind_of_ok _ (run_kindOf standing), run_bind_of_ok _ (run_get session), run_orFail]

/-- Whatever was registered, overridden or refused before: no complete kind that accepts a width is passed
over, the one selected has the narrowest limit and stands first among those that share it, its limit grows
with the width, and whatever a name is resolved to stands for itself from then on. -/
theorem selection_over_histories {requests : List Registry.Request} (session : Session)
    (history : Registry.History requests session.registry) :
    (∀ name candidate, (Registry.Request.register name candidate).Possible session.registry →
      Registry.History (requests ++ [.register name candidate])
        ((register name candidate).run session).2.registry) ∧
    session.registry.names = ((Registry.registrations requests).map Prod.fst).eraseDups ∧
    (∀ name, session.registry.position? name =
      Registry.lastPosition? name (Registry.registrations requests)) ∧
    automatic ∉ session.registry.names ∧
    (∀ (width : Int) fault, result (select (.whole width)) session = .error fault ↔
      (¬ ∃ name kind, session.registry.Suits (.whole width) name kind) ∧
        fault = .unknownSolver ⟨automatic, session.registry.names⟩) ∧
    (∀ (width : Int) name, result (select (.whole width)) session = .ok name ↔
      ∃ kind, session.registry.Chosen (.whole width) name kind) ∧
    (∀ (narrow wide : Int) name kind wider widerKind, narrow ≤ wide →
      session.registry.Chosen (.whole narrow) name kind →
      session.registry.Chosen (.whole wide) wider widerKind →
      LimitAtMost kind.maxWidth widerKind.maxWidth) ∧
    (∀ requested width name later, (resolve requested width).run session = (.ok name, later) →
      later.registry = session.registry ∧ later.Settled name) := by
  have sound := history.reachable.sound
  refine ⟨fun name candidate possible => ?_, history.names_eq, history.position?_eq,
    history.automatic_not_mem_names, fun width fault => ?_, fun width name => ?_,
    fun narrow wide name kind wider widerKind below => ?_, fun requested width name later ran => ?_⟩
  · rw [registry_run_register]
    exact history.step possible
  · rw [result, run_select, mapError_eq_error_iff]
    constructor
    · rintro ⟨cause, refused, rfl⟩
      obtain ⟨none, rfl⟩ := sound.select_eq_error_iff.mp refused
      exact ⟨none, rfl⟩
    · rintro ⟨none, rfl⟩
      exact ⟨_, sound.select_eq_error_iff.mpr ⟨none, rfl⟩, rfl⟩
  · rw [result, run_select, mapError_eq_ok_iff]
    exact sound.select_eq_ok_iff
  · exact Registry.Chosen.limitAtMost (Quantity.le_whole.trans (decide_eq_true below))
  · obtain ⟨⟨files, errors, rfl⟩, position, found⟩ := exists_find_of_run_resolve ran
    exact ⟨rfl, settled_of_find history found⟩

/-- Two requests are refused, a narrow complete kind comes in, and an incomplete one takes over the name of the
solver for narrow clauses. -/
theorem selection_over_histories_overridden :
    let requests : List Registry.Request :=
      [
        .define ⟨.custom, "base", some (.whole 3), true⟩,
        .define ⟨.custom, "base", some (.whole 1), false⟩,
        .register automatic (.kind 3),
        .register "wide" (.other "<class 'dict'>"),
        .register "wide" (.kind 3),
        .register Registry.implicationName (.kind 4)
      ]
    let session : Session := { registry := requests.foldl Registry.after Registry.initial }
    Registry.History requests session.registry ∧
      session.registry.names = ["dpll", "random_walk", "2sat", "wide"] ∧
      (∃ kind, session.registry.Chosen (.whole 2) "wide" kind) ∧
      (∃ kind, session.registry.Chosen (.whole 4) "dpll" kind) ∧
      ∃ later, (resolve (some (.text automatic)) (some (.whole 2))).run session = (.ok "wide", later) ∧
        later.Settled "wide" := by
  intro requests session
  have history : Registry.History requests session.registry :=
    ((((((Registry.History.initial).step (by decide)).step (by decide)).step (by decide)).step
      (by decide)).step (by decide)).step (by decide)
  obtain ⟨_, names, _, _, _, selected, _, settled⟩ := selection_over_histories session history
  have resolved : (resolve (some (.text automatic)) (some (.whole 2))).run session =
      (.ok "wide", ((resolve (some (.text automatic)) (some (.whole 2))).run session).2) := by
    rfl
  refine ⟨history, names.trans (by decide), ?_, ?_, _, resolved, (settled _ _ _ _ resolved).2⟩
  · exact (selected 2 "wide").mp rfl
  · exact (selected 4 "dpll").mp rfl

end Clausal.Session
