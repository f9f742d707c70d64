import Clausal.Command
import Clausal.Proofs.Command.Arguments
import Clausal.Proofs.Session.Storage

/-!
Which solver a command line prepares for a document: the one that it names, or else the one that the width
of the document selects.
-/

set_option autoImplicit false

namespace Clausal.Command

open Session

variable {session : Session} {arguments : Arguments} {document : Dimacs.Document}

def walkKind : SolverKind := ⟨.randomWalk, Registry.randomWalkName, none, false⟩

def walkSolver (arguments : Arguments) (declared : Int) : Solver where
  kind := Registry.randomWalkKind
  settings :=
    [
      ("budget", (arguments.budget.map Datum.int).getD .null), ("budget_factor", .int 100),
      ("seed", (arguments.seed.map Datum.int).getD .null), ("num_variables", .int declared)
    ]
  statistics := .map [("solver_name", .text Registry.randomWalkName)]

theorem create_walk (arguments : Arguments) (declared : Int) :
    Solver.create .default Registry.randomWalkKind walkKind
      (solverArguments arguments Registry.randomWalkName declared) =
        .ok (walkSolver arguments declared) := by
  have factor : Config.default.getD "solver.random_walk.budget_factor" (.int 100) = .int 100 :=
    Config.getD_of_steps ["solver", "random_walk", "budget_factor"] _ (by decide) (by decide +kernel) rfl
  have seed : Config.default.getD "solver.random_walk.seed" .null = .null :=
    Config.getD_of_steps ["solver", "random_walk", "seed"] _ (by decide) (by decide +kernel) rfl
  have accepted : ((solverArguments arguments Registry.randomWalkName declared).find? fun argument =>
      !walkKind.algorithm.parameters.contains argument.1) = none := rfl
  have settings : Solver.initialSettings .default walkKind.algorithm
      (solverArguments arguments Registry.randomWalkName declared) =
        (walkSolver arguments declared).settings := by
    simp only [Solver.initialSettings, walkKind, factor, seed]
    cases given : arguments.seed with
    | none => simp [solverArguments, walkSolver, Solver.argumentOr, Assoc.get?, given]
    | some value => simp [solverArguments, walkSolver, Solver.argumentOr, Assoc.get?, given]
  rw [Solver.create]
  simp only [accepted, settings]
  rfl

/-- The budget of a random walk is a whole number, be it given or computed from the formula. -/
theorem exists_budget (arguments : Arguments) (declared : Int) (formula : Formula) :
    ∃ budget, (walkSolver arguments declared).budget walkKind formula = .ok (.int budget) := by
  have given : (walkSolver arguments declared).property walkKind "budget" =
      (arguments.budget.map Datum.int).getD .null := rfl
  have factor : (walkSolver arguments declared).property walkKind "budget_factor" = .int 100 := rfl
  have count : (walkSolver arguments declared).property walkKind "num_variables" = .int declared := rfl
  unfold Solver.budget
  rw [given]
  cases arguments.budget with
  | some budget => exact ⟨budget, rfl⟩
  | none =>
      have effective : (if (Datum.int declared).isTruthy then Datum.int declared else .int 0) =
          .int declared := by
        by_cases zero : declared = 0
        · subst zero
          rfl
        · simp [Datum.isTruthy, zero]
      obtain ⟨fits, compared⟩ : ∃ fits,
          Datum.le ">" (.int declared) (.int formula.atoms.length) = .ok fits := ⟨_, rfl⟩
      change ∃ budget, Solver.defaultBudget _ _ _ = _
      unfold Solver.defaultBudget
      simp only [factor, count, effective, compared]
      cases fits with
      | true => exact ⟨_, rfl⟩
      | false => exact ⟨_, rfl⟩

/-- Under a name the registry that is there at the beginning offers this solver. -/
structure Offered (arguments : Arguments) (document : Dimacs.Document) (name : String) (position : Nat)
    (solver : Solver) (kind : SolverKind) : Prop where
  named : name ≠ automatic
  found : Registry.initial.find name = .ok position
  standing : Registry.initial.kindAt? position = some kind
  made : Solver.create .default position kind (solverArguments arguments name document.atomCount) = .ok solver

theorem offered_search (arguments : Arguments) (document : Dimacs.Document) :
    Offered arguments document "dpll" Registry.backtrackingKind searchSolver searchKind :=
  ⟨by decide, rfl, rfl, rfl⟩

theorem offered_narrow (arguments : Arguments) (document : Dimacs.Document) :
    Offered arguments document Registry.implicationName Registry.implicationKind narrowSolver narrowKind :=
  ⟨by decide, rfl, rfl, rfl⟩

theorem offered_walk (arguments : Arguments) (document : Dimacs.Document) :
    Offered arguments document Registry.randomWalkName Registry.randomWalkKind
      (walkSolver arguments document.atomCount) walkKind :=
  ⟨by decide, rfl, rfl, create_walk arguments document.atomCount⟩

variable {name : String} {position : Nat} {solver : Solver} {kind : SolverKind}

theorem Offered.run_resolve (offered : Offered arguments document name position solver kind)
    (standard : session.Standard) (width : Option Quantity) :
    (resolve (some (.text name)) width).run session = (.ok name, session) := by
  have found : session.registry.find name = .ok position := by
    rw [standard.registry]
    exact offered.found
  exact run_resolve_named offered.named found width

theorem Offered.run_prepareSolver (offered : Offered arguments document name position solver kind)
    (standard : session.Standard) :
    (prepareSolver arguments name document).run session = (.ok (solver, kind), session) := by
  obtain ⟨named, found, standing, made⟩ := offered
  rw [← standard.registry] at found standing
  rw [← standard.config] at made
  have same : session.registry.kindAt? solver.kind = some kind := by
    rw [Solver.kind_of_create made]
    exact standing
  rw [prepareSolver, run_bind_of_ok _ (run_createSolver named found standing made),
    run_bind_of_ok _ (run_kindOf same)]
  rfl

/-- The solvers that a command line prepares for a document. -/
inductive Chosen (arguments : Arguments) (document : Dimacs.Document) : Solver → SolverKind → Prop where
  | search (requested : arguments.solver = some "dpll" ∨ arguments.solver.getD automatic = automatic) :
      Chosen arguments document searchSolver searchKind
  | narrow (requested : arguments.solver = some Registry.implicationName ∨
      arguments.solver.getD automatic = automatic ∧ document.width ≤ 2) :
      Chosen arguments document narrowSolver narrowKind
  | walk (requested : arguments.solver = some Registry.randomWalkName) :
      Chosen arguments document (walkSolver arguments document.atomCount) walkKind

/-- One of the solvers is resolved and prepared, with no more than a message on the way. -/
theorem exists_chosen (standard : session.Standard) (admissible : arguments.Admissible)
    (document : Dimacs.Document) :
    ∃ (name : String) (solver : Solver) (kind : SolverKind) (errors : String),
      Chosen arguments document solver kind ∧
      (resolve (arguments.solver.map .text) (some (.whole document.width))).run session =
        (.ok name, { session with errors }) ∧
      (prepareSolver arguments name document).run { session with errors } =
        (.ok (solver, kind), { session with errors }) := by
  have noted : ∀ errors, { session with errors }.Standard := fun _ => standard.changed _ _ _
  by_cases unnamed : arguments.solver.getD automatic = automatic
  · obtain ⟨errors, resolved⟩ := standard.run_resolve_automatic unnamed document.width
    by_cases narrow : (document.width : Int) ≤ 2
    · rw [if_pos narrow] at resolved
      exact ⟨_, _, _, errors, .narrow (.inr ⟨unnamed, by omega⟩), resolved,
        (offered_narrow arguments document).run_prepareSolver (noted errors)⟩
    · rw [if_neg narrow] at resolved
      exact ⟨_, _, _, errors, .search (.inr unnamed), resolved,
        (offered_search arguments document).run_prepareSolver (noted errors)⟩
  · cases requested : arguments.solver with
    | none => exact absurd (by rw [requested]; rfl) unnamed
    | some name =>
        have choice := admissible.solver name requested
        simp only [solverChoices, List.mem_cons, List.not_mem_nil, or_false] at choice
        rcases choice with rfl | rfl | rfl | rfl
        · exact absurd (by rw [requested]; rfl) unnamed
        · have offered := offered_search arguments document
          exact ⟨_, _, _, session.errors, .search (.inl requested),
            offered.run_resolve standard _, offered.run_prepareSolver standard⟩
        · have offered := offered_narrow arguments document
          exact ⟨_, _, _, session.errors, .narrow (.inl requested),
            offered.run_resolve standard _, offered.run_prepareSolver standard⟩
        · have offered := offered_walk arguments document
          exact ⟨_, _, _, session.errors, .walk requested,
            offered.run_resolve standard _, offered.run_prepareSolver standard⟩

end Clausal.Command
