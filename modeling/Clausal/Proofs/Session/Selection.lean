import Clausal.Proofs.Registry.Narrowest
import Clausal.Proofs.Session.Dispatch

/-!
The two ways of selecting a solver by width. Both ask the registry for a name. A solver that is created
under the automatic name is of the kind that is registered; deciding a formula looks at the name alone and
takes one of two kinds that are there from the beginning.
-/

set_option autoImplicit false

namespace Clausal

namespace Registry

variable {registry later : Registry} {name : String} {position : Nat}

/-- The position of the kind that decides formulas when a name is selected. -/
def dispatched (name : String) : Nat := if name = implicationName then implicationKind else backtrackingKind

/-- A complete kind stands only under names for which it is the one that decides formulas. -/
def Orderly (registry : Registry) : Prop :=
  ∀ entry ∈ registry.entries, ∀ kind, registry.kindAt? entry.2 = some kind → kind.complete = true →
    entry.2 = dispatched entry.1

theorem orderly_initial : initial.Orderly := by
  simp [Orderly, initial, kindAt?, dispatched, backtrackingKind, randomWalkKind, implicationKind,
    implicationName, randomWalkName]

theorem Orderly.addKind (orderly : registry.Orderly) (sound : registry.Sound) (added : SolverKind) :
    (registry.addKind added).1.Orderly := by
  intro entry member kind standing complete
  obtain ⟨old, oldStanding⟩ := sound.standing entry member
  rw [kindAt?_addKind oldStanding added] at standing
  cases standing
  exact orderly entry member kind oldStanding complete

/-- Registrations of incomplete kinds, and of the two kinds under their own names, keep the order. -/
theorem Orderly.register (orderly : registry.Orderly)
    (registered : registry.register name (.kind position) = .ok later)
    (fits : ∀ kind, registry.kindAt? position = some kind → kind.complete = true →
      position = dispatched name) : later.Orderly := by
  have kinds := kindAt?_register registered
  obtain ⟨_, rfl⟩ := register_eq_ok_iff.mp registered
  intro entry member kind standing complete
  rw [kinds] at standing
  obtain ⟨old, oldStanding, renamed⟩ := Option.map_eq_some_iff.mp standing
  have oldComplete : old.complete = true := by
    rw [← complete, ← renamed]
    split <;> rfl
  rcases Assoc.eq_or_mem_of_mem_insert member with rfl | before
  · exact fits old oldStanding oldComplete
  · exact orderly entry before old oldStanding oldComplete

/-- Registries without a registration that breaks the order. -/
inductive OrderlyReachable : Registry → Prop where
  | initial : OrderlyReachable initial
  | addKind {registry : Registry} (reached : OrderlyReachable registry) (kind : SolverKind) :
      OrderlyReachable (registry.addKind kind).1
  | register {registry later : Registry} {name : String} {position : Nat}
      (reached : OrderlyReachable registry) (standing : position < registry.kinds.length)
      (registered : registry.register name (.kind position) = .ok later)
      (fits : ∀ kind, registry.kindAt? position = some kind → kind.complete = true →
        position = dispatched name) : OrderlyReachable later

theorem OrderlyReachable.reachable (reached : registry.OrderlyReachable) : registry.Reachable := by
  induction reached with
  | initial => exact .initial
  | addKind _ kind ih => exact ih.addKind kind
  | register _ standing registered _ ih => exact ih.register standing registered

theorem OrderlyReachable.orderly (reached : registry.OrderlyReachable) : registry.Orderly := by
  induction reached with
  | initial => exact orderly_initial
  | addKind reached kind ih => exact ih.addKind reached.reachable.sound kind
  | register _ _ registered fits ih => exact ih.register registered fits

theorem mem_entries_of_find (found : registry.find name = .ok position) :
    (name, position) ∈ registry.entries := by
  exact Assoc.mem_of_get?_eq_some (find_eq_ok_iff.mp found)

theorem Orderly.find_of_select (orderly : registry.Orderly) (sound : registry.Sound) {width : Quantity}
    (selected : registry.select width = .ok name) : registry.find name = .ok (dispatched name) := by
  obtain ⟨position, kind, found, standing, complete, _⟩ := sound.exists_of_select selected
  have same : position = dispatched name :=
    orderly (name, position) (mem_entries_of_find found) kind standing complete
  rw [found, same]

/-- The two kinds that decide formulas are there from the beginning. They may have other names by now. -/
def Decisive (kind : SolverKind) : Prop :=
  ∃ name, kind = { Session.narrowKind with name } ∨ kind = { Session.searchKind with name }

theorem Reachable.exists_dispatched (reachable : registry.Reachable) (name : String) :
    ∃ kind, registry.kindAt? (dispatched name) = some kind ∧ Decisive kind ∧
      kind.algorithm = (if name = implicationName then .implication else .backtracking) := by
  have narrow : Registry.initial.kindAt? implicationKind = some Session.narrowKind := rfl
  have search : Registry.initial.kindAt? backtrackingKind = some Session.searchKind := rfl
  rw [dispatched]
  split
  · obtain ⟨given, standing⟩ := reachable.kindAt?_builtin narrow
    exact ⟨_, standing, ⟨given, .inl rfl⟩, rfl⟩
  · obtain ⟨given, standing⟩ := reachable.kindAt?_builtin search
    exact ⟨_, standing, ⟨given, .inr rfl⟩, rfl⟩

end Registry

/-! What can be told apart. -/

/-- The statistic that stands behind the solver's name. -/
def Outcome.mark (outcome : Outcome) : Option String := outcome.statistics[1]?.map Prod.fst

/-- What stands there after a run that succeeds. -/
def Algorithm.marks : Algorithm → List (Option String)
  | .backtracking => [some "decisions"]
  | .implication => [some "vertices", some "runtime"]
  | .randomWalk => [some "flips"]
  | .custom => [none]

theorem Algorithm.eq_of_mem_marks {left right : Algorithm} {mark : Option String}
    (leftMember : mark ∈ left.marks) (rightMember : mark ∈ right.marks) : left = right := by
  revert mark
  cases left <;> cases right <;> simp [marks]

namespace Solver

variable {solver : Solver} {kind : SolverKind} {formula : Formula} {entropy : Int} {elapsed : Float}
  {outcome : Outcome}

theorem mark_runDpll (ran : (solver.runDpll kind formula).outcome elapsed = .ok outcome) :
    outcome.mark = some "decisions" := by
  cases ran
  rfl

theorem mark_runTwoSat (ran : (solver.runTwoSat kind formula).outcome elapsed = .ok outcome) :
    outcome.mark = some "vertices" ∨ outcome.mark = some "runtime" := by
  unfold runTwoSat at ran
  split at ran
  · cases ran
  · split at ran
    · cases ran
    · cases ran
      exact .inr rfl
    · cases ran
      exact .inl rfl
    · cases ran
      exact .inl rfl

theorem outcome_runWalk_cases {State : Type} (solver : Solver) (kind : SolverKind)
    (chooser : Random.Chooser State) (start : State) (formula : Formula) (elapsed : Float) :
    let ran := (solver.runWalk kind chooser start formula).outcome elapsed
    (∃ outcome, ran = .ok outcome ∧ outcome.mark = some "flips") ∨ ∃ fault, ran = .error (.operand fault) := by
  unfold runWalk
  split
  · exact .inr ⟨_, rfl⟩
  · dsimp only
    split
    · exact .inl ⟨_, rfl, rfl⟩
    · exact .inl ⟨_, rfl, rfl⟩
    · split
      · exact .inl ⟨_, rfl, rfl⟩
      · exact .inr ⟨_, rfl⟩

theorem mark_runRandomWalk
    (ran : (solver.runRandomWalk kind entropy formula).outcome elapsed = .ok outcome) :
    outcome.mark = some "flips" := by
  rw [runRandomWalk] at ran
  rcases outcome_runWalk_cases solver kind _ _ formula elapsed with ⟨_, found, mark⟩ | ⟨_, failed⟩
  · cases ran.symm.trans found
    exact mark
  · cases ran.symm.trans failed

theorem mark_run {config : Config} {position : Nat} (made : create config position kind [] = .ok solver)
    (ran : (solver.run kind entropy formula).outcome elapsed = .ok outcome) :
    outcome.mark ∈ kind.algorithm.marks := by
  unfold run at ran
  split at ran
  · next algorithm => simp [algorithm, Algorithm.marks, mark_runDpll ran]
  · next algorithm => simpa [algorithm, Algorithm.marks] using mark_runTwoSat ran
  · next algorithm => simp [algorithm, Algorithm.marks, mark_runRandomWalk ran]
  · next algorithm =>
      cases made
      cases ran
      rw [algorithm]
      exact List.mem_singleton_self _

theorem algorithm_of_invalidClause {fault : InvalidClause}
    (ran : (solver.run kind entropy formula).outcome elapsed = .error (.clause fault)) :
    kind.algorithm = .implication := by
  unfold run at ran
  split at ran
  · cases ran
  · next algorithm => exact algorithm
  · rw [runRandomWalk] at ran
    rcases outcome_runWalk_cases solver kind _ _ formula elapsed with ⟨_, found, _⟩ | ⟨_, failed⟩
    · cases ran.symm.trans found
    · cases ran.symm.trans failed
  · cases ran

end Solver

namespace Session

variable {session : Session} {name : String} {position : Nat} {kind : SolverKind} {width : Quantity}

theorem create_nil (config : Config) (position : Nat) (kind : SolverKind) :
    ∃ solver, Solver.create config position kind [] = .ok solver := ⟨_, rfl⟩

theorem run_select_of_ok (selected : session.registry.select width = .ok name) :
    (select width).run session = (.ok name, session) := by
  rw [run_select, selected]
  rfl

theorem run_createSolver_automatic (selected : session.registry.select width = .ok name)
    (found : session.registry.find name = .ok position)
    (standing : session.registry.kindAt? position = some kind) {arguments : List (String × Datum)}
    {solver : Solver} (made : Solver.create session.config position kind arguments = .ok solver) :
    ∃ files errors, (createSolver (some (.text automatic)) (some width) arguments).run session =
      (.ok solver, { session with files, errors }) := by
  obtain ⟨files, errors, logged⟩ := run_logAll [selectionRecord width name] session
  have resolved : (resolve (some (.text automatic)) (some width)).run session =
      (.ok name, { session with files, errors }) :=
    run_resolve_of_select rfl selected found logged rfl
  refine ⟨files, errors, ?_⟩
  rw [createSolver, run_bind_of_ok _ resolved, run_bind_of_ok _ (run_get _)]
  simp only [found]
  exact run_makeSolver standing made

def outcomeOf (formula : Formula) (solver : Solver) : Action Outcome := do
  let (_, result) ← runSolver solver formula
  match result with
  | .ok outcome => return outcome
  | .error fault => throw fault

theorem solveWith_eq (position : Nat) (arguments : List (String × Datum)) (formula : Formula) :
    solveWith position arguments formula = makeSolver position arguments >>= outcomeOf formula := rfl

/-- Decides a formula with the solver that the automatic name stands for. -/
def solveAutomatically (formula : Formula) : Action Outcome :=
  createSolver (some (.text automatic)) (some (.whole formula.width)) [] >>= outcomeOf formula

/-- What was logged before does not matter to a run. -/
theorem result_solveWith_after_log (standing : session.registry.kindAt? position = some kind)
    (formula : Formula) (files : Files) (errors : String) :
    result (solveWith position [] formula) { session with files, errors } =
      result (solveWith position [] formula) session := by
  obtain ⟨solver, made⟩ := create_nil session.config position kind
  let later : Session := { session with files, errors }
  have standingLater : later.registry.kindAt? position = some kind := standing
  have madeLater : Solver.create later.config position kind [] = .ok solver := made
  exact (result_solveWith standingLater madeLater formula).trans (result_solveWith standing made formula).symm

theorem result_solveAutomatically {formula : Formula}
    (selected : session.registry.select (.whole formula.width) = .ok name)
    (found : session.registry.find name = .ok position)
    (standing : session.registry.kindAt? position = some kind) :
    result (solveAutomatically formula) session = result (solveWith position [] formula) session := by
  obtain ⟨solver, made⟩ := create_nil session.config position kind
  obtain ⟨files, errors, created⟩ := run_createSolver_automatic selected found standing made
  have makes : (makeSolver position []).run { session with files, errors } =
      (.ok solver, { session with files, errors }) :=
    run_makeSolver standing made
  rw [← result_solveWith_after_log standing formula files errors, result, result, solveAutomatically,
    solveWith_eq, run_bind_of_ok _ created, run_bind_of_ok _ makes]

theorem result_log_solveWith (standing : session.registry.kindAt? position = some kind) (formula : Formula)
    (source : String) (level : Int) (message : String) :
    result (log source level message >>= fun _ => solveWith position [] formula) session =
      result (solveWith position [] formula) session := by
  obtain ⟨files, errors, logged⟩ := run_logAll [⟨source, level, message⟩] session
  rw [result, log, run_bind_of_ok _ logged, ← result, result_solveWith_after_log standing]

theorem result_solve_none {formula : Formula}
    (selected : session.registry.select (.whole formula.width) = .ok name)
    (standing : session.registry.kindAt? (Registry.dispatched name) = some kind) :
    result (solve formula none) session =
      result (solveWith (Registry.dispatched name) [] formula) session := by
  rw [result, solve]
  simp only [Option.getD_none]
  rw [run_bind_of_ok _ (run_select_of_ok selected)]
  unfold Registry.dispatched at standing ⊢
  split
  · next named =>
      rw [if_pos named] at standing
      exact result_log_solveWith standing formula _ _ _
  · next other =>
      rw [if_neg other] at standing
      exact result_log_solveWith standing formula _ _ _

theorem outcome_of_decisive (decisive : Registry.Decisive kind) {config : Config} {solver : Solver}
    (made : Solver.create config position kind [] = .ok solver) (entropy : Int) (formula : Formula)
    (elapsed : Float) :
    (∃ outcome, (solver.run kind entropy formula).outcome elapsed = .ok outcome) ∨
      ∃ fault, (solver.run kind entropy formula).outcome elapsed = .error (.clause fault) := by
  obtain ⟨given, rfl | rfl⟩ := decisive
  · have limit : solver.property { narrowKind with name := given } "max_width" = .int 2 := by
      cases made
      rfl
    by_cases wide : ∃ clause ∈ formula.clauses, 2 < clause.size
    · obtain ⟨clause, member, large⟩ := wide
      exact .inr (Solver.outcome_runTwoSat_of_wide limit member large elapsed)
    · have narrow : ∀ clause ∈ formula.clauses, clause.size ≤ 2 :=
        fun clause member => Nat.le_of_not_lt fun large => wide ⟨clause, member, large⟩
      have ran := Solver.verdict_runTwoSat limit narrow elapsed
      exact .inl (ran.imp fun _ => And.left)
  · exact .inl ⟨_, rfl⟩

theorem mapError_injective {α ε φ : Type} {change : ε → φ} (injective : Function.Injective change) :
    Function.Injective (Except.mapError change : Except ε α → Except φ α) := by
  intro left right same
  cases left <;> cases right <;> simp_all [Except.mapError, injective.eq_iff]

/-- What a decisive kind comes to, only kinds of the same algorithm come to. -/
theorem algorithm_eq_of_result_eq {other : Nat} {builtin : SolverKind} {formula : Formula}
    (decisive : Registry.Decisive builtin) (standing : session.registry.kindAt? position = some kind)
    (otherStanding : session.registry.kindAt? other = some builtin)
    (same : result (solveWith other [] formula) session = result (solveWith position [] formula) session) :
    kind.algorithm = builtin.algorithm := by
  obtain ⟨solver, made⟩ := create_nil session.config position kind
  obtain ⟨otherSolver, otherMade⟩ := create_nil session.config other builtin
  rw [result_solveWith standing made, result_solveWith otherStanding otherMade] at same
  have outcomes := mapError_injective (fun _ _ => Fault.solver.inj) same
  -- Either the statistics or the complaint about a clause tell the algorithm.
  rcases outcome_of_decisive decisive otherMade session.entropy formula session.elapsed with
    ⟨outcome, ran⟩ | ⟨fault, failed⟩
  · exact Algorithm.eq_of_mem_marks (Solver.mark_run made (outcomes.symm.trans ran))
      (Solver.mark_run otherMade ran)
  · exact (Solver.algorithm_of_invalidClause (outcomes.symm.trans failed)).trans
      (Solver.algorithm_of_invalidClause failed).symm

/-- Created under the automatic name, the solver is of the kind registered under the name selected, while
deciding a formula runs one of two kinds of the beginning. If the kinds are the same, so are the results, and
they are the same in an orderly registry. A selected kind of another algorithm always makes a difference. -/
theorem selection_paths_follow_name (session : Session) (reachable : session.registry.Reachable)
    (formula : Formula) (name : String)
    (selected : session.registry.select (.whole formula.width) = .ok name) :
    ∃ position kind builtin, session.registry.find name = .ok position ∧
      session.registry.kindAt? position = some kind ∧
      session.registry.kindAt? (Registry.dispatched name) = some builtin ∧
      builtin.algorithm = (if name = Registry.implicationName then .implication else .backtracking) ∧
      (∃ solver later,
        (createSolver (some (.text automatic)) (some (.whole formula.width)) []).run session =
          (.ok solver, later) ∧ solver.kind = position) ∧
      result (solveAutomatically formula) session = result (solveWith position [] formula) session ∧
      result (solve formula none) session =
        result (solveWith (Registry.dispatched name) [] formula) session ∧
      (position = Registry.dispatched name →
        result (solve formula none) session = result (solveAutomatically formula) session) ∧
      (session.registry.Orderly → position = Registry.dispatched name) ∧
      (kind.algorithm ≠ builtin.algorithm →
        result (solve formula none) session ≠ result (solveAutomatically formula) session) := by
  obtain ⟨position, kind, found, standing, complete, _⟩ := reachable.sound.exists_of_select selected
  obtain ⟨builtin, builtinStanding, decisive, algorithm⟩ := reachable.exists_dispatched name
  obtain ⟨solver, made⟩ := create_nil session.config position kind
  obtain ⟨_, _, created⟩ := run_createSolver_automatic selected found standing made
  have automatically := result_solveAutomatically selected found standing
  have deciding := result_solve_none selected builtinStanding
  refine ⟨position, kind, builtin, found, standing, builtinStanding, algorithm,
    ⟨solver, _, created, Solver.kind_of_create made⟩, automatically, deciding, ?_, ?_, ?_⟩
  · intro same
    rw [deciding, automatically, same]
  · intro orderly
    exact Except.ok.inj (found.symm.trans (orderly.find_of_select reachable.sound selected))
  · intro different same
    rw [deciding, automatically] at same
    exact different (algorithm_eq_of_result_eq decisive standing builtinStanding same)

/-- A custom kind for clauses of up to five literals has taken over the name of the solver for narrow ones. -/
theorem selection_paths_follow_name_overridden :
    let custom : SolverKind := ⟨.custom, "wide", some (.whole 5), true⟩
    let added : Registry := (Registry.initial.addKind custom).1
    let registry : Registry :=
      ⟨added.kinds.modify 3 fun kind => { kind with name := Registry.implicationName },
        Assoc.insert Registry.implicationName 3 added.entries⟩
    let session : Session := { registry }
    let formula : Formula :=
      ⟨[⟨[⟨⟨"a"⟩, true⟩, ⟨⟨"b"⟩, true⟩, ⟨⟨"c"⟩, true⟩], by decide⟩]⟩
    session.registry.Reachable ∧
      session.registry.select (.whole formula.width) = .ok Registry.implicationName ∧
      session.registry.find Registry.implicationName = .ok 3 ∧
      3 ≠ Registry.dispatched Registry.implicationName ∧
      result (solve formula none) session ≠ result (solveAutomatically formula) session := by
  intro custom added registry session formula
  have registered : added.register Registry.implicationName (.kind 3) = .ok registry := rfl
  have reachable : registry.Reachable := .register (.addKind .initial custom) (by decide) registered
  have selected : registry.select (.whole formula.width) = .ok Registry.implicationName := rfl
  obtain ⟨position, kind, builtin, found, standing, _, algorithm, _, _, _, _, _, differs⟩ :=
    selection_paths_follow_name session reachable formula Registry.implicationName selected
  have same : 3 = position := Except.ok.inj found
  subst same
  cases standing
  have different : Algorithm.custom ≠ builtin.algorithm := by
    rw [algorithm]
    decide
  exact ⟨reachable, selected, found, by decide, differs different⟩

end Session

end Clausal
