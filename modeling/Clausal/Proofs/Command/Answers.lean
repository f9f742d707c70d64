import Clausal.Proofs.Command.Choice
import Clausal.Proofs.Dpll.Run
import Clausal.Proofs.RandomWalk.Run
import Clausal.Proofs.TwoSat.Run

/-!
What the solver that a command line asks for comes to on the formula of a document, and whether its
statistics can be written.
-/

set_option autoImplicit false

namespace Clausal.Command

open Session

variable {arguments : Arguments} {document : Dimacs.Document} {solver : Solver} {kind : SolverKind}
  {outcome : Outcome}

/-- Who asks for one solver or leaves the choice open does not ask for another. -/
theorem not_requested {name other : String}
    (requested : arguments.solver = some name ∨ arguments.solver.getD automatic = automatic)
    (different : other ≠ name) (named : other ≠ automatic) : arguments.solver ≠ some other := by
  intro asked
  rw [asked] at requested
  rcases requested with same | unnamed
  · exact different (Option.some.inj same)
  · exact named unnamed

/-- A formula with a clause of more than two literals does not suit the solver for narrow clauses. -/
def Arguments.Suits (arguments : Arguments) (formula : Formula) : Prop :=
  arguments.solver = some Registry.implicationName → ∀ clause ∈ formula.clauses, clause.size ≤ 2

/-- No budget was given, and the one that is computed for a random walk is too long to be written. -/
def Arguments.Overflows (arguments : Arguments) (document : Dimacs.Document) : Prop :=
  arguments.budget = none ∧ ∃ budget, (walkSolver arguments document.atomCount).budget walkKind
    document.formula = .ok (.int budget) ∧ ¬ Text.Fits budget

/-- What the solver that was asked for comes to. -/
inductive Answers (arguments : Arguments) (document : Dimacs.Document) :
    Except SolverFault Outcome → Prop where
  | decided {outcome : Outcome} (complete : arguments.solver ≠ some Registry.randomWalkName)
      (suits : arguments.Suits document.formula) (verdict : document.formula.Verdict outcome.status)
      (legible : isWritable outcome.statistics = true) : Answers arguments document (.ok outcome)
  | walked {outcome : Outcome} (requested : arguments.solver = some Registry.randomWalkName)
      (undecided : outcome.status ≠ .unsatisfiable) (ended : outcome.status ≠ .error)
      (legible : isWritable outcome.statistics = true ∨ arguments.Overflows document) :
      Answers arguments document (.ok outcome)
  | refused {fault : InvalidClause} (misfits : ¬ arguments.Suits document.formula) :
      Answers arguments document (.error (.clause fault))

/-! Statistics that can be written. -/

theorem isWritable_of_absent {statistics : List (String × Datum)}
    (noBudget : Assoc.get? "budget" statistics = none) (noSeed : Assoc.get? "seed" statistics = none) :
    isWritable statistics = true := by
  simp [isWritable, noBudget, noSeed]

theorem isWritable_search {formula : Formula} {elapsed : Float}
    (ran : (searchSolver.runDpll searchKind formula).outcome elapsed = .ok outcome) :
    isWritable outcome.statistics = true := by
  cases ran
  exact isWritable_of_absent rfl rfl

theorem isWritable_narrow {formula : Formula} {elapsed : Float}
    (ran : (narrowSolver.runTwoSat narrowKind formula).outcome elapsed = .ok outcome) :
    isWritable outcome.statistics = true := by
  unfold Solver.runTwoSat at ran
  split at ran
  · cases ran
  · split at ran
    · cases ran
    · cases ran
      exact isWritable_of_absent rfl rfl
    · cases ran
      exact isWritable_of_absent rfl rfl
    · cases ran
      exact isWritable_of_absent rfl rfl

/-- The seed was read from the command line, and so was the budget unless it is computed. -/
theorem isWritable_walk_or_overflows (admissible : arguments.Admissible) {statistics : List (String × Datum)}
    {budget : Int}
    (computed : (walkSolver arguments document.atomCount).budget walkKind document.formula =
      .ok (.int budget))
    (budgeted : Assoc.get? "budget" statistics = some (.int budget))
    (seeded : Assoc.get? "seed" statistics = some ((arguments.seed.map Datum.int).getD .null)) :
    isWritable statistics = true ∨ arguments.Overflows document := by
  by_cases fits : Text.Fits budget
  · left
    have numeral := Text.hasNumeral_iff.mpr fits
    cases given : arguments.seed with
    | none => simp [isWritable, budgeted, seeded, given, numeral]
    | some seed =>
        have seedNumeral := Text.hasNumeral_iff.mpr (admissible.seed seed given)
        simp [isWritable, budgeted, seeded, given, numeral, seedNumeral]
  · right
    refine ⟨?_, budget, computed, fits⟩
    cases given : arguments.budget with
    | none => rfl
    | some number =>
        have property : (walkSolver arguments document.atomCount).property walkKind "budget" =
            (arguments.budget.map Datum.int).getD .null := rfl
        rw [Solver.budget, property, given] at computed
        cases computed
        exact absurd (admissible.budget budget given) fits

theorem Chosen.answers (chosen : Chosen arguments document solver kind)
    (admissible : arguments.Admissible) (entropy : Int) (elapsed : Float) :
    Answers arguments document ((solver.run kind entropy document.formula).outcome elapsed) := by
  cases chosen with
  | search requested =>
      obtain ⟨outcome, ran, verdict⟩ :=
        Solver.verdict_runDpll searchSolver searchKind document.formula elapsed
      have answered : (searchSolver.run searchKind entropy document.formula).outcome elapsed =
        .ok outcome := ran
      rw [answered]
      refine .decided ?_ ?_ verdict (isWritable_search ran)
      · exact not_requested requested (by decide) (by decide)
      · exact fun narrow => absurd narrow (not_requested requested (by decide) (by decide))
  | narrow requested =>
      have limit : narrowSolver.property narrowKind "max_width" = .int 2 := rfl
      by_cases wide : ∃ clause ∈ document.formula.clauses, 2 < clause.size
      · obtain ⟨clause, member, large⟩ := wide
        obtain ⟨fault, refused⟩ := Solver.outcome_runTwoSat_of_wide limit member large elapsed
        have answered : (narrowSolver.run narrowKind entropy document.formula).outcome elapsed =
          .error (.clause fault) := refused
        rw [answered]
        rcases requested with named | ⟨_, narrow⟩
        · exact .refused fun suits => Nat.not_le_of_lt large (suits named clause member)
        · have fits : clause.size ≤ document.width := Formula.size_le_width member
          omega
      · have narrow : ∀ clause ∈ document.formula.clauses, clause.size ≤ 2 := fun clause member =>
          Nat.le_of_not_lt fun large => wide ⟨clause, member, large⟩
        obtain ⟨outcome, ran, verdict⟩ := Solver.verdict_runTwoSat limit narrow elapsed
        have answered : (narrowSolver.run narrowKind entropy document.formula).outcome elapsed =
          .ok outcome := ran
        rw [answered]
        refine .decided ?_ (fun _ => narrow) verdict (isWritable_narrow ran)
        exact not_requested (requested.imp_right And.left) (by decide) (by decide)
  | walk requested =>
      let walker := walkSolver arguments document.atomCount
      obtain ⟨budget, given⟩ := exists_budget arguments document.atomCount document.formula
      obtain ⟨generator, walks⟩ : ∃ generator, walker.run walkKind entropy document.formula =
          walker.runWalk walkKind Random.Twister.chooser generator document.formula :=
        Solver.run_eq_runWalk rfl entropy
      obtain ⟨outcome, ran⟩ : ∃ outcome, (walker.runWalk walkKind Random.Twister.chooser generator
          document.formula).outcome elapsed = .ok outcome :=
        Solver.exists_outcome_runWalk given rfl elapsed
      obtain ⟨budgeted, seeded⟩ := Solver.settings_of_runWalk given ran
      have legible := isWritable_walk_or_overflows admissible given budgeted seeded
      have status := (Solver.shownBy_of_runWalk given ran).status
      rw [walks, ran]
      refine .walked requested ?_ ?_ legible
      · rcases status with found | nothing
        · exact fun refuted => Status.noConfusion (found.symm.trans refuted)
        · exact fun refuted => Status.noConfusion (nothing.symm.trans refuted)
      · rcases status with found | nothing
        · exact fun failed => Status.noConfusion (found.symm.trans failed)
        · exact fun failed => Status.noConfusion (nothing.symm.trans failed)

end Clausal.Command
