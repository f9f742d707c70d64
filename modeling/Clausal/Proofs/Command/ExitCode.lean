import Clausal.Proofs.Command.Answers
import Clausal.Proofs.Command.Stages
import Clausal.Proofs.Report.Solutions

/-!
The exit code of the command against the formula in its file: what each solver comes to, how that is
printed and written, and what the code therefore says.
-/

set_option autoImplicit false

namespace Clausal

theorem Dimacs.parse_ofList_unifyLineEnds (text : String) :
    parse (String.ofList (Text.unifyLineEnds text.toList)) = parseFile text := by
  rw [parse, ofLines_lines_strip, String.toList_ofList]
  rfl

namespace Command

open Session

variable {session later : Session} {arguments : Arguments} {document : Dimacs.Document}
  {solver : Solver} {kind : SolverKind} {outcome : Outcome} {code : Nat} {verdict : String}
  {lines : List String}

/-- The code, the line that is printed and the lines of the report agree on the formula. -/
inductive Presents (document : Dimacs.Document) : Nat → String → List String → Prop where
  | satisfiable {valuation : Valuation} (holds : document.formula.Holds valuation) :
      Presents document 10 "satisfiable"
        ((Report.declaredAtoms document.atomCount).map fun atom => Report.line atom (valuation atom))
  | unsatisfiable (refuted : ¬ document.formula.Satisfiable) :
      Presents document 20 "not satisfiable" ["UNSAT"]
  | unknown : Presents document 0 "no answer found" ["UNKNOWN"]

theorem Presents.satisfiable_of_ten (presents : Presents document code verdict lines) (ten : code = 10) :
    document.formula.Satisfiable := by
  cases presents with
  | satisfiable holds => exact ⟨_, holds⟩
  | unsatisfiable refuted => cases ten
  | unknown => cases ten

theorem Presents.unsatisfiable_of_twenty (presents : Presents document code verdict lines)
    (twenty : code = 20) : ¬ document.formula.Satisfiable := by
  cases presents with
  | satisfiable holds => cases twenty
  | unsatisfiable refuted => exact refuted
  | unknown => cases twenty

/-- An outcome that is right about the formula is presented as what it is. -/
theorem exists_presents {files : Files} {path : String} (loads : files.Loads path document)
    (reached : outcome.Reached document.formula) (decided : outcome.status ≠ .error)
    (right : outcome.status = .unsatisfiable → ¬ document.formula.Satisfiable) :
    ∃ lines, Report.lines outcome (some document.atomCount) = .ok lines ∧
      Presents document (codeOf outcome.status) (verdictLine outcome.status) lines := by
  cases status : outcome.status with
  | satisfiable =>
      obtain ⟨bytes, text, _, _, parsed⟩ := loads
      rw [← Dimacs.parse_ofList_unifyLineEnds] at parsed
      obtain ⟨clauses, holds⟩ := Dimacs.exists_holds_of_parse parsed
      obtain ⟨environment, found, solves⟩ := reached.solves status
      have known : environment.atoms ⊆ Report.declaredAtoms document.atomCount := fun atom bound =>
        Report.atoms_subset_declaredAtoms holds (solves.known bound)
      exact ⟨_, Report.lines_of_satisfiable status found known holds.atomCount,
        .satisfiable (Environment.holds_of_satisfies solves.satisfies)⟩
  | unsatisfiable =>
      refine ⟨["UNSAT"], ?_, .unsatisfiable (right status)⟩
      rw [Report.lines, Outcome.isUnsatisfiable, status]
      rfl
  | unknown =>
      refine ⟨["UNKNOWN"], ?_, .unknown⟩
      rw [Report.lines, Outcome.isUnsatisfiable, Outcome.assignment?, status]
      rfl
  | error => exact absurd status decided

theorem codeOf_ne_zero {formula : Formula} {status : Status} (verdict : formula.Verdict status) :
    codeOf status ≠ 0 := by
  cases verdict with
  | satisfiable holds => decide
  | unsatisfiable refuted => decide

theorem eq_unsatisfiable_of_codeOf {status : Status} (twenty : codeOf status = 20) :
    status = .unsatisfiable := by
  cases status with
  | satisfiable => cases twenty
  | unsatisfiable => rfl
  | unknown => cases twenty
  | error => cases twenty

/-- How a run ends, and what of the session it changes. -/
inductive Ended (session : Session) (arguments : Arguments) (later : Session) : Ending → Prop where
  | unloadable (reason : session.files.Unloadable arguments.formula)
      (kept : later.files = session.files) : Ended session arguments later (.code 1)
  | refused {document : Dimacs.Document} (loads : session.files.Loads arguments.formula document)
      (misfits : ¬ arguments.Suits document.formula) (kept : later.files = session.files) :
      Ended session arguments later (.code 1)
  | overflowed {document : Dimacs.Document} (loads : session.files.Loads arguments.formula document)
      (requested : arguments.solver = some Registry.randomWalkName)
      (overflows : arguments.Overflows document) : Ended session arguments later (.fault .noNumeral)
  | reported {document : Dimacs.Document} {code : Nat} {verdict : String} {lines : List String}
      (loads : session.files.Loads arguments.formula document)
      (suits : arguments.Suits document.formula)
      (complete : arguments.solver ≠ some Registry.randomWalkName → code ≠ 0)
      (incomplete : arguments.solver = some Registry.randomWalkName → code ≠ 20)
      (presents : Presents document code verdict lines)
      (printed : later.output = session.output ++ "SAT solver starts!!!" ++ "\n" ++ verdict ++ "\n"
        ++ ("Time: " ++ Decimal.fixed 3 (session.elapsed * 1000) ++ "ms") ++ "\n")
      (outputs : arguments.Outputs session.files later.files lines) :
      Ended session arguments later (.code code)

theorem runIn_of_run {line : List String} {ending : Ending}
    (ran : (run line).run session = (.ok ending, later)) : runIn session line = (later, ending) := by
  rw [runIn, ran]

/-- After the beginning of a run, an outcome that is right about the formula is printed and written. -/
theorem run_conclude_presents {middle : Session} (started : Started session middle)
    (loads : session.files.Loads arguments.formula document)
    (writable : arguments.OutputWritable session.files) (entropy : Int)
    (ran : (solver.run kind entropy document.formula).outcome middle.elapsed = .ok outcome)
    (legible : isWritable outcome.statistics = true) (decided : outcome.status ≠ .error)
    (right : outcome.status = .unsatisfiable → ¬ document.formula.Satisfiable) :
    let prepared : Prepared := ⟨arguments, plainManager, document, solver, kind⟩
    ∃ (later : Session) (lines : List String), (conclude prepared (prepared.run entropy)).run middle =
        (.ok (.code (codeOf outcome.status)), later) ∧
      Presents document (codeOf outcome.status) (verdictLine outcome.status) lines ∧
      later.output = session.output ++ "SAT solver starts!!!" ++ "\n" ++ verdictLine outcome.status ++ "\n"
        ++ ("Time: " ++ Decimal.fixed 3 (session.elapsed * 1000) ++ "ms") ++ "\n" ∧
      arguments.Outputs session.files later.files lines := by
  intro prepared
  have plain : prepared.manager = plainManager := rfl
  have reached : outcome.Reached document.formula := .run solver kind entropy middle.elapsed ran
  obtain ⟨lines, reported, presents⟩ := exists_presents loads reached decided right
  have unchanged : prepared.arguments.OutputWritable middle.files := started.files ▸ writable
  obtain ⟨later, concluded, printed, outputs⟩ :=
    run_conclude_of_outcome started.standard plain unchanged ran legible reported
  rw [started.output, started.elapsed] at printed
  rw [started.files] at outputs
  exact ⟨later, lines, concluded, presents, printed, outputs⟩

/-- Whatever is in the file, the run ends in one of these ways. -/
theorem exists_ended (standard : session.Standard) {line : List String}
    (read : Arguments.read line = .ok arguments) (unconfigured : arguments.config.getD "" = "")
    (logless : arguments.logDirectory.getD "" = "")
    (writable : arguments.OutputWritable session.files) :
    ∃ later ending, runIn session line = (later, ending) ∧ Ended session arguments later ending := by
  rcases Files.loads_or_unloadable session.files arguments.formula with ⟨document, loads⟩ | reason
  · obtain ⟨solver, kind, middle, chosen, began, started⟩ :=
      run_begin_of_loads standard read unconfigured logless loads
    let prepared : Prepared := ⟨arguments, plainManager, document, solver, kind⟩
    have plain : prepared.manager = plainManager := rfl
    have goesOn : (run line).run session =
        (conclude prepared (prepared.run middle.entropy)).run middle := by
      rw [run]
      exact (run_bind_of_ok _ began).trans (run_bind_of_ok _ (run_get middle))
    have answers := chosen.answers (Arguments.admissible_of_read read) middle.entropy middle.elapsed
    generalize ran : (solver.run kind middle.entropy document.formula).outcome middle.elapsed =
      answer at answers
    cases answers with
    | refused misfits =>
        obtain ⟨later, concluded, kept⟩ := run_conclude_of_refused started.standard plain ran
        exact ⟨later, _, runIn_of_run (goesOn.trans concluded),
          .refused loads misfits (kept.trans started.files)⟩
    | decided complete suits verdict legible =>
        obtain ⟨later, lines, concluded, presents, printed, outputs⟩ :=
          run_conclude_presents started loads writable middle.entropy ran legible verdict.ne_error
            verdict.unsatisfiable_iff.mp
        refine ⟨later, _, runIn_of_run (goesOn.trans concluded),
          .reported loads suits ?_ ?_ presents printed outputs⟩
        · exact fun _ => codeOf_ne_zero verdict
        · exact fun walk => absurd walk complete
    | @walked outcome requested undecided ended legible =>
        by_cases written : isWritable outcome.statistics = true
        · obtain ⟨later, lines, concluded, presents, printed, outputs⟩ :=
            run_conclude_presents started loads writable middle.entropy ran written ended
              fun refuted => absurd refuted undecided
          refine ⟨later, _, runIn_of_run (goesOn.trans concluded),
            .reported loads ?_ ?_ ?_ presents printed outputs⟩
          · exact fun narrow => absurd (requested.symm.trans narrow) (by decide)
          · exact fun other => absurd requested other
          · exact fun _ twenty => undecided (eq_unsatisfiable_of_codeOf twenty)
        · obtain ⟨later, concluded⟩ := run_conclude_of_illegible started.standard plain ran
            (Bool.eq_false_iff.mpr written)
          exact ⟨later, _, runIn_of_run (goesOn.trans concluded),
            .overflowed loads requested (legible.resolve_left written)⟩
  · obtain ⟨later, began, kept⟩ :=
      run_begin_of_unloadable standard read unconfigured logless reason
    refine ⟨later, _, runIn_of_run ?_, .unloadable reason kept⟩
    rw [run]
    exact run_bind_of_ok _ began

namespace Ended

variable {ending : Ending} (ended : Ended session arguments later ending)
include ended

theorem one_iff : ending = .code 1 ↔ session.files.Unloadable arguments.formula ∨
    ∃ document, session.files.Loads arguments.formula document ∧ ¬ arguments.Suits document.formula := by
  cases ended with
  | unloadable reason kept => exact iff_of_true rfl (.inl reason)
  | refused loads misfits kept => exact iff_of_true rfl (.inr ⟨_, loads, misfits⟩)
  | overflowed loads requested overflows =>
      refine iff_of_false (fun same => nomatch same) ?_
      rintro (reason | ⟨other, otherLoads, misfits⟩)
      · exact loads.not_unloadable reason
      · exact misfits fun narrow => absurd (requested.symm.trans narrow) (by decide)
  | reported loads suits complete incomplete presents printed outputs =>
      refine iff_of_false ?_ ?_
      · intro one
        cases presents <;> cases one
      · rintro (reason | ⟨other, otherLoads, misfits⟩)
        · exact loads.not_unloadable reason
        · exact misfits (loads.unique otherLoads ▸ suits)

theorem satisfiable_of_ten (ten : ending = .code 10) :
    ∃ document, session.files.Loads arguments.formula document ∧
      arguments.Suits document.formula ∧ document.formula.Satisfiable := by
  cases ended with
  | unloadable reason kept => cases ten
  | refused loads misfits kept => cases ten
  | overflowed loads requested overflows => cases ten
  | reported loads suits complete incomplete presents printed outputs =>
      cases ten
      exact ⟨_, loads, suits, presents.satisfiable_of_ten rfl⟩

theorem unsatisfiable_of_twenty (twenty : ending = .code 20) :
    ∃ document, session.files.Loads arguments.formula document ∧
      arguments.Suits document.formula ∧ ¬ document.formula.Satisfiable := by
  cases ended with
  | unloadable reason kept => cases twenty
  | refused loads misfits kept => cases twenty
  | overflowed loads requested overflows => cases twenty
  | reported loads suits complete incomplete presents printed outputs =>
      cases twenty
      exact ⟨_, loads, suits, presents.unsatisfiable_of_twenty rfl⟩

/-- On a formula that suits it, a complete solver leaves nothing open. -/
theorem ten_or_twenty (complete : arguments.solver ≠ some Registry.randomWalkName)
    (loads : session.files.Loads arguments.formula document) (suits : arguments.Suits document.formula) :
    (ending = .code 10 ∧ document.formula.Satisfiable) ∨
      (ending = .code 20 ∧ ¬ document.formula.Satisfiable) := by
  cases ended with
  | unloadable reason kept => exact absurd reason loads.not_unloadable
  | refused otherLoads misfits kept => exact absurd (loads.unique otherLoads ▸ suits) misfits
  | overflowed otherLoads requested overflows => exact absurd requested complete
  | reported otherLoads _ nonzero _ presents printed outputs =>
      cases loads.unique otherLoads
      cases presents with
      | satisfiable holds => exact .inl ⟨rfl, _, holds⟩
      | unsatisfiable refuted => exact .inr ⟨rfl, refuted⟩
      | unknown => exact absurd rfl (nonzero complete)

theorem ten_iff (complete : arguments.solver ≠ some Registry.randomWalkName) :
    ending = .code 10 ↔ ∃ document, session.files.Loads arguments.formula document ∧
      arguments.Suits document.formula ∧ document.formula.Satisfiable := by
  refine ⟨ended.satisfiable_of_ten, ?_⟩
  rintro ⟨document, loads, suits, satisfiable⟩
  rcases ended.ten_or_twenty complete loads suits with ⟨ten, _⟩ | ⟨_, refuted⟩
  · exact ten
  · exact absurd satisfiable refuted

theorem twenty_iff (complete : arguments.solver ≠ some Registry.randomWalkName) :
    ending = .code 20 ↔ ∃ document, session.files.Loads arguments.formula document ∧
      arguments.Suits document.formula ∧ ¬ document.formula.Satisfiable := by
  refine ⟨ended.unsatisfiable_of_twenty, ?_⟩
  rintro ⟨document, loads, suits, refuted⟩
  rcases ended.ten_or_twenty complete loads suits with ⟨_, satisfiable⟩ | ⟨twenty, _⟩
  · exact absurd satisfiable refuted
  · exact twenty

theorem ne_twenty (walk : arguments.solver = some Registry.randomWalkName) : ending ≠ .code 20 := by
  cases ended with
  | unloadable reason kept => exact fun same => nomatch same
  | refused loads misfits kept => exact fun same => nomatch same
  | overflowed loads requested overflows => exact fun same => nomatch same
  | reported loads suits complete incomplete presents printed outputs =>
      intro twenty
      cases twenty
      exact incomplete walk rfl

/-- Nothing but a budget without a numeral keeps a run from a code. -/
theorem code_or_overflows : (∃ code, ending = .code code) ∨
    ending = .fault .noNumeral ∧ ∃ document, session.files.Loads arguments.formula document ∧
      arguments.Overflows document := by
  cases ended with
  | unloadable reason kept => exact .inl ⟨1, rfl⟩
  | refused loads misfits kept => exact .inl ⟨1, rfl⟩
  | overflowed loads requested overflows => exact .inr ⟨rfl, _, loads, overflows⟩
  | reported loads suits complete incomplete presents printed outputs => exact .inl ⟨_, rfl⟩

end Ended

/-- With the configuration and the registry that are there at the beginning, and whatever is in the file:
A complete solver returns 10 or 20 according to whether the formula in the file is satisfiable, and 1 if
none can be loaded or the formula is too wide for the solver asked for. A random walk never returns 20, and
10 only for a satisfiable formula; it returns no code only when the budget that it computes is too long to
be written. The line that is printed and the output agree with a code other than 1; with 1 no file is
touched. -/
theorem exit_code_tells_verdict (session : Session) (line : List String) (arguments : Arguments)
    (standard : session.Standard) (read : Arguments.read line = .ok arguments)
    (unconfigured : arguments.config.getD "" = "") (logless : arguments.logDirectory.getD "" = "")
    (writable : arguments.OutputWritable session.files) :
    let loads := session.files.Loads arguments.formula
    let unloadable := session.files.Unloadable arguments.formula
    let narrow := fun formula : Formula => ∀ clause ∈ formula.clauses, clause.size ≤ 2
    ∃ later ending, runIn session line = (later, ending) ∧
      (arguments.solver = none ∨ arguments.solver = some "auto" ∨ arguments.solver = some "dpll" →
        (ending = .code 10 ↔ ∃ document, loads document ∧ document.formula.Satisfiable) ∧
        (ending = .code 20 ↔ ∃ document, loads document ∧ ¬ document.formula.Satisfiable) ∧
        (ending = .code 1 ↔ unloadable)) ∧
      (arguments.solver = some "2sat" →
        (ending = .code 10 ↔ ∃ document, loads document ∧ narrow document.formula ∧
          document.formula.Satisfiable) ∧
        (ending = .code 20 ↔ ∃ document, loads document ∧ narrow document.formula ∧
          ¬ document.formula.Satisfiable) ∧
        (ending = .code 1 ↔ unloadable ∨ ∃ document, loads document ∧ ¬ narrow document.formula)) ∧
      (arguments.solver = some "random_walk" → ending ≠ .code 20 ∧
        (ending = .code 10 → ∃ document, loads document ∧ document.formula.Satisfiable) ∧
        (ending = .code 1 ↔ unloadable) ∧
        ((∃ code, ending = .code code) ∨
          ending = .fault .noNumeral ∧ ∃ document, loads document ∧ arguments.Overflows document)) ∧
      (∀ code, ending = .code code → code ≠ 1 → ∃ document verdict lines, loads document ∧
        Presents document code verdict lines ∧
        later.output = session.output ++ "SAT solver starts!!!" ++ "\n" ++ verdict ++ "\n"
          ++ ("Time: " ++ Decimal.fixed 3 (session.elapsed * 1000) ++ "ms") ++ "\n" ∧
        arguments.Outputs session.files later.files lines) ∧
      (ending = .code 1 → later.files = session.files) := by
  intro loads unloadable narrow
  obtain ⟨later, ending, ran, ended⟩ := exists_ended standard read unconfigured logless writable
  -- Only the solver for narrow clauses can find a formula unsuitable.
  have suits : arguments.solver ≠ some Registry.implicationName → ∀ formula, arguments.Suits formula :=
    fun other _ asked => absurd asked other
  refine ⟨later, ending, ran, ?_, ?_, ?_, ?_, ?_⟩
  · intro requested
    have other : arguments.solver ≠ some Registry.implicationName := by
      rcases requested with asked | asked | asked <;> rw [asked] <;> decide
    have complete : arguments.solver ≠ some Registry.randomWalkName := by
      rcases requested with asked | asked | asked <;> rw [asked] <;> decide
    have always := suits other
    refine ⟨?_, ?_, ?_⟩
    · simpa only [always, true_and] using ended.ten_iff complete
    · simpa only [always, true_and] using ended.twenty_iff complete
    · simpa only [always, not_true, and_false, exists_false, or_false] using ended.one_iff
  · intro requested
    have complete : arguments.solver ≠ some Registry.randomWalkName := by
      rw [requested]
      decide
    have exactly : ∀ formula, arguments.Suits formula ↔ narrow formula := fun formula =>
      ⟨fun suits => suits requested, fun fits _ => fits⟩
    refine ⟨?_, ?_, ?_⟩
    · simpa only [exactly] using ended.ten_iff complete
    · simpa only [exactly] using ended.twenty_iff complete
    · simpa only [exactly] using ended.one_iff
  · intro requested
    have other : arguments.solver ≠ some Registry.implicationName := by
      rw [requested]
      decide
    have always := suits other
    refine ⟨ended.ne_twenty requested, ?_, ?_, ended.code_or_overflows⟩
    · simpa only [always, true_and] using ended.satisfiable_of_ten
    · simpa only [always, not_true, and_false, exists_false, or_false] using ended.one_iff
  · rintro code rfl success
    cases ended with
    | unloadable reason kept => exact absurd rfl success
    | refused loads misfits kept => exact absurd rfl success
    | reported loads suits complete incomplete presents printed outputs =>
        exact ⟨_, _, _, loads, presents, printed, outputs⟩
  · rintro rfl
    cases ended with
    | unloadable reason kept => exact kept
    | refused loads misfits kept => exact kept
    | reported loads suits complete incomplete presents printed outputs => cases presents

/-- A formula with one solution, decided by the solver for narrow clauses and reported in a new
directory. -/
theorem exit_code_tells_verdict_unit :
    let content := Text.Utf8.encode "p cnf 2 2\n1 -2 0\n2 0\n"
    let session : Session := { files := { entries := [(["f.cnf"], .file content)] } }
    let line := ["f.cnf", "out/f.txt", "--solver=2sat"]
    let arguments : Arguments :=
      { formula := "f.cnf", output := some "out/f.txt", solver := some "2sat" }
    Arguments.read line = .ok arguments ∧ arguments.OutputWritable session.files ∧
      ∃ later, runIn session line = (later, .code 10) ∧
        later.files.read "out/f.txt" = .ok (Text.Utf8.encode "1:TRUE\n2:TRUE\n") := by
  intro content session line arguments
  have standard : session.Standard := ⟨rfl, rfl, Logging.Loggers.consoleOnly_empty⟩
  have read : Arguments.read line = .ok arguments := by decide +kernel
  have writable : arguments.OutputWritable session.files := by
    refine .inr ⟨{ entries := [(["f.cnf"], .file content), (["out"], .directory)] },
      ["out", "f.txt"], ?_, ?_⟩
    · decide +kernel
    · decide +kernel
  obtain ⟨later, ending, ran, _, byGraph, _, report, _⟩ :=
    exit_code_tells_verdict session line arguments standard read rfl rfl writable
  let document : Dimacs.Document := ⟨Dimacs.ofIntegers [[1, -2], [2]], 2, 2, []⟩
  have loads : session.files.Loads "f.cnf" document := by
    refine ⟨content, "p cnf 2 2\n1 -2 0\n2 0\n", rfl, ?_, ?_⟩
    · decide +kernel
    · decide +kernel
  have ten : ending = .code 10 := by
    refine (byGraph rfl).1.mpr ⟨document, loads, ?_, fun _ => true, ?_⟩
    · decide +kernel
    · decide +kernel
  cases ten
  obtain ⟨other, verdict, lines, otherLoads, presents, _, outputs⟩ := report 10 rfl (by decide)
  cases loads.unique otherLoads
  refine ⟨read, writable, later, ran, ?_⟩
  cases presents with
  | @satisfiable valuation holds =>
      have atoms : Report.declaredAtoms document.atomCount = [⟨"1"⟩, ⟨"2"⟩] := by decide +kernel
      have both : valuation ⟨"1"⟩ = true ∧ valuation ⟨"2"⟩ = true := by
        have clauses : document.formula.clauses =
            [⟨[⟨⟨"1"⟩, true⟩, ⟨⟨"2"⟩, false⟩], by decide⟩, ⟨[⟨⟨"2"⟩, true⟩], by decide⟩] := by
          decide +kernel
        simp [Formula.Holds, clauses, Clause.Holds, Literal.Holds] at holds
        obtain ⟨either, second⟩ := holds
        simpa [second] using either
      have shown : (Report.declaredAtoms document.atomCount).map
          (fun atom => Report.line atom (valuation atom)) = ["1:TRUE", "2:TRUE"] := by
        rw [atoms, List.map_cons, List.map_cons, List.map_nil, both.1, both.2]
        decide +kernel
      have written := outputs.written (by decide)
      rw [shown] at written
      exact written.trans (by decide +kernel)

end Command

end Clausal
