import Clausal.Proofs.Dimacs.Document
import Clausal.Proofs.Dpll.Run
import Clausal.Proofs.RandomWalk.Run
import Clausal.Proofs.Report.Lines
import Clausal.Proofs.TwoSat.Run

/-!
From a text to the lines on a solution of its formula. The reader, the solvers and the report agree on
the names of variables, so that the lines can be read as an assignment that solves the formula.
-/

set_option autoImplicit false

namespace Clausal

/-- An outcome of a run, whatever the solver, its settings and the time. A random walk may make any
choices. -/
inductive Outcome.Reached (formula : Formula) (outcome : Outcome) : Prop where
  | run (solver : Solver) (kind : SolverKind) (entropy : Int) (elapsed : Float)
      (ran : (solver.run kind entropy formula).outcome elapsed = .ok outcome)
  | walk {State : Type} (solver : Solver) (kind : SolverKind) (chooser : Random.Chooser State)
      (start : State) (elapsed : Float)
      (ran : (solver.runWalk kind chooser start formula).outcome elapsed = .ok outcome)

theorem Outcome.Reached.solves {formula : Formula} {outcome : Outcome}
    (reached : outcome.Reached formula) (satisfiable : outcome.status = .satisfiable) :
    ∃ environment, outcome.environment = some environment ∧ environment.Solves formula := by
  cases reached with
  | run solver kind entropy elapsed ran =>
      unfold Solver.run at ran
      split at ran
      · exact Solver.solves_of_runDpll ran satisfiable
      · exact Solver.solves_of_runTwoSat ran satisfiable
      · exact Solver.solves_of_runWalk ran satisfiable
      -- A custom solver knows nothing.
      · cases ran
        cases satisfiable
  | walk solver kind chooser start elapsed ran =>
      exact Solver.solves_of_runWalk ran satisfiable

namespace Report

variable {atoms : List Variable} {valuation : Valuation} {count : Int}

/-- The assignment that lines show: a variable is true if there is a line that says so. -/
def reading (lines : List String) : Valuation := fun atom => decide (atom.name ++ ":TRUE" ∈ lines)

theorem line_true (atom : Variable) : line atom true = atom.name ++ ":TRUE" := by
  rw [line, String.append_assoc]
  rfl

theorem line_false (atom : Variable) : line atom false = atom.name ++ ":FALSE" := by
  rw [line, String.append_assoc]
  rfl

theorem line_false_ne_true (left right : Variable) : line left false ≠ line right true := by
  rw [line_false, line_true]
  intro same
  have reversed := congrArg (fun text : String => text.toList.reverse) same
  simp at reversed

theorem reading_lines {atom : Variable} (member : atom ∈ atoms) :
    reading (atoms.map fun atom => line atom (valuation atom)) atom = valuation atom := by
  have shown : atom.name ++ ":TRUE" ∈ (atoms.map fun atom => line atom (valuation atom)) ↔
      valuation atom = true := by
    rw [← line_true]
    constructor
    · intro listed
      obtain ⟨other, _, same⟩ := List.mem_map.mp listed
      cases value : valuation other with
      | false =>
          rw [value] at same
          exact absurd same (line_false_ne_true other atom)
      | true =>
          rw [value, line_true, line_true, String.append_left_inj] at same
          obtain rfl : other = atom := by
            cases other
            cases same
            rfl
          exact value
    · intro value
      exact List.mem_map.mpr ⟨atom, member, by rw [value]⟩
  rw [reading, Bool.eq_iff_iff, decide_eq_true_eq, shown]

/-! The variables of a formula that was read are declared ones. -/

theorem mem_declaredAtoms {index : Nat} (positive : 1 ≤ index) (declared : (index : Int) ≤ count) :
    (⟨toString index⟩ : Variable) ∈ declaredAtoms count := by
  refine List.mem_map.mpr ⟨index - 1, List.mem_range.mpr (by omega), ?_⟩
  rw [declaredAtom, Nat.sub_add_cancel positive]

theorem atoms_subset_declaredAtoms {document : Dimacs.Document} {clauses : List (List Int)}
    (holds : document.Holds clauses) : document.formula.atoms ⊆ declaredAtoms document.atomCount := by
  intro atom member
  rw [Formula.atoms, List.mem_eraseDups, holds.formula] at member
  obtain ⟨clause, listed, occurs⟩ := List.mem_flatMap.mp member
  obtain ⟨literals, built, rfl⟩ := List.mem_map.mp listed
  obtain ⟨values, given, rfl⟩ := List.mem_map.mp built
  obtain ⟨literal, inside, rfl⟩ := List.mem_map.mp occurs
  obtain ⟨value, among, rfl⟩ := List.mem_map.mp (Clause.mem_ofList.mp inside)
  have occurring : value ∈ clauses.flatten := List.mem_flatten_of_mem given among
  have nonzero := (holds.isIndex value occurring).nonzero
  exact mem_declaredAtoms (by omega) (holds.within value occurring)

theorem getElem?_lines {index : Nat} (positive : 1 ≤ index) (declared : (index : Int) ≤ count) :
    ((declaredAtoms count).map fun atom => line atom (valuation atom))[index - 1]? =
      some (line ⟨toString index⟩ (valuation ⟨toString index⟩)) := by
  rw [declaredAtoms, List.map_map, List.getElem?_map, List.getElem?_range (by omega), Option.map_some,
    Function.comp_apply, declaredAtom, Nat.sub_add_cancel positive]

/-- What a solver finds for a formula that was read is shown in one line for each declared variable, in
numeric order. Read as an assignment, the lines solve the formula, and variables that do not occur in it
are false. -/
theorem lines_show_solution_of_parse {text : String} {document : Dimacs.Document}
    (read : Dimacs.parse text = .ok document) {outcome : Outcome}
    (reached : outcome.Reached document.formula) (satisfiable : outcome.status = .satisfiable) :
    ∃ shown, lines outcome (some document.atomCount) = .ok shown ∧
      (shown.length : Int) = max document.atomCount 0 ∧
      (∀ index : Nat, 1 ≤ index → (index : Int) ≤ document.atomCount →
        shown[index - 1]? = some (toString index ++ ":TRUE") ∨
          shown[index - 1]? = some (toString index ++ ":FALSE")) ∧
      document.formula.Holds (reading shown) ∧
      (∀ index : Nat, 1 ≤ index → (index : Int) ≤ document.atomCount →
        (⟨toString index⟩ : Variable) ∉ document.formula.atoms →
          shown[index - 1]? = some (toString index ++ ":FALSE")) := by
  obtain ⟨clauses, holds⟩ := Dimacs.exists_holds_of_parse read
  obtain ⟨environment, found, solves⟩ := reached.solves satisfiable
  have declared := atoms_subset_declaredAtoms holds
  have known : environment.atoms ⊆ declaredAtoms document.atomCount :=
    fun atom bound => declared (solves.known bound)
  refine ⟨_, lines_of_satisfiable satisfiable found known holds.atomCount, ?_, ?_, ?_, ?_⟩
  · rw [List.length_map, declaredAtoms, List.length_map, List.length_range]
    exact Int.toNat_eq_max document.atomCount
  · intro index positive below
    rw [getElem?_lines positive below]
    cases environment.valuation ⟨toString index⟩ with
    | true => exact .inl (congrArg some (line_true _))
    | false => exact .inr (congrArg some (line_false _))
  · refine (Environment.holds_of_satisfies solves.satisfies).congr fun atom occurs => ?_
    exact (reading_lines (declared occurs)).symm
  · intro index positive below unused
    have unbound := Environment.get_of_not_mem fun bound => unused (solves.known bound)
    have value : environment.valuation ⟨toString index⟩ = false := by
      rw [Environment.valuation, unbound]
      rfl
    rw [getElem?_lines positive below, value, line_false]

/-- A clause over two of three declared variables, solved without completing the assignment. -/
theorem lines_show_solution_of_parse_unused :
    ∃ (document : Dimacs.Document) (outcome : Outcome) (shown : List String),
      Dimacs.parse "p cnf 3 1\n1 -2 0" = .ok document ∧ outcome.Reached document.formula ∧
        outcome.status = .satisfiable ∧ lines outcome (some document.atomCount) = .ok shown ∧
        shown.length = 3 ∧ document.formula.Holds (reading shown) ∧ shown[2]? = some "3:FALSE" := by
  let document : Dimacs.Document := ⟨Dimacs.ofIntegers [[1, -2]], 3, 1, []⟩
  let solver : Solver := ⟨Registry.backtrackingKind, [("complete_assignment", .bool false)], .map []⟩
  let kind : SolverKind := ⟨.backtracking, "dpll", none, true⟩
  have read : Dimacs.parse "p cnf 3 1\n1 -2 0" = .ok document := by decide
  obtain ⟨outcome, ran, verdict⟩ := Solver.verdict_runDpll solver kind document.formula 0
  have holds : document.formula.Holds fun _ => true := by decide
  have satisfiable : outcome.status = .satisfiable := verdict.satisfiable_iff.mpr ⟨_, holds⟩
  have reached : outcome.Reached document.formula := .run solver kind 0 0 ran
  obtain ⟨shown, reported, length, _, solved, unused⟩ :=
    lines_show_solution_of_parse read reached satisfiable
  refine ⟨document, outcome, shown, read, reached, satisfiable, reported, ?_, solved, ?_⟩
  · exact Int.ofNat.inj length
  · exact unused 3 (by decide) (by decide) (by decide)

end Report

end Clausal
