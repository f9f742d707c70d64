import Clausal.Proofs.RandomWalk.Course

/-!
Single steps of a walk. A scan makes nothing but undecided variables false, and stops at the first clause
that then has no true literal; all literals of this clause are false, so that flipping the variable of
whichever is chosen makes the clause hold.
-/

set_option autoImplicit false

namespace Clausal

namespace Environment

theorem eval_eq_undefined_iff {environment : Environment} {literal : Literal} :
    environment.eval literal = .undefined ↔ environment.get literal.atom = .undefined := by
  rw [eval]
  split
  · rfl
  · cases environment.get literal.atom <;> simp [Truth.negate]

/-- What is bound in a decided environment and not true is false. -/
theorem Decided.eval_eq_no {environment : Environment} {literal : Literal}
    (decided : environment.Decided) (bound : literal.atom ∈ environment.atoms)
    (fails : environment.eval literal ≠ .yes) : environment.eval literal = .no := by
  cases value : environment.eval literal with
  | yes => exact absurd value fails
  | no => rfl
  | undefined => exact absurd (eval_eq_undefined_iff.mp value) (decided.get_ne_undefined bound)

end Environment

namespace RandomWalk

/-- The environments from which a walk on the formula can scan, whatever is chosen. -/
inductive Reachable (formula : Formula) : Environment → Prop where
  | start : Reachable formula .empty
  | repaired {environment reached : Environment} {clause : Clause} {literal : Literal} :
      Reachable formula environment → scan environment formula.clauses = (reached, some clause) →
      literal ∈ clause.literals → Reachable formula (flip reached literal)

variable {environment reached : Environment} {formula : Formula} {clause : Clause}
  {literal : Literal}

theorem Reachable.valid (reachable : Reachable formula environment) : Valid formula environment := by
  induction reachable with
  | start => exact .empty formula
  | repaired _ scanned member ih =>
      obtain ⟨later, _, stopped⟩ := scan_formula ih scanned
      exact later.flip ((stopped _ rfl).2 _ member)

/-- The clause is the first of the formula without a true literal, and its literals are all false. -/
structure FirstRefuted (formula : Formula) (environment : Environment) (clause : Clause) : Prop where
  first : ∃ before after, formula.clauses = before ++ clause :: after ∧
    ∀ earlier ∈ before, environment.satisfiesClause earlier = true
  refuted : ∀ literal ∈ clause.literals, environment.eval literal = .no

/-- The later environment differs from the earlier one in the variable of the literal alone, which now makes
the clause hold. -/
structure Repairs (clause : Clause) (literal : Literal) (later earlier : Environment) : Prop where
  differs_iff : ∀ atom, later.get atom ≠ earlier.get atom ↔ atom = literal.atom
  atoms_eq : later.atoms = earlier.atoms
  decided : later.Decided
  eval_eq : later.eval literal = .yes
  satisfied : later.satisfiesClause clause = true

theorem FirstRefuted.negate_not_mem (refuted : FirstRefuted formula environment clause)
    (member : literal ∈ clause.literals) : literal.negate ∉ clause.literals := by
  intro opposed
  have value := refuted.refuted _ opposed
  rw [Environment.eval_negate, refuted.refuted literal member] at value
  cases value

theorem FirstRefuted.not_satisfies (refuted : FirstRefuted formula environment clause) :
    environment.satisfies formula = false := by
  obtain ⟨before, after, split, _⟩ := refuted.first
  refine Bool.eq_false_iff.mpr fun satisfied => ?_
  have member : clause ∈ formula.clauses := by simp [split]
  obtain ⟨literal, inside, isTrue⟩ :=
    Environment.satisfiesClause_iff.mp (Environment.satisfies_iff.mp satisfied clause member)
  rw [refuted.refuted literal inside] at isTrue
  cases isTrue

/-- A scan makes undecided variables of the formula false, and changes nothing else. -/
theorem get_scan_cases (valid : Valid formula environment) (atom : Variable) :
    (scan environment formula.clauses).1.get atom = environment.get atom ∨
      environment.get atom = .undefined ∧ (scan environment formula.clauses).1.get atom = .no ∧
        atom ∈ formula.atoms := by
  obtain ⟨⟨read, included, same⟩, _⟩ :=
    scan_spec valid.decided (fun _ => Formula.map_atom_subset_atoms) rfl
  rw [same]
  refine (environment.get_completeWith_cases read atom).imp_right fun changed => ?_
  exact ⟨changed.1, changed.2.1, included changed.2.2⟩

/-- A scan that stops has passed through the clauses before, and has found no true literal in the clause at
which it stops. -/
theorem exists_split_of_scan {clauses : List Clause}
    (scanned : scan environment clauses = (reached, some clause)) :
    ∃ before middle after, clauses = before ++ clause :: after ∧
      scan environment before = (middle, none) ∧
      scanLiterals middle clause.literals = (reached, false) := by
  induction clauses generalizing environment with
  | nil => cases scanned
  | cons first rest ih =>
      rw [scan] at scanned
      split at scanned
      · next committed passed =>
          obtain ⟨before, middle, after, rfl, begun, stopped⟩ := ih scanned
          refine ⟨first :: before, middle, after, rfl, ?_, stopped⟩
          rw [scan, passed]
          exact begun
      · next stopped =>
          cases scanned
          exact ⟨[], environment, rest, rfl, rfl, stopped⟩

/-- The clause at which a scan stops is the first one that has no true literal. -/
theorem firstRefuted_of_scan (valid : Valid formula environment)
    (scanned : scan environment formula.clauses = (reached, some clause)) :
    FirstRefuted formula reached clause := by
  obtain ⟨before, middle, after, split, passed, stopped⟩ := exists_split_of_scan scanned
  have inside : ∀ earlier ∈ before, earlier ∈ formula.clauses := fun _ member =>
    split ▸ List.mem_append_left _ member
  obtain ⟨begun, satisfied, _⟩ := scan_spec valid.decided
    (fun earlier member => Formula.map_atom_subset_atoms (inside earlier member)) passed
  have decided := begun.decided valid.decided
  obtain ⟨completed, _, bound⟩ := scanLiterals_spec decided stopped
  refine ⟨⟨before, after, split, fun earlier member => ?_⟩, fun literal member => ?_⟩
  · -- What the scan has passed stays satisfied while the last clause is read.
    exact completed.preserves.satisfiesClause (satisfied rfl earlier member)
  · refine (completed.decided decided).eval_eq_no (bound rfl literal member) fun isTrue => ?_
    obtain ⟨kept, fails⟩ := scanLiterals_eq middle clause.literals
    rw [stopped] at kept fails
    have holding := reached.admits_valuation.holds_of_eval isTrue
    rw [kept] at holding
    exact of_decide_eq_false fails.symm ⟨literal, member, holding⟩

theorem get_flip (environment : Environment) (literal : Literal) (atom : Variable) :
    (flip environment literal).get atom =
      if literal.atom = atom then (environment.get literal.atom).negate else environment.get atom :=
  environment.get_put literal.atom atom _

theorem eval_flip (environment : Environment) (literal : Literal) :
    (flip environment literal).eval literal = (environment.eval literal).negate := by
  rw [Environment.eval, Environment.eval, get_flip, if_pos rfl]
  split <;> rfl

/-- A false literal becomes true, and with it its clause. -/
theorem repairs_of_refuted (valid : Valid formula environment)
    (bound : literal.atom ∈ environment.atoms) (member : literal ∈ clause.literals)
    (refuted : environment.eval literal = .no) :
    Repairs clause literal (flip environment literal) environment where
  differs_iff := by
    intro atom
    have known := valid.decided.get_ne_undefined bound
    rw [get_flip]
    split
    · next same =>
        rw [← same]
        exact iff_of_true (fun unchanged => known (Truth.negate_eq_self_iff.mp unchanged)) rfl
    · next different => exact iff_of_false (fun changed => changed rfl) (Ne.symm different)
  atoms_eq := Assoc.keys_insert_of_mem bound _
  decided := (valid.flip bound).decided
  eval_eq := by rw [eval_flip, refuted, Truth.negate]
  satisfied := by
    refine Environment.satisfiesClause_iff.mpr ⟨literal, member, ?_⟩
    rw [eval_flip, refuted, Truth.negate]

/-- In every environment from which a walk on a formula without empty clauses scans, the scan makes at most
undecided variables of the formula false. It finds nothing exactly if all clauses are then satisfied, and
otherwise the first that is not; no variable of that clause is undecided, so it holds no literal beside its
negation. A flip then changes exactly one variable and makes the clause hold, whichever of its literals is
chosen, and a walk with a flip left goes on with the literal that is picked. -/
theorem walk_steps_repair (formula : Formula) (nonempty : formula.hasEmptyClause = false)
    (environment : Environment) (reachable : Reachable formula environment) :
    let reached := (scan environment formula.clauses).1
    let found := (scan environment formula.clauses).2
    (environment.Decided ∧ reached.Decided) ∧
      (∀ atom, reached.get atom = environment.get atom ∨
        environment.get atom = .undefined ∧ reached.get atom = .no ∧ atom ∈ formula.atoms) ∧
      (found = none ↔ reached.satisfies formula = true) ∧
      ∀ clause, found = some clause →
        FirstRefuted formula reached clause ∧
        (∀ literal ∈ clause.literals, literal.negate ∉ clause.literals) ∧
        (∀ literal ∈ clause.literals, Repairs clause literal (flip reached literal) reached) ∧
        ∃ filled : 0 < clause.literals.length,
          ∀ (State : Type) (chooser : Random.Chooser State) (remaining flips : Nat) (state : State),
            let (position, next) := chooser.pick state clause.literals.length filled
            walk chooser formula (remaining + 1) flips state environment =
              walk chooser formula remaining (flips + 1) next
                (flip reached (clause.literals.get position)) := by
  intro reached found
  have valid := reachable.valid
  have scanned : scan environment formula.clauses = (reached, found) := rfl
  obtain ⟨reachedValid, satisfied, stopped⟩ := scan_formula valid scanned
  have refuted : ∀ clause, found = some clause → FirstRefuted formula reached clause :=
    fun clause same => firstRefuted_of_scan valid (scanned.trans (congrArg _ same))
  refine ⟨⟨valid.decided, reachedValid.decided⟩, get_scan_cases valid, ⟨satisfied, fun holds => ?_⟩,
    fun clause same => ?_⟩
  · cases same : found with
    | none => rfl
    | some clause => exact Bool.noConfusion (holds.symm.trans (refuted clause same).not_satisfies)
  · have stops : scan environment formula.clauses = (reached, some clause) :=
      scanned.trans (congrArg _ same)
    have first := refuted clause same
    refine ⟨first, fun _ => first.negate_not_mem, fun literal inside => ?_,
      length_pos_of_scan valid nonempty stops, fun _ _ _ _ _ => walk_of_picked stops rfl⟩
    have bound := (stopped clause same).2 literal inside
    exact repairs_of_refuted reachedValid bound inside (first.refuted literal inside)

/-- After one repair the second clause fails, and either of its literals repairs it; the third is not read. -/
theorem walk_steps_repair_second :
    let x : Variable := ⟨"x"⟩
    let y : Variable := ⟨"y"⟩
    let z : Variable := ⟨"z"⟩
    let first : Clause := ⟨[⟨x, true⟩, ⟨y, true⟩], by decide⟩
    let second : Clause := ⟨[⟨x, false⟩, ⟨y, true⟩], by decide⟩
    let third : Clause := ⟨[⟨y, true⟩, ⟨z, false⟩], by decide⟩
    let formula : Formula := ⟨[first, second, third]⟩
    let environment : Environment := ⟨[(x, .yes), (y, .no)], by decide⟩
    formula.hasEmptyClause = false ∧ Reachable formula environment ∧
      scan environment formula.clauses = (environment, some second) ∧ environment.get z = .undefined ∧
      Repairs second ⟨x, false⟩ (flip environment ⟨x, false⟩) environment ∧
      Repairs second ⟨y, true⟩ (flip environment ⟨y, true⟩) environment := by
  intro x y z first second third formula environment
  have begun : scan .empty formula.clauses = (⟨[(x, .no), (y, .no)], by decide⟩, some first) := by decide
  have reachable : Reachable formula environment :=
    .repaired .start begun (List.mem_cons_self : (⟨x, true⟩ : Literal) ∈ first.literals)
  have scanned : scan environment formula.clauses = (environment, some second) := by decide
  obtain ⟨_, _, _, stops⟩ := walk_steps_repair formula (by decide) environment reachable
  obtain ⟨_, _, repairs, _⟩ := stops second (congrArg Prod.snd scanned)
  rw [scanned] at repairs
  exact ⟨by decide, reachable, scanned, by decide, repairs _ (by decide), repairs _ (by decide)⟩

end RandomWalk

end Clausal
