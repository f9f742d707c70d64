import Clausal.Proofs.Environment
import Clausal.Solver.RandomWalk

/-!
The random walk. A scan completes the environment with the variables that it reads, and a flip changes a
variable that was read; so the environment stays decided, and a walk ends with a solution or with no
flip left.
-/

set_option autoImplicit false

namespace Clausal.RandomWalk

variable {environment later : Environment} {literals : List Literal} {clauses : List Clause}
  {formula : Formula}

theorem commit_eq_completeWith (decided : environment.Decided) (atom : Variable) :
    commit environment atom = environment.completeWith [atom] := by
  rw [Environment.completeWith, List.foldl_cons, List.foldl_nil, commit]
  by_cases bound : environment.binds atom = true
  · rw [if_pos bound, if_neg (decided.get_ne_undefined (Environment.binds_iff.mp bound))]
  · rw [if_neg bound, if_pos]
    exact Environment.get_of_not_mem fun member => bound (Environment.binds_iff.mpr member)

theorem foldl_commit (decided : environment.Decided) (atoms : List Variable) :
    atoms.foldl commit environment = environment.completeWith atoms := by
  induction atoms generalizing environment with
  | nil => rfl
  | cons atom rest ih =>
      rw [List.foldl_cons, commit_eq_completeWith decided, ih (decided.completeWith [atom]),
        Environment.completeWith_completeWith, List.singleton_append]

/-- The later environment is the earlier one completed with some of the given variables. -/
def CompletedFrom (later earlier : Environment) (atoms : List Variable) : Prop :=
  ∃ read, read ⊆ atoms ∧ later = earlier.completeWith read

namespace CompletedFrom

variable {middle earlier : Environment} {atoms : List Variable}

theorem preserves (completed : CompletedFrom later earlier atoms) : later.Extends earlier := by
  obtain ⟨read, _, rfl⟩ := completed
  exact Environment.extends_completeWith earlier read

theorem decided (completed : CompletedFrom later earlier atoms) (decided : earlier.Decided) :
    later.Decided := by
  obtain ⟨read, _, rfl⟩ := completed
  exact decided.completeWith read

theorem known (completed : CompletedFrom later earlier atoms) {within : List Variable}
    (known : earlier.atoms ⊆ within) (inside : atoms ⊆ within) : later.atoms ⊆ within := by
  obtain ⟨read, included, rfl⟩ := completed
  intro atom member
  rcases Environment.mem_atoms_completeWith.mp member with bound | new
  · exact known bound
  · exact inside (included new)

theorem refl (environment : Environment) (atoms : List Variable) :
    CompletedFrom environment environment atoms :=
  ⟨[], List.nil_subset atoms, rfl⟩

theorem trans (second : CompletedFrom later middle atoms) (first : CompletedFrom middle earlier atoms) :
    CompletedFrom later earlier atoms := by
  obtain ⟨secondRead, secondIncluded, rfl⟩ := second
  obtain ⟨firstRead, firstIncluded, rfl⟩ := first
  exact ⟨firstRead ++ secondRead, List.append_subset.mpr ⟨firstIncluded, secondIncluded⟩,
    Environment.completeWith_completeWith earlier firstRead secondRead⟩

theorem mono {wider : List Variable} (completed : CompletedFrom later earlier atoms)
    (included : atoms ⊆ wider) : CompletedFrom later earlier wider := by
  obtain ⟨read, inside, same⟩ := completed
  exact ⟨read, fun _ member => included (inside member), same⟩

end CompletedFrom

theorem completedFrom_commit (decided : environment.Decided) (atom : Variable) :
    CompletedFrom (commit environment atom) environment [atom] :=
  ⟨[atom], List.Subset.refl _, commit_eq_completeWith decided atom⟩

/-- A scan of literals reads all of them, or stops at one that is true. -/
theorem scanLiterals_spec (decided : environment.Decided) {found : Bool}
    (scanned : scanLiterals environment literals = (later, found)) :
    CompletedFrom later environment (literals.map Literal.atom) ∧
      (found = true → ∃ literal ∈ literals, later.eval literal = .yes) ∧
      (found = false → ∀ literal ∈ literals, literal.atom ∈ later.atoms) := by
  induction literals generalizing environment with
  | nil =>
      cases scanned
      exact ⟨.refl _ _, Bool.noConfusion, fun _ => List.forall_mem_nil _⟩
  | cons literal rest ih =>
      have committed := completedFrom_commit decided literal.atom
      have widened : CompletedFrom _ environment ((literal :: rest).map Literal.atom) :=
        committed.mono (by simp)
      rw [scanLiterals] at scanned
      split at scanned
      · next isTrue =>
          cases scanned
          exact ⟨widened, fun _ => ⟨literal, List.mem_cons_self, isTrue⟩, Bool.noConfusion⟩
      · obtain ⟨completed, satisfied, bound⟩ := ih (committed.decided decided) scanned
        refine ⟨(completed.mono (List.subset_cons_self _ _)).trans widened, ?_, ?_⟩
        · intro isTrue
          obtain ⟨other, member, evaluated⟩ := satisfied isTrue
          exact ⟨other, List.mem_cons_of_mem _ member, evaluated⟩
        · intro isFalse other member
          rcases List.mem_cons.mp member with rfl | member
          · obtain ⟨read, _, rfl⟩ := completed
            refine Environment.mem_atoms_completeWith.mpr (.inl ?_)
            rw [commit_eq_completeWith decided]
            exact Environment.mem_atoms_completeWith.mpr (.inr List.mem_cons_self)
          · exact bound isFalse other member

/-- A scan of clauses satisfies all of them, or stops at one whose variables are bound. -/
theorem scan_spec (decided : environment.Decided) {atoms : List Variable}
    (within : ∀ clause ∈ clauses, clause.literals.map Literal.atom ⊆ atoms) {found : Option Clause}
    (scanned : scan environment clauses = (later, found)) :
    CompletedFrom later environment atoms ∧
      (found = none → ∀ clause ∈ clauses, later.satisfiesClause clause = true) ∧
      (∀ clause, found = some clause →
        clause ∈ clauses ∧ ∀ literal ∈ clause.literals, literal.atom ∈ later.atoms) := by
  induction clauses generalizing environment with
  | nil =>
      cases scanned
      exact ⟨.refl _ _, fun _ => List.forall_mem_nil _, nofun⟩
  | cons clause rest ih =>
      obtain ⟨first, others⟩ := List.forall_mem_cons.mp within
      rw [scan] at scanned
      split at scanned
      · next middle literalsScanned =>
          obtain ⟨begun, satisfied, _⟩ := scanLiterals_spec decided literalsScanned
          obtain ⟨completed, all, stopped⟩ := ih (begun.decided decided) others scanned
          refine ⟨completed.trans (begun.mono first), ?_, ?_⟩
          · intro finished
            obtain ⟨literal, member, evaluated⟩ := satisfied rfl
            -- What the first clause was satisfied by stays true to the end of the scan.
            refine List.forall_mem_cons.mpr ⟨?_, all finished⟩
            exact completed.preserves.satisfiesClause
              (Environment.satisfiesClause_iff.mpr ⟨literal, member, evaluated⟩)
          · intro other same
            obtain ⟨member, bound⟩ := stopped other same
            exact ⟨List.mem_cons_of_mem _ member, bound⟩
      · next literalsScanned =>
          cases scanned
          obtain ⟨begun, _, bound⟩ := scanLiterals_spec decided literalsScanned
          refine ⟨begun.mono first, nofun, ?_⟩
          intro other same
          cases same
          exact ⟨List.mem_cons_self, bound rfl⟩

/-- What every flip maintains. -/
structure Valid (formula : Formula) (environment : Environment) : Prop where
  decided : environment.Decided
  known : environment.atoms ⊆ formula.atoms

namespace Valid

theorem empty (formula : Formula) : Valid formula .empty where
  decided := fun _ member => by cases member
  known := List.nil_subset _

theorem completed (valid : Valid formula environment)
    (completed : CompletedFrom later environment formula.atoms) : Valid formula later where
  decided := completed.decided valid.decided
  known := completed.known valid.known (List.Subset.refl _)

theorem flip (valid : Valid formula environment) {literal : Literal}
    (bound : literal.atom ∈ environment.atoms) :
    Valid formula (RandomWalk.flip environment literal) where
  decided := by
    have value := valid.decided.get_ne_undefined bound
    refine valid.decided.put_known fun undecided => value ?_
    rw [← Truth.negate_negate (environment.get literal.atom), undecided]
    rfl
  known := by
    intro atom member
    rcases Assoc.mem_keys_insert.mp member with rfl | old
    · exact valid.known bound
    · exact valid.known old

end Valid

/-- What makes an answer right. The walk may give up only when all flips are used. -/
inductive Answer.Correct (formula : Formula) (limit : Nat) : Answer → Prop where
  | satisfied {environment : Environment} {flips : Nat} :
      environment.Solves formula → environment.atoms.Perm formula.atoms → flips ≤ limit →
      Correct formula limit (.satisfied environment flips)
  | exhausted : formula.hasEmptyClause = false → Correct formula limit (.exhausted limit)
  | emptyClause : formula.hasEmptyClause = true → Correct formula limit .emptyClause

theorem scan_formula (valid : Valid formula environment) {found : Option Clause}
    (scanned : scan environment formula.clauses = (later, found)) :
    Valid formula later ∧ (found = none → later.satisfies formula = true) ∧
      (∀ clause, found = some clause →
        clause ∈ formula.clauses ∧ ∀ literal ∈ clause.literals, literal.atom ∈ later.atoms) := by
  obtain ⟨completed, satisfied, stopped⟩ := scan_spec valid.decided (fun _ => Formula.map_atom_subset_atoms) scanned
  exact ⟨valid.completed completed, fun finished => Environment.satisfies_iff.mpr (satisfied finished),
    stopped⟩

/-- When all clauses hold, completion makes a solution of the environment. -/
theorem satisfied_correct (valid : Valid formula environment)
    (scanned : scan environment formula.clauses = (later, none)) {flips limit : Nat}
    (within : flips ≤ limit) :
    (Answer.satisfied (formula.atoms.foldl commit later) flips).Correct formula limit := by
  obtain ⟨laterValid, satisfied, _⟩ := scan_formula valid scanned
  have solves : later.Solves formula := ⟨satisfied rfl, laterValid.decided, laterValid.known⟩
  rw [foldl_commit laterValid.decided]
  exact .satisfied solves.completeWith (Environment.atoms_completeWith_perm solves.known) within

/-- The clause at which a scan stops has a literal to flip. -/
theorem length_pos_of_scan (valid : Valid formula environment)
    (nonempty : formula.hasEmptyClause = false) {clause : Clause}
    (scanned : scan environment formula.clauses = (later, some clause)) :
    0 < clause.literals.length := by
  obtain ⟨_, _, stopped⟩ := scan_formula valid scanned
  exact List.length_pos_iff.mpr (Formula.literals_ne_nil nonempty (stopped clause rfl).1)

/-! What a walk does after a scan. -/

section Steps

variable {State : Type} {chooser : Random.Chooser State} {remaining flips : Nat} {state next : State}
  {reached : Environment} {clause : Clause}

theorem walk_of_satisfied (found : scan environment formula.clauses = (reached, none)) :
    walk chooser formula remaining flips state environment =
      .satisfied (formula.atoms.foldl commit reached) flips := by
  rw [walk, found]

theorem walk_of_empty (found : scan environment formula.clauses = (reached, some clause))
    (empty : ¬ 0 < clause.literals.length) :
    walk chooser formula remaining flips state environment = .emptyClause := by
  rw [walk, found]
  exact dif_neg empty

theorem walk_of_exhausted (found : scan environment formula.clauses = (reached, some clause))
    (nonempty : 0 < clause.literals.length) :
    walk chooser formula 0 flips state environment = .exhausted flips := by
  rw [walk, found]
  exact dif_pos nonempty

theorem walk_of_picked (found : scan environment formula.clauses = (reached, some clause))
    {nonempty : 0 < clause.literals.length} {position : Fin clause.literals.length}
    (picked : chooser.pick state clause.literals.length nonempty = (position, next)) :
    walk chooser formula (remaining + 1) flips state environment =
      walk chooser formula remaining (flips + 1) next (flip reached (clause.literals.get position)) := by
  rw [walk, found]
  simp only [dif_pos nonempty, picked]

end Steps

/-- A walk that starts with the given flips made and the given flips remaining. -/
theorem walk_correct {State : Type} (chooser : Random.Chooser State) {remaining flips : Nat}
    {state : State} (valid : Valid formula environment) (nonempty : formula.hasEmptyClause = false) :
    (walk chooser formula remaining flips state environment).Correct formula (flips + remaining) := by
  induction remaining generalizing flips state environment with
  | zero =>
      rw [walk]
      split
      · next scanned result => exact satisfied_correct valid result (Nat.le_refl _)
      · next scanned clause result =>
          rw [dif_pos (length_pos_of_scan valid nonempty result)]
          exact .exhausted nonempty
  | succ remaining ih =>
      rw [walk]
      split
      · next scanned result => exact satisfied_correct valid result (Nat.le_add_right _ _)
      · next scanned clause result =>
          rw [dif_pos (length_pos_of_scan valid nonempty result)]
          obtain ⟨scannedValid, _, stopped⟩ := scan_formula valid result
          obtain ⟨_, bound⟩ := stopped clause rfl
          rw [← Nat.succ_add_eq_add_succ]
          exact ih (scannedValid.flip (bound _ (List.get_mem _ _)))

theorem solve_correct {State : Type} (chooser : Random.Chooser State) (start : State) (limit : Nat)
    (formula : Formula) : (solve chooser start limit formula).Correct formula limit := by
  unfold solve
  split
  · next empty => exact .emptyClause empty
  · next nonempty =>
      have correct : (walk chooser formula limit 0 start Environment.empty).Correct formula (0 + limit) :=
        walk_correct chooser (.empty formula) (Bool.eq_false_iff.mpr nonempty)
      rwa [Nat.zero_add] at correct

end Clausal.RandomWalk
