import Clausal.Proofs.Report.Solutions
import Clausal.Proofs.Text.Name

/-!
The lines on a solution, whatever its variables are called: one for each variable, in the order of numeric
names by value and all other names by code point. There are none if a name is made of digits that form no
numeral.
-/

set_option autoImplicit false

namespace Clausal.Report

variable {environment : Environment} {count : Int} {left right atom : Variable}

/-- A name that is made of digits is a numeral. -/
def Legible (atom : Variable) : Prop :=
  Text.isNumeric atom.name.toList = true → Text.IsNumeral atom.name.toList

/-- Numeric names stand in front, by value; the other names follow by code point, none twice. -/
def Precedes (left right : Variable) : Prop :=
  match Text.isNumeric left.name.toList, Text.isNumeric right.name.toList with
  | true, true => Text.digitsValue left.name.toList ≤ Text.digitsValue right.name.toList
  | true, false => True
  | false, true => False
  | false, false => left.name < right.name

/-! Keys of legible names. -/

def legibleKey (atom : Variable) : Key :=
  if Text.isNumeric atom.name.toList then .numeric (Text.digitsValue atom.name.toList) else .named atom.name

theorem keyOf_of_legible (legible : Legible atom) : keyOf atom = .ok (legibleKey atom) := by
  rw [keyOf, legibleKey]
  split
  · next numeric =>
      rw [Text.readInteger_of_isNumeric numeric, if_pos (legible numeric)]
      rfl
  · rfl

theorem keyOf_of_not_legible (illegible : ¬ Legible atom) :
    keyOf atom = .error (Text.nameFault atom.name.toList) := by
  obtain ⟨numeric, refused⟩ := Classical.not_imp.mp illegible
  rw [keyOf, if_pos numeric, Text.readInteger_of_isNumeric numeric, if_neg refused]
  rfl

theorem precedes_of_le (different : left ≠ right)
    (below : (legibleKey left).le (legibleKey right) = true) : Precedes left right := by
  -- A variable is its name, so that names by code point are in strict order.
  have names : left.name ≠ right.name := fun same => different (congrArg Variable.mk same)
  unfold legibleKey at below
  unfold Precedes
  cases leftNumeric : Text.isNumeric left.name.toList <;>
    cases rightNumeric : Text.isNumeric right.name.toList <;>
    simp only [leftNumeric, rightNumeric, Key.le, Bool.false_eq_true, if_true, if_false,
      decide_eq_true_eq, Int.ofNat_le] at below ⊢
  · exact String.not_le.mp fun above => names (String.le_antisymm below above)
  · exact below

/-! Entries in any order. -/

def inOrder (atoms : List Variable) : List Variable :=
  atoms.mergeSort fun left right => (legibleKey left).le (legibleKey right)

theorem pairwise_inOrder {atoms : List Variable} (distinct : atoms.Nodup) :
    (inOrder atoms).Pairwise Precedes := by
  have ordered : (inOrder atoms).Pairwise fun left right =>
      (legibleKey left).le (legibleKey right) = true :=
    List.pairwise_mergeSort
      (fun first second third => Key.le_trans (legibleKey first) (legibleKey second) (legibleKey third))
      (fun left right => Key.le_total (legibleKey left) (legibleKey right)) atoms
  have apart : (inOrder atoms).Nodup := (List.mergeSort_perm atoms _).nodup_iff.mpr distinct
  exact ordered.imp₂ (fun _ _ below different => precedes_of_le different below) apart

theorem assignmentLines_of_legible {atoms : List Variable} (legible : ∀ atom ∈ atoms, Legible atom)
    (valuation : Valuation) :
    assignmentLines (atoms.map fun atom => (atom, valuation atom)) =
      .ok ((inOrder atoms).map fun atom => line atom (valuation atom)) := by
  have keyed : ∀ entry ∈ atoms.map fun atom => (atom, valuation atom), ∃ key, keyOf entry.1 = .ok key := by
    rintro entry member
    obtain ⟨atom, listed, rfl⟩ := List.mem_map.mp member
    exact ⟨_, keyOf_of_legible (legible atom listed)⟩
  have keys : (atoms.map fun atom => (atom, valuation atom)).map withKey =
      atoms.map fun atom => (legibleKey atom, atom, valuation atom) := by
    rw [List.map_map]
    refine List.map_congr_left fun atom listed => ?_
    rw [Function.comp_apply, withKey, keyOf_of_legible (legible atom listed)]
    rfl
  have sorted : (atoms.map fun atom => (legibleKey atom, atom, valuation atom)).mergeSort
      (fun left right => left.1.le right.1) =
        (inOrder atoms).map fun atom => (legibleKey atom, atom, valuation atom) :=
    (List.map_mergeSort (f := fun atom => (legibleKey atom, atom, valuation atom))
      (s := fun left right => left.1.le right.1) fun _ _ _ _ => rfl).symm
  rw [assignmentLines_of_keyed keyed, keys, sorted, List.map_map]
  rfl

theorem assignmentLines_of_not_legible {before behind : List Variable}
    (legible : ∀ other ∈ before, Legible other) (illegible : ¬ Legible atom) (valuation : Valuation) :
    assignmentLines ((before ++ atom :: behind).map fun atom => (atom, valuation atom)) =
      .error (Text.nameFault atom.name.toList) := by
  have earlier : ∀ entry ∈ before.map fun atom => (atom, valuation atom),
      ∃ value, ((keyOf entry.1).map fun key => (key, entry)) = .ok value := by
    rintro entry member
    obtain ⟨other, listed, rfl⟩ := List.mem_map.mp member
    exact ⟨_, congrArg _ (keyOf_of_legible (legible other listed))⟩
  have failed : ((keyOf atom).map fun key => (key, atom, valuation atom)) =
      .error (Text.nameFault atom.name.toList) := congrArg _ (keyOf_of_not_legible illegible)
  rw [assignmentLines, List.map_append, List.map_cons, mapM_eq_error earlier failed]
  rfl

/-! Solutions. -/

/-- The variables that are shown: those that are bound, and the declared ones that are not. -/
def shownAtoms (count : Int) (environment : Environment) : List Variable :=
  environment.atoms ++ absentAtoms count environment.decided

theorem keys_decided (decided : environment.Decided) :
    Assoc.keys environment.decided = environment.atoms := by
  rw [decided.decided_eq, Assoc.keys, List.map_map]
  exact List.map_id _

theorem mem_shownAtoms_iff (decided : environment.Decided) :
    atom ∈ shownAtoms count environment ↔ atom ∈ environment.atoms ∨ atom ∈ declaredAtoms count := by
  rw [shownAtoms, List.mem_append, mem_absentAtoms_iff, keys_decided decided]
  constructor
  · exact Or.imp_right And.left
  · rintro (bound | listed)
    · exact .inl bound
    · exact (Classical.em _).imp_right fun free => ⟨listed, free⟩

theorem nodup_shownAtoms (decided : environment.Decided) : (shownAtoms count environment).Nodup := by
  refine List.nodup_append.mpr ⟨environment.nodup_atoms, (nodup_declaredAtoms count).filter _, ?_⟩
  rintro atom bound other absent rfl
  exact (mem_absentAtoms_iff.mp absent).2 (keys_decided decided ▸ bound)

/-- All entries have the values of the environment, in which what is not bound is false. -/
theorem withDeclared_decided (decided : environment.Decided) :
    withDeclared count environment.decided =
      (shownAtoms count environment).map fun atom => (atom, environment.valuation atom) := by
  have absent : ∀ atom ∈ absentAtoms count environment.decided,
      (atom, false) = (atom, environment.valuation atom) := fun atom member =>
    congrArg (Prod.mk atom) (valuation_of_not_mem_keys (mem_absentAtoms_iff.mp member).2).symm
  rw [withDeclared_eq, shownAtoms, List.map_append, List.map_congr_left absent, ← decided.decided_eq]

/-- What a solver finds is shown in one line for each variable that is bound or declared, numeric names first
and by value, if all names that are made of digits are numerals. The first name that is none is reported
otherwise, and no line is shown. -/
theorem lines_follow_names {formula : Formula} {outcome : Outcome} (reached : outcome.Reached formula)
    (satisfiable : outcome.status = .satisfiable) (declared : Option Int) :
    ∃ environment, outcome.environment = some environment ∧ environment.Solves formula ∧
      let shown := shownAtoms (declared.getD 0) environment
      shown.Nodup ∧
      (∀ atom, atom ∈ shown ↔ atom ∈ environment.atoms ∨ atom ∈ declaredAtoms (declared.getD 0)) ∧
      ((∀ atom ∈ shown, Legible atom) → ∃ order : List Variable, order.Perm shown ∧
        order.Pairwise Precedes ∧
        lines outcome declared = .ok (order.map fun atom => line atom (environment.valuation atom))) ∧
      ∀ before atom behind, shown = before ++ atom :: behind → (∀ other ∈ before, Legible other) →
        ¬ Legible atom → lines outcome declared = .error (Text.nameFault atom.name.toList) := by
  obtain ⟨environment, found, solves⟩ := reached.solves satisfiable
  have whole := (lines_of_found satisfiable found declared).trans
    (congrArg assignmentLines (withDeclared_decided solves.decided))
  have distinct : (shownAtoms (declared.getD 0) environment).Nodup := nodup_shownAtoms solves.decided
  refine ⟨environment, found, solves, distinct, fun atom => mem_shownAtoms_iff solves.decided,
    fun legible => ?_, fun before atom behind split legible illegible => ?_⟩
  · exact ⟨_, List.mergeSort_perm _ _, pairwise_inOrder distinct,
      whole.trans (assignmentLines_of_legible legible _)⟩
  · rw [whole, split]
    exact assignmentLines_of_not_legible legible illegible _

/-- A variable that is called by a superscript two has a value but no line. -/
theorem lines_follow_names_superscript :
    let atom : Variable := ⟨"\u00b2"⟩
    let formula : Formula := ⟨[⟨[⟨atom, true⟩], by decide⟩]⟩
    ∃ outcome environment, outcome.Reached formula ∧ outcome.status = .satisfiable ∧
      outcome.environment = some environment ∧ environment.atoms = [atom] ∧
      lines outcome none = .error (.malformed atom.name) := by
  intro atom formula
  let solver : Solver := ⟨Registry.backtrackingKind, [], .map []⟩
  let kind : SolverKind := ⟨.backtracking, "dpll", none, true⟩
  obtain ⟨outcome, ran, verdict⟩ := Solver.verdict_runDpll solver kind formula 0
  have holds : formula.Holds fun _ => true := by decide
  have satisfiable : outcome.status = .satisfiable := verdict.satisfiable_iff.mpr ⟨_, holds⟩
  have reached : outcome.Reached formula := .run solver kind 0 0 ran
  obtain ⟨environment, found, solves, distinct, members, _, refused⟩ :=
    lines_follow_names reached satisfiable none
  have single : ∀ atoms : List Variable, atoms.Nodup → (∀ other, other ∈ atoms ↔ other = atom) →
      atoms = [atom] := fun atoms apart same =>
    List.perm_singleton.mp ((List.perm_ext_iff_of_nodup apart (List.nodup_singleton atom)).mpr
      (by simpa using same))
  have occurring : formula.atoms = [atom] := by decide
  have bound : ∀ other, other ∈ environment.atoms ↔ other = atom := by
    refine fun other => ⟨fun member => List.mem_singleton.mp (occurring ▸ solves.known member), ?_⟩
    rintro rfl
    refine Classical.by_contradiction fun free => ?_
    have unbound : environment.valuation atom = false := by
      rw [Environment.valuation, Environment.get_of_not_mem free]
      rfl
    have value : environment.valuation atom = true := by
      simpa [formula, Formula.Holds, Clause.Holds, Literal.Holds] using
        Environment.holds_of_satisfies solves.satisfies
    cases unbound.symm.trans value
  have whole := single _ distinct fun other => (members other).trans (by rw [bound]; simp [declaredAtoms])
  refine ⟨outcome, environment, reached, satisfiable, found,
    single environment.atoms environment.nodup_atoms bound, ?_⟩
  have fault : Text.nameFault atom.name.toList = .malformed atom.name := by decide
  have illegible : ¬ Legible atom := fun legible => by
    have decimal := (legible (by decide)).decimal '\u00b2' (by decide)
    exact absurd decimal (by decide)
  exact fault ▸ refused [] atom [] whole (List.forall_mem_nil _) illegible

end Clausal.Report
