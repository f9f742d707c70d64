import Clausal.Proofs.Environment
import Clausal.Proofs.Fallible
import Clausal.Proofs.Text.Numeral
import Clausal.Report

/-!
The lines on an assignment of declared variables: there is one for each of them, in numeric order, and
it shows the value of the variable, which is false where the assignment leaves it out.
-/

set_option autoImplicit false

namespace Clausal.Report

variable {environment : Environment} {count : Int} {index : Nat}

/-! The declared variables and their keys. -/

def declaredAtoms (count : Int) : List Variable := (List.range count.toNat).map declaredAtom

theorem declaredAtom_inj {left right : Nat} (same : declaredAtom left = declaredAtom right) :
    left = right := by
  have numerals : (toString (left + 1)).toList = (toString (right + 1)).toList :=
    congrArg (fun atom : Variable => atom.name.toList) same
  rw [Text.toList_toString_natCast, Text.toList_toString_natCast] at numerals
  have numbers := congrArg (fun digits => Nat.ofDigitChars 10 digits 0) numerals
  simp only [Nat.ofDigitChars_ten_toDigits] at numbers
  exact Nat.succ.inj numbers

theorem nodup_declaredAtoms (count : Int) : (declaredAtoms count).Nodup :=
  List.pairwise_map.mpr (List.nodup_range.imp fun different same => different (declaredAtom_inj same))

theorem isNumeric_toString (number : Nat) : Text.isNumeric (toString number).toList = true := by
  have digits : ∀ character ∈ Nat.toDigits 10 number, Text.isDigit character = true :=
    fun _ member => Text.digit_of_isDigit (Text.isDigit_of_mem_toDigits member)
  have nonempty : (Nat.toDigits 10 number).isEmpty = false :=
    List.isEmpty_eq_false_iff.mpr Nat.toDigits_ne_nil
  rw [Text.toList_toString_natCast, Text.isNumeric, nonempty, List.all_eq_true.mpr digits]
  rfl

theorem keyOf_toString {number : Nat} (fits : Text.Fits number) :
    keyOf ⟨toString number⟩ = .ok (.numeric number) := by
  rw [keyOf, if_pos (isNumeric_toString number), Text.readInteger_toString_natCast fits]
  rfl

theorem keyOf_declaredAtom (fits : Text.Fits count) (below : index < count.toNat) :
    keyOf (declaredAtom index) = .ok (.numeric ((index + 1 : Nat) : Int)) :=
  keyOf_toString (fits.of_natAbs_le (by omega))

/-! The entries before they are sorted. -/

theorem valuation_of_mem_decided {atom : Variable} {value : Bool}
    (member : (atom, value) ∈ environment.decided) : environment.valuation atom = value := by
  rw [Environment.valuation, Environment.mem_decided_iff.mp member]
  cases value <;> rfl

theorem valuation_of_not_mem_keys {atom : Variable}
    (absent : atom ∉ Assoc.keys environment.decided) : environment.valuation atom = false := by
  refine Bool.eq_false_iff.mpr fun holds => absent ?_
  have decided : (atom, true) ∈ environment.decided := Environment.mem_decided_iff.mpr (eq_of_beq holds)
  exact List.mem_map_of_mem decided

/-- The declared variables that have no value yet. -/
def absentAtoms (count : Int) (assignment : List (Variable × Bool)) : List Variable :=
  (declaredAtoms count).filter fun atom => !Assoc.contains atom assignment

theorem mem_absentAtoms_iff {assignment : List (Variable × Bool)} {atom : Variable} :
    atom ∈ absentAtoms count assignment ↔
      atom ∈ declaredAtoms count ∧ atom ∉ Assoc.keys assignment := by
  rw [absentAtoms, List.mem_filter, Bool.not_eq_true', ← Assoc.contains_iff, Bool.not_eq_true]

theorem withDeclared_eq (count : Int) (assignment : List (Variable × Bool)) :
    withDeclared count assignment =
      assignment ++ (absentAtoms count assignment).map fun atom => (atom, false) := rfl

theorem keys_withDeclared_perm {assignment : List (Variable × Bool)}
    (distinct : (Assoc.keys assignment).Nodup) (known : Assoc.keys assignment ⊆ declaredAtoms count) :
    (Assoc.keys (withDeclared count assignment)).Perm (declaredAtoms count) := by
  have keys : Assoc.keys (withDeclared count assignment) =
      Assoc.keys assignment ++ absentAtoms count assignment := by
    rw [withDeclared_eq, Assoc.keys, List.map_append, List.map_map]
    exact congrArg (Assoc.keys assignment ++ ·) (List.map_id _)
  have whole : (Assoc.keys assignment ++ absentAtoms count assignment).Nodup := by
    refine List.nodup_append.mpr ⟨distinct, (nodup_declaredAtoms count).filter _, ?_⟩
    rintro atom assigned other absent rfl
    exact (mem_absentAtoms_iff.mp absent).2 assigned
  rw [keys]
  refine (List.perm_ext_iff_of_nodup whole (nodup_declaredAtoms count)).mpr fun atom => ?_
  rw [List.mem_append, mem_absentAtoms_iff]
  constructor
  · rintro (assigned | ⟨declared, _⟩)
    · exact known assigned
    · exact declared
  · intro declared
    by_cases assigned : atom ∈ Assoc.keys assignment
    · exact .inl assigned
    · exact .inr ⟨declared, assigned⟩

/-- Each declared variable has one entry, with its value in the environment. -/
theorem withDeclared_perm (known : environment.atoms ⊆ declaredAtoms count) :
    (withDeclared count environment.decided).Perm
      ((declaredAtoms count).map fun atom => (atom, environment.valuation atom)) := by
  have assigned := environment.keys_decided_sublist
  have values : ∀ entry ∈ withDeclared count environment.decided,
      (entry.1, environment.valuation entry.1) = entry := by
    rintro ⟨atom, value⟩ member
    rw [withDeclared_eq] at member
    rcases List.mem_append.mp member with decided | completed
    · exact congrArg (Prod.mk atom) (valuation_of_mem_decided decided)
    · obtain ⟨atom, absent, same⟩ := List.mem_map.mp completed
      cases same
      exact congrArg (Prod.mk atom) (valuation_of_not_mem_keys (mem_absentAtoms_iff.mp absent).2)
  have entries : (Assoc.keys (withDeclared count environment.decided)).map
      (fun atom => (atom, environment.valuation atom)) = withDeclared count environment.decided := by
    rw [Assoc.keys, List.map_map]
    exact (List.map_congr_left values).trans (List.map_id _)
  rw [← entries]
  exact (keys_withDeclared_perm (environment.nodup_atoms.sublist assigned)
    fun atom member => known (assigned.subset member)).map _

/-! Sorting. -/

theorem Key.le_trans (first second third : Key) (lower : first.le second = true)
    (upper : second.le third = true) : first.le third = true := by
  cases first <;> cases second <;> cases third <;>
    simp only [Key.le, decide_eq_true_eq, Bool.false_eq_true] at lower upper ⊢
  · exact Int.le_trans lower upper
  · exact String.le_trans lower upper

theorem Key.le_total (left right : Key) : (left.le right || right.le left) = true := by
  cases left <;> cases right <;> simp only [Key.le, Bool.or_eq_true, decide_eq_true_eq, or_true, true_or]
  · exact Int.le_total _ _
  · exact String.le_total _ _

/-- The entry of a declared variable, with its key. -/
def keyedEntry (valuation : Valuation) (index : Nat) : Key × Variable × Bool :=
  (.numeric ((index + 1 : Nat) : Int), declaredAtom index, valuation (declaredAtom index))

/-- No two entries have the same key, so that there is one way to sort them. -/
theorem mergeSort_of_perm {entries : List (Key × Variable × Bool)} {valuation : Valuation} {number : Nat}
    (perm : entries.Perm ((List.range number).map (keyedEntry valuation))) :
    entries.mergeSort (fun left right => left.1.le right.1) =
      (List.range number).map (keyedEntry valuation) := by
  have ordered : ((List.range number).map (keyedEntry valuation)).Pairwise
      fun left right => left.1.le right.1 = true := by
    refine List.pairwise_map.mpr (List.pairwise_lt_range.imp fun {left right} lower => ?_)
    exact decide_eq_true (by omega)
  refine List.Perm.eq_of_pairwise ?_ (List.pairwise_mergeSort ?_ ?_ entries) ordered
    ((List.mergeSort_perm entries _).trans perm)
  · intro left right inSorted inExpected lower upper
    obtain ⟨first, _, rfl⟩ := List.mem_map.mp (perm.mem_iff.mp (List.mem_mergeSort.mp inSorted))
    obtain ⟨second, _, rfl⟩ := List.mem_map.mp inExpected
    have below := of_decide_eq_true lower
    have above := of_decide_eq_true upper
    have same : first = second := by omega
    rw [same]
  · exact fun first second third => Key.le_trans first.1 second.1 third.1
  · exact fun left right => Key.le_total left.1 right.1

/-- An entry with its key; the key is left open where there is none. -/
def withKey (entry : Variable × Bool) : Key × Variable × Bool :=
  ((keyOf entry.1).toOption.getD (.numeric 0), entry)

theorem withKey_declaredAtom (fits : Text.Fits count) (valuation : Valuation)
    (below : index < count.toNat) :
    withKey (declaredAtom index, valuation (declaredAtom index)) = keyedEntry valuation index := by
  rw [withKey, keyOf_declaredAtom fits below]
  rfl

/-- Where every name has a key, the entries are shown in the order of the keys. -/
theorem assignmentLines_of_keyed {entries : List (Variable × Bool)}
    (keyed : ∀ entry ∈ entries, ∃ key, keyOf entry.1 = .ok key) :
    assignmentLines entries =
      .ok (((entries.map withKey).mergeSort fun left right => left.1.le right.1).map
        fun (_, atom, value) => line atom value) := by
  have computed : entries.mapM (fun entry => (keyOf entry.1).map fun found => (found, entry)) =
      pure (entries.map withKey) := by
    refine mapM_eq_pure fun entry member => ?_
    obtain ⟨key, found⟩ := keyed entry member
    rw [withKey, found]
    rfl
  rw [assignmentLines, computed]
  rfl

/-- Entries of the declared variables, in whatever order, are shown in numeric order. -/
theorem assignmentLines_of_perm {entries : List (Variable × Bool)} {valuation : Valuation}
    (perm : entries.Perm ((declaredAtoms count).map fun atom => (atom, valuation atom)))
    (fits : Text.Fits count) :
    assignmentLines entries =
      .ok ((declaredAtoms count).map fun atom => line atom (valuation atom)) := by
  have declared : ∀ entry ∈ entries, ∃ key, keyOf entry.1 = .ok key := by
    intro entry member
    obtain ⟨atom, listed, rfl⟩ := List.mem_map.mp (perm.mem_iff.mp member)
    obtain ⟨index, below, rfl⟩ := List.mem_map.mp listed
    exact ⟨_, keyOf_declaredAtom fits (List.mem_range.mp below)⟩
  have keyed : (entries.map withKey).Perm ((List.range count.toNat).map (keyedEntry valuation)) := by
    refine (perm.map withKey).trans (.of_eq ?_)
    rw [declaredAtoms, List.map_map, List.map_map]
    exact List.map_congr_left fun index below =>
      withKey_declaredAtom fits valuation (List.mem_range.mp below)
  rw [assignmentLines_of_keyed declared, mergeSort_of_perm keyed, declaredAtoms, List.map_map, List.map_map]
  rfl

theorem lines_of_found {outcome : Outcome} (satisfiable : outcome.status = .satisfiable)
    (found : outcome.environment = some environment) (declared : Option Int) :
    lines outcome declared = assignmentLines (withDeclared (declared.getD 0) environment.decided) := by
  have assigned : outcome.assignment? = some environment.decided := by
    rw [Outcome.assignment?, satisfiable, found]
    rfl
  have other : outcome.isUnsatisfiable = false := by
    rw [Outcome.isUnsatisfiable, satisfiable]
    rfl
  rw [lines, other, assigned]
  rfl

/-- The lines on what was found are those of the declared variables. -/
theorem lines_of_satisfiable {outcome : Outcome} (satisfiable : outcome.status = .satisfiable)
    (found : outcome.environment = some environment)
    (known : environment.atoms ⊆ declaredAtoms count) (fits : Text.Fits count) :
    lines outcome (some count) =
      .ok ((declaredAtoms count).map fun atom => line atom (environment.valuation atom)) := by
  rw [lines_of_found satisfiable found]
  exact assignmentLines_of_perm (withDeclared_perm known) fits

end Clausal.Report
