import Clausal.Proofs.Assoc
import Clausal.Valuation

/-!
Environments as mappings and as lists: what bindings read, what new bindings leave alone, and the
valuations that decided environments stand for.
-/

set_option autoImplicit false

namespace Clausal

@[simp] theorem Truth.decided?_ofBool (value : Bool) : (ofBool value).decided? = some value := by
  cases value <;> rfl

theorem Truth.ofBool_ne_undefined (value : Bool) : ofBool value ≠ .undefined := by
  cases value <;> exact Truth.noConfusion

theorem Truth.negate_ofBool (value : Bool) : (ofBool value).negate = ofBool !value := by
  cases value <;> rfl

theorem Truth.negate_eq_yes_iff {value : Truth} : value.negate = .yes ↔ value = .no := by
  cases value <;> simp [negate]

theorem Truth.negate_eq_self_iff {value : Truth} : value.negate = value ↔ value = .undefined := by
  cases value <;> simp [negate]

namespace Environment

/-- No binding is undefined. -/
def Decided (environment : Environment) : Prop :=
  ∀ binding ∈ environment.bindings, binding.2 ≠ .undefined

theorem get_of_mem {environment : Environment} {atom : Variable} {value : Truth}
    (member : (atom, value) ∈ environment.bindings) : environment.get atom = value := by
  rw [get, Assoc.get?_of_mem environment.distinct member]
  rfl

theorem binds_iff {environment : Environment} {atom : Variable} :
    environment.binds atom = true ↔ atom ∈ environment.atoms :=
  Assoc.contains_iff

theorem get_of_not_mem {environment : Environment} {atom : Variable}
    (fresh : atom ∉ environment.atoms) : environment.get atom = .undefined := by
  rw [get, Assoc.get?_eq_none_iff.mpr fresh]
  rfl

theorem bindings_put_of_not_mem {environment : Environment} {atom : Variable} (value : Truth)
    (fresh : atom ∉ environment.atoms) :
    (environment.put atom value).bindings = environment.bindings ++ [(atom, value)] :=
  Assoc.insert_of_not_mem fresh

theorem atoms_put_of_not_mem {environment : Environment} {atom : Variable} (value : Truth)
    (fresh : atom ∉ environment.atoms) :
    (environment.put atom value).atoms = environment.atoms ++ [atom] := by
  rw [atoms, bindings_put_of_not_mem value fresh]
  simp [Assoc.keys, atoms]

theorem bindings_foldl_put {bindings : List (Variable × Truth)} {environment : Environment}
    (distinct : (environment.atoms ++ Assoc.keys bindings).Nodup) :
    (bindings.foldl (fun environment binding => environment.put binding.1 binding.2)
      environment).bindings = environment.bindings ++ bindings := by
  induction bindings generalizing environment with
  | nil => simp
  | cons binding rest ih =>
      obtain ⟨atom, value⟩ := binding
      have split := distinct
      simp only [Assoc.keys, List.map_cons] at split
      have fresh : atom ∉ environment.atoms := fun member =>
        (List.nodup_append.mp split).2.2 atom member atom List.mem_cons_self rfl
      rw [List.foldl_cons, ih, bindings_put_of_not_mem value fresh, List.append_assoc]
      · rfl
      · rw [atoms_put_of_not_mem value fresh, List.append_assoc]
        exact split

/-- Bindings of distinct variables stay as they are listed. -/
theorem bindings_ofList {bindings : List (Variable × Truth)}
    (distinct : (Assoc.keys bindings).Nodup) : (ofList bindings).bindings = bindings := by
  rw [ofList, bindings_foldl_put]
  · rfl
  · exact distinct

/-- The decided variables are those that read true or false. -/
theorem mem_decided_iff {environment : Environment} {atom : Variable} {value : Bool} :
    (atom, value) ∈ environment.decided ↔ environment.get atom = .ofBool value := by
  rw [decided, List.mem_filterMap]
  constructor
  · rintro ⟨⟨bound, truth⟩, member, same⟩
    obtain ⟨found, isDecided, pair⟩ := Option.map_eq_some_iff.mp same
    cases pair
    rw [get_of_mem member]
    cases truth <;> cases isDecided <;> rfl
  · intro known
    have member : (atom, environment.get atom) ∈ environment.bindings := by
      cases found : Assoc.get? atom environment.bindings with
      | none =>
          rw [get, found] at known
          cases value <;> cases known
      | some truth =>
          rw [get, found]
          exact Assoc.mem_of_get?_eq_some found
    refine ⟨_, member, ?_⟩
    rw [known]
    cases value <;> rfl

theorem keys_decided_sublist (environment : Environment) :
    (Assoc.keys environment.decided).Sublist environment.atoms := by
  rw [Assoc.keys, decided, List.map_filterMap, atoms, Assoc.keys]
  induction environment.bindings with
  | nil => exact .slnil
  | cons binding rest ih =>
      obtain ⟨atom, truth⟩ := binding
      rw [List.map_cons]
      cases truth with
      | yes => exact ih.cons_cons atom
      | no => exact ih.cons_cons atom
      | undefined => exact ih.cons atom

theorem satisfiesClause_iff {environment : Environment} {clause : Clause} :
    environment.satisfiesClause clause = true ↔
      ∃ literal ∈ clause.literals, environment.eval literal = .yes := by
  simp [satisfiesClause, List.any_eq_true]

theorem satisfies_iff {environment : Environment} {formula : Formula} :
    environment.satisfies formula = true ↔
      ∀ clause ∈ formula.clauses, environment.satisfiesClause clause = true := by
  simp [satisfies, List.all_eq_true]

/-- The valuation that makes true what the environment makes true. -/
def valuation (environment : Environment) : Valuation :=
  fun atom => environment.get atom == .yes

theorem admits_valuation (environment : Environment) : environment.Admits environment.valuation := by
  intro atom value known
  unfold valuation
  cases truth : environment.get atom <;> rw [truth] at known <;> cases known <;> rfl

theorem admits_empty (valuation : Valuation) : empty.Admits valuation := by
  intro atom value known
  cases known

namespace Admits

variable {environment : Environment} {valuation : Valuation} {literal : Literal} {formula : Formula}

theorem assert (admits : environment.Admits valuation) (holds : literal.Holds valuation) :
    (environment.assert literal).Admits valuation := by
  intro atom value known
  rw [Environment.assert, get_put] at known
  split at known
  · next same =>
      rw [← same, holds]
      simpa using known
  · exact admits atom value known

theorem holds_of_eval (admits : environment.Admits valuation)
    (evaluated : environment.eval literal = .yes) : literal.Holds valuation := by
  apply admits
  cases polarity : literal.positive with
  | true =>
      rw [eval, polarity, if_pos rfl] at evaluated
      rw [evaluated]
      rfl
  | false =>
      simp only [eval, polarity, Bool.false_eq_true, ↓reduceIte, Truth.negate_eq_yes_iff] at evaluated
      rw [evaluated]
      rfl

/-- What an environment satisfies holds however the other variables are valued. -/
theorem holds_of_satisfies (admits : environment.Admits valuation)
    (satisfied : environment.satisfies formula = true) : formula.Holds valuation := by
  intro clause member
  obtain ⟨literal, inside, evaluated⟩ :=
    satisfiesClause_iff.mp (satisfies_iff.mp satisfied clause member)
  exact ⟨literal, inside, admits.holds_of_eval evaluated⟩

end Admits

theorem holds_of_satisfies {environment : Environment} {formula : Formula}
    (satisfied : environment.satisfies formula = true) : formula.Holds environment.valuation :=
  environment.admits_valuation.holds_of_satisfies satisfied

/-- A formula that an environment satisfies is satisfiable. -/
theorem satisfiable_of_satisfies {environment : Environment} {formula : Formula}
    (satisfied : environment.satisfies formula = true) : formula.Satisfiable :=
  ⟨environment.valuation, holds_of_satisfies satisfied⟩

theorem Decided.put {environment : Environment} {atom : Variable} {value : Truth}
    (decided : environment.Decided) (fresh : atom ∉ environment.atoms) (known : value ≠ .undefined) :
    (environment.put atom value).Decided := by
  intro binding member
  rw [bindings_put_of_not_mem value fresh] at member
  rcases List.mem_append.mp member with old | new
  · exact decided binding old
  · rw [List.mem_singleton.mp new]
    exact known

theorem Decided.get_ne_undefined {environment : Environment} {atom : Variable}
    (decided : environment.Decided) (bound : atom ∈ environment.atoms) :
    environment.get atom ≠ .undefined := by
  obtain ⟨⟨same, value⟩, member, rfl⟩ := List.mem_map.mp bound
  rw [get_of_mem member]
  exact decided _ member

/-- In a decided environment every bound variable has a two-valued truth. -/
theorem Decided.decided_eq {environment : Environment} (decided : environment.Decided) :
    environment.decided = environment.atoms.map fun atom => (atom, environment.valuation atom) := by
  have listed : ∀ bindings : List (Variable × Truth), (∀ binding ∈ bindings, binding ∈ environment.bindings) →
      bindings.filterMap (fun binding => binding.2.decided?.map (binding.1, ·)) =
        (Assoc.keys bindings).map fun atom => (atom, environment.valuation atom) := by
    intro bindings inside
    induction bindings with
    | nil => rfl
    | cons binding rest ih =>
        obtain ⟨atom, truth⟩ := binding
        have member := inside _ List.mem_cons_self
        have known := decided _ member
        rw [Assoc.keys, List.map_cons, List.map_cons, ← Assoc.keys,
          ← ih fun other later => inside other (List.mem_cons_of_mem _ later), valuation,
          get_of_mem member]
        cases truth with
        | yes => rfl
        | no => rfl
        | undefined => exact absurd rfl known
  exact listed _ fun _ member => member

/-- A new value for any variable, bound or not. -/
theorem Decided.put_known {environment : Environment} {atom : Variable} {value : Truth}
    (decided : environment.Decided) (known : value ≠ .undefined) :
    (environment.put atom value).Decided := by
  intro binding member
  rcases Assoc.eq_or_mem_of_mem_insert member with rfl | old
  · exact known
  · exact decided binding old

/-- Everything that the earlier environment decides stays as it is. -/
def Extends (later earlier : Environment) : Prop :=
  ∀ atom, earlier.get atom ≠ .undefined → later.get atom = earlier.get atom

namespace Extends

variable {later middle earlier : Environment}

theorem refl (environment : Environment) : environment.Extends environment := fun _ _ => rfl

theorem trans (second : later.Extends middle) (first : middle.Extends earlier) :
    later.Extends earlier := by
  intro atom known
  have same := first atom known
  rw [second atom (same ▸ known), same]

theorem put (environment : Environment) {atom : Variable} (value : Truth)
    (fresh : atom ∉ environment.atoms) : (environment.put atom value).Extends environment := by
  intro other known
  rw [get_put, if_neg]
  rintro rfl
  exact known (get_of_not_mem fresh)

theorem eval (extended : later.Extends earlier) {literal : Literal}
    (evaluated : earlier.eval literal = .yes) : later.eval literal = .yes := by
  have known : earlier.get literal.atom ≠ .undefined := by
    intro unknown
    rw [Environment.eval, unknown] at evaluated
    split at evaluated <;> cases evaluated
  rw [Environment.eval, extended literal.atom known]
  exact evaluated

theorem satisfiesClause (extended : later.Extends earlier) {clause : Clause}
    (satisfied : earlier.satisfiesClause clause = true) : later.satisfiesClause clause = true := by
  obtain ⟨literal, inside, evaluated⟩ := satisfiesClause_iff.mp satisfied
  exact satisfiesClause_iff.mpr ⟨literal, inside, extended.eval evaluated⟩

theorem satisfies (extended : later.Extends earlier) {formula : Formula}
    (satisfied : earlier.satisfies formula = true) : later.satisfies formula = true :=
  satisfies_iff.mpr fun clause member => extended.satisfiesClause (satisfies_iff.mp satisfied clause member)

end Extends

/-! Completion with false. -/

theorem completeWith_completeWith (environment : Environment) (first second : List Variable) :
    (environment.completeWith first).completeWith second = environment.completeWith (first ++ second) :=
  List.foldl_append.symm

/-- One step of a completion leaves the environment alone or binds a new variable. -/
theorem completeWith_cons (environment : Environment) (atom : Variable) (rest : List Variable) :
    (atom ∈ environment.atoms ∧
        environment.completeWith (atom :: rest) = environment.completeWith rest) ∨
      (atom ∉ environment.atoms ∧
        environment.completeWith (atom :: rest) = (environment.put atom .no).completeWith rest) := by
  by_cases bound : environment.binds atom = true
  · exact .inl ⟨binds_iff.mp bound, by rw [completeWith, List.foldl_cons, if_pos bound, completeWith]⟩
  · refine .inr ⟨fun member => bound (binds_iff.mpr member), ?_⟩
    rw [completeWith, List.foldl_cons, if_neg bound, completeWith]

theorem extends_completeWith (environment : Environment) (atoms : List Variable) :
    (environment.completeWith atoms).Extends environment := by
  induction atoms generalizing environment with
  | nil => exact .refl environment
  | cons atom rest ih =>
      rcases completeWith_cons environment atom rest with ⟨_, same⟩ | ⟨fresh, same⟩
      · exact same ▸ ih environment
      · exact same ▸ (ih _).trans (.put environment .no fresh)

/-- Completion makes undecided variables false, and changes nothing else. -/
theorem get_completeWith_cases (environment : Environment) (atoms : List Variable) (atom : Variable) :
    (environment.completeWith atoms).get atom = environment.get atom ∨
      environment.get atom = .undefined ∧ (environment.completeWith atoms).get atom = .no ∧
        atom ∈ atoms := by
  induction atoms generalizing environment with
  | nil => exact .inl rfl
  | cons first rest ih =>
      rcases completeWith_cons environment first rest with ⟨_, same⟩ | ⟨fresh, same⟩
      · rw [same]
        exact (ih environment).imp_right fun changed =>
          ⟨changed.1, changed.2.1, List.mem_cons_of_mem _ changed.2.2⟩
      · have later := ih (environment.put first .no)
        rw [same]
        rw [get_put] at later
        by_cases new : first = atom
        · subst first
          rw [if_pos rfl] at later
          rcases later with kept | ⟨contrary, _⟩
          · exact .inr ⟨get_of_not_mem fresh, kept, List.mem_cons_self⟩
          · cases contrary
        · rw [if_neg new] at later
          exact later.imp_right fun changed =>
            ⟨changed.1, changed.2.1, List.mem_cons_of_mem _ changed.2.2⟩

theorem Decided.completeWith {environment : Environment} (decided : environment.Decided)
    (atoms : List Variable) : (environment.completeWith atoms).Decided := by
  induction atoms generalizing environment with
  | nil => exact decided
  | cons atom rest ih =>
      rcases completeWith_cons environment atom rest with ⟨_, same⟩ | ⟨fresh, same⟩
      · exact same ▸ ih decided
      · exact same ▸ ih (decided.put fresh Truth.noConfusion)

theorem mem_atoms_completeWith {environment : Environment} {atoms : List Variable} {atom : Variable} :
    atom ∈ (environment.completeWith atoms).atoms ↔ atom ∈ environment.atoms ∨ atom ∈ atoms := by
  induction atoms generalizing environment with
  | nil => simp [Environment.completeWith]
  | cons first rest ih =>
      rcases completeWith_cons environment first rest with ⟨known, same⟩ | ⟨fresh, same⟩
      · rw [same, ih, List.mem_cons]
        constructor
        · exact Or.imp_right .inr
        · rintro (bound | rfl | later)
          · exact .inl bound
          · exact .inl known
          · exact .inr later
      · rw [same, ih, atoms_put_of_not_mem .no fresh, List.mem_append, List.mem_singleton,
          List.mem_cons, or_assoc]

/-- The environment decides its variables, which are variables of the formula, and satisfies it. -/
structure Solves (environment : Environment) (formula : Formula) : Prop where
  satisfies : environment.satisfies formula = true
  decided : environment.Decided
  known : environment.atoms ⊆ formula.atoms

/-- Completion with the variables of the formula binds exactly these. -/
theorem atoms_completeWith_perm {environment : Environment} {formula : Formula}
    (known : environment.atoms ⊆ formula.atoms) :
    (environment.completeWith formula.atoms).atoms.Perm formula.atoms := by
  have distinct := (environment.completeWith formula.atoms).nodup_atoms
  refine (List.perm_ext_iff_of_nodup distinct formula.nodup_atoms).mpr fun atom => ?_
  rw [mem_atoms_completeWith]
  exact ⟨fun bound => bound.elim (fun member => known member) id, .inr⟩

theorem Solves.completeWith {environment : Environment} {formula : Formula}
    (solves : environment.Solves formula) :
    (environment.completeWith formula.atoms).Solves formula where
  satisfies := (extends_completeWith environment formula.atoms).satisfies solves.satisfies
  decided := solves.decided.completeWith formula.atoms
  known := fun _ bound => (atoms_completeWith_perm solves.known).mem_iff.mp bound

end Environment

end Clausal
