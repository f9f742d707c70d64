import Clausal.Proofs.Environment

/-!
Evaluating formulas. An environment and its decided variables alone satisfy the same clauses; deciding more
variables keeps what is satisfied; and where all variables of a formula are decided, satisfaction is truth.
-/

set_option autoImplicit false

namespace Clausal.Environment

variable {environment : Environment} {formula : Formula}

/-! The decided variables alone. -/

theorem nodup_keys_decided (environment : Environment) : (Assoc.keys environment.decided).Nodup := by
  have listed : ∀ bindings : List (Variable × Truth),
      (Assoc.keys (bindings.filterMap fun binding => binding.2.decided?.map (binding.1, ·))).Sublist
        (Assoc.keys bindings) := by
    intro bindings
    induction bindings with
    | nil => exact .slnil
    | cons binding rest ih =>
        obtain ⟨atom, value⟩ := binding
        cases value with
        | yes => exact ih.cons_cons atom
        | no => exact ih.cons_cons atom
        | undefined => exact ih.cons atom
  exact environment.distinct.sublist (listed environment.bindings)

theorem bindings_ofDecided {assignment : List (Variable × Bool)}
    (distinct : (Assoc.keys assignment).Nodup) :
    (ofDecided assignment).bindings = assignment.map fun (atom, value) => (atom, .ofBool value) := by
  refine bindings_ofList ?_
  rw [Assoc.keys, List.map_map]
  exact distinct

theorem atoms_ofDecided {assignment : List (Variable × Bool)}
    (distinct : (Assoc.keys assignment).Nodup) : (ofDecided assignment).atoms = Assoc.keys assignment := by
  rw [atoms, bindings_ofDecided distinct, Assoc.keys, List.map_map]
  rfl

/-- A binding to undefined reads like no binding. -/
theorem get_ofDecided_decided (environment : Environment) (atom : Variable) :
    (ofDecided environment.decided).get atom = environment.get atom := by
  have distinct := environment.nodup_keys_decided
  have reads : ∀ value, environment.get atom = .ofBool value →
      (ofDecided environment.decided).get atom = .ofBool value := by
    intro value known
    refine get_of_mem ?_
    rw [bindings_ofDecided distinct]
    exact List.mem_map_of_mem (mem_decided_iff.mpr known)
  cases known : environment.get atom with
  | yes => exact reads true known
  | no => exact reads false known
  | undefined =>
      refine get_of_not_mem fun bound => ?_
      rw [atoms_ofDecided distinct] at bound
      obtain ⟨⟨_, value⟩, member, rfl⟩ := List.mem_map.mp bound
      have contrary := known.symm.trans (mem_decided_iff.mp member)
      cases value <;> cases contrary

theorem satisfiesClause_ofDecided_decided (environment : Environment) :
    (ofDecided environment.decided).satisfiesClause = environment.satisfiesClause := by
  funext clause
  simp only [satisfiesClause, eval, get_ofDecided_decided]

/-! Counting. -/

theorem countSatisfied_eq_length_iff :
    environment.countSatisfied formula = formula.length ↔ environment.satisfies formula = true := by
  rw [satisfies_iff]
  exact List.countP_eq_length

theorem Extends.countSatisfied_le {later earlier : Environment} (extended : later.Extends earlier)
    (formula : Formula) : earlier.countSatisfied formula ≤ later.countSatisfied formula :=
  List.countP_mono_left fun _ _ satisfied => extended.satisfiesClause satisfied

/-! Two-valued truth. -/

namespace Admits

variable {valuation : Valuation}

theorem eval_eq_yes_iff (admits : environment.Admits valuation) {literal : Literal}
    (decided : environment.get literal.atom ≠ .undefined) :
    environment.eval literal = .yes ↔ literal.Holds valuation := by
  refine ⟨admits.holds_of_eval, fun holds => ?_⟩
  obtain ⟨atom, positive⟩ := literal
  have polarity : ∀ value, environment.get atom = .ofBool value → positive = value := by
    intro value known
    have agrees : valuation atom = value := admits atom value (known ▸ Truth.decided?_ofBool value)
    exact holds.symm.trans agrees
  cases known : environment.get atom with
  | yes =>
      cases polarity true known
      exact known
  | no =>
      cases polarity false known
      exact congrArg Truth.negate known
  | undefined => exact absurd known decided

theorem satisfies_iff (admits : environment.Admits valuation)
    (decides : ∀ atom ∈ formula.atoms, environment.get atom ≠ .undefined) :
    environment.satisfies formula = true ↔ formula.Holds valuation := by
  refine ⟨admits.holds_of_satisfies, fun holds => ?_⟩
  refine Environment.satisfies_iff.mpr fun clause member => ?_
  obtain ⟨literal, inside, literalHolds⟩ := holds clause member
  have decided := decides literal.atom (Formula.atom_mem_atoms member inside)
  exact satisfiesClause_iff.mpr ⟨literal, inside, (admits.eval_eq_yes_iff decided).mpr literalHolds⟩

end Admits

/-- An environment satisfies a formula exactly if its decided variables alone do, and exactly if they
satisfy as many clauses as there are. Where a later environment agrees on all that is decided, what is
satisfied stays so, clause by clause and in number. When every variable of the formula is decided, the
formula is satisfied exactly if it holds in the valuations that agree, one of which there is. -/
theorem evaluations_agree_and_persist (environment : Environment) (formula : Formula) :
    let assignment := environment.decided
    (environment.satisfies formula = true ↔ (ofDecided assignment).satisfies formula = true) ∧
      (environment.satisfies formula = true ↔
        (ofDecided assignment).countSatisfied formula = formula.length) ∧
      (∀ later : Environment,
        (∀ atom, environment.get atom ≠ .undefined → later.get atom = environment.get atom) →
        (∀ clause, environment.satisfiesClause clause = true → later.satisfiesClause clause = true) ∧
        (environment.satisfies formula = true → later.satisfies formula = true) ∧
        (ofDecided assignment).countSatisfied formula ≤
          (ofDecided later.decided).countSatisfied formula) ∧
      ((∀ atom ∈ formula.atoms, environment.get atom ≠ .undefined) →
        environment.Admits environment.valuation ∧
        ∀ valuation, environment.Admits valuation →
          (environment.satisfies formula = true ↔ formula.Holds valuation)) := by
  intro assignment
  refine ⟨?_, ?_, fun later extended => ⟨fun clause => ?_, ?_, ?_⟩, fun decides => ⟨?_, ?_⟩⟩
  · rw [satisfies, satisfies, satisfiesClause_ofDecided_decided]
  · rw [← countSatisfied_eq_length_iff, countSatisfied, countSatisfied,
      satisfiesClause_ofDecided_decided]
  · exact Extends.satisfiesClause extended
  · exact Extends.satisfies extended
  · have more := Extends.countSatisfied_le extended formula
    rwa [countSatisfied, countSatisfied, ← satisfiesClause_ofDecided_decided,
      ← satisfiesClause_ofDecided_decided later] at more
  · exact environment.admits_valuation
  · exact fun valuation admits => admits.satisfies_iff decides

end Clausal.Environment
