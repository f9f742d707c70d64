import Clausal.Valuation

/-!
Asserting a literal: which clauses remain, when one is falsified, and that the residual formula holds
exactly where the formula does, as long as the literal holds. Literals over different variables can be
asserted in either order.
-/

set_option autoImplicit false

namespace Clausal

namespace Clause

theorem without_of_not_mem {clause : Clause} {literal : Literal}
    (absent : literal ∉ clause.literals) : clause.without literal = clause := by
  obtain ⟨literals, nodup⟩ := clause
  simp only [without, Clause.mk.injEq, List.filter_eq_self, decide_eq_true_eq]
  rintro other member rfl
  exact absent member

theorem without_comm (clause : Clause) (first second : Literal) :
    (clause.without first).without second = (clause.without second).without first := by
  simp only [without, List.filter_filter, Bool.and_comm]

/-- A literal stands alone when nothing else occurs. -/
theorem literals_eq_singleton_iff_forall {clause : Clause} {literal : Literal} :
    clause.literals = [literal] ↔
      clause.literals ≠ [] ∧ ∀ other ∈ clause.literals, other = literal := by
  constructor
  · intro alone
    simp [alone]
  · intro only
    obtain ⟨filled, same⟩ := only
    obtain ⟨other, member⟩ := List.exists_mem_of_ne_nil _ filled
    refine literals_eq_singleton_iff.mpr ⟨same other member ▸ member, ?_⟩
    simpa [without, List.filter_eq_nil_iff] using same

theorem literals_without_eq_singleton_iff {clause : Clause} {removed kept : Literal}
    (beside : clause.literals ≠ [removed]) :
    (clause.without removed).literals = [kept] ↔
      clause.literals ≠ [] ∧ ∀ literal ∈ clause.literals, literal = removed ∨ literal = kept := by
  rw [literals_eq_singleton_iff_forall]
  constructor
  · intro only
    obtain ⟨filled, same⟩ := only
    obtain ⟨other, member⟩ := List.exists_mem_of_ne_nil _ filled
    refine ⟨List.ne_nil_of_mem (mem_without.mp member).1, fun literal present => ?_⟩
    exact Decidable.or_iff_not_imp_left.mpr fun remains =>
      same literal (mem_without.mpr ⟨present, remains⟩)
  · intro covered
    obtain ⟨filled, either⟩ := covered
    refine ⟨fun emptied => beside ?_, fun literal remains => ?_⟩
    · refine literals_eq_singleton_iff_forall.mpr ⟨filled, fun literal present => ?_⟩
      refine Decidable.byContradiction fun different => ?_
      exact List.not_mem_nil (emptied ▸ mem_without.mpr ⟨present, different⟩)
    · obtain ⟨present, different⟩ := mem_without.mp remains
      exact (either literal present).resolve_left different

variable {valuation : Valuation} {literal : Literal} {clause : Clause}

theorem holds_of_mem (member : literal ∈ clause.literals) (holds : literal.Holds valuation) :
    clause.Holds valuation :=
  ⟨literal, member, holds⟩

theorem holds_iff_of_singleton (alone : clause.literals = [literal]) :
    clause.Holds valuation ↔ literal.Holds valuation := by
  rw [Holds, alone]
  simp

/-- A negation that does not hold can be removed. -/
theorem holds_without_iff (holds : literal.Holds valuation) :
    (clause.without literal.negate).Holds valuation ↔ clause.Holds valuation := by
  constructor
  · intro holding
    obtain ⟨other, member, otherHolds⟩ := holding
    exact ⟨other, (mem_without.mp member).1, otherHolds⟩
  · intro holding
    obtain ⟨other, member, otherHolds⟩ := holding
    refine ⟨other, mem_without.mpr ⟨member, ?_⟩, otherHolds⟩
    rintro rfl
    exact Literal.holds_negate_iff.mp otherHolds holds

end Clause

namespace Formula

variable {literal : Literal} {clauses reduced : List Clause} {formula residual : Formula}

theorem reduceClauses_eq_none_iff :
    reduceClauses literal clauses = none ↔
      ∃ clause ∈ clauses, clause.literals = [literal.negate] := by
  simp only [← Clause.reduce_eq_falsified_iff]
  induction clauses with
  | nil => simp [reduceClauses]
  | cons clause rest ih =>
      simp only [List.mem_cons, exists_eq_or_imp, ← ih]
      rw [reduceClauses]
      split
      · next falsified => simp [falsified]
      · next eliminated => simp [eliminated]
      · next shorter shortened => simp [shortened]
      · next unchanged => simp [unchanged]

/-- The clauses that remain are those without the literal, less its negation, in their order. -/
theorem eq_of_reduceClauses (succeeded : reduceClauses literal clauses = some reduced) :
    reduced = (clauses.filter (literal ∉ ·.literals)).map (·.without literal.negate) := by
  induction clauses generalizing reduced with
  | nil =>
      cases succeeded
      rfl
  | cons clause rest ih =>
      rw [reduceClauses] at succeeded
      split at succeeded
      · cases succeeded
      · next eliminated =>
          have present := Clause.reduce_eq_eliminated_iff.mp eliminated
          rw [List.filter_cons_of_neg (by simpa using present)]
          exact ih succeeded
      · next shorter shortened =>
          obtain ⟨tail, tailReduced, rfl⟩ := Option.map_eq_some_iff.mp succeeded
          obtain ⟨absent, _, same, _⟩ := Clause.reduce_eq_reduced_iff.mp shortened
          rw [List.filter_cons_of_pos (by simpa using absent), List.map_cons, same, ih tailReduced]
      · next unchanged =>
          obtain ⟨tail, tailReduced, rfl⟩ := Option.map_eq_some_iff.mp succeeded
          obtain ⟨absent, negationAbsent⟩ := Clause.reduce_eq_unchanged_iff.mp unchanged
          rw [List.filter_cons_of_pos (by simpa using absent), List.map_cons,
            Clause.without_of_not_mem negationAbsent, ih tailReduced]

theorem reduce_eq_none_iff :
    formula.reduce literal = none ↔ ∃ clause ∈ formula.clauses, clause.literals = [literal.negate] := by
  rw [reduce, Option.map_eq_none_iff, reduceClauses_eq_none_iff]

theorem clauses_of_reduce (succeeded : formula.reduce literal = some residual) :
    residual.clauses = (formula.clauses.filter (literal ∉ ·.literals)).map (·.without literal.negate) := by
  obtain ⟨reduced, reducedClauses, rfl⟩ := Option.map_eq_some_iff.mp succeeded
  exact eq_of_reduceClauses reducedClauses

theorem mem_reduce_iff (succeeded : formula.reduce literal = some residual) {shorter : Clause} :
    shorter ∈ residual.clauses ↔
      ∃ clause ∈ formula.clauses,
        literal ∉ clause.literals ∧ clause.without literal.negate = shorter := by
  simp [clauses_of_reduce succeeded, and_assoc]

/-- Neither polarity of the asserted literal is left. -/
theorem not_mem_of_reduce (succeeded : formula.reduce literal = some residual) {shorter : Clause}
    (member : shorter ∈ residual.clauses) :
    literal ∉ shorter.literals ∧ literal.negate ∉ shorter.literals := by
  obtain ⟨clause, _, absent, rfl⟩ := (mem_reduce_iff succeeded).mp member
  simp [Clause.mem_without, absent]

/-- A literal that occurs in neither polarity changes nothing. -/
theorem reduce_of_not_mem
    (absent : ∀ clause ∈ formula.clauses, literal ∉ clause.literals ∧ literal.negate ∉ clause.literals) :
    formula.reduce literal = some formula := by
  cases outcome : formula.reduce literal with
  | none =>
      obtain ⟨clause, member, alone⟩ := reduce_eq_none_iff.mp outcome
      have negationAbsent := (absent clause member).2
      rw [alone] at negationAbsent
      exact absurd (List.mem_singleton_self _) negationAbsent
  | some residual =>
      have kept : formula.clauses.filter (literal ∉ ·.literals) = formula.clauses :=
        List.filter_eq_self.mpr fun clause member => by simpa using (absent clause member).1
      have same : ∀ clause ∈ formula.clauses, clause.without literal.negate = id clause :=
        fun clause member => Clause.without_of_not_mem (absent clause member).2
      have unchanged : residual.clauses = formula.clauses := by
        rw [clauses_of_reduce outcome, kept, List.map_congr_left same, List.map_id]
      cases residual
      cases unchanged
      rfl

/-- No clause is emptied: the only clauses that an assertion could empty make it fail. -/
theorem hasEmptyClause_reduce (succeeded : formula.reduce literal = some residual) :
    residual.hasEmptyClause = formula.hasEmptyClause := by
  rw [Bool.eq_iff_iff, hasEmptyClause_iff, hasEmptyClause_iff]
  constructor
  · rintro ⟨shorter, member, empty⟩
    obtain ⟨clause, original, _, rfl⟩ := (mem_reduce_iff succeeded).mp member
    have negationAbsent : literal.negate ∉ clause.literals := by
      intro present
      have alone := Clause.literals_eq_singleton_iff.mpr ⟨present, empty⟩
      cases succeeded.symm.trans (reduce_eq_none_iff.mpr ⟨clause, original, alone⟩)
    rw [Clause.without_of_not_mem negationAbsent] at empty
    exact ⟨clause, original, empty⟩
  · rintro ⟨clause, original, empty⟩
    refine ⟨clause, (mem_reduce_iff succeeded).mpr ⟨clause, original, ?_, ?_⟩, empty⟩
    · simp [empty]
    · exact Clause.without_of_not_mem (by simp [empty])

variable {valuation : Valuation}

theorem holds_reduce_iff (succeeded : formula.reduce literal = some residual)
    (holds : literal.Holds valuation) : residual.Holds valuation ↔ formula.Holds valuation := by
  constructor
  · intro residualHolds clause member
    by_cases present : literal ∈ clause.literals
    · exact Clause.holds_of_mem present holds
    · refine (Clause.holds_without_iff holds).mp (residualHolds _ ?_)
      exact (mem_reduce_iff succeeded).mpr ⟨clause, member, present, rfl⟩
  · intro formulaHolds shorter member
    obtain ⟨clause, original, _, rfl⟩ := (mem_reduce_iff succeeded).mp member
    exact (Clause.holds_without_iff holds).mpr (formulaHolds clause original)

theorem not_holds_of_reduce_eq_none (failed : formula.reduce literal = none)
    (holds : literal.Holds valuation) : ¬ formula.Holds valuation := by
  obtain ⟨clause, member, alone⟩ := reduce_eq_none_iff.mp failed
  intro formulaHolds
  have negationHolds := (Clause.holds_iff_of_singleton alone).mp (formulaHolds clause member)
  exact Literal.holds_negate_iff.mp negationHolds holds

/-- What an assertion does to a formula. It fails exactly when the negation stands alone in a clause.
Otherwise the clauses without the literal remain in their order, less the negation; the formula that
remains knows neither polarity, so that further assertions of the variable change nothing. Where the
literal holds, a formula holds exactly if an assertion succeeds and what remains holds. -/
theorem reduce_preserves_meaning (formula : Formula) (literal : Literal) :
    (formula.reduce literal = none ↔
      ∃ clause ∈ formula.clauses, clause.literals = [literal.negate]) ∧
    (∀ residual, formula.reduce literal = some residual →
      (∀ clause ∈ residual.clauses, literal ∉ clause.literals ∧ literal.negate ∉ clause.literals) ∧
      residual.clauses.map Clause.literals =
        (formula.clauses.filter (literal ∉ ·.literals)).map (·.literals.filter (· ≠ literal.negate)) ∧
      (residual.hasEmptyClause = true → formula.hasEmptyClause = true) ∧
      residual.reduce literal = some residual ∧
      residual.reduce literal.negate = some residual) ∧
    ∀ valuation, literal.Holds valuation →
      (formula.Holds valuation ↔
        ∃ residual, formula.reduce literal = some residual ∧ residual.Holds valuation) := by
  refine ⟨reduce_eq_none_iff, ?_, ?_⟩
  · intro residual succeeded
    have absent : ∀ clause ∈ residual.clauses,
        literal ∉ clause.literals ∧ literal.negate ∉ clause.literals :=
      fun _ member => not_mem_of_reduce succeeded member
    refine ⟨absent, ?_, ?_, reduce_of_not_mem absent, reduce_of_not_mem ?_⟩
    · rw [clauses_of_reduce succeeded, List.map_map]
      rfl
    · exact fun empty => (hasEmptyClause_reduce succeeded).symm.trans empty
    · intro clause member
      rw [Literal.negate_negate]
      exact (absent clause member).symm
  · intro valuation holds
    cases outcome : formula.reduce literal with
    | none =>
        constructor
        · intro formulaHolds
          exact absurd formulaHolds (not_holds_of_reduce_eq_none outcome holds)
        · rintro ⟨residual, impossible, _⟩
          cases impossible
    | some residual =>
        constructor
        · intro formulaHolds
          exact ⟨residual, rfl, (holds_reduce_iff outcome holds).mpr formulaHolds⟩
        · rintro ⟨other, same, remaining⟩
          cases same
          exact (holds_reduce_iff outcome holds).mp remaining

/-! Two assertions. -/

variable {first second : Literal}

theorem ne_negate_of_atom_ne (different : first.atom ≠ second.atom) : first ≠ second.negate := by
  rintro rfl
  exact different rfl

/-- Two assertions fail exactly when they refute every literal of a clause that has one. -/
theorem bind_reduce_eq_none_iff (different : first.atom ≠ second.atom) :
    (formula.reduce first).bind (·.reduce second) = none ↔
      ∃ clause ∈ formula.clauses, clause.literals ≠ [] ∧
        ∀ literal ∈ clause.literals, literal = first.negate ∨ literal = second.negate := by
  cases outcome : formula.reduce first with
  | none =>
      obtain ⟨clause, member, alone⟩ := reduce_eq_none_iff.mp outcome
      obtain ⟨filled, same⟩ := Clause.literals_eq_singleton_iff_forall.mp alone
      exact iff_of_true rfl ⟨clause, member, filled, fun literal inside => .inl (same literal inside)⟩
  | some middle =>
      have beside : ∀ clause ∈ formula.clauses, clause.literals ≠ [first.negate] := by
        intro clause member alone
        cases outcome.symm.trans (reduce_eq_none_iff.mpr ⟨clause, member, alone⟩)
      rw [Option.bind_some, reduce_eq_none_iff]
      constructor
      · intro failing
        obtain ⟨shorter, member, alone⟩ := failing
        obtain ⟨clause, original, _, rfl⟩ := (mem_reduce_iff outcome).mp member
        exact ⟨clause, original,
          (Clause.literals_without_eq_singleton_iff (beside clause original)).mp alone⟩
      · intro refuting
        obtain ⟨clause, member, filled, refuted⟩ := refuting
        -- The first assertion would have eliminated the clause only with its own literal in it.
        have absent : first ∉ clause.literals := by
          intro present
          rcases refuted first present with same | same
          · exact first.negate_ne same.symm
          · exact ne_negate_of_atom_ne different same
        exact ⟨_, (mem_reduce_iff outcome).mpr ⟨clause, member, absent, rfl⟩,
          (Clause.literals_without_eq_singleton_iff (beside clause member)).mpr ⟨filled, refuted⟩⟩

/-- What two assertions leave are the clauses with neither literal, less both negations. -/
theorem clauses_of_bind_reduce (different : first.atom ≠ second.atom)
    (succeeded : (formula.reduce first).bind (·.reduce second) = some residual) :
    residual.clauses =
      (formula.clauses.filter fun clause => first ∉ clause.literals ∧ second ∉ clause.literals).map
        fun clause => (clause.without first.negate).without second.negate := by
  obtain ⟨middle, firstReduced, secondReduced⟩ := Option.bind_eq_some_iff.mp succeeded
  have kept : ∀ clause : Clause,
      second ∈ (clause.without first.negate).literals ↔ second ∈ clause.literals := fun clause =>
    Clause.mem_without.trans (and_iff_left (ne_negate_of_atom_ne different.symm))
  rw [clauses_of_reduce secondReduced, clauses_of_reduce firstReduced, List.filter_map,
    List.map_map, List.filter_filter]
  simp only [Function.comp_def, kept, Bool.decide_and, Bool.and_comm]

theorem bind_reduce_comm (different : first.atom ≠ second.atom) (formula : Formula) :
    (formula.reduce first).bind (·.reduce second) =
      (formula.reduce second).bind (·.reduce first) := by
  have failsAlike : (formula.reduce first).bind (·.reduce second) = none ↔
      (formula.reduce second).bind (·.reduce first) = none := by
    rw [bind_reduce_eq_none_iff different, bind_reduce_eq_none_iff different.symm]
    simp only [or_comm]
  cases leftOutcome : (formula.reduce first).bind (·.reduce second) with
  | none => exact (failsAlike.mp leftOutcome).symm
  | some left =>
      cases rightOutcome : (formula.reduce second).bind (·.reduce first) with
      | none => exact leftOutcome.symm.trans (failsAlike.mpr rightOutcome)
      | some right =>
          have same : left.clauses = right.clauses := by
            rw [clauses_of_bind_reduce different leftOutcome,
              clauses_of_bind_reduce different.symm rightOutcome]
            simp only [and_comm, Clause.without_comm _ first.negate]
          cases left
          cases right
          cases same
          rfl

/-- Literals over different variables can be asserted in either order: both orders fail, which is where
the two refute every literal of a clause that has one, or both leave the same formula. -/
theorem assertions_commute (formula : Formula) (first second : Literal)
    (different : first.atom ≠ second.atom) :
    let inOrder := (formula.reduce first).bind (·.reduce second)
    inOrder = (formula.reduce second).bind (·.reduce first) ∧
      (inOrder = none ↔
        ∃ clause ∈ formula.clauses, clause.literals ≠ [] ∧
          ∀ literal ∈ clause.literals, literal = first.negate ∨ literal = second.negate) ∧
      ∀ residual, inOrder = some residual → residual.clauses =
        (formula.clauses.filter fun clause => first ∉ clause.literals ∧ second ∉ clause.literals).map
          fun clause => (clause.without first.negate).without second.negate :=
  ⟨bind_reduce_comm different formula, bind_reduce_eq_none_iff different,
    fun _ => clauses_of_bind_reduce different⟩

/-- Either assertion alone succeeds, and the clause that both refute makes either order fail. -/
theorem assertions_commute_refuting :
    let x : Literal := ⟨⟨"x"⟩, true⟩
    let y : Literal := ⟨⟨"y"⟩, true⟩
    let formula : Formula := ⟨[⟨[y, x], by decide⟩, ⟨[x.negate, y.negate], by decide⟩]⟩
    x.atom ≠ y.atom ∧ formula.reduce x = some ⟨[⟨[y.negate], by decide⟩]⟩ ∧
      formula.reduce y = some ⟨[⟨[x.negate], by decide⟩]⟩ ∧
      (formula.reduce x).bind (·.reduce y) = none ∧ (formula.reduce y).bind (·.reduce x) = none := by
  intro x y formula
  have different : x.atom ≠ y.atom := by decide
  obtain ⟨same, fails, _⟩ := assertions_commute formula x y different
  have refuted : (formula.reduce x).bind (·.reduce y) = none :=
    fails.mpr ⟨⟨[x.negate, y.negate], by decide⟩, by decide, by decide, by decide⟩
  exact ⟨different, by decide, by decide, refuted, same.symm.trans refuted⟩

end Formula

end Clausal
