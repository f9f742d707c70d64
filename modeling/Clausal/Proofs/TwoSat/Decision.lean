import Clausal.Proofs.Environment
import Clausal.Proofs.ImplicationGraph.Contradictions
import Clausal.Proofs.ImplicationGraph.OfFormula
import Clausal.Proofs.Quantity
import Clausal.Proofs.TwoSat.TruthWalk

/-!
The decision by components is right: where no variable conflicts, the truth walk satisfies every clause,
and the variable reported is the first one whose literals imply each other.
-/

set_option autoImplicit false

namespace Clausal

namespace TwoSat

variable {graph : ImplicationGraph}

theorem keys_zipIdx_map {items : List Variable} (value : Nat → Truth) :
    Assoc.keys (items.zipIdx.map fun (atom, index) => (atom, value index)) = items := by
  rw [Assoc.keys, List.map_map]
  exact List.zipIdx_map_fst 0 items

theorem bindings_environmentOf (wellFormed : graph.WellFormed) (truth : Array Truth) :
    (environmentOf graph truth).bindings =
      graph.atoms.zipIdx.map fun (atom, index) =>
        (atom, truth[vertexAt index true]?.getD .undefined) := by
  refine Environment.bindings_ofList ?_
  rw [keys_zipIdx_map fun index => truth[vertexAt index true]?.getD .undefined]
  exact wellFormed.nodup

theorem atoms_environmentOf (wellFormed : graph.WellFormed) (truth : Array Truth) :
    (environmentOf graph truth).atoms = graph.atoms := by
  rw [Environment.atoms, bindings_environmentOf wellFormed]
  exact keys_zipIdx_map fun index => truth[vertexAt index true]?.getD .undefined

theorem get_environmentOf (wellFormed : graph.WellFormed) {truth : Array Truth} {index : Nat}
    {atom : Variable} (position : graph.atoms[index]? = some atom) :
    (environmentOf graph truth).get atom = truth[vertexAt index true]?.getD .undefined := by
  refine Environment.get_of_mem ?_
  rw [bindings_environmentOf wellFormed]
  exact List.mem_map_of_mem (List.mk_mem_zipIdx_iff_getElem?.mpr position)

/-- Vertices and their opposites lie in different components. -/
def Apart (graph : ImplicationGraph) : Prop :=
  ∀ vertex < graph.order,
    graph.digraph.components.componentOf vertex ≠
      graph.digraph.components.componentOf (opposite vertex)

/-- The environment that the truth walk over the components gives. -/
def walkedEnvironment (graph : ImplicationGraph) : Environment :=
  environmentOf graph (truthWalk graph.order graph.digraph.components)

/-- A literal is true exactly when its component comes after that of its negation. -/
theorem eval_walkedEnvironment (wellFormed : graph.WellFormed) (apart : Apart graph)
    {literal : Literal} {vertex : Nat} (found : graph.vertex? literal = some vertex) :
    (walkedEnvironment graph).eval literal =
      .ofBool (graph.digraph.components.componentOf (opposite vertex) <
        graph.digraph.components.componentOf vertex) := by
  have bound := wellFormed.vertex?_lt found
  have different := apart vertex bound
  obtain ⟨index, position, rfl⟩ := wellFormed.vertex?_eq_some_iff.mp found
  have inside : vertexAt index true < graph.order := by
    rw [wellFormed.order_eq]
    exact vertexAt_lt (List.getElem?_eq_some_iff.mp position).1
  have walked := truthWalk_getElem? wellFormed.order_eq apart inside
  rw [opposite_vertexAt] at walked different
  rw [Environment.eval, walkedEnvironment, get_environmentOf wellFormed position, ImplicationGraph.order,
    walked, opposite_vertexAt, Option.getD_some]
  cases polarity : literal.positive with
  | true => rfl
  | false =>
      rw [polarity] at different
      simp only [Bool.not_false, Bool.not_true, Bool.false_eq_true, ↓reduceIte] at different ⊢
      rw [Truth.negate_ofBool, ← decide_not]
      exact congrArg Truth.ofBool (decide_eq_decide.mpr (by omega))

theorem decided_walkedEnvironment (wellFormed : graph.WellFormed) (apart : Apart graph) :
    (walkedEnvironment graph).Decided := by
  intro binding member
  rw [walkedEnvironment, bindings_environmentOf wellFormed] at member
  obtain ⟨⟨atom, index⟩, listed, rfl⟩ := List.mem_map.mp member
  have position := List.mk_mem_zipIdx_iff_getElem?.mp listed
  have inside : vertexAt index true < graph.order := by
    rw [wellFormed.order_eq]
    exact vertexAt_lt (List.getElem?_eq_some_iff.mp position).1
  change (truthWalk graph.digraph.order graph.digraph.components)[vertexAt index true]?.getD _ ≠ _
  rw [truthWalk_getElem? wellFormed.order_eq apart inside, Option.getD_some]
  exact Truth.ofBool_ne_undefined _

variable {formula : Formula}

theorem exists_vertex_of_literal (represents : graph.Represents formula.clauses) {clause : Clause}
    {literal : Literal} (member : clause ∈ formula.clauses) (inside : literal ∈ clause.literals) :
    ∃ vertex, graph.vertex? literal = some vertex := by
  refine represents.wellFormed.exists_vertex?_of_mem ?_
  rw [represents.atoms_eq]
  exact Formula.atom_mem_atoms member inside

theorem componentOf_le_of_implies (represents : graph.Represents formula.clauses)
    {source target : Literal} {sourceVertex targetVertex : Nat}
    (implies : formula.Implies source target) (sourceFound : graph.vertex? source = some sourceVertex)
    (targetFound : graph.vertex? target = some targetVertex) :
    graph.digraph.components.componentOf sourceVertex ≤
      graph.digraph.components.componentOf targetVertex :=
  Digraph.componentOf_le_of_edge
    ((represents.successor_iff_implies sourceFound targetFound).mpr implies)
    (represents.wellFormed.vertex?_lt targetFound)

theorem satisfiesClause_walkedEnvironment (represents : graph.Represents formula.clauses)
    (apart : Apart graph) {clause : Clause} (member : clause ∈ formula.clauses)
    (narrow : clause.Narrow) : (walkedEnvironment graph).satisfiesClause clause = true := by
  have wellFormed := represents.wellFormed
  refine Environment.satisfiesClause_iff.mpr (Classical.byContradiction fun unsatisfied => ?_)
  -- A literal that is not true comes before its negation.
  have before : ∀ literal ∈ clause.literals, ∃ vertex,
      graph.vertex? literal = some vertex ∧ graph.vertex? literal.negate = some (opposite vertex) ∧
        graph.digraph.components.componentOf vertex <
          graph.digraph.components.componentOf (opposite vertex) := by
    intro literal inside
    obtain ⟨vertex, found⟩ := exists_vertex_of_literal represents member inside
    have different := apart vertex (wellFormed.vertex?_lt found)
    refine ⟨vertex, found, wellFormed.vertex?_negate found, ?_⟩
    refine Nat.lt_of_not_le fun after => unsatisfied ⟨literal, inside, ?_⟩
    rw [eval_walkedEnvironment wellFormed apart found, decide_eq_true (by omega)]
    rfl
  rcases narrow.cases with ⟨literal, shape⟩ | ⟨first, second, shape⟩
  · obtain ⟨vertex, found, negated, earlier⟩ := before literal (by simp [shape])
    have later := componentOf_le_of_implies represents ⟨clause, member, .unit shape⟩ negated found
    omega
  · obtain ⟨firstVertex, firstFound, firstNegated, firstEarlier⟩ := before first (by simp [shape])
    obtain ⟨secondVertex, secondFound, secondNegated, secondEarlier⟩ :=
      before second (by simp [shape])
    have toSecond :=
      componentOf_le_of_implies represents ⟨clause, member, .second shape⟩ firstNegated secondFound
    have toFirst :=
      componentOf_le_of_implies represents ⟨clause, member, .first shape⟩ secondNegated firstFound
    omega

theorem satisfies_walkedEnvironment (represents : graph.Represents formula.clauses)
    (apart : Apart graph) (narrow : ∀ clause ∈ formula.clauses, clause.Narrow) :
    (walkedEnvironment graph).satisfies formula = true :=
  Environment.satisfies_iff.mpr fun clause member =>
    satisfiesClause_walkedEnvironment represents apart member (narrow clause member)

/-- The contradictions of the graph are the conflicts of the formula. -/
theorem mem_contradictions_iff_conflicting (represents : graph.Represents formula.clauses)
    {index : Nat} {atom : Variable} (position : graph.atoms[index]? = some atom) :
    index ∈ graph.contradictions graph.digraph.components ↔ formula.Conflicting atom := by
  have wellFormed := represents.wellFormed
  have found : ∀ positive, graph.vertex? ⟨atom, positive⟩ = some (vertexAt index positive) :=
    fun positive => wellFormed.vertex?_eq_some_iff.mpr ⟨index, position, rfl⟩
  rw [ImplicationGraph.mem_contradictions wellFormed, Digraph.Connected, Formula.Conflicting,
    represents.reaches_iff_leads (found true) (found false),
    represents.reaches_iff_leads (found false) (found true)]
  exact and_iff_right (List.getElem?_eq_some_iff.mp position).1

theorem apart_of_no_contradictions (wellFormed : graph.WellFormed)
    (none : ∀ index, index ∉ graph.contradictions graph.digraph.components) : Apart graph := by
  intro vertex bound same
  have oppositeBound : opposite vertex < graph.order := by
    rw [wellFormed.order_eq] at bound ⊢
    exact opposite_lt bound
  have connected := (Digraph.componentOf_eq_iff_connected bound oppositeBound).mp same
  rw [wellFormed.order_eq] at bound
  obtain ⟨index, positive, inside, rfl⟩ := exists_vertexAt bound
  rw [opposite_vertexAt] at connected
  refine none index ((ImplicationGraph.mem_contradictions wellFormed).mpr ⟨inside, ?_⟩)
  cases positive with
  | true => exact connected
  | false => exact connected.symm

/-- What makes an answer right. -/
inductive Answer.Correct (formula : Formula) : Answer → Prop where
  | emptyClause : formula.hasEmptyClause = true → Correct formula .emptyClause
  /-- The variable is the first one that conflicts. -/
  | conflict {extent : Extent} {before after : List Variable} {atom : Variable} :
      formula.hasEmptyClause = false → formula.atoms = before ++ atom :: after →
      formula.Conflicting atom → (∀ other ∈ before, ¬ formula.Conflicting other) →
      Correct formula (.conflict extent atom)
  | satisfied {extent : Extent} {environment : Environment} :
      environment.atoms = formula.atoms → environment.Decided →
      environment.satisfies formula = true → Correct formula (.satisfied extent environment)

theorem filterMap_contradictions_eq_nil (wellFormed : graph.WellFormed)
    (nothing : (graph.contradictions graph.digraph.components).filterMap (graph.atoms[·]?) = []) :
    ∀ index, index ∉ graph.contradictions graph.digraph.components := by
  intro index member
  have inside := ((ImplicationGraph.mem_contradictions wellFormed).mp member).1
  have missing := List.filterMap_eq_nil_iff.mp nothing index member
  rw [List.getElem?_eq_getElem inside] at missing
  cases missing

/-- The variable of the first contradiction. -/
theorem filterMap_contradictions_eq_cons (wellFormed : graph.WellFormed) {atom : Variable}
    {others : List Variable}
    (found : (graph.contradictions graph.digraph.components).filterMap (graph.atoms[·]?) =
      atom :: others) :
    ∃ index, graph.atoms[index]? = some atom ∧
      index ∈ graph.contradictions graph.digraph.components ∧
      ∀ earlier < index, earlier ∉ graph.contradictions graph.digraph.components := by
  have increasing := graph.contradictions_increasing graph.digraph.components
  cases listed : graph.contradictions graph.digraph.components with
  | nil =>
      rw [listed] at found
      cases found
  | cons index rest =>
      have inside := ((ImplicationGraph.mem_contradictions wellFormed).mp
        (listed ▸ List.mem_cons_self : index ∈ graph.contradictions graph.digraph.components)).1
      have position := List.getElem?_eq_getElem inside
      rw [listed, List.filterMap_cons_some position] at found
      rw [listed] at increasing
      refine ⟨index, position.trans (congrArg some (List.cons.inj found).1), List.mem_cons_self, ?_⟩
      intro earlier smaller member
      rcases List.mem_cons.mp member with rfl | later
      · omega
      · have larger := (List.pairwise_cons.mp increasing).1 earlier later
        omega

theorem decideGraph_correct (represents : graph.Represents formula.clauses)
    (narrow : ∀ clause ∈ formula.clauses, clause.Narrow)
    (nonempty : formula.hasEmptyClause = false) : (decideGraph graph).Correct formula := by
  have wellFormed := represents.wellFormed
  unfold decideGraph
  dsimp only
  split
  · next atom others found =>
      obtain ⟨index, position, contradicts, first⟩ :=
        filterMap_contradictions_eq_cons wellFormed found
      obtain ⟨inside, same⟩ := List.getElem?_eq_some_iff.mp position
      have split : formula.atoms = graph.atoms.take index ++ atom :: graph.atoms.drop (index + 1) := by
        rw [← same, ← List.drop_eq_getElem_cons inside, List.take_append_drop]
        exact represents.atoms_eq.symm
      refine .conflict nonempty split
        ((mem_contradictions_iff_conflicting represents position).mp contradicts) ?_
      intro other early conflicting
      obtain ⟨earlier, bound, otherSame⟩ := List.mem_take_iff_getElem.mp early
      have otherPosition : graph.atoms[earlier]? = some other :=
        List.getElem?_eq_some_iff.mpr ⟨by omega, otherSame⟩
      exact first earlier (by omega)
        ((mem_contradictions_iff_conflicting represents otherPosition).mpr conflicting)
  · next nothing =>
      have apart := apart_of_no_contradictions wellFormed
        (filterMap_contradictions_eq_nil wellFormed nothing)
      exact .satisfied ((atoms_environmentOf wellFormed _).trans represents.atoms_eq)
        (decided_walkedEnvironment wellFormed apart)
        (satisfies_walkedEnvironment represents apart narrow)

/-- Exactly the formulas without a clause that is too wide are accepted. -/
theorem validate_whole (limit : Nat) (formula : Formula) :
    (validate (.whole limit) formula = .ok () ∧ ∀ clause ∈ formula.clauses, clause.size ≤ limit) ∨
      ∃ fault, validate (.whole limit) formula = .error fault ∧
        ∃ clause ∈ formula.clauses, limit < clause.size := by
  unfold validate
  split
  · next accepted =>
      refine .inl ⟨rfl, fun clause member => ?_⟩
      have fits := List.find?_eq_none.mp accepted clause member
      simpa [Quantity.le_whole] using fits
  · next clause refused =>
      have wide := List.find?_some refused
      refine .inr ⟨_, rfl, clause, List.mem_of_find?_eq_some refused, ?_⟩
      simpa [Quantity.le_whole] using wide

/-- Whatever the limit is, only right answers are given. -/
theorem correct_of_solve {limit : Quantity} {answer : Answer}
    (solved : solve limit formula = .ok answer) : answer.Correct formula := by
  obtain ⟨_, _, decided⟩ := bind_eq_ok solved
  cases nonempty : formula.hasEmptyClause with
  | true =>
      rw [nonempty, if_pos rfl] at decided
      cases decided
      exact .emptyClause nonempty
  | false =>
      rw [nonempty, if_neg Bool.false_ne_true] at decided
      obtain ⟨graph, built, same⟩ := bind_eq_ok decided
      cases same
      exact decideGraph_correct (ImplicationGraph.ofFormula_represents built)
        (ImplicationGraph.narrow_of_foldlM_withClause built) nonempty

/-- A formula that has a graph has no empty clause, so the graph decides it. -/
theorem solve_of_built (built : ImplicationGraph.ofFormula formula = .ok graph) {limit : Quantity}
    (accepted : validate limit formula = .ok ()) : solve limit formula = .ok (decideGraph graph) := by
  have nonempty : formula.hasEmptyClause = false := by
    refine Bool.eq_false_iff.mpr fun empty => ?_
    obtain ⟨clause, member, shape⟩ := Formula.hasEmptyClause_iff.mp empty
    have filled := (ImplicationGraph.narrow_of_foldlM_withClause built clause member).1
    simp [Clause.size, shape] at filled
  simp [solve, accepted, nonempty, built, bind, Except.bind, pure, Except.pure]

/-- Formulas of clauses of at most two literals are decided, and rightly. -/
theorem solve_correct {limit : Quantity} (accepted : validate limit formula = .ok ())
    (narrow : ∀ clause ∈ formula.clauses, clause.size ≤ 2) :
    ∃ answer, solve limit formula = .ok answer ∧ answer.Correct formula := by
  obtain ⟨answer, solved⟩ : ∃ answer, solve limit formula = .ok answer := by
    cases nonempty : formula.hasEmptyClause with
    | true =>
        refine ⟨.emptyClause, ?_⟩
        simp [solve, accepted, nonempty, bind, Except.bind, pure, Except.pure]
    | false =>
        obtain ⟨graph, built⟩ :=
          ImplicationGraph.exists_foldlM_withClause .empty (Formula.narrow_of_nonempty nonempty narrow)
        exact ⟨decideGraph graph, solve_of_built built accepted⟩
  exact ⟨answer, solved, correct_of_solve solved⟩

end TwoSat

end Clausal
