import Clausal.Proofs.ImplicationGraph.OfFormula

/-!
Edges as clauses. An edge of the implication graph of a formula is a clause of the formula, read as an
implication; so the graph has every edge together with its contrapositive, and what a literal reaches
follows from it.
-/

set_option autoImplicit false

namespace Clausal

theorem Literal.negate_eq_iff_eq_negate {left right : Literal} :
    left.negate = right ↔ left = right.negate := by
  constructor
  · rintro rfl
    rw [negate_negate]
  · rintro rfl
    rw [negate_negate]

namespace Clause

theorem equiv_iff {left right : Clause} :
    left.equiv right = true ↔ ∀ literal, literal ∈ left.literals ↔ literal ∈ right.literals := by
  simp only [equiv, Bool.and_eq_true, List.all_eq_true, contains_iff]
  constructor
  · intro included literal
    exact ⟨included.1 literal, included.2 literal⟩
  · intro same
    exact ⟨fun literal => (same literal).mp, fun literal => (same literal).mpr⟩

theorem equiv_ofList_pair_iff {clause : Clause} {left right : Literal} :
    clause.equiv (ofList [left, right]) = true ↔
      ∀ literal, literal ∈ clause.literals ↔ literal = left ∨ literal = right := by
  simp only [equiv_iff, mem_ofList, List.mem_cons, List.not_mem_nil, or_false]

/-- The clause of one literal given twice is the unit clause. -/
theorem literals_ofList_twice (literal : Literal) : (ofList [literal, literal]).literals = [literal] := by
  simp [ofList, List.eraseDups_cons]

/-- An implication stands for the clause of its negated source and its target. -/
theorem Narrow.implies_iff_equiv {clause : Clause} (narrow : clause.Narrow) {source target : Literal} :
    clause.Implies source target ↔ clause.equiv (ofList [source.negate, target]) = true := by
  rw [equiv_ofList_pair_iff]
  rcases narrow.cases with ⟨literal, shape⟩ | ⟨first, second, shape⟩
  · rw [implies_iff_of_unit shape, shape, ← Literal.negate_eq_iff_eq_negate]
    simp only [List.mem_singleton]
    constructor
    · rintro ⟨same, rfl⟩ other
      rw [same, or_self]
    · intro members
      exact ⟨(members source.negate).mpr (.inl rfl), (members target).mpr (.inr rfl)⟩
  · have distinct : first ≠ second := by
      have nodup := clause.nodup
      rw [shape] at nodup
      simpa using nodup
    rw [implies_iff_of_pair shape, shape, ← Literal.negate_eq_iff_eq_negate,
      ← Literal.negate_eq_iff_eq_negate]
    simp only [List.mem_cons, List.not_mem_nil, or_false]
    constructor
    · rintro (⟨rfl, rfl⟩ | ⟨rfl, rfl⟩) other
      · exact Iff.rfl
      · exact or_comm
    · intro members
      have ofFirst := (members first).mp (.inl rfl)
      have ofSecond := (members second).mp (.inr rfl)
      grind

end Clause

namespace ImplicationGraph

variable {formula : Formula} {graph : ImplicationGraph}

theorem exists_ofFormula_iff (formula : Formula) :
    (∃ graph, ofFormula formula = .ok graph) ↔ ∀ clause ∈ formula.clauses, clause.Narrow :=
  ⟨fun ⟨_, built⟩ => narrow_of_foldlM_withClause built, exists_foldlM_withClause empty⟩

theorem exists_error_ofFormula_iff (formula : Formula) :
    (∃ fault, ofFormula formula = .error fault) ↔
      ∃ clause ∈ formula.clauses, clause.size = 0 ∨ 2 < clause.size := by
  have wide : (∃ clause ∈ formula.clauses, clause.size = 0 ∨ 2 < clause.size) ↔
      ¬ ∀ clause ∈ formula.clauses, clause.Narrow := by
    simp only [Clause.Narrow, not_forall]
    refine exists_congr fun clause => ?_
    rw [exists_prop]
    exact and_congr_right fun _ => by omega
  rw [wide, ← exists_ofFormula_iff]
  cases ofFormula formula with
  | error fault => simp
  | ok graph => simp

namespace Represents

theorem hasEdge_iff_clause (represents : graph.Represents formula.clauses)
    (narrow : ∀ clause ∈ formula.clauses, clause.Narrow) (source target : Literal) :
    graph.hasEdge source target = true ↔
      ∃ clause ∈ formula.clauses, clause.equiv (.ofList [source.negate, target]) = true := by
  rw [represents.edge_iff]
  exact exists_congr fun clause => and_congr_right fun member => (narrow clause member).implies_iff_equiv

theorem hasEdge_contrapositive (represents : graph.Represents formula.clauses)
    (source target : Literal) :
    graph.hasEdge source target = true ↔ graph.hasEdge target.negate source.negate = true := by
  rw [represents.edge_iff, represents.edge_iff]
  constructor
  · exact Formula.Implies.contrapositive
  · intro implied
    have back := Formula.Implies.contrapositive implied
    rwa [Literal.negate_negate, Literal.negate_negate] at back

theorem holds_of_reaches (represents : graph.Represents formula.clauses) {source target : Literal}
    {sourceVertex targetVertex : Nat} (sourceFound : graph.vertex? source = some sourceVertex)
    (targetFound : graph.vertex? target = some targetVertex)
    (path : graph.digraph.Reaches sourceVertex targetVertex) {valuation : Valuation}
    (holds : formula.Holds valuation) (sourceHolds : source.Holds valuation) :
    target.Holds valuation :=
  ((represents.reaches_iff_leads sourceFound targetFound).mp path).holds holds sourceHolds

end Represents

/-- Exactly the formulas with an empty clause or a clause of more than two literals have no graph. In the
graph of any other formula the edges are its clauses, where a unit clause counts as its literal twice. -/
theorem ofFormula_edges_are_clauses (formula : Formula) :
    ((∃ fault, ofFormula formula = .error fault) ↔
        ∃ clause ∈ formula.clauses, clause.size = 0 ∨ 2 < clause.size) ∧
      ((∀ clause ∈ formula.clauses, 0 < clause.size ∧ clause.size ≤ 2) →
        ∃ graph, ofFormula formula = .ok graph ∧
          (∀ source target, graph.hasEdge source target = true ↔
            ∃ clause ∈ formula.clauses, clause.equiv (.ofList [source.negate, target]) = true) ∧
          (∀ literal : Literal,
            (Clause.ofList [literal.negate.negate, literal]).literals = [literal]) ∧
          graph.atoms = formula.atoms ∧ graph.order = 2 * graph.atoms.length ∧
          (∀ source target, graph.hasEdge source target = true ↔
            graph.hasEdge target.negate source.negate = true) ∧
          ∀ source target sourceVertex targetVertex, graph.vertex? source = some sourceVertex →
            graph.vertex? target = some targetVertex →
            graph.digraph.Reaches sourceVertex targetVertex →
            ∀ valuation, formula.Holds valuation → source.Holds valuation →
              target.Holds valuation) := by
  refine ⟨exists_error_ofFormula_iff formula, fun narrow => ?_⟩
  obtain ⟨graph, built⟩ := (exists_ofFormula_iff formula).mpr narrow
  have represents := ofFormula_represents built
  refine ⟨graph, built, represents.hasEdge_iff_clause narrow, ?_, represents.atoms_eq,
    represents.wellFormed.order_eq, represents.hasEdge_contrapositive, ?_⟩
  · intro literal
    rw [Literal.negate_negate]
    exact Clause.literals_ofList_twice literal
  · intro source target sourceVertex targetVertex sourceFound targetFound path valuation holds
    exact represents.holds_of_reaches sourceFound targetFound path holds

end ImplicationGraph

end Clausal
