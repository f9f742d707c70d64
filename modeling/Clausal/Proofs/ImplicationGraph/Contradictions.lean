import Clausal.Proofs.ImplicationGraph.Construction

/-!
The components of implication graphs, and the variables whose two literals share one.
-/

set_option autoImplicit false

namespace Clausal.ImplicationGraph

variable {graph : ImplicationGraph}

theorem mem_contradictions (wellFormed : graph.WellFormed) {index : Nat} :
    index ∈ graph.contradictions graph.digraph.components ↔
      index < graph.atoms.length ∧
        graph.digraph.Connected (vertexAt index true) (vertexAt index false) := by
  have half : graph.order / 2 = graph.atoms.length := by
    rw [wellFormed.order_eq]
    omega
  rw [contradictions, List.mem_filter, List.mem_range, half, conflicts, beq_iff_eq]
  refine and_congr_right fun bound => ?_
  have vertices : ∀ positive, vertexAt index positive < graph.digraph.order := by
    intro positive
    change _ < graph.order
    rw [wellFormed.order_eq]
    exact vertexAt_lt bound
  exact Digraph.componentOf_eq_iff_connected (vertices true) (vertices false)

theorem contradictions_increasing (graph : ImplicationGraph) (decomposition : Digraph.Decomposition) :
    (graph.contradictions decomposition).Pairwise (· < ·) :=
  List.pairwise_lt_range.filter _

/-- However an implication graph was built, its components are the classes of mutually reachable
vertices, each vertex once and under its index, in topological order; the contradictions are the
variables whose two vertices are mutually reachable. -/
theorem build_components_stronglyConnected (operations : List Operation) :
    let graph := build operations
    let decomposition := graph.digraph.components
    decomposition.components.flatten.Perm (List.range graph.order) ∧
      (∀ vertex < graph.order, ∀ index,
        (∃ members, decomposition.components[index]? = some members ∧ vertex ∈ members) ↔
          index = decomposition.componentOf vertex) ∧
      (∀ left < graph.order, ∀ right < graph.order,
        decomposition.componentOf left = decomposition.componentOf right ↔
          graph.digraph.Reaches left right ∧ graph.digraph.Reaches right left) ∧
      (∀ source target, target ∈ graph.digraph.successors source →
        decomposition.componentOf source ≤ decomposition.componentOf target) ∧
      (graph.contradictions decomposition).Pairwise (· < ·) ∧
      ∀ index, index ∈ graph.contradictions decomposition ↔
        index < graph.atoms.length ∧
          graph.digraph.Reaches (vertexAt index true) (vertexAt index false) ∧
          graph.digraph.Reaches (vertexAt index false) (vertexAt index true) := by
  intro graph decomposition
  have wellFormed : graph.WellFormed := wellFormed_build operations
  refine ⟨Digraph.flatten_components_perm graph.digraph, ?_, ?_, ?_, ?_, ?_⟩
  · intro vertex bound index
    exact Digraph.mem_component_iff bound
  · intro left leftBound right rightBound
    exact Digraph.componentOf_eq_iff_connected leftBound rightBound
  · intro source target edge
    exact Digraph.componentOf_le_of_edge edge (wellFormed.inside source target edge)
  · exact contradictions_increasing graph decomposition
  · intro index
    exact mem_contradictions wellFormed

end Clausal.ImplicationGraph
