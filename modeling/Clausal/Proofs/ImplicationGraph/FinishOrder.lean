import Clausal.Proofs.Digraph.PostOrder
import Clausal.Proofs.ImplicationGraph.Construction

/-!
The order in which the vertices of implication graphs finish: the post-order of the recursive search, which
puts the components of the graph in order.
-/

set_option autoImplicit false

namespace Clausal.ImplicationGraph

theorem WellFormed.closed {graph : ImplicationGraph} (wellFormed : graph.WellFormed) :
    graph.digraph.Closed := wellFormed.inside

/-- However an implication graph was built, its vertices finish in the post-order of the recursive search, each
once. The end of an edge finishes before its beginning unless a path leads back, and what a vertex reaches
finishes no later than the last of the vertex's component. -/
theorem build_finishOrder_eq_postOrder (operations : List Operation) :
    let graph := (build operations).digraph
    let position := fun vertex : Nat => graph.finishOrder.idxOf vertex
    graph.finishOrder = graph.postOrder ∧
      graph.finishOrder.Perm (List.range graph.order) ∧
      (∀ source target, target ∈ graph.successors source → ¬ graph.Reaches target source →
        position target < position source) ∧
      ∀ source < graph.order, ∃ last, graph.Connected source last ∧
        (∀ member, graph.Connected source member → position member ≤ position last) ∧
        ∀ target, graph.Reaches source target → position target ≤ position last := by
  intro graph position
  have closed : graph.Closed := (wellFormed_build operations).closed
  refine ⟨graph.finishOrder_eq_postOrder, graph.finishOrder_perm, ?_, ?_⟩
  · intro source target edge oneWay
    exact Digraph.finishOrder_edge closed edge oneWay
  · intro source bound
    obtain ⟨last, connected, reached⟩ := Digraph.exists_last_of_class closed bound
    exact ⟨last, connected, fun member same => reached member same.1, reached⟩

end Clausal.ImplicationGraph
