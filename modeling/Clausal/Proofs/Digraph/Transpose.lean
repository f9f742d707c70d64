import Clausal.Digraph
import Mathlib.Data.List.Nodup
import Mathlib.Data.Prod.Basic

/-!
The edges of a directed graph, and those of its transpose. In a graph whose successor lists are free of
repetition the edges are pairs of numbers without repetition; reversing them all keeps their number.
-/

set_option autoImplicit false

namespace Clausal.Digraph

/-- The lengths of some lists, added up. -/
def totalLength : List (List Nat) → Nat
  | [] => 0
  | items :: rest => items.length + totalLength rest

/-- The number of edges: the lengths of all successor lists, added up. -/
def size (graph : Digraph) : Nat := totalLength graph.adjacency.toList

/-- The edges as pairs, by their sources. -/
def arcs (graph : Digraph) : List (Nat × Nat) :=
  (List.range graph.order).flatMap fun source => (graph.successors source).map (source, ·)

/-- The successor lists are free of repetition. -/
def Simple (graph : Digraph) : Prop := ∀ vertex, (graph.successors vertex).Nodup

variable {graph : Digraph}

theorem mem_arcs {source target : Nat} :
    (source, target) ∈ graph.arcs ↔ target ∈ graph.successors source := by
  simp only [arcs, List.mem_flatMap, List.mem_range, List.mem_map, Prod.mk.injEq]
  constructor
  · rintro ⟨_, _, _, edge, rfl, rfl⟩
    exact edge
  · intro edge
    exact ⟨source, lt_order_of_mem_successors edge, target, edge, rfl, rfl⟩

theorem Simple.nodup_arcs (simple : graph.Simple) : graph.arcs.Nodup := by
  refine List.nodup_flatMap.mpr ⟨fun source _ => ?_, ?_⟩
  · exact (simple source).map fun left right same => (Prod.mk.inj same).2
  · refine List.nodup_range.imp fun {left right} different pair inLeft inRight => ?_
    obtain ⟨_, _, rfl⟩ := List.mem_map.mp inLeft
    obtain ⟨_, _, same⟩ := List.mem_map.mp inRight
    exact different (Prod.mk.inj same).1.symm

theorem Simple.addSuccessor (simple : graph.Simple) {source target : Nat}
    (fresh : target ∉ graph.successors source) : (graph.addSuccessor source target).Simple := by
  intro vertex
  by_cases bound : vertex < graph.order
  · rw [successors_addSuccessor _ _ _ bound]
    split
    · next same =>
        subst vertex
        exact List.nodup_append.mpr ⟨simple source, by simp, by grind⟩
    · exact simple vertex
  · rw [successors_eq_nil (by rwa [order_addSuccessor])]
    exact List.nodup_nil

theorem adjacency_toList (graph : Digraph) :
    graph.adjacency.toList = (List.range graph.order).map graph.successors := by
  refine List.ext_getElem (by simp [order]) fun vertex bound _ => ?_
  rw [Array.length_toList] at bound
  simp [successors, bound]

theorem length_flatMap_eq_totalLength (sources : List Nat) :
    (sources.flatMap fun source => (graph.successors source).map (source, ·)).length =
      totalLength (sources.map graph.successors) := by
  induction sources with
  | nil => rfl
  | cons source rest ih =>
      rw [List.flatMap_cons, List.length_append, List.length_map, ih, List.map_cons, totalLength]

theorem length_arcs (graph : Digraph) : graph.arcs.length = graph.size := by
  rw [arcs, length_flatMap_eq_totalLength, size, adjacency_toList]

/-! The transpose. -/

/-- Where no list repeats a vertex, a source is recorded once for each of its edges. -/
theorem Simple.flatMap_count (simple : graph.Simple) (vertex : Nat) (sources : List Nat) :
    (sources.flatMap fun source => List.replicate ((graph.successors source).count vertex) source) =
      sources.filter fun source => decide (vertex ∈ graph.successors source) := by
  induction sources with
  | nil => rfl
  | cons source rest ih =>
      rw [List.flatMap_cons, List.filter_cons, ih, (simple source).count]
      by_cases edge : vertex ∈ graph.successors source
      · simp [edge]
      · simp [edge]

theorem Simple.successors_transpose (simple : graph.Simple) {vertex : Nat} (bound : vertex < graph.order) :
    graph.transpose.successors vertex = graph.predecessors vertex := by
  rw [successors_transpose_eq_flatMap graph bound, simple.flatMap_count, predecessors]

theorem Simple.transpose_increasing (simple : graph.Simple) (vertex : Nat) :
    (graph.transpose.successors vertex).Pairwise (· < ·) := by
  by_cases bound : vertex < graph.order
  · rw [simple.successors_transpose bound]
    exact List.pairwise_lt_range.filter _
  · rw [successors_eq_nil (by rwa [order_transpose])]
    exact .nil

theorem Simple.transpose (simple : graph.Simple) : graph.transpose.Simple := fun vertex =>
  (simple.transpose_increasing vertex).imp Nat.ne_of_lt

theorem mem_successors_transpose_iff
    (inside : ∀ source target, target ∈ graph.successors source → target < graph.order)
    {source vertex : Nat} :
    source ∈ graph.transpose.successors vertex ↔ vertex ∈ graph.successors source := by
  constructor
  · intro reversed
    have bound := lt_order_of_mem_successors reversed
    rw [order_transpose] at bound
    exact (mem_successors_transpose bound).mp reversed
  · intro edge
    exact (mem_successors_transpose (inside source vertex edge)).mpr edge

/-- No edge is lost or doubled when all are reversed. -/
theorem size_transpose (simple : graph.Simple)
    (inside : ∀ source target, target ∈ graph.successors source → target < graph.order) :
    graph.transpose.size = graph.size := by
  have reversed : graph.transpose.arcs.Perm (graph.arcs.map Prod.swap) := by
    have distinct : (graph.arcs.map Prod.swap).Nodup :=
      simple.nodup_arcs.map Prod.swap_injective
    refine (List.perm_ext_iff_of_nodup simple.transpose.nodup_arcs distinct).mpr ?_
    rintro ⟨target, source⟩
    rw [mem_arcs, mem_successors_transpose_iff inside, List.mem_map]
    constructor
    · intro edge
      exact ⟨(source, target), mem_arcs.mpr edge, rfl⟩
    · rintro ⟨⟨_, _⟩, member, same⟩
      cases same
      exact mem_arcs.mp member
  rw [← length_arcs, reversed.length_eq, List.length_map, length_arcs]

end Clausal.Digraph
