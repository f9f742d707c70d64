import Clausal.Proofs.Digraph.Transpose
import Clausal.Proofs.ImplicationGraph.Construction

/-!
What an implication graph stores. However a graph was built, its variables, index map, edges and successor
lists say the same in different ways, and literals and vertices stand for one another; later operations leave
the vertices that were given out in their places.
-/

set_option autoImplicit false

namespace Clausal.ImplicationGraph

variable {graph : ImplicationGraph}

/-- No edge is stored twice, be it in the set of edges or in a list of successors. -/
structure Simple (graph : ImplicationGraph) : Prop where
  nodup_edges : graph.edges.Nodup
  successors : graph.digraph.Simple

theorem simple_empty : empty.Simple where
  nodup_edges := List.nodup_nil
  successors := fun _ => by simp [empty, Digraph.successors]

namespace Simple

theorem addVariable (simple : graph.Simple) (atom : Variable) : (graph.addVariable atom).Simple where
  nodup_edges := by
    rw [edges_addVariable]
    exact simple.nodup_edges
  successors := by
    intro vertex
    rw [successors_addVariable]
    exact simple.successors vertex

theorem addArc (simple : graph.Simple) (wellFormed : graph.WellFormed) (source target : Nat) :
    (graph.addArc source target).Simple := by
  unfold ImplicationGraph.addArc
  split
  · exact simple
  · next fresh =>
      constructor
      · refine List.nodup_append.mpr ⟨simple.nodup_edges, by simp, ?_⟩
        rintro edge member _ (_ | _) rfl
        · exact fresh member
        · contradiction
      · exact simple.successors.addSuccessor (mt (wellFormed.mem_edges source target).mpr fresh)

theorem addEdge (simple : graph.Simple) (wellFormed : graph.WellFormed) (source target : Literal) :
    (graph.addEdge source target).Simple := by
  have later := wellFormed_addVertex (wellFormed_addVertex wellFormed source) target
  exact ((simple.addVariable source.atom).addVariable target.atom).addArc later _ _

/-- The set of edges is as large as the successor lists together. -/
theorem size_eq (simple : graph.Simple) (wellFormed : graph.WellFormed) :
    graph.size = graph.digraph.size := by
  have same : graph.edges.Perm graph.digraph.arcs := by
    refine (List.perm_ext_iff_of_nodup simple.nodup_edges simple.successors.nodup_arcs).mpr ?_
    rintro ⟨source, target⟩
    rw [wellFormed.mem_edges, Digraph.mem_arcs]
  rw [size, same.length_eq, Digraph.length_arcs]

end Simple

theorem simple_build (operations : List Operation) : (build operations).Simple := by
  have kept : (build operations).WellFormed ∧ (build operations).Simple := by
    refine foldl_apply_keeps (motive := fun graph => graph.WellFormed ∧ graph.Simple) ?_ ?_
      ⟨wellFormed_empty, simple_empty⟩ operations
    · intro graph literal before
      exact ⟨wellFormed_addVertex before.1 literal, before.2.addVariable literal.atom⟩
    · intro graph source target before
      exact ⟨wellFormed_addEdge before.1 source target, before.2.addEdge before.1 source target⟩
  exact kept.2

/-! Literals and vertices. -/

theorem vertexAt_div (index : Nat) (positive : Bool) : vertexAt index positive / 2 = index := by
  cases positive <;> simp only [vertexAt, Bool.false_eq_true, ↓reduceIte] <;> omega

theorem vertexAt_even_iff (index : Nat) (positive : Bool) :
    vertexAt index positive % 2 = 0 ↔ positive = true := by
  cases positive with
  | true => simp [vertexAt]
  | false => simp [vertexAt]

theorem atomAt?_natCast (graph : ImplicationGraph) (index : Nat) :
    graph.atomAt? index = graph.atoms[index]? := by
  rw [atomAt?, Position.resolve_natCast]
  split
  · rfl
  · next beyond => exact (List.getElem?_eq_none (Nat.le_of_not_lt beyond)).symm

theorem literal?_vertexAt (graph : ImplicationGraph) (index : Nat) (positive : Bool) :
    graph.literal? (vertexAt index positive) =
      graph.atoms[index]?.map fun atom => ⟨atom, positive⟩ := by
  have position : ((vertexAt index positive : Nat) : Int) / 2 = index := by
    have half := vertexAt_div index positive
    omega
  have sign : (((vertexAt index positive : Nat) : Int) % 2 == 0) = positive := by
    rw [Bool.eq_iff_iff, beq_iff_eq, ← vertexAt_even_iff index positive]
    omega
  rw [literal?, position, sign, atomAt?_natCast]
  cases graph.atoms[index]? with
  | none => rfl
  | some atom => rfl

theorem WellFormed.literal?_eq_some_iff (wellFormed : graph.WellFormed) {vertex : Nat}
    {literal : Literal} :
    graph.literal? vertex = some literal ↔ graph.vertex? literal = some vertex := by
  have below : vertex < 2 * (vertex + 1) := by omega
  obtain ⟨index, positive, _, rfl⟩ := exists_vertexAt below
  rw [literal?_vertexAt, wellFormed.vertex?_eq_some_iff, Option.map_eq_some_iff]
  constructor
  · rintro ⟨atom, listed, rfl⟩
    exact ⟨index, listed, rfl⟩
  · rintro ⟨other, listed, same⟩
    obtain ⟨rfl, rfl⟩ := vertexAt_inj.mp same
    exact ⟨literal.atom, listed, rfl⟩

theorem successors?_natCast {vertex : Nat} (bound : vertex < graph.order) :
    graph.successors? vertex = some (graph.digraph.successors vertex) := by
  have stored : graph.digraph.adjacency[vertex]? = some graph.digraph.adjacency[vertex] :=
    Array.getElem?_eq_getElem bound
  rw [successors?, Position.resolve_natCast, if_pos bound, Digraph.successors, stored]
  exact stored

/-! Vertices stay in their places. -/

namespace WellFormed

variable {literal : Literal} {vertex : Nat}

theorem vertex?_addEdge (wellFormed : graph.WellFormed) (source target : Literal)
    (found : graph.vertex? literal = some vertex) :
    (graph.addEdge source target).vertex? literal = some vertex := by
  have withSource := vertex?_addVariable wellFormed source.atom found
  have withTarget :=
    vertex?_addVariable (wellFormed_addVariable wellFormed source.atom) target.atom withSource
  exact (vertex?_addArc _ _ _ _).trans withTarget

theorem vertex?_foldl_apply (wellFormed : graph.WellFormed) (operations : List Operation)
    (found : graph.vertex? literal = some vertex) :
    (operations.foldl apply graph).vertex? literal = some vertex := by
  have kept : (operations.foldl apply graph).WellFormed ∧
      (operations.foldl apply graph).vertex? literal = some vertex := by
    refine foldl_apply_keeps
      (motive := fun later => later.WellFormed ∧ later.vertex? literal = some vertex) ?_ ?_
      ⟨wellFormed, found⟩ operations
    · intro later added before
      exact ⟨wellFormed_addVertex before.1 added, vertex?_addVariable before.1 added.atom before.2⟩
    · intro later source target before
      exact ⟨wellFormed_addEdge before.1 source target, before.1.vertex?_addEdge source target before.2⟩
  exact kept.2

end WellFormed

theorem addClause_refuses_iff (graph : ImplicationGraph) (clause : Clause) :
    (∃ fault, (graph.addClause clause).2 = some fault) ↔ clause.size = 0 ∨ 2 < clause.size := by
  rcases graph.addClause_cases clause with
    ⟨misfit, fault, added⟩ | ⟨literal, shape, added⟩ | ⟨first, second, shape, added⟩
  · exact iff_of_true ⟨fault, congrArg Prod.snd added⟩ misfit
  · simp [added, Clause.size, shape]
  · simp [added, Clause.size, shape]

theorem addClause_of_refused {clause : Clause} {fault : InvalidClause}
    (refused : (graph.addClause clause).2 = some fault) : (graph.addClause clause).1 = graph := by
  rcases graph.addClause_cases clause with ⟨_, _, added⟩ | ⟨_, _, added⟩ | ⟨_, _, _, added⟩
  · rw [added]
  · rw [added] at refused
    cases refused
  · rw [added] at refused
    cases refused

/-- The parts of a graph agree with one another, and so do its vertices and literals. -/
structure Consistent (graph : ImplicationGraph) : Prop where
  distinct : graph.atoms.Nodup
  /-- The index map holds each variable with its position, and nothing else. -/
  index : graph.index = graph.atoms.zipIdx
  lookup : ∀ atom, graph.index? atom = graph.atoms.idxOf? atom
  position : ∀ atom index, graph.index? atom = some index ↔ graph.atoms[index]? = some atom
  order : graph.digraph.adjacency.size = 2 * graph.atoms.length
  successors : ∀ vertex : Nat, vertex < graph.order →
    graph.successors? vertex = some (graph.digraph.successors vertex)
  inside : ∀ source target, target ∈ graph.digraph.successors source → target < graph.order
  unrepeated : ∀ vertex, (graph.digraph.successors vertex).Nodup
  edge : ∀ source target, graph.hasEdge source target = true ↔
    ∃ sourceVertex targetVertex, graph.vertex? source = some sourceVertex ∧
      graph.vertex? target = some targetVertex ∧
      targetVertex ∈ graph.digraph.successors sourceVertex
  /-- The number of edges is that of all successors. -/
  size : graph.size = graph.digraph.size
  ofVertex : ∀ vertex < graph.order,
    ∃ literal, graph.literal? vertex = some literal ∧ graph.vertex? literal = some vertex
  ofLiteral : ∀ literal : Literal, literal.atom ∈ graph.atoms →
    ∃ vertex, graph.vertex? literal = some vertex ∧ graph.literal? vertex = some literal ∧
      graph.vertex? literal.negate = some (opposite vertex)

theorem WellFormed.consistent (wellFormed : graph.WellFormed) (simple : graph.Simple) :
    graph.Consistent where
  distinct := wellFormed.nodup
  index := wellFormed.index_eq
  lookup := wellFormed.index?_eq_idxOf?
  position := fun _ _ => wellFormed.index?_eq_some_iff
  order := wellFormed.order_eq
  successors := fun _ => successors?_natCast
  inside := wellFormed.inside
  unrepeated := simple.successors
  edge := by
    intro source target
    simp only [hasEdge_iff, wellFormed.mem_edges]
  size := simple.size_eq wellFormed
  ofVertex := by
    intro vertex bound
    obtain ⟨literal, found⟩ := wellFormed.exists_vertex? bound
    exact ⟨literal, wellFormed.literal?_eq_some_iff.mpr found, found⟩
  ofLiteral := by
    intro literal known
    obtain ⟨vertex, found⟩ := wellFormed.exists_vertex?_of_mem known
    exact ⟨vertex, found, wellFormed.literal?_eq_some_iff.mpr found, wellFormed.vertex?_negate found⟩

/-- Whatever operations built a graph, its parts are consistent, further operations leave its vertices in
their places, and its transpose has the same edges the other way round. Only a clause of no literals or of
more than two is refused, and leaves the graph as it was. -/
theorem build_keeps_representation (operations : List Operation) :
    let graph := build operations
    let transposed := graph.digraph.transpose
    graph.Consistent ∧
      (∀ literal, (graph.addVertex literal).1.vertex? literal = some (graph.addVertex literal).2) ∧
      (∀ later literal vertex, graph.vertex? literal = some vertex →
        (build (operations ++ later)).vertex? literal = some vertex) ∧
      transposed.order = graph.order ∧
      (∀ source target,
        source ∈ transposed.successors target ↔ target ∈ graph.digraph.successors source) ∧
      (∀ target, (transposed.successors target).Pairwise (· < ·)) ∧
      transposed.size = graph.size ∧
      ∀ clause, ((∃ fault, (graph.addClause clause).2 = some fault) ↔
          clause.size = 0 ∨ 2 < clause.size) ∧
        ((∃ fault, (graph.addClause clause).2 = some fault) → (graph.addClause clause).1 = graph) := by
  intro graph transposed
  have wellFormed : graph.WellFormed := wellFormed_build operations
  have simple : graph.Simple := simple_build operations
  refine ⟨wellFormed.consistent simple, vertex?_addVertex wellFormed, ?_,
    Digraph.order_transpose graph.digraph, ?_, simple.successors.transpose_increasing, ?_,
    fun clause => ⟨addClause_refuses_iff graph clause, ?_⟩⟩
  · intro later literal vertex found
    rw [build, List.foldl_append]
    exact wellFormed.vertex?_foldl_apply later found
  · intro source target
    exact Digraph.mem_successors_transpose_iff wellFormed.inside
  · rw [simple.size_eq wellFormed]
    exact Digraph.size_transpose simple.successors wellFormed.inside
  · rintro ⟨fault, refused⟩
    exact addClause_of_refused refused

end Clausal.ImplicationGraph
