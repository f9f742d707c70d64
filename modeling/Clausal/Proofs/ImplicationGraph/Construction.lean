import Clausal.ImplicationGraph
import Clausal.Proofs.Assoc
import Clausal.Proofs.Digraph.Components

/-!
Implication graphs under construction. Every operation keeps a graph well formed and vertices in
their places, and adds to the implications exactly the ones that it is asked for.
-/

set_option autoImplicit false

namespace Clausal

theorem vertexAt_lt {index count : Nat} {positive : Bool} (bound : index < count) :
    vertexAt index positive < 2 * count := by
  unfold vertexAt
  split <;> omega

theorem vertexAt_inj {left right : Nat} {leftSign rightSign : Bool} :
    vertexAt left leftSign = vertexAt right rightSign ↔ left = right ∧ leftSign = rightSign := by
  cases leftSign <;> cases rightSign <;> simp [vertexAt] <;> omega

theorem exists_vertexAt {vertex count : Nat} (bound : vertex < 2 * count) :
    ∃ index positive, index < count ∧ vertexAt index positive = vertex := by
  by_cases even : vertex % 2 = 0
  · exact ⟨vertex / 2, true, by omega, by simp only [vertexAt, ↓reduceIte]; omega⟩
  · exact ⟨vertex / 2, false, by omega, by
      simp only [vertexAt, Bool.false_eq_true, ↓reduceIte]; omega⟩

theorem opposite_vertexAt (index : Nat) (positive : Bool) :
    opposite (vertexAt index positive) = vertexAt index !positive := by
  cases positive <;> simp [opposite, vertexAt]

/-- The position of an item, looked up in a list without repetition. -/
theorem Assoc.get?_zipIdx_eq_some_iff {α : Type} [DecidableEq α] {items : List α} (distinct : items.Nodup)
    {item : α} {index : Nat} : get? item items.zipIdx = some index ↔ items[index]? = some item := by
  have numbered : (item, index) ∈ items.zipIdx ↔ items[index]? = some item :=
    List.mem_zipIdx_iff_getElem?
  rw [← numbered]
  constructor
  · exact mem_of_get?_eq_some
  · refine get?_of_mem ?_
    rwa [keys, List.zipIdx_map_fst]

namespace ImplicationGraph

/-- The operations that build a graph. -/
inductive Operation where
  | addVertex (literal : Literal)
  | addEdge (source target : Literal)
  | addClause (clause : Clause)

/-- The graph after an operation; after a clause that is refused, the graph as the refusal leaves it. -/
def apply (graph : ImplicationGraph) : Operation → ImplicationGraph
  | .addVertex literal => (graph.addVertex literal).1
  | .addEdge source target => graph.addEdge source target
  | .addClause clause => (graph.addClause clause).1

/-- The graph that a sequence of operations builds. -/
def build (operations : List Operation) : ImplicationGraph := operations.foldl apply empty

/-- What every operation maintains. -/
structure WellFormed (graph : ImplicationGraph) : Prop where
  nodup : graph.atoms.Nodup
  index_eq : graph.index = graph.atoms.zipIdx
  order_eq : graph.order = 2 * graph.atoms.length
  inside : ∀ source target, target ∈ graph.digraph.successors source → target < graph.order
  mem_edges : ∀ source target,
    (source, target) ∈ graph.edges ↔ target ∈ graph.digraph.successors source

theorem wellFormed_empty : empty.WellFormed where
  nodup := List.nodup_nil
  index_eq := rfl
  order_eq := rfl
  inside := by simp [empty, Digraph.successors]
  mem_edges := by simp [empty, Digraph.successors]

variable {graph : ImplicationGraph}

namespace WellFormed

theorem edge_lt (wellFormed : graph.WellFormed) {source target : Nat}
    (edge : (source, target) ∈ graph.edges) : source < graph.order ∧ target < graph.order := by
  have successor := (wellFormed.mem_edges source target).mp edge
  exact ⟨Digraph.lt_order_of_mem_successors successor, wellFormed.inside source target successor⟩

theorem index?_eq_some_iff (wellFormed : graph.WellFormed) {atom : Variable} {index : Nat} :
    graph.index? atom = some index ↔ graph.atoms[index]? = some atom := by
  rw [index?, wellFormed.index_eq]
  exact Assoc.get?_zipIdx_eq_some_iff wellFormed.nodup

theorem index?_eq_none_iff (wellFormed : graph.WellFormed) {atom : Variable} :
    graph.index? atom = none ↔ atom ∉ graph.atoms := by
  rw [index?, Assoc.get?_eq_none_iff, Assoc.keys, wellFormed.index_eq, List.zipIdx_map_fst]

/-- The index map finds what a search of the variables would find. -/
theorem index?_eq_idxOf? (wellFormed : graph.WellFormed) (atom : Variable) :
    graph.index? atom = graph.atoms.idxOf? atom := by
  cases found : graph.index? atom with
  | none => exact (List.idxOf?_eq_none_iff.mpr (wellFormed.index?_eq_none_iff.mp found)).symm
  | some index =>
      obtain ⟨bound, rfl⟩ := List.getElem?_eq_some_iff.mp (wellFormed.index?_eq_some_iff.mp found)
      rw [List.idxOf?_eq_some_iff.mpr ⟨bound, rfl, fun earlier before again => ?_⟩]
      have same := (wellFormed.nodup.getElem_inj_iff).mp again
      omega

theorem vertex?_eq_some_iff (wellFormed : graph.WellFormed) {literal : Literal} {vertex : Nat} :
    graph.vertex? literal = some vertex ↔
      ∃ index, graph.atoms[index]? = some literal.atom ∧ vertexAt index literal.positive = vertex := by
  simp only [vertex?, Option.map_eq_some_iff, wellFormed.index?_eq_some_iff]

theorem vertex?_lt (wellFormed : graph.WellFormed) {literal : Literal} {vertex : Nat}
    (found : graph.vertex? literal = some vertex) : vertex < graph.order := by
  obtain ⟨index, position, rfl⟩ := wellFormed.vertex?_eq_some_iff.mp found
  rw [wellFormed.order_eq]
  exact vertexAt_lt (List.getElem?_eq_some_iff.mp position).1

theorem vertex?_injective (wellFormed : graph.WellFormed) {left right : Literal} {vertex : Nat}
    (leftFound : graph.vertex? left = some vertex) (rightFound : graph.vertex? right = some vertex) :
    left = right := by
  obtain ⟨leftIndex, leftPosition, leftVertex⟩ := wellFormed.vertex?_eq_some_iff.mp leftFound
  obtain ⟨rightIndex, rightPosition, rightVertex⟩ := wellFormed.vertex?_eq_some_iff.mp rightFound
  obtain ⟨sameIndex, sameSign⟩ := vertexAt_inj.mp (leftVertex.trans rightVertex.symm)
  rw [sameIndex, rightPosition] at leftPosition
  cases left
  cases right
  simp_all

theorem exists_vertex? (wellFormed : graph.WellFormed) {vertex : Nat} (bound : vertex < graph.order) :
    ∃ literal, graph.vertex? literal = some vertex := by
  rw [wellFormed.order_eq] at bound
  obtain ⟨index, positive, inside, same⟩ := exists_vertexAt bound
  refine ⟨⟨graph.atoms[index], positive⟩, wellFormed.vertex?_eq_some_iff.mpr ⟨index, ?_, same⟩⟩
  exact List.getElem?_eq_getElem inside

theorem vertex?_negate (wellFormed : graph.WellFormed) {literal : Literal} {vertex : Nat}
    (found : graph.vertex? literal = some vertex) :
    graph.vertex? literal.negate = some (opposite vertex) := by
  obtain ⟨index, position, rfl⟩ := wellFormed.vertex?_eq_some_iff.mp found
  exact wellFormed.vertex?_eq_some_iff.mpr ⟨index, position, (opposite_vertexAt _ _).symm⟩

end WellFormed

theorem WellFormed.exists_vertex?_of_mem (wellFormed : graph.WellFormed) {literal : Literal}
    (known : literal.atom ∈ graph.atoms) : ∃ vertex, graph.vertex? literal = some vertex := by
  cases position : graph.index? literal.atom with
  | none => exact absurd known (wellFormed.index?_eq_none_iff.mp position)
  | some index => exact ⟨_, by rw [vertex?, position]; rfl⟩

theorem hasEdge_iff {source target : Literal} :
    graph.hasEdge source target = true ↔
      ∃ sourceVertex targetVertex, graph.vertex? source = some sourceVertex ∧
        graph.vertex? target = some targetVertex ∧ (sourceVertex, targetVertex) ∈ graph.edges := by
  unfold hasEdge
  split
  · next sourceVertex targetVertex sourceFound targetFound =>
      simp [sourceFound, targetFound]
  · next missing =>
      simp only [Bool.false_eq_true, false_iff]
      intro present
      obtain ⟨sourceVertex, targetVertex, sourceFound, targetFound, _⟩ := present
      exact missing sourceVertex targetVertex sourceFound targetFound

theorem addVariable_of_mem (wellFormed : graph.WellFormed) {atom : Variable}
    (known : atom ∈ graph.atoms) : graph.addVariable atom = graph := by
  unfold addVariable
  split
  · rfl
  · next missing => exact absurd known (wellFormed.index?_eq_none_iff.mp missing)

/-- A new variable gets the next position. -/
theorem addVariable_of_not_mem (wellFormed : graph.WellFormed) {atom : Variable}
    (fresh : atom ∉ graph.atoms) :
    graph.addVariable atom =
      { graph with
        index := graph.index ++ [(atom, graph.atoms.length)]
        atoms := graph.atoms ++ [atom]
        digraph := ⟨(graph.digraph.adjacency.push []).push []⟩ } := by
  have missing : graph.index? atom = none := wellFormed.index?_eq_none_iff.mpr fresh
  rw [addVariable, missing, Assoc.insert_of_not_mem (Assoc.get?_eq_none_iff.mp missing)]

theorem atoms_addVariable (wellFormed : graph.WellFormed) (atom : Variable) :
    (graph.addVariable atom).atoms =
      if atom ∈ graph.atoms then graph.atoms else graph.atoms ++ [atom] := by
  split
  · next known => rw [addVariable_of_mem wellFormed known]
  · next fresh => rw [addVariable_of_not_mem wellFormed fresh]

theorem edges_addVariable (graph : ImplicationGraph) (atom : Variable) :
    (graph.addVariable atom).edges = graph.edges := by
  unfold addVariable
  split <;> rfl

theorem successors_addVariable (graph : ImplicationGraph) (atom : Variable) (vertex : Nat) :
    (graph.addVariable atom).digraph.successors vertex = graph.digraph.successors vertex := by
  unfold addVariable
  split
  · rfl
  · simp only [Digraph.successors, Array.getElem?_push, Array.size_push]
    grind

theorem order_le_order_addVariable (graph : ImplicationGraph) (atom : Variable) :
    graph.order ≤ (graph.addVariable atom).order := by
  unfold addVariable
  split
  · exact Nat.le_refl _
  · simp only [order, Digraph.order, Array.size_push]
    omega

theorem atoms_addArc (graph : ImplicationGraph) (source target : Nat) :
    (graph.addArc source target).atoms = graph.atoms := by
  unfold addArc
  split <;> rfl

theorem vertex?_addArc (graph : ImplicationGraph) (source target : Nat) (literal : Literal) :
    (graph.addArc source target).vertex? literal = graph.vertex? literal := by
  unfold addArc
  split <;> rfl

theorem mem_edges_addArc {source target left right : Nat} :
    (left, right) ∈ (graph.addArc source target).edges ↔
      (left, right) ∈ graph.edges ∨ left = source ∧ right = target := by
  unfold addArc
  split
  · grind
  · simp

theorem wellFormed_addVariable (wellFormed : graph.WellFormed) (atom : Variable) :
    (graph.addVariable atom).WellFormed := by
  by_cases known : atom ∈ graph.atoms
  · rwa [addVariable_of_mem wellFormed known]
  · have grown := addVariable_of_not_mem wellFormed known
    constructor
    · rw [grown]
      exact List.nodup_append.mpr ⟨wellFormed.nodup, by simp, by grind⟩
    · rw [grown, List.zipIdx_append, ← wellFormed.index_eq, Nat.zero_add]
      rfl
    · have order := wellFormed.order_eq
      rw [grown, List.length_append, List.length_singleton]
      simp only [ImplicationGraph.order, Digraph.order, Array.size_push] at order ⊢
      omega
    · intro source target edge
      rw [successors_addVariable] at edge
      exact Nat.lt_of_lt_of_le (wellFormed.inside source target edge)
        (order_le_order_addVariable graph atom)
    · intro source target
      rw [edges_addVariable, successors_addVariable]
      exact wellFormed.mem_edges source target

theorem wellFormed_addArc (wellFormed : graph.WellFormed) {source target : Nat}
    (sourceBound : source < graph.order) (targetBound : target < graph.order) :
    (graph.addArc source target).WellFormed := by
  unfold addArc
  split
  · exact wellFormed
  · have order := graph.digraph.order_addSuccessor source target
    refine ⟨wellFormed.nodup, wellFormed.index_eq, order.trans wellFormed.order_eq, ?_, ?_⟩
    · intro left right edge
      have old := wellFormed.inside left right
      rw [Digraph.mem_successors_addSuccessor sourceBound] at edge
      simp only [ImplicationGraph.order, order] at old targetBound ⊢
      grind
    · intro left right
      simp only [Digraph.mem_successors_addSuccessor sourceBound, List.mem_append, List.mem_singleton, Prod.mk.injEq, wellFormed.mem_edges]

/-- Vertices stay in their places. -/
theorem vertex?_addVariable (wellFormed : graph.WellFormed) {literal : Literal} {vertex : Nat}
    (atom : Variable) (found : graph.vertex? literal = some vertex) :
    (graph.addVariable atom).vertex? literal = some vertex := by
  obtain ⟨index, position, same⟩ := wellFormed.vertex?_eq_some_iff.mp found
  refine (wellFormed_addVariable wellFormed atom).vertex?_eq_some_iff.mpr ⟨index, ?_, same⟩
  rw [atoms_addVariable wellFormed]
  split
  · exact position
  · rw [List.getElem?_append_left (List.getElem?_eq_some_iff.mp position).1]
    exact position

theorem vertex?_addVertex (wellFormed : graph.WellFormed) (literal : Literal) :
    (graph.addVertex literal).1.vertex? literal = some (graph.addVertex literal).2 := by
  refine (wellFormed_addVariable wellFormed _).vertex?_eq_some_iff.mpr ⟨_, ?_, rfl⟩
  cases found : graph.index? literal.atom with
  | none =>
      rw [addVariable_of_not_mem wellFormed (wellFormed.index?_eq_none_iff.mp found), Option.getD_none]
      exact List.getElem?_concat_length
  | some index =>
      have position := wellFormed.index?_eq_some_iff.mp found
      rw [addVariable_of_mem wellFormed (List.mem_of_getElem? position), Option.getD_some]
      exact position

theorem hasEdge_addVariable (wellFormed : graph.WellFormed) (atom : Variable) {source target : Literal} :
    (graph.addVariable atom).hasEdge source target = true ↔ graph.hasEdge source target = true := by
  have later := wellFormed_addVariable wellFormed atom
  have stays : ∀ literal vertex, vertex < graph.order →
      ((graph.addVariable atom).vertex? literal = some vertex ↔
        graph.vertex? literal = some vertex) := by
    intro literal vertex bound
    constructor
    · intro found
      obtain ⟨original, foundOriginal⟩ := wellFormed.exists_vertex? bound
      rw [later.vertex?_injective found (vertex?_addVariable wellFormed atom foundOriginal)]
      exact foundOriginal
    · exact vertex?_addVariable wellFormed atom
  rw [hasEdge_iff, hasEdge_iff, edges_addVariable]
  constructor
  · intro present
    obtain ⟨sourceVertex, targetVertex, sourceFound, targetFound, edge⟩ := present
    have bounds := wellFormed.edge_lt edge
    exact ⟨_, _, (stays _ _ bounds.1).mp sourceFound, (stays _ _ bounds.2).mp targetFound, edge⟩
  · intro present
    obtain ⟨sourceVertex, targetVertex, sourceFound, targetFound, edge⟩ := present
    have bounds := wellFormed.edge_lt edge
    exact ⟨_, _, (stays _ _ bounds.1).mpr sourceFound, (stays _ _ bounds.2).mpr targetFound, edge⟩

theorem wellFormed_addVertex (wellFormed : graph.WellFormed) (literal : Literal) :
    (graph.addVertex literal).1.WellFormed :=
  wellFormed_addVariable wellFormed literal.atom

/-- Both ends of a new implication are vertices when its arc is added. -/
theorem vertices_addEdge (wellFormed : graph.WellFormed) (source target : Literal) :
    ((graph.addVertex source).1.addVertex target).1.vertex? source =
        some (graph.addVertex source).2 ∧
      ((graph.addVertex source).1.addVertex target).1.vertex? target =
        some ((graph.addVertex source).1.addVertex target).2 :=
  have withSource := wellFormed_addVertex wellFormed source
  ⟨vertex?_addVariable withSource target.atom (vertex?_addVertex wellFormed source),
    vertex?_addVertex withSource target⟩

theorem wellFormed_addEdge (wellFormed : graph.WellFormed) (source target : Literal) :
    (graph.addEdge source target).WellFormed := by
  have later := wellFormed_addVertex (wellFormed_addVertex wellFormed source) target
  obtain ⟨sourceFound, targetFound⟩ := vertices_addEdge wellFormed source target
  exact wellFormed_addArc later (later.vertex?_lt sourceFound) (later.vertex?_lt targetFound)

theorem atoms_addEdge (graph : ImplicationGraph) (source target : Literal) :
    (graph.addEdge source target).atoms =
      ((graph.addVariable source.atom).addVariable target.atom).atoms :=
  atoms_addArc _ _ _

/-- A new implication is added, and nothing else. -/
theorem hasEdge_addEdge (wellFormed : graph.WellFormed) {source target left right : Literal} :
    (graph.addEdge source target).hasEdge left right = true ↔
      graph.hasEdge left right = true ∨ left = source ∧ right = target := by
  have withSource := wellFormed_addVertex wellFormed source
  have later := wellFormed_addVertex withSource target
  obtain ⟨sourceFound, targetFound⟩ := vertices_addEdge wellFormed source target
  have unchanged : ((graph.addVertex source).1.addVertex target).1.hasEdge left right = true ↔
      graph.hasEdge left right = true :=
    (hasEdge_addVariable withSource target.atom).trans (hasEdge_addVariable wellFormed source.atom)
  rw [← unchanged, hasEdge_iff, hasEdge_iff]
  simp only [addEdge, vertex?_addArc, mem_edges_addArc]
  constructor
  · intro present
    obtain ⟨leftVertex, rightVertex, leftFound, rightFound, edge | ⟨rfl, rfl⟩⟩ := present
    · exact .inl ⟨leftVertex, rightVertex, leftFound, rightFound, edge⟩
    · exact .inr ⟨later.vertex?_injective leftFound sourceFound,
        later.vertex?_injective rightFound targetFound⟩
  · intro present
    rcases present with ⟨leftVertex, rightVertex, leftFound, rightFound, edge⟩ | ⟨rfl, rfl⟩
    · exact ⟨leftVertex, rightVertex, leftFound, rightFound, .inl edge⟩
    · exact ⟨_, _, sourceFound, targetFound, .inr ⟨rfl, rfl⟩⟩

/-- What becomes of a clause: it is refused at once, or its one or two implications are added. -/
theorem addClause_cases (graph : ImplicationGraph) (clause : Clause) :
    ((clause.size = 0 ∨ 2 < clause.size) ∧ ∃ fault, graph.addClause clause = (graph, some fault)) ∨
      (∃ literal, clause.literals = [literal] ∧
        graph.addClause clause = (graph.addEdge literal.negate literal, none)) ∨
      ∃ first second, clause.literals = [first, second] ∧
        graph.addClause clause =
          ((graph.addEdge first.negate second).addEdge second.negate first, none) := by
  unfold addClause
  cases shape : clause.literals with
  | nil => exact .inl ⟨.inl (by rw [Clause.size, shape]; rfl), _, rfl⟩
  | cons first others =>
      have size : clause.size = others.length + 1 := by rw [Clause.size, shape, List.length_cons]
      cases others with
      | nil => exact .inr (.inl ⟨first, rfl, by simp [size, implicationWidth]⟩)
      | cons second others =>
          cases others with
          | nil => exact .inr (.inr ⟨first, second, rfl, by simp [size, implicationWidth]⟩)
          | cons third rest =>
              have wide : 2 < clause.size := by rw [size]; simp
              exact .inl ⟨.inr wide, _, if_pos wide⟩

/-- What new implications keep, clauses keep. -/
theorem addClause_keeps {motive : ImplicationGraph → Prop}
    (edge : ∀ graph source target, motive graph → motive (graph.addEdge source target))
    (holds : motive graph) (clause : Clause) : motive (graph.addClause clause).1 := by
  rcases graph.addClause_cases clause with ⟨_, _, added⟩ | ⟨_, _, added⟩ | ⟨_, _, _, added⟩
  · rwa [added]
  · rw [added]
    exact edge _ _ _ holds
  · rw [added]
    exact edge _ _ _ (edge _ _ _ holds)

/-- What new vertices and new implications keep, every sequence of operations keeps. -/
theorem foldl_apply_keeps {motive : ImplicationGraph → Prop}
    (vertex : ∀ graph literal, motive graph → motive (graph.addVertex literal).1)
    (edge : ∀ graph source target, motive graph → motive (graph.addEdge source target))
    (holds : motive graph) (operations : List Operation) : motive (operations.foldl apply graph) := by
  induction operations generalizing graph with
  | nil => exact holds
  | cons operation rest ih =>
      refine ih ?_
      cases operation with
      | addVertex literal => exact vertex graph literal holds
      | addEdge source target => exact edge graph source target holds
      | addClause clause => exact addClause_keeps edge holds clause

theorem wellFormed_build (operations : List Operation) : (build operations).WellFormed :=
  foldl_apply_keeps (motive := WellFormed) (fun _ literal kept => wellFormed_addVertex kept literal)
    (fun _ source target kept => wellFormed_addEdge kept source target) wellFormed_empty operations

end ImplicationGraph

end Clausal
