/-!
Directed graphs given by successor lists. The vertices are the numbers below the order of the graph;
a number that is no vertex has no successors.
-/

set_option autoImplicit false

namespace Clausal

/-- A directed graph: the successors of each vertex, in the order in which they are tried. -/
structure Digraph where
  adjacency : Array (List Nat)
  deriving DecidableEq

namespace Digraph

def order (graph : Digraph) : Nat := graph.adjacency.size

def successors (graph : Digraph) (vertex : Nat) : List Nat :=
  graph.adjacency[vertex]?.getD []

/-- Puts a number at the end of a vertex's successors. A number that is no vertex gets none. -/
def addSuccessor (graph : Digraph) (source target : Nat) : Digraph :=
  ⟨graph.adjacency.modify source (· ++ [target])⟩

/-- The graph of so many vertices and no edges. -/
def edgeless (order : Nat) : Digraph := ⟨Array.replicate order []⟩

/-- Adds the edges of a vertex the other way round, in the order in which the vertex lists them. -/
def reverseFrom (graph reversed : Digraph) (source : Nat) : Digraph :=
  (graph.successors source).foldl (fun reversed target => reversed.addSuccessor target source) reversed

/-- The graph with every edge reversed, the edges of one vertex after those of another. -/
def transpose (graph : Digraph) : Digraph :=
  (List.range graph.order).foldl graph.reverseFrom (edgeless graph.order)

/-- The vertices with an edge to the given one, in increasing order. -/
def predecessors (graph : Digraph) (vertex : Nat) : List Nat :=
  (List.range graph.order).filter fun source => decide (vertex ∈ graph.successors source)

/-- A path of edges from one number to another; every number reaches itself. -/
inductive Reaches (graph : Digraph) : Nat → Nat → Prop where
  | refl {vertex : Nat} : Reaches graph vertex vertex
  | step {source next target : Nat} :
      next ∈ graph.successors source → Reaches graph next target → Reaches graph source target

theorem Reaches.trans {graph : Digraph} {source middle target : Nat}
    (first : graph.Reaches source middle) (second : graph.Reaches middle target) :
    graph.Reaches source target := by
  induction first with
  | refl => exact second
  | step edge _ ih => exact .step edge (ih second)

theorem Reaches.edge {graph : Digraph} {source target : Nat}
    (edge : target ∈ graph.successors source) : graph.Reaches source target :=
  .step edge .refl

/-- Mutual reachability: the vertices lie on a common cycle or are the same. -/
def Connected (graph : Digraph) (left right : Nat) : Prop :=
  graph.Reaches left right ∧ graph.Reaches right left

theorem Connected.refl {graph : Digraph} (vertex : Nat) : graph.Connected vertex vertex :=
  ⟨.refl, .refl⟩

theorem Connected.symm {graph : Digraph} {left right : Nat}
    (connected : graph.Connected left right) : graph.Connected right left :=
  ⟨connected.2, connected.1⟩

theorem Connected.trans {graph : Digraph} {left middle right : Nat}
    (first : graph.Connected left middle) (second : graph.Connected middle right) :
    graph.Connected left right :=
  ⟨first.1.trans second.1, second.2.trans first.2⟩

theorem successors_eq_nil {graph : Digraph} {vertex : Nat} (beyond : ¬ vertex < graph.order) :
    graph.successors vertex = [] := by
  rw [successors, Array.getElem?_eq_none (Nat.le_of_not_lt beyond)]
  rfl

theorem lt_order_of_mem_successors {graph : Digraph} {source target : Nat}
    (edge : target ∈ graph.successors source) : source < graph.order := by
  by_cases bound : source < graph.order
  · exact bound
  · rw [successors_eq_nil bound] at edge
    cases edge

theorem Reaches.lt_order {graph : Digraph} {source target : Nat}
    (path : graph.Reaches source target) (bound : target < graph.order) : source < graph.order := by
  cases path with
  | refl => exact bound
  | step edge _ => exact lt_order_of_mem_successors edge

@[simp] theorem order_addSuccessor (graph : Digraph) (source target : Nat) :
    (graph.addSuccessor source target).order = graph.order := Array.size_modify

theorem successors_addSuccessor (graph : Digraph) (source target : Nat) {vertex : Nat}
    (bound : vertex < graph.order) :
    (graph.addSuccessor source target).successors vertex =
      if source = vertex then graph.successors vertex ++ [target] else graph.successors vertex := by
  simp only [successors, addSuccessor, Array.getElem?_modify, Array.getElem?_eq_getElem bound]
  split <;> rfl

theorem mem_successors_addSuccessor {graph : Digraph} {source : Nat} (bound : source < graph.order)
    {target left right : Nat} :
    right ∈ (graph.addSuccessor source target).successors left ↔
      right ∈ graph.successors left ∨ left = source ∧ right = target := by
  by_cases inside : left < graph.order
  · rw [successors_addSuccessor graph source target inside]
    grind
  · rw [successors_eq_nil inside, successors_eq_nil (by rwa [order_addSuccessor])]
    grind

/-! The transpose. -/

@[simp] theorem order_edgeless (order : Nat) : (edgeless order).order = order :=
  Array.size_replicate

theorem successors_edgeless (order vertex : Nat) : (edgeless order).successors vertex = [] := by
  simp only [successors, edgeless, Array.getElem?_replicate]
  split <;> rfl

@[simp] theorem order_reverseFrom (graph reversed : Digraph) (source : Nat) :
    (graph.reverseFrom reversed source).order = reversed.order := by
  unfold reverseFrom
  induction graph.successors source generalizing reversed with
  | nil => rfl
  | cons target rest ih => rw [List.foldl_cons, ih, order_addSuccessor]

/-- A vertex is added to a list once for each edge that leads there. -/
theorem successors_reverseFrom (graph reversed : Digraph) (source : Nat) {vertex : Nat}
    (bound : vertex < reversed.order) :
    (graph.reverseFrom reversed source).successors vertex =
      reversed.successors vertex ++
        List.replicate ((graph.successors source).count vertex) source := by
  unfold reverseFrom
  induction graph.successors source generalizing reversed with
  | nil => simp
  | cons target rest ih =>
      rw [List.foldl_cons, ih _ (by rwa [order_addSuccessor]), successors_addSuccessor _ _ _ bound,
        List.count_cons]
      by_cases same : target = vertex
      · simp [same, List.replicate_succ]
      · simp [same]

theorem order_foldl_reverseFrom (graph reversed : Digraph) (sources : List Nat) :
    (sources.foldl graph.reverseFrom reversed).order = reversed.order := by
  induction sources generalizing reversed with
  | nil => rfl
  | cons source rest ih => rw [List.foldl_cons, ih, order_reverseFrom]

theorem successors_foldl_reverseFrom (graph reversed : Digraph) (sources : List Nat) {vertex : Nat}
    (bound : vertex < reversed.order) :
    (sources.foldl graph.reverseFrom reversed).successors vertex =
      reversed.successors vertex ++ sources.flatMap fun source =>
        List.replicate ((graph.successors source).count vertex) source := by
  induction sources generalizing reversed with
  | nil => simp
  | cons source rest ih =>
      rw [List.foldl_cons, ih _ (by rwa [order_reverseFrom]), successors_reverseFrom _ _ _ bound,
        List.flatMap_cons, List.append_assoc]

@[simp] theorem order_transpose (graph : Digraph) : graph.transpose.order = graph.order := by
  rw [transpose, order_foldl_reverseFrom, order_edgeless]

theorem successors_transpose_eq_flatMap (graph : Digraph) {vertex : Nat} (bound : vertex < graph.order) :
    graph.transpose.successors vertex = (List.range graph.order).flatMap fun source =>
      List.replicate ((graph.successors source).count vertex) source := by
  rw [transpose, successors_foldl_reverseFrom _ _ _ (by rwa [order_edgeless]), successors_edgeless,
    List.nil_append]

theorem mem_successors_transpose {graph : Digraph} {source vertex : Nat}
    (bound : vertex < graph.order) :
    source ∈ graph.transpose.successors vertex ↔ vertex ∈ graph.successors source := by
  simp only [successors_transpose_eq_flatMap graph bound, List.mem_flatMap, List.mem_range,
    List.mem_replicate]
  constructor
  · intro recorded
    obtain ⟨_, _, occurs, rfl⟩ := recorded
    exact List.count_pos_iff.mp (Nat.pos_of_ne_zero occurs)
  · intro edge
    exact ⟨source, lt_order_of_mem_successors edge, Nat.ne_of_gt (List.count_pos_iff.mpr edge), rfl⟩

end Digraph

end Clausal
