import Clausal.Digraph.DepthFirst

/-!
Strongly connected components. The vertices are taken latest finisher first; each one that has no
component yet gathers a new one, made of what it reaches against the edges among the vertices without
a component. The components come out in topological order: edges only lead to later components.
-/

set_option autoImplicit false

namespace Clausal.Digraph

/-- The index of the component of every vertex, `none` as long as the vertex has no component. -/
abbrev Labels := Array (Option Nat)

namespace Labels

/-- Whether a vertex has no component yet. A number that is no vertex never gets one. -/
def isFresh (labels : Labels) (vertex : Nat) : Bool := decide (labels[vertex]? = some none)

def freshCount (labels : Labels) : Nat := labels.countP Option.isNone

/-- Puts a vertex into the component with the given index. -/
def put (labels : Labels) (vertex index : Nat) : Labels :=
  labels.setIfInBounds vertex (some index)

theorem isFresh_iff {labels : Labels} {vertex : Nat} :
    labels.isFresh vertex = true ↔ labels[vertex]? = some none := by
  simp [isFresh]

theorem freshCount_put {labels : Labels} {vertex : Nat} (index : Nat)
    (fresh : labels.isFresh vertex = true) :
    (labels.put vertex index).freshCount + 1 = labels.freshCount := by
  obtain ⟨bound, entry⟩ := Array.getElem?_eq_some_iff.mp (isFresh_iff.mp fresh)
  have positive : 0 < labels.countP Option.isNone :=
    Array.countP_pos_iff.mpr ⟨none, Array.mem_of_getElem entry, rfl⟩
  simp only [put, freshCount, Array.setIfInBounds, bound, ↓reduceDIte, Array.countP_set, entry,
    Option.isNone_none, Option.isNone_some, ↓reduceIte, Bool.false_eq_true, Nat.add_zero]
  omega

end Labels

/-- Puts the vertices that are still fresh into the component `index`, one after another, and returns
them with the new labels. -/
def discover (index : Nat) (labels : Labels) : List Nat → List Nat × Labels
  | [] => ([], labels)
  | vertex :: others =>
      if labels.isFresh vertex then
        let (found, later) := discover index (labels.put vertex index) others
        (vertex :: found, later)
      else discover index labels others

theorem length_discover (index : Nat) (labels : Labels) (vertices : List Nat) :
    (discover index labels vertices).1.length + (discover index labels vertices).2.freshCount
      = labels.freshCount := by
  induction vertices generalizing labels with
  | nil => simp [discover]
  | cons vertex others ih =>
      unfold discover
      split
      · next fresh =>
          have count := ih (labels.put vertex index)
          have fewer := labels.freshCount_put index fresh
          simp only [List.length_cons]
          omega
      · exact ih labels

/-- A component under construction: its members, and the labels of all vertices. -/
structure Gathering where
  members : List Nat
  labels : Labels
  deriving DecidableEq

/-- Follows the edges from the pending vertices, the latest discovery first, until none is left.
What is discovered joins the members of the component `index` in order of discovery. -/
def gather (graph : Digraph) (index : Nat) (gathering : Gathering) : List Nat → Gathering
  | [] => gathering
  | vertex :: rest =>
      let discovery := discover index gathering.labels (graph.successors vertex)
      gather graph index ⟨gathering.members ++ discovery.1, discovery.2⟩ (discovery.1.reverse ++ rest)
termination_by pending => gathering.labels.freshCount + pending.length
decreasing_by
  have count := length_discover index gathering.labels (graph.successors vertex)
  simp only [List.length_append, List.length_reverse, List.length_cons]
  omega

/-- A division of the vertices into components, in topological order, with the index of the component
of every vertex. -/
structure Decomposition where
  components : List (List Nat)
  labels : Labels
  deriving DecidableEq

def Decomposition.length (decomposition : Decomposition) : Nat := decomposition.components.length

/-- The index of a vertex's component; the number of components when there is none. -/
def Decomposition.componentOf (decomposition : Decomposition) (vertex : Nat) : Nat :=
  (decomposition.labels[vertex]?.getD none).getD decomposition.length

/-- The decomposition before any vertex has a component. -/
def Decomposition.start (order : Nat) : Decomposition := ⟨[], Array.replicate order none⟩

/-- Gathers the component of a root, unless the root has one already. -/
def divideFrom (transposed : Digraph) (division : Decomposition) (root : Nat) : Decomposition :=
  if division.labels.isFresh root then
    let gathering :=
      gather transposed division.length ⟨[root], division.labels.put root division.length⟩ [root]
    ⟨division.components ++ [gathering.members], gathering.labels⟩
  else division

/-- The strongly connected components, in topological order of the condensation. -/
def components (graph : Digraph) : Decomposition :=
  graph.finished.foldl graph.transpose.divideFrom (.start graph.order)

end Clausal.Digraph
