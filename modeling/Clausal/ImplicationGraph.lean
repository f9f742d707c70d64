import Clausal.Assoc
import Clausal.Digraph.Components
import Clausal.Fault
import Clausal.Formula
import Clausal.Position

/-!
The implication graph over literals. A clause of two literals stands for two implications, each from
the negation of one literal to the other; a unit clause stands for the implication from the negation
of its literal to the literal. The variable at position `i` owns the vertices `2 * i`, for its positive
literal, and `2 * i + 1`, for its negative literal.
-/

set_option autoImplicit false

namespace Clausal

def implicationWidth : Nat := 2

/-- The vertex of a literal whose variable stands at the given position. -/
def vertexAt (index : Nat) (positive : Bool) : Nat :=
  if positive then 2 * index else 2 * index + 1

def opposite (vertex : Nat) : Nat :=
  if vertex % 2 = 0 then vertex + 1 else vertex - 1

/-- The opposite vertex, also for numbers below zero, where an odd number pairs with the even number
before it as well. -/
def oppositeInt (vertex : Int) : Int :=
  if vertex % 2 = 0 then vertex + 1 else vertex - 1

/-- Variables in order of arrival, the position of each of them, the set of implications between their
literals in order of arrival, and the successors of every vertex. -/
structure ImplicationGraph where
  atoms : List Variable
  index : List (Variable × Nat)
  edges : List (Nat × Nat)
  digraph : Digraph
  deriving DecidableEq

namespace ImplicationGraph

def empty : ImplicationGraph := ⟨[], [], [], ⟨#[]⟩⟩

/-- The number of vertices, two for each variable. -/
def order (graph : ImplicationGraph) : Nat := graph.digraph.order

def size (graph : ImplicationGraph) : Nat := graph.edges.length

def index? (graph : ImplicationGraph) (atom : Variable) : Option Nat :=
  Assoc.get? atom graph.index

/-- The vertex of a literal; `none` when its variable is not in the graph. -/
def vertex? (graph : ImplicationGraph) (literal : Literal) : Option Nat :=
  (graph.index? literal.atom).map fun index => vertexAt index literal.positive

/-- Adds the variable unless it has a position; its two vertices start without successors. -/
def addVariable (graph : ImplicationGraph) (atom : Variable) : ImplicationGraph :=
  match graph.index? atom with
  | some _ => graph
  | none =>
      { graph with
        index := Assoc.insert atom graph.atoms.length graph.index
        atoms := graph.atoms ++ [atom]
        digraph := ⟨(graph.digraph.adjacency.push []).push []⟩ }

/-- Makes sure that the literal has a vertex, and returns it. -/
def addVertex (graph : ImplicationGraph) (literal : Literal) : ImplicationGraph × Nat :=
  let index := (graph.index? literal.atom).getD graph.atoms.length
  (graph.addVariable literal.atom, vertexAt index literal.positive)

/-- Adds an implication between vertices; a repeated one is ignored. -/
def addArc (graph : ImplicationGraph) (source target : Nat) : ImplicationGraph :=
  if (source, target) ∈ graph.edges then graph
  else
    { graph with
      edges := graph.edges ++ [(source, target)]
      digraph := graph.digraph.addSuccessor source target }

/-- Adds the implication from one literal to another, the source's vertex first. -/
def addEdge (graph : ImplicationGraph) (source target : Literal) : ImplicationGraph :=
  let (withSource, sourceVertex) := graph.addVertex source
  let (withTarget, targetVertex) := withSource.addVertex target
  withTarget.addArc sourceVertex targetVertex

/-- Adds the implications of a clause, and returns the graph as it then stands. A clause of no literals or
of more than two has no implications, and is refused with a fault. -/
def addClause (graph : ImplicationGraph) (clause : Clause) : ImplicationGraph × Option InvalidClause :=
  match clause.literals with
  | [] => (graph, some .noImplications)
  | first :: others =>
      if implicationWidth < clause.size then
        (graph, some
          { summary := "Clause too wide for the implication graph"
            clause := some clause
            maxWidth := some (.whole implicationWidth) })
      else
        match others with
        | [] => (graph.addEdge first.negate first, none)
        | second :: _ => ((graph.addEdge first.negate second).addEdge second.negate first, none)

/-- The graph with a clause added. The fault of a refused clause takes the graph's place. -/
def withClause (graph : ImplicationGraph) (clause : Clause) : Except InvalidClause ImplicationGraph :=
  match graph.addClause clause with
  | (later, none) => .ok later
  | (_, some fault) => .error fault

/-- The implication graph of a formula; the first clause that has no implications is refused. -/
def ofFormula (formula : Formula) : Except InvalidClause ImplicationGraph :=
  formula.clauses.foldlM withClause empty

def hasEdge (graph : ImplicationGraph) (source target : Literal) : Bool :=
  match graph.vertex? source, graph.vertex? target with
  | some sourceVertex, some targetVertex => decide ((sourceVertex, targetVertex) ∈ graph.edges)
  | _, _ => false

/-- The variable at a position, which may be counted from the end. -/
def atomAt? (graph : ImplicationGraph) (position : Int) : Option Variable := do
  let index ← Position.resolve graph.atoms.length position
  graph.atoms[index]?

/-- The literal of a vertex, which may be counted from the end. -/
def literal? (graph : ImplicationGraph) (vertex : Int) : Option Literal := do
  let atom ← graph.atomAt? (vertex / 2)
  some ⟨atom, vertex % 2 == 0⟩

/-- The successors of a vertex, which may be counted from the end. -/
def successors? (graph : ImplicationGraph) (vertex : Int) : Option (List Nat) := do
  let index ← Position.resolve graph.order vertex
  graph.digraph.adjacency[index]?

/-- Whether a variable's two literals lie in the same component. -/
def conflicts (decomposition : Digraph.Decomposition) (index : Nat) : Bool :=
  decomposition.componentOf (vertexAt index true) == decomposition.componentOf (vertexAt index false)

/-- The positions of the variables whose two literals share a component, in increasing order. -/
def contradictions (graph : ImplicationGraph) (decomposition : Digraph.Decomposition) : List Nat :=
  (List.range (graph.order / 2)).filter (conflicts decomposition)

end ImplicationGraph

end Clausal
