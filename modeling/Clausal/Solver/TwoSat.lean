import Clausal.Environment
import Clausal.ImplicationGraph

/-!
Deciding formulas whose clauses have at most two literals. The formula is unsatisfiable exactly when
some literal and its negation lie in one component of the implication graph. Otherwise the components
are walked from the last to the first, and every literal not yet decided is made true.
-/

set_option autoImplicit false

namespace Clausal.TwoSat

/-- The size of an implication graph and the number of its components. -/
structure Extent where
  vertices : Nat
  edges : Nat
  components : Nat
  deriving DecidableEq

/-- What the solver finds out. -/
inductive Answer where
  /-- Some clause is empty; no graph is built. -/
  | emptyClause
  /-- Both literals of the variable lie in one component. -/
  | conflict (extent : Extent) (atom : Variable)
  | satisfied (extent : Extent) (environment : Environment)
  deriving DecidableEq

/-- Refuses the first clause that is wider than the limit. -/
def validate (limit : Quantity) (formula : Formula) : Except InvalidClause Unit :=
  match formula.clauses.find? fun clause => !(Quantity.whole clause.size).le limit with
  | none => .ok ()
  | some clause =>
      .error
        { summary := "Clause too wide for the 2-SAT solver"
          clause := some clause
          maxWidth := some limit }

/-- Makes a vertex true and its opposite false, unless the vertex is decided. -/
def decideVertex (truth : Array Truth) (vertex : Nat) : Array Truth :=
  if truth[vertex]?.getD .undefined = .undefined then
    (truth.setIfInBounds vertex .yes).setIfInBounds (opposite vertex) .no
  else truth

/-- The truth of every vertex, decided along the components from the last to the first. -/
def truthWalk (order : Nat) (decomposition : Digraph.Decomposition) : Array Truth :=
  decomposition.components.reverse.foldl
    (fun truth members => members.foldl decideVertex truth)
    (Array.replicate order .undefined)

/-- Reads off the truth of each variable at its positive literal. -/
def environmentOf (graph : ImplicationGraph) (truth : Array Truth) : Environment :=
  .ofList <| graph.atoms.zipIdx.map fun (atom, index) =>
    (atom, truth[vertexAt index true]?.getD .undefined)

/-- Decides the formula of an implication graph. The conflict reported is that of the first variable
that has one. -/
def decideGraph (graph : ImplicationGraph) : Answer :=
  let decomposition := graph.digraph.components
  let extent : Extent := ⟨graph.order, graph.size, decomposition.length⟩
  match (graph.contradictions decomposition).filterMap (graph.atoms[·]?) with
  | atom :: _ => .conflict extent atom
  | [] => .satisfied extent (environmentOf graph (truthWalk graph.order decomposition))

/-- Decides a formula. Clauses wider than the limit are refused before anything else; the limit only
guards the entrance, so that under a higher one the implication graph refuses the clause. -/
def solve (limit : Quantity) (formula : Formula) : Except InvalidClause Answer := do
  validate limit formula
  if formula.hasEmptyClause then return .emptyClause
  let graph ← ImplicationGraph.ofFormula formula
  return decideGraph graph

end Clausal.TwoSat
