import Clausal.Proofs.Renaming.Environment
import Clausal.Solver.TwoSat

/-!
The decision by components under new names. Variables get the same positions, hence literals the same
vertices; only the list of variables and the clause in a fault show the new names.
-/

set_option autoImplicit false

namespace Clausal

variable (names : Renaming)

def InvalidClause.rename (fault : InvalidClause) : InvalidClause :=
  { fault with clause := fault.clause.map (Clause.rename names) }

namespace ImplicationGraph

def rename (graph : ImplicationGraph) : ImplicationGraph :=
  { graph with
    atoms := graph.atoms.map names
    index := graph.index.map (Prod.map names id) }

@[simp] theorem rename_empty : empty.rename names = empty := rfl

variable (graph : ImplicationGraph)

@[simp] theorem atoms_rename : (graph.rename names).atoms = graph.atoms.map names := rfl

@[simp] theorem digraph_rename : (graph.rename names).digraph = graph.digraph := rfl

@[simp] theorem order_rename : (graph.rename names).order = graph.order := rfl

@[simp] theorem size_rename : (graph.rename names).size = graph.size := rfl

@[simp] theorem contradictions_rename (decomposition : Digraph.Decomposition) :
    (graph.rename names).contradictions decomposition = graph.contradictions decomposition := rfl

@[simp] theorem index?_rename (atom : Variable) :
    (graph.rename names).index? (names atom) = graph.index? atom :=
  Assoc.get?_mapKeys names.injective atom graph.index

theorem addVariable_rename (atom : Variable) :
    (graph.rename names).addVariable (names atom) = (graph.addVariable atom).rename names := by
  simp only [addVariable, index?_rename]
  cases graph.index? atom with
  | some index => rfl
  | none => simp [rename, Assoc.insert_mapKeys names.injective]

theorem addVertex_rename (literal : Literal) :
    (graph.rename names).addVertex (literal.rename names) =
      Prod.map (rename names) id (graph.addVertex literal) := by
  simp only [addVertex, Literal.atom_rename, Literal.positive_rename, addVariable_rename, index?_rename,
    atoms_rename, List.length_map, Prod.map, id]

theorem addArc_rename (source target : Nat) :
    (graph.rename names).addArc source target = (graph.addArc source target).rename names := by
  by_cases known : (source, target) ∈ graph.edges
  · simp [addArc, rename, known]
  · simp [addArc, rename, known]

theorem addEdge_rename (source target : Literal) :
    (graph.rename names).addEdge (source.rename names) (target.rename names) =
      (graph.addEdge source target).rename names := by
  simp only [addEdge, addVertex_rename, Prod.map, id, addArc_rename]

theorem addClause_rename (clause : Clause) :
    (graph.rename names).addClause (clause.rename names) =
      Prod.map (rename names) (Option.map (InvalidClause.rename names)) (graph.addClause clause) := by
  obtain ⟨literals, distinct⟩ := clause
  match literals with
  | [] => rfl
  | [literal] => simp [addClause, Clause.rename, Clause.size, implicationWidth, addEdge_rename]
  | [first, second] => simp [addClause, Clause.rename, Clause.size, implicationWidth, addEdge_rename]
  | first :: second :: third :: others =>
      simp [addClause, Clause.rename, Clause.size, implicationWidth, InvalidClause.rename]

theorem withClause_rename (clause : Clause) :
    (graph.rename names).withClause (clause.rename names) =
      mapBoth (InvalidClause.rename names) (rename names) (graph.withClause clause) := by
  rw [withClause, withClause, addClause_rename]
  cases graph.addClause clause with
  | mk later refused => cases refused <;> rfl

theorem foldlM_withClause_rename (clauses : List Clause) :
    (clauses.map (Clause.rename names)).foldlM withClause (graph.rename names) =
      mapBoth (InvalidClause.rename names) (rename names) (clauses.foldlM withClause graph) := by
  induction clauses generalizing graph with
  | nil => rfl
  | cons clause rest ih =>
      rw [List.map_cons, List.foldlM_cons, List.foldlM_cons, withClause_rename]
      exact mapBoth_bind _ ih

theorem ofFormula_rename (formula : Formula) :
    ofFormula (formula.rename names) =
      mapBoth (InvalidClause.rename names) (rename names) (ofFormula formula) :=
  foldlM_withClause_rename names empty formula.clauses

end ImplicationGraph

namespace TwoSat

def Answer.rename : Answer → Answer
  | .emptyClause => .emptyClause
  | .conflict extent atom => .conflict extent (names atom)
  | .satisfied extent environment => .satisfied extent (environment.rename names)

theorem validate_rename (limit : Quantity) (formula : Formula) :
    validate limit (formula.rename names) =
      mapBoth (InvalidClause.rename names) id (validate limit formula) := by
  simp only [validate, Formula.clauses_rename, List.find?_map, Function.comp_def, Clause.size_rename]
  cases formula.clauses.find? fun clause => !(Quantity.whole clause.size).le limit <;> rfl

theorem environmentOf_rename (graph : ImplicationGraph) (truth : Array Truth) :
    environmentOf (graph.rename names) truth = (environmentOf graph truth).rename names := by
  rw [environmentOf, environmentOf, ← Environment.ofList_rename]
  simp [List.zipIdx_map, Function.comp_def]

theorem decideGraph_rename (graph : ImplicationGraph) :
    decideGraph (graph.rename names) = (decideGraph graph).rename names := by
  have conflicting : ∀ positions : List Nat,
      positions.filterMap ((graph.rename names).atoms[·]?) =
        (positions.filterMap (graph.atoms[·]?)).map names := by
    intro positions
    simp [List.map_filterMap]
  simp only [decideGraph, ImplicationGraph.digraph_rename, ImplicationGraph.order_rename,
    ImplicationGraph.size_rename, ImplicationGraph.contradictions_rename, conflicting,
    environmentOf_rename]
  cases (graph.contradictions graph.digraph.components).filterMap (graph.atoms[·]?) <;> rfl

theorem solve_rename (limit : Quantity) (formula : Formula) :
    solve limit (formula.rename names) =
      mapBoth (InvalidClause.rename names) (Answer.rename names) (solve limit formula) := by
  rw [solve, solve, validate_rename]
  apply mapBoth_bind
  intro accepted
  rw [Formula.hasEmptyClause_rename]
  split
  · rfl
  · rw [ImplicationGraph.ofFormula_rename]
    apply mapBoth_bind
    intro graph
    rw [decideGraph_rename]
    rfl

end TwoSat

end Clausal
