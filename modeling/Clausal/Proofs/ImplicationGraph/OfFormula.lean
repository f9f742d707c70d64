import Clausal.Proofs.Assoc
import Clausal.Proofs.Fallible
import Clausal.Proofs.Implication
import Clausal.Proofs.ImplicationGraph.Construction

/-!
The implication graph of a formula. Its edges are the implications of the clauses, its variables those
of the formula in the order of first appearance, and its paths the chains of implications.
-/

set_option autoImplicit false

namespace Clausal

namespace ImplicationGraph

/-- The graph holds the variables and the implications of some clauses. -/
structure Represents (graph : ImplicationGraph) (clauses : List Clause) : Prop where
  wellFormed : graph.WellFormed
  atoms_eq : graph.atoms =
    (clauses.flatMap fun clause => clause.literals.map Literal.atom).eraseDups
  edge_iff : ∀ source target, graph.hasEdge source target = true ↔
    ∃ clause ∈ clauses, clause.Implies source target

theorem represents_empty : empty.Represents [] where
  wellFormed := wellFormed_empty
  atoms_eq := rfl
  edge_iff := by simp [hasEdge_iff, empty]

theorem atoms_addVariable_eraseDups {graph : ImplicationGraph} (wellFormed : graph.WellFormed)
    {known : List Variable} (atoms_eq : graph.atoms = known.eraseDups) (atom : Variable) :
    (graph.addVariable atom).atoms = (known ++ [atom]).eraseDups := by
  rw [atoms_addVariable wellFormed, eraseDups_concat, atoms_eq]
  simp only [List.mem_eraseDups]

theorem atoms_addEdge_eraseDups {graph : ImplicationGraph} (wellFormed : graph.WellFormed)
    {known : List Variable} (atoms_eq : graph.atoms = known.eraseDups) (source target : Literal) :
    (graph.addEdge source target).atoms = (known ++ [source.atom, target.atom]).eraseDups := by
  have withSource := wellFormed_addVariable wellFormed source.atom
  rw [atoms_addEdge, atoms_addVariable_eraseDups withSource
    (atoms_addVariable_eraseDups wellFormed atoms_eq source.atom)]
  simp only [List.append_assoc, List.singleton_append]

theorem withClause_eq_ok_iff {graph later : ImplicationGraph} {clause : Clause} :
    graph.withClause clause = .ok later ↔
      (∃ literal, clause.literals = [literal] ∧ graph.addEdge literal.negate literal = later) ∨
      ∃ first second, clause.literals = [first, second] ∧
        (graph.addEdge first.negate second).addEdge second.negate first = later := by
  unfold withClause
  rcases graph.addClause_cases clause with
    ⟨misfit, _, added⟩ | ⟨literal, shape, added⟩ | ⟨first, second, shape, added⟩
  · rw [added]
    refine iff_of_false (by simp) fun fits => ?_
    rcases fits with ⟨literal, shape, _⟩ | ⟨first, second, shape, _⟩
    · simp [Clause.size, shape] at misfit
    · simp [Clause.size, shape] at misfit
  · rw [added]
    simp [shape]
  · rw [added]
    simp [shape]

theorem wellFormed_withClause {graph later : ImplicationGraph} (wellFormed : graph.WellFormed)
    {clause : Clause} (added : graph.withClause clause = .ok later) : later.WellFormed := by
  rcases withClause_eq_ok_iff.mp added with ⟨_, _, rfl⟩ | ⟨_, _, _, rfl⟩
  · exact wellFormed_addEdge wellFormed _ _
  · exact wellFormed_addEdge (wellFormed_addEdge wellFormed _ _) _ _

variable {graph : ImplicationGraph} {clauses : List Clause}

theorem Represents.withClause (represents : graph.Represents clauses) {clause : Clause}
    {later : ImplicationGraph} (added : graph.withClause clause = .ok later) :
    later.Represents (clauses ++ [clause]) := by
  have wellFormed := represents.wellFormed
  refine ⟨wellFormed_withClause wellFormed added, ?_, ?_⟩
  · rw [List.flatMap_append, List.flatMap_singleton]
    rcases withClause_eq_ok_iff.mp added with ⟨literal, shape, rfl⟩ | ⟨first, second, shape, rfl⟩
    · rw [atoms_addEdge_eraseDups wellFormed represents.atoms_eq, shape, List.append_cons]
      exact eraseDups_append_of_subset (by simp)
    · rw [atoms_addEdge_eraseDups (wellFormed_addEdge wellFormed _ _)
        (atoms_addEdge_eraseDups wellFormed represents.atoms_eq _ _), shape]
      exact eraseDups_append_of_subset (by simp)
  · intro source target
    simp only [List.mem_append, List.mem_singleton, or_and_right, exists_or, exists_eq_left,
      ← represents.edge_iff]
    rcases withClause_eq_ok_iff.mp added with ⟨literal, shape, rfl⟩ | ⟨first, second, shape, rfl⟩
    · rw [hasEdge_addEdge wellFormed, Clause.implies_iff_of_unit shape]
    · rw [hasEdge_addEdge (wellFormed_addEdge wellFormed _ _), hasEdge_addEdge wellFormed,
        Clause.implies_iff_of_pair shape, or_assoc]

theorem Represents.foldlM_withClause (represents : graph.Represents clauses) {others : List Clause}
    {later : ImplicationGraph} (added : others.foldlM ImplicationGraph.withClause graph = .ok later) :
    later.Represents (clauses ++ others) := by
  induction others generalizing graph clauses with
  | nil =>
      cases added
      simpa using represents
  | cons clause rest ih =>
      rw [List.foldlM_cons] at added
      obtain ⟨next, addedClause, addedRest⟩ := bind_eq_ok added
      simpa using ih (represents.withClause addedClause) addedRest

theorem exists_foldlM_withClause (graph : ImplicationGraph) {clauses : List Clause}
    (narrow : ∀ clause ∈ clauses, clause.Narrow) :
    ∃ later, clauses.foldlM withClause graph = .ok later := by
  induction clauses generalizing graph with
  | nil => exact ⟨graph, rfl⟩
  | cons clause rest ih =>
      obtain ⟨next, added⟩ : ∃ next, graph.withClause clause = .ok next := by
        rcases (narrow clause List.mem_cons_self).cases with
          ⟨literal, shape⟩ | ⟨first, second, shape⟩
        · exact ⟨_, withClause_eq_ok_iff.mpr (.inl ⟨literal, shape, rfl⟩)⟩
        · exact ⟨_, withClause_eq_ok_iff.mpr (.inr ⟨first, second, shape, rfl⟩)⟩
      obtain ⟨later, addedRest⟩ :=
        ih next fun other member => narrow other (List.mem_cons_of_mem _ member)
      exact ⟨later, by rw [List.foldlM_cons, added]; exact addedRest⟩

theorem narrow_of_foldlM_withClause {later : ImplicationGraph}
    (added : clauses.foldlM ImplicationGraph.withClause graph = .ok later) :
    ∀ clause ∈ clauses, clause.Narrow := by
  induction clauses generalizing graph with
  | nil => exact List.forall_mem_nil _
  | cons clause rest ih =>
      rw [List.foldlM_cons] at added
      obtain ⟨next, addedClause, addedRest⟩ := bind_eq_ok added
      refine List.forall_mem_cons.mpr ⟨?_, ih addedRest⟩
      rcases withClause_eq_ok_iff.mp addedClause with ⟨literal, shape, _⟩ | ⟨first, second, shape, _⟩
      · simp [Clause.Narrow, Clause.size, shape]
      · simp [Clause.Narrow, Clause.size, shape]

theorem ofFormula_represents {formula : Formula} {graph : ImplicationGraph}
    (built : ofFormula formula = .ok graph) : graph.Represents formula.clauses :=
  represents_empty.foldlM_withClause built

namespace Represents

variable {formula : Formula}

theorem successor_iff_implies (represents : graph.Represents formula.clauses)
    {source target : Literal} {sourceVertex targetVertex : Nat}
    (sourceFound : graph.vertex? source = some sourceVertex)
    (targetFound : graph.vertex? target = some targetVertex) :
    targetVertex ∈ graph.digraph.successors sourceVertex ↔ formula.Implies source target := by
  rw [← represents.wellFormed.mem_edges, Formula.Implies, ← represents.edge_iff, hasEdge_iff]
  simp [sourceFound, targetFound]

/-- Paths between vertices are chains of implications between their literals. -/
theorem reaches_iff_leads (represents : graph.Represents formula.clauses)
    {source target : Literal} {sourceVertex targetVertex : Nat}
    (sourceFound : graph.vertex? source = some sourceVertex)
    (targetFound : graph.vertex? target = some targetVertex) :
    graph.digraph.Reaches sourceVertex targetVertex ↔ formula.Leads source target := by
  have wellFormed := represents.wellFormed
  constructor
  · intro path
    induction path generalizing source with
    | refl =>
        rw [wellFormed.vertex?_injective sourceFound targetFound]
        exact .refl
    | step edge _ ih =>
        obtain ⟨next, nextFound⟩ := wellFormed.exists_vertex? (wellFormed.inside _ _ edge)
        exact .head ((represents.successor_iff_implies sourceFound nextFound).mp edge)
          (ih nextFound targetFound)
  · intro leads
    induction leads generalizing targetVertex with
    | refl =>
        rw [Option.some.inj (sourceFound.symm.trans targetFound)]
        exact .refl
    | tail earlier implies ih =>
        obtain ⟨sourceOfLast, lastVertex, lastFound, _, _⟩ :=
          hasEdge_iff.mp ((represents.edge_iff _ _).mpr implies)
        exact (ih lastFound).trans
          (.edge ((represents.successor_iff_implies lastFound targetFound).mpr implies))

end Represents

end ImplicationGraph

end Clausal
