import Clausal.Proofs.TwoSat.Mirror

/-!
The entries that the truth walk writes. Each vertex is written once, with the truth that the comparison of
its component with that of its opposite gives it, and what is true leads only to what is true.
-/

set_option autoImplicit false

namespace Clausal

namespace TwoSat

/-- What is written when a vertex is met: it and its opposite, unless the vertex is decided. -/
def entriesAt (truth : Array Truth) (vertex : Nat) : List (Nat × Truth) :=
  if truth[vertex]?.getD .undefined = .undefined then [(vertex, .yes), (opposite vertex, .no)] else []

/-- All that is written when some vertices are met, in order. -/
def journal (truth : Array Truth) : List Nat → List (Nat × Truth)
  | [] => []
  | vertex :: rest => entriesAt truth vertex ++ journal (decideVertex truth vertex) rest

/-- The truth of every vertex after some entries are written. -/
def written (truth : Array Truth) (entries : List (Nat × Truth)) : Array Truth :=
  entries.foldl (fun truth entry => truth.setIfInBounds entry.1 entry.2) truth

theorem written_append (truth : Array Truth) (first second : List (Nat × Truth)) :
    written truth (first ++ second) = written (written truth first) second :=
  List.foldl_append

theorem written_entriesAt (truth : Array Truth) (vertex : Nat) :
    written truth (entriesAt truth vertex) = decideVertex truth vertex := by
  unfold entriesAt decideVertex
  split <;> rfl

/-- The walk does what its journal says. -/
theorem written_journal (truth : Array Truth) (vertices : List Nat) :
    written truth (journal truth vertices) = vertices.foldl decideVertex truth := by
  induction vertices generalizing truth with
  | nil => rfl
  | cons vertex rest ih =>
      rw [journal, written_append, written_entriesAt, ih, List.foldl_cons]

/-! What writing does to a single vertex. -/

variable {truth : Array Truth} {entries : List (Nat × Truth)} {vertex : Nat} {value : Truth}

theorem size_written (truth : Array Truth) (entries : List (Nat × Truth)) :
    (written truth entries).size = truth.size := by
  induction entries generalizing truth with
  | nil => rfl
  | cons entry rest ih => exact (ih _).trans (Array.size_setIfInBounds ..)

theorem getElem?_written_of_not_mem (absent : vertex ∉ Assoc.keys entries) :
    (written truth entries)[vertex]? = truth[vertex]? := by
  induction entries generalizing truth with
  | nil => rfl
  | cons entry rest ih =>
      obtain ⟨different, later⟩ := List.ne_and_not_mem_of_not_mem_cons absent
      exact (ih later).trans (Array.getElem?_setIfInBounds_ne (Ne.symm different))

theorem getElem?_written_of_mem (once : (Assoc.keys entries).Nodup) (bound : vertex < truth.size)
    (member : (vertex, value) ∈ entries) : (written truth entries)[vertex]? = some value := by
  obtain ⟨before, after, rfl⟩ := List.append_of_mem member
  have unique : vertex ∉ Assoc.keys after := by
    rw [Assoc.keys, List.map_append, List.map_cons] at once
    exact (List.nodup_cons.mp (List.nodup_append.mp once).2.1).1
  have inside : vertex < (written truth before).size := (size_written truth before).symm ▸ bound
  rw [List.append_cons, written_append, getElem?_written_of_not_mem unique, written_append]
  exact Array.getElem?_setIfInBounds_self_of_lt inside

/-! Nothing is written twice. -/

namespace Walked

variable {count : Nat} {met : List Nat}

/-- A step writes entries that are undecided, each once, and decides them. -/
theorem entriesAt_fresh (walked : Walked count met truth) (bound : vertex < 2 * count) :
    (Assoc.keys (entriesAt truth vertex)).Nodup ∧
      ∀ other ∈ Assoc.keys (entriesAt truth vertex), truth[other]? = some .undefined ∧
        (TwoSat.decideVertex truth vertex)[other]? ≠ some .undefined := by
  rw [← written_entriesAt]
  unfold entriesAt
  split
  · next undecided =>
      rw [walked.entry vertex bound] at undecided
      have once : (Assoc.keys [(vertex, Truth.yes), (opposite vertex, .no)]).Nodup := by
        simp [Assoc.keys, (opposite_ne vertex).symm]
      have inside : ∀ other < 2 * count, other < truth.size := fun _ below => walked.size.symm ▸ below
      refine ⟨once, fun other member => ?_⟩
      rcases List.mem_pair.mp member with rfl | rfl
      · rw [walked.getElem? bound, undecided,
          getElem?_written_of_mem once (inside other bound) List.mem_cons_self]
        exact ⟨rfl, by simp⟩
      · have oppositeBound := opposite_lt bound
        rw [walked.getElem? oppositeBound, truthAfter_opposite, undecided,
          getElem?_written_of_mem once (inside _ oppositeBound) (List.mem_cons_of_mem _ List.mem_cons_self)]
        exact ⟨rfl, by simp⟩
  · exact ⟨List.nodup_nil, List.forall_mem_nil _⟩

/-- A walk writes only what is undecided when it begins, and nothing twice. -/
theorem journal_fresh (walked : Walked count met truth) {vertices : List Nat}
    (bounds : ∀ vertex ∈ vertices, vertex < 2 * count) :
    (Assoc.keys (journal truth vertices)).Nodup ∧
      ∀ other ∈ Assoc.keys (journal truth vertices), truth[other]? = some .undefined := by
  induction vertices generalizing met truth with
  | nil => exact ⟨List.nodup_nil, List.forall_mem_nil _⟩
  | cons vertex rest ih =>
      obtain ⟨bound, others⟩ := List.forall_mem_cons.mp bounds
      obtain ⟨first, decides⟩ := walked.entriesAt_fresh bound
      obtain ⟨later, undecided⟩ := ih (walked.decideVertex bound) others
      -- What the rest of the walk writes is undecided after the step, which decides what it writes.
      have apart : ∀ other ∈ Assoc.keys (journal (TwoSat.decideVertex truth vertex) rest),
          other ∉ Assoc.keys (entriesAt truth vertex) := fun other member written =>
        (decides other written).2 (undecided other member)
      rw [journal, Assoc.keys, List.map_append]
      constructor
      · refine List.nodup_append'.mpr ⟨first, later, ?_⟩
        exact fun other written member => apart other member written
      · intro other member
        rcases List.mem_append.mp member with written | member
        · exact (decides other written).1
        · rw [← undecided other member, ← written_entriesAt]
          exact (getElem?_written_of_not_mem (apart other member)).symm

end Walked

/-- All that the walk over the components writes. -/
def walkJournal (order : Nat) (decomposition : Digraph.Decomposition) : List (Nat × Truth) :=
  journal (Array.replicate order .undefined) (meetingOrder decomposition)

theorem written_walkJournal (order : Nat) (decomposition : Digraph.Decomposition) :
    written (Array.replicate order .undefined) (walkJournal order decomposition) =
      truthWalk order decomposition :=
  (written_journal _ _).trans (partialWalk_eq_foldl order decomposition 0).symm

section Decided

variable {graph : Digraph} {count : Nat} (order_eq : graph.order = 2 * count)

include order_eq

/-- The walk writes nothing twice, and nothing but vertices. -/
theorem walkJournal_fresh : (Assoc.keys (walkJournal graph.order graph.components)).Nodup ∧
    ∀ vertex ∈ Assoc.keys (walkJournal graph.order graph.components), vertex < graph.order := by
  have bounds : ∀ vertex ∈ meetingOrder graph.components, vertex < 2 * count := fun _ member =>
    order_eq ▸ mem_meetingOrder_iff.mp member
  obtain ⟨once, undecided⟩ := (walked_nil count).journal_fresh bounds
  rw [← order_eq] at once undecided
  refine ⟨once, fun vertex member => ?_⟩
  have inside := (Array.getElem?_eq_some_iff.mp (undecided vertex member)).1
  rwa [Array.size_replicate] at inside

/-- What the walk has decided after some of its steps is what it decides in the end. -/
theorem truthWalk_of_foldl {before after : List Nat}
    (split : meetingOrder graph.components = before ++ after) (known : value ≠ .undefined)
    (reached : (before.foldl decideVertex (Array.replicate graph.order .undefined))[vertex]? =
      some value) :
    (truthWalk graph.order graph.components)[vertex]? = some value := by
  have early := walked_before order_eq split
  have whole := walked_before order_eq (List.append_nil (meetingOrder graph.components)).symm
  have bound : vertex < 2 * count := early.size ▸ (Array.getElem?_eq_some_iff.mp reached).1
  rw [early.getElem? bound] at reached
  cases reached
  rw [truthWalk_eq_partialWalk, partialWalk_eq_foldl]
  refine (whole.getElem? bound).trans (congrArg some ?_)
  rw [split, truthAfter_append_of_known known]

variable (apart : ∀ vertex < graph.order,
  graph.components.componentOf vertex ≠ graph.components.componentOf (opposite vertex))

include apart

/-- Each vertex is written, with its truth in the end. -/
theorem mem_walkJournal_iff :
    (vertex, value) ∈ walkJournal graph.order graph.components ↔
      vertex < graph.order ∧ .ofBool (graph.components.componentOf (opposite vertex) <
        graph.components.componentOf vertex) = value := by
  obtain ⟨once, inside⟩ := walkJournal_fresh order_eq
  let start : Array Truth := Array.replicate graph.order .undefined
  have size : start.size = graph.order := Array.size_replicate
  have final : ∀ {other}, (vertex, other) ∈ walkJournal graph.order graph.components →
      vertex < graph.order ∧ .ofBool (graph.components.componentOf (opposite vertex) <
        graph.components.componentOf vertex) = other := by
    intro other member
    have bound := inside vertex (List.mem_map_of_mem member)
    have last := getElem?_written_of_mem once (size.symm ▸ bound : vertex < start.size) member
    rw [written_walkJournal, truthWalk_getElem? order_eq apart bound] at last
    exact ⟨bound, Option.some.inj last⟩
  refine ⟨final, fun decided => ?_⟩
  obtain ⟨bound, same⟩ := decided
  have member : vertex ∈ Assoc.keys (walkJournal graph.order graph.components) := by
    refine Classical.byContradiction fun absent => ?_
    have untouched := @getElem?_written_of_not_mem start _ _ absent
    rw [written_walkJournal, truthWalk_getElem? order_eq apart bound] at untouched
    simp [start, bound, Truth.ofBool_ne_undefined] at untouched
  obtain ⟨⟨_, other⟩, listed, rfl⟩ := List.mem_map.mp member
  rw [← same, (final listed).2]
  exact listed

/-- Up to their order the entries written are the truth of every vertex in the end. -/
theorem walkJournal_perm :
    (walkJournal graph.order graph.components).Perm
      ((List.range graph.order).map fun vertex =>
        (vertex, .ofBool (graph.components.componentOf (opposite vertex) <
          graph.components.componentOf vertex))) := by
  have once := (walkJournal_fresh order_eq).1
  refine (List.perm_ext_iff_of_nodup once.of_map ?_).mpr fun entry => ?_
  · exact List.nodup_range.map fun _ _ same => congrArg Prod.fst same
  · obtain ⟨vertex, value⟩ := entry
    rw [mem_walkJournal_iff order_eq apart]
    simp

end Decided

/-- What is true leads only to what is true. -/
theorem truthWalk_follows_edge {graph : Digraph} (skew : graph.Skew)
    (apart : ∀ vertex < graph.order,
      graph.components.componentOf vertex ≠ graph.components.componentOf (opposite vertex))
    {source target : Nat} (edge : target ∈ graph.successors source) (bound : target < graph.order)
    (holds : (truthWalk graph.order graph.components)[source]? = some .yes) :
    (truthWalk graph.order graph.components)[target]? = some .yes := by
  obtain ⟨_, order_eq⟩ := skew.paired
  have sourceBound := Digraph.lt_order_of_mem_successors edge
  have forward := Digraph.componentOf_le_of_edge edge bound
  have backward := Digraph.componentOf_le_of_edge (skew.contrapositive source target edge)
    (skew.opposite_lt_order sourceBound)
  rw [truthWalk_getElem? order_eq apart sourceBound] at holds
  have later : graph.components.componentOf (opposite source) < graph.components.componentOf source := by
    simpa [Truth.ofBool] using holds
  rw [truthWalk_getElem? order_eq apart bound, decide_eq_true (by omega)]
  rfl

/-- For a formula of narrow clauses whose implication graph has no contradictions, the walk over the
components, last to first, makes a vertex true exactly when its component comes after that of its opposite,
and false otherwise. It writes each vertex once, what it has decided at any point stays as it is, and
no edge leads from a true vertex to a false one. -/
theorem truth_walk_compares_components (formula : Formula) (narrow : formula.width ≤ 2)
    (nonempty : formula.hasEmptyClause = false) :
    ∃ graph, ImplicationGraph.ofFormula formula = .ok graph ∧
      let decomposition := graph.digraph.components
      let truth := truthWalk graph.order decomposition
      let start : Array Truth := Array.replicate graph.order .undefined
      let entries := walkJournal graph.order decomposition
      let comesLater := fun vertex =>
        decide (decomposition.componentOf (opposite vertex) < decomposition.componentOf vertex)
      graph.contradictions decomposition = [] →
        (∀ vertex < graph.order, truth[vertex]? = some (.ofBool (comesLater vertex))) ∧
        written start entries = truth ∧
        entries.Perm ((List.range graph.order).map fun vertex => (vertex, .ofBool (comesLater vertex))) ∧
        (∀ before after, meetingOrder decomposition = before ++ after →
          ∀ (vertex : Nat) (value : Truth), value ≠ .undefined →
            (before.foldl decideVertex start)[vertex]? = some value → truth[vertex]? = some value) ∧
        (∀ source target, (source, target) ∈ graph.edges →
          truth[source]? = some .yes → truth[target]? = some .yes) ∧
        ∀ limit, validate limit formula = .ok () →
          solve limit formula = .ok (.satisfied ⟨graph.order, graph.size, decomposition.length⟩
            (environmentOf graph truth)) := by
  have fits : ∀ clause ∈ formula.clauses, clause.size ≤ 2 := fun clause member =>
    (Formula.size_le_width member).trans narrow
  obtain ⟨graph, built⟩ := (ImplicationGraph.exists_ofFormula_iff formula).mpr
    (Formula.narrow_of_nonempty nonempty fits)
  have represents := ImplicationGraph.ofFormula_represents built
  have wellFormed := represents.wellFormed
  have order_eq := wellFormed.order_eq
  refine ⟨graph, built, fun consistent => ?_⟩
  have apart : Apart graph := apart_of_no_contradictions wellFormed fun index member =>
    List.not_mem_nil (consistent ▸ member)
  refine ⟨fun vertex bound => truthWalk_getElem? order_eq apart bound, written_walkJournal _ _,
    walkJournal_perm order_eq apart, ?_, ?_, fun limit accepted => ?_⟩
  · intro before after split vertex value known reached
    exact truthWalk_of_foldl order_eq split known reached
  · intro source target edge holds
    exact truthWalk_follows_edge represents.skew apart ((wellFormed.mem_edges source target).mp edge)
      (wellFormed.edge_lt edge).2 holds
  · rw [solve_of_built built accepted, decideGraph, consistent]
    rfl

/-- One variable that must hold, and another that it implies. -/
theorem truth_walk_compares_components_chain :
    let x : Variable := ⟨"x"⟩
    let y : Variable := ⟨"y"⟩
    let formula : Formula := ⟨[⟨[⟨x, false⟩, ⟨y, true⟩], by decide⟩, ⟨[⟨x, true⟩], by decide⟩]⟩
    formula.width ≤ 2 ∧ formula.hasEmptyClause = false ∧
      ∃ graph, ImplicationGraph.ofFormula formula = .ok graph ∧
        let decomposition := graph.digraph.components
        let truth := truthWalk graph.order decomposition
        graph.contradictions decomposition = [] ∧
          decomposition.components = [[3], [1], [0], [2]] ∧
          truth[vertexAt 0 true]? = some .yes ∧ truth[vertexAt 1 true]? = some .yes ∧
          (walkJournal graph.order decomposition).length = 4 := by
  intro x y formula
  obtain ⟨graph, built, walked⟩ := truth_walk_compares_components formula (by decide) (by decide)
  have construction : ImplicationGraph.ofFormula formula =
      .ok ⟨[x, y], [(x, 0), (y, 1)], [(0, 2), (3, 1), (1, 0)], ⟨#[[2], [0], [], [1]]⟩⟩ := by cbv
  have shape := Except.ok.inj (built.symm.trans construction)
  have divided : graph.digraph.components =
      ⟨[[3], [1], [0], [2]], #[some 2, some 1, some 3, some 0]⟩ := by
    rw [shape]
    cbv
  have consistent : graph.contradictions graph.digraph.components = [] := by
    rw [divided, shape]
    decide
  obtain ⟨compares, _, entries, _, follows, _⟩ := walked consistent
  have order : graph.order = 4 := congrArg ImplicationGraph.order shape
  have later : graph.digraph.components.componentOf (opposite 0) <
      graph.digraph.components.componentOf 0 := by
    rw [divided]
    decide
  have first := (compares 0 (by omega)).trans (congrArg (some ∘ Truth.ofBool) (decide_eq_true later))
  have edge : (0, 2) ∈ graph.edges := by
    rw [shape]
    decide
  refine ⟨by decide, by decide, graph, built, consistent, congrArg _ divided, first,
    follows 0 2 edge first, ?_⟩
  rw [entries.length_eq, List.length_map, List.length_range, order]

end TwoSat

end Clausal
