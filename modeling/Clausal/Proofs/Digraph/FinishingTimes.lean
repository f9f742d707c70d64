import Clausal.Digraph.DepthFirst

/-!
What the order of finishing times says about reachability. A traversal keeps an invariant of its
stack, and the list of all vertices by falling finishing time comes out `LatestFirst`.
-/

set_option autoImplicit false

namespace Clausal.Digraph

variable {graph : Digraph}

/-- Vertices by falling finishing time, while the `active` ones have not finished yet: what a listed
vertex reaches had finished with it at the latest, or else a vertex connected with it finishes later. -/
inductive LatestFirst (graph : Digraph) : List Nat → List Nat → Prop where
  | nil {active : List Nat} : LatestFirst graph active []
  | cons {active earlier : List Nat} {vertex : Nat} :
      (∀ target < graph.order, graph.Reaches vertex target →
        target ∈ vertex :: earlier ∨ ∃ later ∈ active, graph.Connected vertex later) →
      LatestFirst graph (vertex :: active) earlier → LatestFirst graph active (vertex :: earlier)

theorem LatestFirst.mono {active wider listed : List Nat} (included : active ⊆ wider)
    (ordered : graph.LatestFirst active listed) : graph.LatestFirst wider listed := by
  induction ordered generalizing wider with
  | nil => exact .nil
  | cons reached _ ih =>
      refine .cons ?_ (ih (List.cons_subset_cons _ included))
      intro target bound path
      rcases reached target bound path with listed | ⟨later, member, connected⟩
      · exact .inl listed
      · exact .inr ⟨later, included member, connected⟩

/-- In every class of connected vertices that avoids the active ones, the vertex that finishes last is
listed before everything the class reaches. -/
theorem LatestFirst.leader {active listed : List Nat} {vertex : Nat}
    (ordered : graph.LatestFirst active listed) (member : vertex ∈ listed)
    (apart : ∀ later ∈ active, ¬ graph.Connected vertex later) :
    ∃ before last after, listed = before ++ last :: after ∧ graph.Connected vertex last ∧
      ∀ target < graph.order, graph.Reaches vertex target → target ∈ last :: after := by
  induction ordered with
  | nil => cases member
  | @cons active earlier head reached _ ih =>
      by_cases connected : graph.Connected vertex head
      · refine ⟨[], head, earlier, rfl, connected, ?_⟩
        intro target bound path
        rcases reached target bound (connected.2.trans path) with listed | ⟨later, active, same⟩
        · exact listed
        · exact absurd (connected.trans same) (apart later active)
      · have later : vertex ∈ earlier := by
          rcases List.mem_cons.mp member with rfl | later
          · exact absurd (Connected.refl vertex) connected
          · exact later
        obtain ⟨before, last, after, split, same, listed⟩ := ih later (by
          intro other active
          rcases List.mem_cons.mp active with rfl | active
          · exact connected
          · exact apart other active)
        exact ⟨head :: before, last, after, by rw [split, List.cons_append], same, listed⟩

/-- The invariant of a traversal with the given stack, whose vertices are the active ones. -/
structure Progress.Valid (graph : Digraph) (progress : Progress) (stack : List Visit) : Prop where
  listed : graph.LatestFirst (stack.map Visit.vertex) progress.finished
  chained : (stack.map Visit.vertex).Pairwise fun above below => graph.Reaches below above
  closed : ∀ vertex ∈ progress.finished, ∀ next ∈ graph.successors vertex, next ∉ progress.fresh
  tried : ∀ visit ∈ stack, ∀ next ∈ graph.successors visit.vertex,
    next ∈ visit.untried ∨ next ∉ progress.fresh
  possible : ∀ visit ∈ stack, visit.untried ⊆ graph.successors visit.vertex
  covered : (stack.map Visit.vertex ++ progress.finished ++ progress.fresh).Perm
    (List.range graph.order)

namespace Progress.Valid

theorem start : Progress.Valid graph ⟨List.range graph.order, []⟩ [] where
  listed := .nil
  chained := .nil
  closed := by simp
  tried := by simp
  possible := by simp
  covered := by simp

theorem nodup_fresh {progress : Progress} {stack : List Visit}
    (valid : progress.Valid graph stack) : progress.fresh.Nodup := by
  have distinct := valid.covered.nodup_iff.mpr List.nodup_range
  exact (List.nodup_append.mp distinct).2.1

theorem active_or_finished {progress : Progress} {stack : List Visit} {vertex : Nat}
    (valid : progress.Valid graph stack) (bound : vertex < graph.order)
    (known : vertex ∉ progress.fresh) :
    vertex ∈ stack.map Visit.vertex ∨ vertex ∈ progress.finished := by
  have member := valid.covered.mem_iff.mpr (List.mem_range.mpr bound)
  rw [List.mem_append, List.mem_append] at member
  rcases member with member | fresh
  · exact member
  · exact absurd fresh known

/-- A path from the vertex on top, once its successors have been tried, stays among what has finished
or meets a vertex further down. -/
theorem reaches_top {progress : Progress} {rest : List Visit} {vertex source target : Nat}
    (valid : progress.Valid graph (⟨vertex, []⟩ :: rest)) (bound : target < graph.order)
    (path : graph.Reaches source target) (inside : source ∈ vertex :: progress.finished) :
    target ∈ vertex :: progress.finished ∨
      ∃ below ∈ rest.map Visit.vertex, graph.Reaches source below := by
  induction path with
  | refl => exact .inl inside
  | @step source next target edge tail ih =>
      have known : next ∉ progress.fresh := by
        rcases List.mem_cons.mp inside with rfl | finished
        · rcases valid.tried _ List.mem_cons_self next edge with untried | known
          · cases untried
          · exact known
        · exact valid.closed source finished next edge
      have further : next ∈ vertex :: progress.finished → target ∈ vertex :: progress.finished ∨
          ∃ below ∈ rest.map Visit.vertex, graph.Reaches source below := by
        intro member
        rcases ih bound member with finished | ⟨below, active, reached⟩
        · exact .inl finished
        · exact .inr ⟨below, active, .step edge reached⟩
      rcases valid.active_or_finished (tail.lt_order bound) known with active | finished
      · rw [List.map_cons] at active
        rcases List.mem_cons.mp active with rfl | active
        · exact further List.mem_cons_self
        · exact .inr ⟨next, active, .edge edge⟩
      · exact further (List.mem_cons_of_mem _ finished)

/-- The vertex on top finishes when all its successors have been tried. -/
theorem finish {progress : Progress} {rest : List Visit} {vertex : Nat}
    (valid : progress.Valid graph (⟨vertex, []⟩ :: rest)) :
    Progress.Valid graph { progress with finished := vertex :: progress.finished } rest where
  listed := by
    refine .cons ?_ valid.listed
    intro target bound path
    rcases valid.reaches_top bound path List.mem_cons_self with finished | ⟨below, active, reached⟩
    · exact .inl finished
    · exact .inr ⟨below, active, reached, (List.pairwise_cons.mp valid.chained).1 below active⟩
  chained := (List.pairwise_cons.mp valid.chained).2
  closed := by
    intro other member next edge
    rcases List.mem_cons.mp member with rfl | finished
    · rcases valid.tried _ List.mem_cons_self next edge with untried | known
      · cases untried
      · exact known
    · exact valid.closed other finished next edge
  tried := fun visit member => valid.tried visit (List.mem_cons_of_mem _ member)
  possible := fun visit member => valid.possible visit (List.mem_cons_of_mem _ member)
  covered := by
    refine .trans ?_ valid.covered
    rw [List.map_cons, List.cons_append, List.cons_append, List.append_assoc, List.append_assoc]
    exact List.perm_middle

/-- A successor that is still fresh is discovered and goes on top. -/
theorem discover {progress : Progress} {rest : List Visit} {vertex next : Nat} {others : List Nat}
    (valid : progress.Valid graph (⟨vertex, next :: others⟩ :: rest)) (fresh : next ∈ progress.fresh) :
    Progress.Valid graph { progress with fresh := progress.fresh.erase next }
      (⟨next, graph.successors next⟩ :: ⟨vertex, others⟩ :: rest) where
  listed := valid.listed.mono (List.subset_cons_self _ _)
  chained := by
    have edge : next ∈ graph.successors vertex :=
      valid.possible _ List.mem_cons_self List.mem_cons_self
    refine List.pairwise_cons.mpr ⟨?_, valid.chained⟩
    intro below member
    rcases List.mem_cons.mp member with rfl | lower
    · exact .edge edge
    · exact ((List.pairwise_cons.mp valid.chained).1 below lower).trans (.edge edge)
  closed := fun other finished target edge erased =>
    valid.closed other finished target edge (List.mem_of_mem_erase erased)
  tried := by
    intro visit member target edge
    rcases List.mem_cons.mp member with rfl | member
    · exact .inl edge
    rcases List.mem_cons.mp member with rfl | member
    · rcases valid.tried _ List.mem_cons_self target edge with untried | known
      · rcases List.mem_cons.mp untried with rfl | untried
        · exact .inr fun erased => (valid.nodup_fresh.mem_erase_iff.mp erased).1 rfl
        · exact .inl untried
      · exact .inr fun erased => known (List.mem_of_mem_erase erased)
    · rcases valid.tried visit (List.mem_cons_of_mem _ member) target edge with untried | known
      · exact .inl untried
      · exact .inr fun erased => known (List.mem_of_mem_erase erased)
  possible := by
    intro visit member
    rcases List.mem_cons.mp member with rfl | member
    · exact fun _ edge => edge
    rcases List.mem_cons.mp member with rfl | member
    · exact fun _ untried =>
        valid.possible _ List.mem_cons_self (List.mem_cons_of_mem _ untried)
    · exact valid.possible visit (List.mem_cons_of_mem _ member)
  covered := by
    refine .trans ?_ valid.covered
    have moved := (List.perm_cons_erase fresh).symm
    simp only [List.map_cons, List.cons_append]
    refine .trans ?_ ((moved.append_left _).cons vertex)
    exact (List.Perm.swap _ _ _).trans (List.perm_middle.symm.cons vertex)

/-- A successor that is not fresh is passed over. -/
theorem skip {progress : Progress} {rest : List Visit} {vertex next : Nat} {others : List Nat}
    (valid : progress.Valid graph (⟨vertex, next :: others⟩ :: rest)) (known : next ∉ progress.fresh) :
    progress.Valid graph (⟨vertex, others⟩ :: rest) where
  listed := valid.listed
  chained := valid.chained
  closed := valid.closed
  tried := by
    intro visit member target edge
    rcases List.mem_cons.mp member with rfl | member
    · rcases valid.tried _ List.mem_cons_self target edge with untried | known
      · rcases List.mem_cons.mp untried with rfl | untried
        · exact .inr known
        · exact .inl untried
      · exact .inr known
    · exact valid.tried visit (List.mem_cons_of_mem _ member) target edge
  possible := by
    intro visit member
    rcases List.mem_cons.mp member with rfl | member
    · exact fun _ untried =>
        valid.possible _ List.mem_cons_self (List.mem_cons_of_mem _ untried)
    · exact valid.possible visit (List.mem_cons_of_mem _ member)
  covered := valid.covered

theorem explore {progress : Progress} {stack : List Visit}
    (valid : progress.Valid graph stack) : (graph.explore progress stack).Valid graph [] := by
  induction progress, stack using Digraph.explore.induct graph with
  | case1 progress => simpa only [Digraph.explore] using valid
  | case2 progress vertex rest ih =>
      rw [Digraph.explore]
      exact ih valid.finish
  | case3 progress vertex next others rest fresh ih =>
      rw [Digraph.explore, if_pos fresh]
      exact ih (valid.discover fresh)
  | case4 progress vertex next others rest known ih =>
      rw [Digraph.explore, if_neg known]
      exact ih (valid.skip known)

/-- A root that is still fresh starts a stack of its own. -/
theorem root {progress : Progress} {vertex : Nat} (valid : progress.Valid graph [])
    (fresh : vertex ∈ progress.fresh) :
    Progress.Valid graph { progress with fresh := progress.fresh.erase vertex }
      [⟨vertex, graph.successors vertex⟩] where
  listed := valid.listed.mono (List.nil_subset _)
  chained := List.pairwise_singleton _ _
  closed := fun other finished target edge erased =>
    valid.closed other finished target edge (List.mem_of_mem_erase erased)
  tried := by
    intro visit member target edge
    rw [List.mem_singleton] at member
    subst visit
    exact .inl edge
  possible := by
    intro visit member
    rw [List.mem_singleton] at member
    subst visit
    exact fun _ edge => edge
  covered := by
    refine .trans ?_ valid.covered
    have moved := (List.perm_cons_erase fresh).symm
    simp only [List.map_cons, List.map_nil, List.nil_append, List.cons_append]
    exact List.perm_middle.symm.trans (moved.append_left _)

theorem exploreFrom {progress : Progress} (vertex : Nat) (valid : progress.Valid graph []) :
    (graph.exploreFrom progress vertex).Valid graph [] := by
  unfold Digraph.exploreFrom
  split
  · next fresh => exact (valid.root fresh).explore
  · exact valid

end Progress.Valid

/-- Nothing becomes fresh again. -/
theorem explore_fresh_subset (progress : Progress) (stack : List Visit) :
    (graph.explore progress stack).fresh ⊆ progress.fresh := by
  induction progress, stack using explore.induct graph with
  | case1 progress => simp only [explore, List.Subset.refl]
  | case2 progress vertex rest ih =>
      rw [explore]
      exact ih
  | case3 progress vertex next others rest fresh ih =>
      rw [explore, if_pos fresh]
      exact List.Subset.trans ih List.erase_subset
  | case4 progress vertex next others rest known ih =>
      rw [explore, if_neg known]
      exact ih

theorem exploreFrom_fresh_subset (progress : Progress) (vertex : Nat) :
    (graph.exploreFrom progress vertex).fresh ⊆ progress.fresh := by
  unfold exploreFrom
  split
  · exact List.Subset.trans (explore_fresh_subset _ _) List.erase_subset
  · exact List.Subset.refl _

theorem not_mem_fresh_exploreFrom {progress : Progress} {vertex : Nat}
    (valid : progress.Valid graph []) : vertex ∉ (graph.exploreFrom progress vertex).fresh := by
  unfold exploreFrom
  split
  · intro member
    have erased := explore_fresh_subset _ _ member
    exact (valid.nodup_fresh.mem_erase_iff.mp erased).1 rfl
  · assumption

/-- Traversals from several roots, one after another, discover all of them. -/
theorem foldl_exploreFrom {progress : Progress} (roots : List Nat)
    (valid : progress.Valid graph []) :
    (roots.foldl graph.exploreFrom progress).Valid graph [] ∧
      (roots.foldl graph.exploreFrom progress).fresh ⊆ progress.fresh ∧
      ∀ root ∈ roots, root ∉ (roots.foldl graph.exploreFrom progress).fresh := by
  induction roots generalizing progress with
  | nil => exact ⟨valid, List.Subset.refl _, by simp⟩
  | cons root rest ih =>
      obtain ⟨later, smaller, discovered⟩ := ih (valid.exploreFrom root)
      rw [List.foldl_cons]
      refine ⟨later, List.Subset.trans smaller (exploreFrom_fresh_subset _ _), ?_⟩
      intro other member
      rcases List.mem_cons.mp member with rfl | member
      · exact fun fresh => not_mem_fresh_exploreFrom valid (smaller fresh)
      · exact discovered other member

/-- The finished vertices are all vertices, each once, by falling finishing time. -/
theorem finished_perm_and_latestFirst (graph : Digraph) :
    graph.finished.Perm (List.range graph.order) ∧ graph.LatestFirst [] graph.finished := by
  obtain ⟨valid, smaller, discovered⟩ :=
    foldl_exploreFrom (List.range graph.order) (@Progress.Valid.start graph)
  have exhausted :
      ((List.range graph.order).foldl graph.exploreFrom ⟨List.range graph.order, []⟩).fresh = [] := by
    refine List.eq_nil_iff_forall_not_mem.mpr fun vertex fresh => ?_
    exact discovered vertex (smaller fresh) fresh
  refine ⟨?_, valid.listed⟩
  simpa [finished, exhausted] using valid.covered

end Clausal.Digraph
