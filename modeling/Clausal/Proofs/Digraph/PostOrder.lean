import Clausal.Proofs.Digraph.FinishingTimes

/-!
The order of finishing as a post-order. A traversal with a stack finishes the vertices in the order of the
plain recursive search, and of the two ends of an edge the second comes first unless a path leads back.
-/

set_option autoImplicit false

namespace Clausal.Digraph

/-- What a recursive search has still to discover, and what it has visited, in post-order. -/
structure Visited where
  fresh : List Nat
  order : List Nat

theorem length_erase_lt {fresh : List Nat} {vertex : Nat} (known : vertex ∈ fresh) :
    (fresh.erase vertex).length < fresh.length := by
  rw [List.length_erase_of_mem known]
  exact Nat.sub_lt (List.length_pos_of_mem known) Nat.one_pos

/-- Visits vertices one after another, each unless it has been discovered before: first what its successors
lead to, then the vertex itself. -/
def visitAll (graph : Digraph) (fresh : List Nat) :
    List Nat → { visited : Visited // visited.fresh.length ≤ fresh.length }
  | [] => ⟨⟨fresh, []⟩, Nat.le_refl _⟩
  | vertex :: rest =>
      if _discovered : vertex ∈ fresh then
        let below := visitAll graph (fresh.erase vertex) (graph.successors vertex)
        let later := visitAll graph below.val.fresh rest
        ⟨⟨later.val.fresh, below.val.order ++ vertex :: later.val.order⟩,
          Nat.le_trans later.property (Nat.le_trans below.property List.length_erase_le)⟩
      else visitAll graph fresh rest
termination_by vertices => (fresh.length, vertices.length)
decreasing_by
  · exact .left _ _ (length_erase_lt _discovered)
  · exact .left _ _ (Nat.lt_of_le_of_lt below.property (length_erase_lt _discovered))
  · exact .right _ (by simp)

/-- The vertices in the post-order of the recursive search that takes the roots in increasing order. -/
def postOrder (graph : Digraph) : List Nat :=
  (graph.visitAll (List.range graph.order) (List.range graph.order)).val.order

variable {graph : Digraph}

/-- The vertex on top finishes just when the search has visited the successors that were still to be tried. -/
theorem explore_cons (graph : Digraph) (fresh untried finished : List Nat) (vertex : Nat)
    (rest : List Visit) :
    graph.explore ⟨fresh, finished⟩ (⟨vertex, untried⟩ :: rest) =
      let visited := (graph.visitAll fresh untried).val
      graph.explore ⟨visited.fresh, vertex :: (visited.order.reverse ++ finished)⟩ rest := by
  induction fresh, untried using visitAll.induct graph generalizing finished vertex rest with
  | case1 fresh =>
      rw [explore, visitAll]
      rfl
  | case2 fresh next others known below belowVisited laterVisited =>
      rw [explore, if_pos known, belowVisited, laterVisited, visitAll, dif_pos known]
      simp [below]
  | case3 fresh next others unknown passed =>
      rw [explore, if_neg unknown, passed, visitAll, dif_neg unknown]

theorem foldl_exploreFrom_eq (graph : Digraph) (fresh finished roots : List Nat) :
    roots.foldl graph.exploreFrom ⟨fresh, finished⟩ =
      let visited := (graph.visitAll fresh roots).val
      ⟨visited.fresh, visited.order.reverse ++ finished⟩ := by
  induction roots generalizing fresh finished with
  | nil =>
      rw [visitAll]
      rfl
  | cons root rest ih =>
      rw [List.foldl_cons, exploreFrom, visitAll]
      by_cases known : root ∈ fresh
      · rw [if_pos known, dif_pos known, explore_cons, explore, ih]
        simp
      · rw [if_neg known, dif_neg known, ih]

theorem finishOrder_eq_postOrder (graph : Digraph) : graph.finishOrder = graph.postOrder := by
  rw [finishOrder, finished, foldl_exploreFrom_eq]
  dsimp only
  rw [List.append_nil, List.reverse_reverse, postOrder]

/-! Edges. -/

/-- All edges lead to vertices. -/
def Closed (graph : Digraph) : Prop :=
  ∀ source, ∀ target ∈ graph.successors source, target < graph.order

/-- Vertices by falling finishing time, where an edge leads to a vertex that is listed later, or lies on a
cycle. -/
inductive Descending (graph : Digraph) : List Nat → Prop where
  | nil : Descending graph []
  | cons {vertex : Nat} {earlier : List Nat} :
      (∀ next ∈ graph.successors vertex, next ∈ earlier ∨ graph.Reaches next vertex) →
      Descending graph earlier → Descending graph (vertex :: earlier)

/-- When the successors of the vertex on top have been tried, each of them has finished or is on the stack. -/
theorem Progress.Valid.descending_finish {progress : Progress} {vertex : Nat} {rest : List Visit}
    (closed : graph.Closed) (valid : progress.Valid graph (⟨vertex, []⟩ :: rest))
    (descending : graph.Descending progress.finished) :
    graph.Descending (vertex :: progress.finished) := by
  refine .cons (fun next edge => ?_) descending
  have known : next ∉ progress.fresh :=
    (valid.tried _ List.mem_cons_self next edge).resolve_left List.not_mem_nil
  rcases valid.active_or_finished (closed vertex next edge) known with active | finished
  · rw [List.map_cons] at active
    rcases List.mem_cons.mp active with rfl | below
    · exact .inr .refl
    · exact .inr ((List.pairwise_cons.mp valid.chained).1 next below)
  · exact .inl finished

theorem Progress.Valid.descending_explore {progress : Progress} {stack : List Visit} (closed : graph.Closed)
    (valid : progress.Valid graph stack) (descending : graph.Descending progress.finished) :
    graph.Descending (graph.explore progress stack).finished := by
  induction progress, stack using Digraph.explore.induct graph with
  | case1 progress => simpa only [Digraph.explore] using descending
  | case2 progress vertex rest ih =>
      rw [Digraph.explore]
      exact ih valid.finish (valid.descending_finish closed descending)
  | case3 progress vertex next others rest fresh ih =>
      rw [Digraph.explore, if_pos fresh]
      exact ih (valid.discover fresh) descending
  | case4 progress vertex next others rest known ih =>
      rw [Digraph.explore, if_neg known]
      exact ih (valid.skip known) descending

theorem Progress.Valid.descending_exploreFrom {progress : Progress} (closed : graph.Closed)
    (valid : progress.Valid graph []) (descending : graph.Descending progress.finished) (root : Nat) :
    graph.Descending (graph.exploreFrom progress root).finished := by
  unfold Digraph.exploreFrom
  split
  · next fresh => exact (valid.root fresh).descending_explore closed descending
  · exact descending

theorem descending_foldl {progress : Progress} (closed : graph.Closed) (valid : progress.Valid graph [])
    (descending : graph.Descending progress.finished) (roots : List Nat) :
    graph.Descending (roots.foldl graph.exploreFrom progress).finished := by
  induction roots generalizing progress with
  | nil => exact descending
  | cons root rest ih =>
      exact ih (valid.exploreFrom root) (valid.descending_exploreFrom closed descending root)

theorem descending_finished (closed : graph.Closed) : graph.Descending graph.finished :=
  descending_foldl closed .start .nil _

/-! Positions. -/

/-- Against the order of a list without repetition, what stands behind an item comes first. -/
theorem idxOf_reverse_lt {listed before after : List Nat} {first second : Nat} (distinct : listed.Nodup)
    (split : listed = before ++ first :: after) (later : second ∈ after) :
    listed.reverse.idxOf second < listed.reverse.idxOf first := by
  subst split
  have reversed : (before ++ first :: after).reverse = after.reverse ++ first :: before.reverse := by simp
  have apart : first ∉ after.reverse := fun member =>
    (List.nodup_cons.mp (List.nodup_append.mp distinct).2.1).1 (List.mem_reverse.mp member)
  have member : second ∈ after.reverse := List.mem_reverse.mpr later
  rw [reversed, List.idxOf_append, if_pos member, List.idxOf_append, if_neg apart]
  exact Nat.lt_of_lt_of_le (List.idxOf_lt_length_of_mem member) (Nat.le_add_left _ _)

theorem idxOf_reverse_le {listed before after : List Nat} {first second : Nat} (distinct : listed.Nodup)
    (split : listed = before ++ first :: after) (later : second ∈ first :: after) :
    listed.reverse.idxOf second ≤ listed.reverse.idxOf first := by
  rcases List.mem_cons.mp later with rfl | behind
  · exact Nat.le_refl _
  · exact Nat.le_of_lt (idxOf_reverse_lt distinct split behind)

theorem Descending.exists_split {listed : List Nat} (descending : graph.Descending listed) {source : Nat}
    (member : source ∈ listed) :
    ∃ before after, listed = before ++ source :: after ∧
      ∀ next ∈ graph.successors source, next ∈ after ∨ graph.Reaches next source := by
  induction descending with
  | nil => cases member
  | @cons vertex earlier falls _ ih =>
      rcases List.mem_cons.mp member with rfl | member
      · exact ⟨[], earlier, rfl, falls⟩
      · obtain ⟨before, after, split, falls⟩ := ih member
        exact ⟨vertex :: before, after, by rw [split, List.cons_append], falls⟩

theorem finishOrder_perm (graph : Digraph) : graph.finishOrder.Perm (List.range graph.order) :=
  (List.reverse_perm _).trans graph.finished_perm_and_latestFirst.1

theorem nodup_finished (graph : Digraph) : graph.finished.Nodup :=
  graph.finished_perm_and_latestFirst.1.nodup_iff.mpr List.nodup_range

theorem mem_finished_iff {vertex : Nat} : vertex ∈ graph.finished ↔ vertex < graph.order :=
  graph.finished_perm_and_latestFirst.1.mem_iff.trans List.mem_range

/-- The end of an edge finishes first, unless the edge lies on a cycle. -/
theorem finishOrder_edge (closed : graph.Closed) {source target : Nat}
    (edge : target ∈ graph.successors source) (oneWay : ¬ graph.Reaches target source) :
    graph.finishOrder.idxOf target < graph.finishOrder.idxOf source := by
  have listed : source ∈ graph.finished := mem_finished_iff.mpr (lt_order_of_mem_successors edge)
  obtain ⟨before, after, split, falls⟩ := (descending_finished closed).exists_split listed
  exact idxOf_reverse_lt graph.nodup_finished split ((falls target edge).resolve_right oneWay)

theorem Reaches.lt_order_of_closed {source target : Nat} (path : graph.Reaches source target)
    (closed : graph.Closed) (bound : source < graph.order) : target < graph.order := by
  induction path with
  | refl => exact bound
  | step edge _ ih => exact ih (closed _ _ edge)

/-- In the class of a vertex, the one that finishes last finishes after all that the class reaches. -/
theorem exists_last_of_class (closed : graph.Closed) {source : Nat} (bound : source < graph.order) :
    ∃ last, graph.Connected source last ∧ ∀ target, graph.Reaches source target →
      graph.finishOrder.idxOf target ≤ graph.finishOrder.idxOf last := by
  obtain ⟨before, last, after, split, connected, reached⟩ :=
    graph.finished_perm_and_latestFirst.2.leader (mem_finished_iff.mpr bound)
      fun later none => absurd none List.not_mem_nil
  refine ⟨last, connected, fun target path => ?_⟩
  exact idxOf_reverse_le graph.nodup_finished split (reached target (path.lt_order_of_closed closed bound) path)

end Clausal.Digraph
