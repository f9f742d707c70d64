import Clausal.Digraph.Components
import Clausal.Proofs.Digraph.FinishingTimes
import Mathlib.Data.List.Nodup

/-!
Strongly connected components. Each gathering takes exactly the class of its root, because the root is
the vertex that finishes last among those without a component; hence the components are the classes of
mutual reachability, in topological order.
-/

set_option autoImplicit false

namespace Clausal.Digraph

variable {graph : Digraph}

theorem getElem?_concat_eq_some_iff {α : Type} {items : List α} {last item : α} {index : Nat} :
    (items ++ [last])[index]? = some item ↔
      items[index]? = some item ∨ index = items.length ∧ item = last := by
  rw [List.getElem?_append]
  split
  · next bound => simp [Nat.ne_of_lt bound]
  · next bound =>
      rw [List.getElem?_eq_none (Nat.le_of_not_lt bound), List.getElem?_singleton]
      grind

/-- The labels `after` differ from `before` in that the members, which were fresh, lie in a component. -/
structure Labels.Gains (before after : Labels) (index : Nat) (members : List Nat) : Prop where
  nodup : members.Nodup
  fresh : ∀ vertex ∈ members, before[vertex]? = some none
  entry : ∀ vertex : Nat, after[vertex]? = if vertex ∈ members then some (some index) else before[vertex]?

namespace Labels.Gains

theorem refl (labels : Labels) (index : Nat) : labels.Gains labels index [] where
  nodup := List.nodup_nil
  fresh := by simp
  entry := by simp

theorem put {labels : Labels} {vertex : Nat} (index : Nat) (fresh : labels.isFresh vertex = true) :
    labels.Gains (labels.put vertex index) index [vertex] where
  nodup := by simp
  fresh := by
    intro other member
    rw [List.mem_singleton.mp member]
    exact isFresh_iff.mp fresh
  entry := by
    intro other
    obtain ⟨bound, _⟩ := Array.getElem?_eq_some_iff.mp (isFresh_iff.mp fresh)
    rw [Labels.put, Array.getElem?_setIfInBounds, if_pos bound]
    simp only [List.mem_singleton, eq_comm]

variable {before middle after : Labels} {index : Nat} {members : List Nat}

theorem append {others : List Nat} (first : before.Gains middle index members)
    (second : middle.Gains after index others) : before.Gains after index (members ++ others) where
  nodup := by
    refine List.nodup_append.mpr ⟨first.nodup, second.nodup, ?_⟩
    rintro vertex member other memberToo rfl
    have entry := first.entry vertex
    rw [if_pos member, second.fresh vertex memberToo] at entry
    cases entry
  fresh := by
    intro vertex member
    rcases List.mem_append.mp member with member | member
    · exact first.fresh vertex member
    · have entry := first.entry vertex
      rw [second.fresh vertex member] at entry
      split at entry
      · cases entry
      · exact entry.symm
  entry := by
    intro vertex
    rw [second.entry vertex, first.entry vertex]
    grind

/-- Labels that are there stay. -/
theorem preserves (gained : before.Gains after index members) {vertex other : Nat}
    (labelled : before[vertex]? = some (some other)) : after[vertex]? = some (some other) := by
  rw [gained.entry vertex, if_neg]
  · exact labelled
  · intro member
    rw [gained.fresh vertex member] at labelled
    cases labelled

theorem fresh_before (gained : before.Gains after index members) {vertex : Nat}
    (fresh : after[vertex]? = some none) : before[vertex]? = some none := by
  rw [gained.entry vertex] at fresh
  split at fresh
  · cases fresh
  · exact fresh

theorem size_eq (gained : before.Gains after index members) : after.size = before.size := by
  have same : ∀ vertex : Nat, after[vertex]? = none ↔ before[vertex]? = none := by
    intro vertex
    rw [gained.entry vertex]
    split
    · next member => simp [gained.fresh vertex member]
    · exact Iff.rfl
  simp only [Array.getElem?_eq_none_iff] at same
  exact Nat.le_antisymm ((same before.size).mpr (Nat.le_refl _)) ((same after.size).mp (Nat.le_refl _))

theorem lt_size (gained : before.Gains after index members) {vertex : Nat}
    (member : vertex ∈ members) : vertex < before.size :=
  (Array.getElem?_eq_some_iff.mp (gained.fresh vertex member)).1

end Labels.Gains

theorem discover_gains (index : Nat) (labels : Labels) (vertices : List Nat) :
    labels.Gains (discover index labels vertices).2 index (discover index labels vertices).1 := by
  induction vertices generalizing labels with
  | nil => exact .refl labels index
  | cons vertex others ih =>
      unfold discover
      split
      · next fresh => exact (Labels.Gains.put index fresh).append (ih (labels.put vertex index))
      · exact ih labels

theorem discover_subset (index : Nat) (labels : Labels) (vertices : List Nat) :
    (discover index labels vertices).1 ⊆ vertices := by
  induction vertices generalizing labels with
  | nil => exact List.Subset.refl _
  | cons vertex others ih =>
      unfold discover
      split
      · exact List.cons_subset_cons vertex (ih _)
      · exact List.Subset.trans (ih _) (List.subset_cons_self _ _)

/-- No vertex that was looked at stays fresh. -/
theorem not_fresh_discover {index : Nat} {labels : Labels} {vertices : List Nat} {vertex : Nat}
    (member : vertex ∈ vertices) : (discover index labels vertices).2[vertex]? ≠ some none := by
  induction vertices generalizing labels with
  | nil => cases member
  | cons head others ih =>
      unfold discover
      split
      · next fresh =>
          rcases List.mem_cons.mp member with rfl | member
          · intro still
            have early := (discover_gains index (labels.put vertex index) others).fresh_before still
            rw [(Labels.Gains.put index fresh).entry vertex] at early
            simp at early
          · exact ih member
      · next known =>
          rcases List.mem_cons.mp member with rfl | member
          · intro still
            have early := (discover_gains index labels others).fresh_before still
            exact known (Labels.isFresh_iff.mpr early)
          · exact ih member

/-- The invariant of a gathering that started from a root with the labels `before`: the members reach
the root, and the pending ones are those whose predecessors have still to be looked at. -/
structure Gathering.Valid (graph : Digraph) (before : Labels) (index root : Nat)
    (gathering : Gathering) (pending : List Nat) : Prop where
  gained : before.Gains gathering.labels index gathering.members
  rooted : root ∈ gathering.members
  reaches : ∀ member ∈ gathering.members, graph.Reaches member root
  pending_subset : pending ⊆ gathering.members
  closed : ∀ member ∈ gathering.members, member ∉ pending →
    ∀ source, member ∈ graph.successors source → gathering.labels[source]? ≠ some none

namespace Gathering.Valid

variable {before : Labels} {index root : Nat}

theorem start (fresh : before.isFresh root = true) :
    Gathering.Valid graph before index root ⟨[root], before.put root index⟩ [root] where
  gained := .put index fresh
  rooted := List.mem_singleton_self root
  reaches := by
    intro member only
    rw [List.mem_singleton.mp only]
    exact .refl
  pending_subset := List.Subset.refl _
  closed := fun _ member done => absurd member done

/-- Looking at the predecessors of a pending vertex. -/
theorem advance {gathering : Gathering} {vertex : Nat} {rest : List Nat}
    (valid : gathering.Valid graph before index root (vertex :: rest))
    (size : before.size = graph.order) :
    let discovery := discover index gathering.labels (graph.transpose.successors vertex)
    Gathering.Valid graph before index root ⟨gathering.members ++ discovery.1, discovery.2⟩
      (discovery.1.reverse ++ rest) := by
  intro discovery
  have inside : vertex ∈ gathering.members := valid.pending_subset List.mem_cons_self
  have bound : vertex < graph.order := size ▸ valid.gained.lt_size inside
  have more : gathering.labels.Gains discovery.2 index discovery.1 := discover_gains _ _ _
  refine ⟨valid.gained.append more, List.mem_append_left _ valid.rooted, ?_, ?_, ?_⟩
  · intro member found
    rcases List.mem_append.mp found with earlier | found
    · exact valid.reaches member earlier
    · have edge := (mem_successors_transpose bound).mp (discover_subset _ _ _ found)
      exact .step edge (valid.reaches vertex inside)
  · intro member waiting
    rcases List.mem_append.mp waiting with found | waiting
    · exact List.mem_append_right _ (List.mem_reverse.mp found)
    · exact List.mem_append_left _ (valid.pending_subset (List.mem_cons_of_mem _ waiting))
  · intro member found done source edge
    have notFound : member ∉ discovery.1 := fun found =>
      done (List.mem_append_left _ (List.mem_reverse.mpr found))
    have earlier : member ∈ gathering.members := (List.mem_append.mp found).resolve_right notFound
    by_cases same : member = vertex
    · subst member
      exact not_fresh_discover ((mem_successors_transpose bound).mpr edge)
    · intro fresh
      refine valid.closed member earlier ?_ source edge (more.fresh_before fresh)
      intro waiting
      rcases List.mem_cons.mp waiting with rfl | waiting
      · exact same rfl
      · exact done (List.mem_append_right _ waiting)

theorem gather {gathering : Gathering} {pending : List Nat}
    (valid : gathering.Valid graph before index root pending)
    (size : before.size = graph.order) :
    (Digraph.gather graph.transpose index gathering pending).Valid graph before index root [] := by
  induction gathering, pending using Digraph.gather.induct graph.transpose index with
  | case1 gathering => simpa only [Digraph.gather] using valid
  | case2 gathering vertex rest discovery ih =>
      rw [Digraph.gather]
      exact ih (valid.advance size)

end Gathering.Valid

/-- The invariant of the division into components: what has been gathered are whole classes of
connected vertices, and no edge leads back from a gathered vertex's class to an earlier one. -/
structure Decomposition.Valid (graph : Digraph) (division : Decomposition) : Prop where
  size : division.labels.size = graph.order
  labelled : ∀ vertex index : Nat, division.labels[vertex]? = some (some index) ↔
    ∃ members, division.components[index]? = some members ∧ vertex ∈ members
  nodup : ∀ members ∈ division.components, members.Nodup
  nonempty : ∀ members ∈ division.components, members ≠ []
  connected : ∀ members ∈ division.components, ∀ left ∈ members, ∀ right,
    right ∈ members ↔ graph.Connected left right
  ordered : ∀ source target index : Nat, target ∈ graph.successors source →
    division.labels[target]? = some (some index) →
    ∃ earlier ≤ index, division.labels[source]? = some (some earlier)

namespace Decomposition.Valid

theorem start (graph : Digraph) : Decomposition.Valid graph (.start graph.order) where
  size := by simp [Decomposition.start]
  labelled := by simp [Decomposition.start, Array.getElem?_replicate]
  nodup := by simp [Decomposition.start]
  nonempty := by simp [Decomposition.start]
  connected := by simp [Decomposition.start]
  ordered := by
    intro source target index _ labelled
    simp [Decomposition.start, Array.getElem?_replicate] at labelled

variable {division : Decomposition}

/-- A label holds for the whole class of the vertex. -/
theorem label_of_connected (valid : division.Valid graph) {left right index : Nat}
    (labelled : division.labels[left]? = some (some index)) (connected : graph.Connected left right) :
    division.labels[right]? = some (some index) := by
  obtain ⟨members, found, member⟩ := (valid.labelled left index).mp labelled
  refine (valid.labelled right index).mpr ⟨members, found, ?_⟩
  exact (valid.connected members (List.mem_of_getElem? found) left member right).mpr connected

theorem lt_length (valid : division.Valid graph) {vertex index : Nat}
    (labelled : division.labels[vertex]? = some (some index)) : index < division.length := by
  obtain ⟨members, found, _⟩ := (valid.labelled vertex index).mp labelled
  exact (List.getElem?_eq_some_iff.mp found).1

theorem fresh_or_labelled (valid : division.Valid graph) {vertex : Nat}
    (bound : vertex < graph.order) :
    division.labels[vertex]? = some none ∨ ∃ index, division.labels[vertex]? = some (some index) := by
  have inside : vertex < division.labels.size := valid.size ▸ bound
  rw [Array.getElem?_eq_getElem inside]
  cases division.labels[vertex] with
  | none => exact .inl rfl
  | some index => exact .inr ⟨index, rfl⟩

theorem fresh_of_connected (valid : division.Valid graph) {left right : Nat}
    (fresh : division.labels[left]? = some none) (connected : graph.Connected left right) :
    division.labels[right]? = some none := by
  have bound : left < graph.order := valid.size ▸ (Array.getElem?_eq_some_iff.mp fresh).1
  rcases valid.fresh_or_labelled (connected.2.lt_order bound) with fresh | ⟨index, labelled⟩
  · exact fresh
  · rw [valid.label_of_connected labelled connected.symm] at fresh
    cases fresh

/-- Whatever is still fresh and reaches the next root belongs to the root's class: of the class that
reaches the root, the vertex that finishes last is fresh as well, and the root comes before it. -/
theorem connected_root (valid : division.Valid graph) {processed rest : List Nat} {root vertex : Nat}
    (ordered : graph.LatestFirst processed (root :: rest)) (distinct : (root :: rest).Nodup)
    (labelled : ∀ other ∈ processed, division.labels[other]? ≠ some none)
    (complete : ∀ other : Nat, division.labels[other]? = some none → other ∈ root :: rest)
    (fresh : division.labels[vertex]? = some none) (bound : root < graph.order)
    (path : graph.Reaches vertex root) : graph.Connected vertex root := by
  obtain ⟨before, last, after, split, connected, reached⟩ :=
    ordered.leader (complete vertex fresh) fun later member same =>
      labelled later member (valid.fresh_of_connected fresh same)
  have listed : root ∈ last :: after := reached root bound path
  cases before with
  | nil =>
      cases split
      exact connected
  | cons head before =>
      rw [List.cons_append, List.cons.injEq] at split
      rw [split.1, split.2] at distinct
      exact absurd (List.mem_append_right _ listed) (split.1 ▸ (List.nodup_cons.mp distinct).1)

/-- No fresh vertex is left behind that has an edge into what was gathered. -/
theorem predecessor_gathered (valid : division.Valid graph) {index root : Nat} {gathering : Gathering}
    (gathered : gathering.Valid graph division.labels index root []) {source target : Nat}
    (edge : target ∈ graph.successors source) (inside : target ∈ gathering.members) :
    source ∈ gathering.members ∨ ∃ index, division.labels[source]? = some (some index) := by
  rcases valid.fresh_or_labelled (lt_order_of_mem_successors edge) with fresh | labelled
  · by_cases gatheredToo : source ∈ gathering.members
    · exact .inl gatheredToo
    · have still := gathered.gained.entry source
      rw [if_neg gatheredToo, fresh] at still
      exact absurd still (gathered.closed target inside List.not_mem_nil source edge)
  · exact .inr labelled

theorem reaches_gathered (valid : division.Valid graph) {index root : Nat} {gathering : Gathering}
    (gathered : gathering.Valid graph division.labels index root []) {source target : Nat}
    (path : graph.Reaches source target) (inside : target ∈ gathering.members) :
    source ∈ gathering.members ∨ ∃ index, division.labels[source]? = some (some index) := by
  induction path with
  | refl => exact .inl inside
  | step edge _ ih =>
      rcases ih inside with member | ⟨index, labelled⟩
      · exact valid.predecessor_gathered gathered edge member
      · obtain ⟨earlier, _, labelled⟩ := valid.ordered _ _ index edge labelled
        exact .inr ⟨earlier, labelled⟩

/-- What was gathered is the class of the root. -/
theorem mem_gathered_iff (valid : division.Valid graph) {index root : Nat} {gathering : Gathering}
    (gathered : gathering.Valid graph division.labels index root [])
    (returns : ∀ vertex : Nat, division.labels[vertex]? = some none → graph.Reaches vertex root →
      graph.Connected vertex root) {vertex : Nat} :
    vertex ∈ gathering.members ↔ graph.Connected vertex root := by
  constructor
  · intro member
    exact returns vertex (gathered.gained.fresh vertex member) (gathered.reaches vertex member)
  · intro connected
    rcases valid.reaches_gathered gathered connected.1 gathered.rooted with member | ⟨index, labelled⟩
    · exact member
    · have rootLabelled := valid.label_of_connected labelled connected
      rw [gathered.gained.fresh root gathered.rooted] at rootLabelled
      cases rootLabelled

theorem labelled_extend (valid : division.Valid graph) {later : Labels} {members : List Nat}
    (gained : division.labels.Gains later division.length members) (vertex index : Nat) :
    later[vertex]? = some (some index) ↔
      ∃ found, (division.components ++ [members])[index]? = some found ∧ vertex ∈ found := by
  have last : (∃ found, (index = division.components.length ∧ found = members) ∧ vertex ∈ found) ↔
      index = division.length ∧ vertex ∈ members :=
    ⟨fun ⟨_, ⟨position, same⟩, member⟩ => ⟨position, same ▸ member⟩,
      fun ⟨position, member⟩ => ⟨_, ⟨position, rfl⟩, member⟩⟩
  simp only [getElem?_concat_eq_some_iff, or_and_right, exists_or, ← valid.labelled, last]
  rw [gained.entry vertex]
  by_cases inside : vertex ∈ members
  · rw [if_pos inside, gained.fresh vertex inside]
    simp [inside, eq_comm]
  · rw [if_neg inside]
    simp [inside]

/-- An edge into what was gathered comes from there or from an earlier component. -/
theorem ordered_extend (valid : division.Valid graph) {root : Nat} {gathering : Gathering}
    (gathered : gathering.Valid graph division.labels division.length root [])
    {source target index : Nat} (edge : target ∈ graph.successors source)
    (labelled : gathering.labels[target]? = some (some index)) :
    ∃ earlier ≤ index, gathering.labels[source]? = some (some earlier) := by
  have gained := gathered.gained
  rw [gained.entry target] at labelled
  split at labelled
  · next inside =>
      cases labelled
      rcases valid.predecessor_gathered gathered edge inside with member | ⟨earlier, early⟩
      · exact ⟨division.length, Nat.le_refl _, by rw [gained.entry source, if_pos member]⟩
      · exact ⟨earlier, Nat.le_of_lt (valid.lt_length early), gained.preserves early⟩
  · obtain ⟨earlier, bound, early⟩ := valid.ordered source target index edge labelled
    exact ⟨earlier, bound, gained.preserves early⟩

/-- A gathered class joins the division. -/
theorem extend (valid : division.Valid graph) {root : Nat} {gathering : Gathering}
    (gathered : gathering.Valid graph division.labels division.length root [])
    (returns : ∀ vertex : Nat, division.labels[vertex]? = some none → graph.Reaches vertex root →
      graph.Connected vertex root) :
    Decomposition.Valid graph ⟨division.components ++ [gathering.members], gathering.labels⟩ where
  size := gathered.gained.size_eq.trans valid.size
  labelled := valid.labelled_extend gathered.gained
  nodup := by
    intro members member
    rcases List.mem_append.mp member with earlier | new
    · exact valid.nodup members earlier
    · rw [List.mem_singleton.mp new]
      exact gathered.gained.nodup
  nonempty := by
    intro members member
    rcases List.mem_append.mp member with earlier | new
    · exact valid.nonempty members earlier
    · rw [List.mem_singleton.mp new]
      exact List.ne_nil_of_mem gathered.rooted
  connected := by
    intro members member left inside right
    rcases List.mem_append.mp member with earlier | new
    · exact valid.connected members earlier left inside right
    · rw [List.mem_singleton.mp new] at inside ⊢
      have leftRoot := (valid.mem_gathered_iff gathered returns).mp inside
      rw [valid.mem_gathered_iff gathered returns]
      exact ⟨fun rightRoot => leftRoot.trans rightRoot.symm, fun same => same.symm.trans leftRoot⟩
  ordered := fun _ _ _ edge labelled => valid.ordered_extend gathered edge labelled

/-- One more root, which is in a component afterwards. -/
theorem divideFrom (valid : division.Valid graph) {processed rest : List Nat} {root : Nat}
    (ordered : graph.LatestFirst processed (root :: rest)) (distinct : (root :: rest).Nodup)
    (labelled : ∀ other ∈ processed, division.labels[other]? ≠ some none)
    (complete : ∀ other : Nat, division.labels[other]? = some none → other ∈ root :: rest) :
    (graph.transpose.divideFrom division root).Valid graph ∧
      ∀ vertex : Nat, (graph.transpose.divideFrom division root).labels[vertex]? = some none →
        division.labels[vertex]? = some none ∧ vertex ≠ root := by
  unfold Digraph.divideFrom
  split
  · next fresh =>
      have bound : root < graph.order :=
        valid.size ▸ (Array.getElem?_eq_some_iff.mp (Labels.isFresh_iff.mp fresh)).1
      have gathered :=
        (@Gathering.Valid.start graph _ division.length root fresh).gather valid.size
      refine ⟨valid.extend gathered fun vertex still path =>
        valid.connected_root ordered distinct labelled complete still bound path, ?_⟩
      intro vertex still
      refine ⟨gathered.gained.fresh_before still, ?_⟩
      rintro rfl
      rw [gathered.gained.entry vertex, if_pos gathered.rooted] at still
      cases still
  · next known =>
      refine ⟨valid, fun vertex still => ⟨still, ?_⟩⟩
      rintro rfl
      exact known (Labels.isFresh_iff.mpr still)

theorem foldl_divideFrom (valid : division.Valid graph) {processed remaining : List Nat}
    (ordered : graph.LatestFirst processed remaining) (distinct : remaining.Nodup)
    (labelled : ∀ other ∈ processed, division.labels[other]? ≠ some none)
    (complete : ∀ other : Nat, division.labels[other]? = some none → other ∈ remaining) :
    (remaining.foldl graph.transpose.divideFrom division).Valid graph ∧
      ∀ vertex : Nat,
        (remaining.foldl graph.transpose.divideFrom division).labels[vertex]? ≠ some none := by
  induction remaining generalizing processed division with
  | nil => exact ⟨valid, fun vertex fresh => List.not_mem_nil (complete vertex fresh)⟩
  | cons root rest ih =>
      obtain ⟨later, fewer⟩ := valid.divideFrom ordered distinct labelled complete
      rw [List.foldl_cons]
      cases ordered with
      | cons _ orderedRest =>
          refine ih later orderedRest (List.nodup_cons.mp distinct).2 ?_ ?_
          · intro other member still
            rcases List.mem_cons.mp member with rfl | member
            · exact (fewer other still).2 rfl
            · exact labelled other member (fewer other still).1
          · intro other still
            rcases List.mem_cons.mp (complete other (fewer other still).1) with same | member
            · exact absurd same (fewer other still).2
            · exact member

end Decomposition.Valid

theorem components_valid (graph : Digraph) : graph.components.Valid graph ∧
    ∀ vertex : Nat, graph.components.labels[vertex]? ≠ some none := by
  obtain ⟨listed, ordered⟩ := graph.finished_perm_and_latestFirst
  refine (Decomposition.Valid.start graph).foldl_divideFrom ordered ?_ ?_ ?_
  · exact listed.nodup_iff.mpr List.nodup_range
  · intro other member
    cases member
  · intro other fresh
    have bound := (Array.getElem?_eq_some_iff.mp fresh).1
    simp only [Decomposition.start, Array.size_replicate] at bound
    exact listed.mem_iff.mpr (List.mem_range.mpr bound)

theorem label_componentOf {vertex : Nat} (bound : vertex < graph.order) :
    graph.components.labels[vertex]? = some (some (graph.components.componentOf vertex)) := by
  obtain ⟨valid, exhausted⟩ := graph.components_valid
  rcases valid.fresh_or_labelled bound with fresh | ⟨index, labelled⟩
  · exact absurd fresh (exhausted vertex)
  · simp [Decomposition.componentOf, labelled]

/-- The components that hold a vertex are one, and its index is the vertex's label. -/
theorem mem_component_iff {vertex index : Nat} (bound : vertex < graph.order) :
    (∃ members, graph.components.components[index]? = some members ∧ vertex ∈ members) ↔
      index = graph.components.componentOf vertex := by
  rw [← graph.components_valid.1.labelled, label_componentOf bound]
  simp [eq_comm]

theorem componentOf_lt {vertex : Nat} (bound : vertex < graph.order) :
    graph.components.componentOf vertex < graph.components.length :=
  graph.components_valid.1.lt_length (label_componentOf bound)

/-- The members of a component are the vertices with its index. -/
theorem mem_members_iff {index vertex : Nat} {members : List Nat}
    (listed : graph.components.components[index]? = some members) :
    vertex ∈ members ↔ vertex < graph.order ∧ graph.components.componentOf vertex = index := by
  have valid := graph.components_valid.1
  constructor
  · intro member
    have label := (valid.labelled vertex index).mpr ⟨members, listed, member⟩
    have bound : vertex < graph.order := valid.size ▸ (Array.getElem?_eq_some_iff.mp label).1
    rw [label_componentOf bound] at label
    exact ⟨bound, Option.some.inj (Option.some.inj label)⟩
  · rintro ⟨bound, rfl⟩
    obtain ⟨others, found, member⟩ := (mem_component_iff bound).mpr rfl
    cases listed.symm.trans found
    exact member

/-- No component is empty. -/
theorem exists_componentOf_eq {index : Nat} (bound : index < graph.components.length) :
    ∃ vertex < graph.order, graph.components.componentOf vertex = index := by
  have listed := List.getElem?_eq_getElem bound
  obtain ⟨vertex, member⟩ := List.exists_mem_of_ne_nil _
    (graph.components_valid.1.nonempty _ (List.mem_of_getElem? listed))
  exact ⟨vertex, (mem_members_iff listed).mp member⟩

theorem componentOf_eq_iff_connected {left right : Nat} (leftBound : left < graph.order)
    (rightBound : right < graph.order) :
    graph.components.componentOf left = graph.components.componentOf right ↔
      graph.Connected left right := by
  have valid := graph.components_valid.1
  constructor
  · intro same
    obtain ⟨members, found, member⟩ := (mem_component_iff leftBound).mpr rfl
    obtain ⟨others, foundToo, memberToo⟩ := (mem_component_iff rightBound).mpr rfl
    have one : members = others := Option.some.inj (found.symm.trans (same ▸ foundToo))
    rw [← one] at memberToo
    exact (valid.connected members (List.mem_of_getElem? found) left member right).mp memberToo
  · intro connected
    have label := valid.label_of_connected (label_componentOf leftBound) connected
    rw [label_componentOf rightBound] at label
    exact (Option.some.inj (Option.some.inj label)).symm

theorem componentOf_le_of_edge {source target : Nat} (edge : target ∈ graph.successors source)
    (bound : target < graph.order) :
    graph.components.componentOf source ≤ graph.components.componentOf target := by
  obtain ⟨earlier, lower, label⟩ :=
    graph.components_valid.1.ordered source target _ edge (label_componentOf bound)
  rw [label_componentOf (lt_order_of_mem_successors edge)] at label
  rw [Option.some.inj (Option.some.inj label)]
  exact lower

/-- Written one after another, the components list every vertex once. -/
theorem flatten_components_perm (graph : Digraph) :
    graph.components.components.flatten.Perm (List.range graph.order) := by
  have valid := graph.components_valid.1
  refine (List.perm_ext_iff_of_nodup (List.nodup_flatten.mpr ⟨valid.nodup, ?_⟩)
    List.nodup_range).mpr ?_
  · refine List.pairwise_iff_getElem.mpr ?_
    intro first second firstBound secondBound before vertex member memberToo
    have label := (valid.labelled vertex first).mpr ⟨_, List.getElem?_eq_getElem firstBound, member⟩
    rw [(valid.labelled vertex second).mpr ⟨_, List.getElem?_eq_getElem secondBound, memberToo⟩]
      at label
    cases label
    exact Nat.lt_irrefl _ before
  · intro vertex
    rw [List.mem_flatten, List.mem_range]
    constructor
    · intro gathered
      obtain ⟨members, listed, member⟩ := gathered
      obtain ⟨_, found⟩ := List.mem_iff_getElem?.mp listed
      exact ((mem_members_iff found).mp member).1
    · intro bound
      obtain ⟨members, found, member⟩ := (mem_component_iff bound).mpr rfl
      exact ⟨members, List.mem_of_getElem? found, member⟩

end Clausal.Digraph
