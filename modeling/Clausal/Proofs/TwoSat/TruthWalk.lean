import Clausal.Solver.TwoSat
import Clausal.Proofs.Digraph.Components

/-!
The walk over the components that decides the truth of every vertex. Of a vertex and its opposite the
one that the walk meets first becomes true, and it meets later components first.
-/

set_option autoImplicit false

namespace Clausal

theorem opposite_opposite (vertex : Nat) : opposite (opposite vertex) = vertex := by
  unfold opposite
  split <;> split <;> omega

theorem opposite_ne (vertex : Nat) : opposite vertex ≠ vertex := by
  unfold opposite
  split <;> omega

theorem opposite_lt {vertex count : Nat} (bound : vertex < 2 * count) :
    opposite vertex < 2 * count := by
  unfold opposite
  split <;> omega

theorem eq_opposite_iff {left right : Nat} : left = opposite right ↔ right = opposite left := by
  constructor
  · rintro rfl
    exact (opposite_opposite right).symm
  · rintro rfl
    exact (opposite_opposite left).symm

namespace TwoSat

/-- Whether a vertex is the given one or its opposite. -/
def concerns (vertex other : Nat) : Bool := decide (other = vertex ∨ other = opposite vertex)

theorem concerns_iff {vertex other : Nat} :
    concerns vertex other = true ↔ other = vertex ∨ other = opposite vertex := by
  simp only [concerns, decide_eq_true_eq]

theorem find?_concerns_eq_none_iff {met : List Nat} {vertex : Nat} :
    met.find? (concerns vertex) = none ↔ vertex ∉ met ∧ opposite vertex ∉ met := by
  rw [List.find?_eq_none]
  simp only [concerns_iff]
  constructor
  · intro unrelated
    exact ⟨fun member => unrelated vertex member (.inl rfl),
      fun member => unrelated (opposite vertex) member (.inr rfl)⟩
  · intro absent other member related
    obtain ⟨vertexAbsent, oppositeAbsent⟩ := absent
    rcases related with rfl | rfl
    · exact vertexAbsent member
    · exact oppositeAbsent member

theorem concerns_opposite (vertex : Nat) : concerns (opposite vertex) = concerns vertex := by
  funext other
  simp only [concerns, opposite_opposite, decide_eq_decide]
  exact Or.comm

/-- The truth of a vertex after some vertices have been met: the first of the vertex and its opposite
decides. -/
def truthAfter (met : List Nat) (vertex : Nat) : Truth :=
  match met.find? (concerns vertex) with
  | none => .undefined
  | some first => if first = vertex then .yes else .no

/-- The array of truth values that goes with the vertices met so far. -/
structure Walked (count : Nat) (met : List Nat) (truth : Array Truth) : Prop where
  size : truth.size = 2 * count
  entry : ∀ vertex < 2 * count, truth[vertex]?.getD .undefined = truthAfter met vertex

theorem Walked.getElem? {count : Nat} {met : List Nat} {truth : Array Truth} {vertex : Nat}
    (walked : Walked count met truth) (bound : vertex < 2 * count) :
    truth[vertex]? = some (truthAfter met vertex) := by
  have inside : vertex < truth.size := walked.size ▸ bound
  rw [← walked.entry vertex bound, Array.getElem?_eq_getElem inside]
  rfl

theorem walked_nil (count : Nat) : Walked count [] (Array.replicate (2 * count) .undefined) where
  size := Array.size_replicate
  entry := by
    intro vertex bound
    simp [truthAfter, bound]

theorem truthAfter_concat_of_ne {met : List Nat} {vertex other : Nat} (different : other ≠ vertex)
    (unrelated : other ≠ opposite vertex) :
    truthAfter (met ++ [other]) vertex = truthAfter met vertex := by
  simp [truthAfter, concerns, different, unrelated]

theorem truthAfter_append_of_known {met : List Nat} {vertex : Nat}
    (known : truthAfter met vertex ≠ .undefined) (others : List Nat) :
    truthAfter (met ++ others) vertex = truthAfter met vertex := by
  unfold truthAfter at known ⊢
  rw [List.find?_append]
  split at known
  · exact absurd rfl known
  · next first found => rw [found]; rfl

theorem truthAfter_eq_undefined_iff {met : List Nat} {vertex : Nat} :
    truthAfter met vertex = .undefined ↔ met.find? (concerns vertex) = none := by
  unfold truthAfter
  split
  · next unmet => exact iff_of_true rfl unmet
  · next first found =>
      rw [found]
      split <;> simp

theorem truthAfter_concat_self {met : List Nat} {vertex : Nat}
    (unknown : truthAfter met vertex = .undefined) : truthAfter (met ++ [vertex]) vertex = .yes := by
  rw [truthAfter, List.find?_append, truthAfter_eq_undefined_iff.mp unknown]
  simp [concerns]

theorem truthAfter_opposite (met : List Nat) (vertex : Nat) :
    truthAfter met (opposite vertex) = (truthAfter met vertex).negate := by
  unfold truthAfter
  rw [concerns_opposite]
  split
  · rfl
  · next first found =>
      rcases concerns_iff.mp (List.find?_some found) with rfl | rfl
      · rw [if_neg (opposite_ne first).symm, if_pos rfl]
        rfl
      · rw [if_pos rfl, if_neg (opposite_ne vertex)]
        rfl

namespace Walked

variable {count : Nat} {met : List Nat} {truth : Array Truth} {vertex : Nat}

/-- Meeting one more vertex. -/
theorem decideVertex (walked : Walked count met truth) (bound : vertex < 2 * count) :
    Walked count (met ++ [vertex]) (decideVertex truth vertex) := by
  have oppositeBound := opposite_lt bound
  have unrelated : ∀ other, other ≠ vertex → other ≠ opposite vertex →
      truthAfter (met ++ [vertex]) other = truthAfter met other := fun other different apart =>
    truthAfter_concat_of_ne different.symm fun same => apart (eq_opposite_iff.mp same)
  unfold TwoSat.decideVertex
  split
  · next undecided =>
      rw [walked.entry vertex bound] at undecided
      refine ⟨by simp [walked.size], fun other otherBound => ?_⟩
      by_cases same : other = vertex
      · subst other
        rw [Array.getElem?_setIfInBounds_ne (opposite_ne vertex), truthAfter_concat_self undecided]
        simp [walked.size, bound]
      · by_cases opposed : other = opposite vertex
        · subst other
          rw [truthAfter_opposite, truthAfter_concat_self undecided]
          simp [walked.size, oppositeBound, Truth.negate]
        · rw [Array.getElem?_setIfInBounds_ne (Ne.symm opposed),
            Array.getElem?_setIfInBounds_ne (Ne.symm same), unrelated other same opposed]
          exact walked.entry other otherBound
  · next decided =>
      rw [walked.entry vertex bound] at decided
      refine ⟨walked.size, fun other otherBound => ?_⟩
      rw [walked.entry other otherBound]
      by_cases same : other = vertex
      · subst other
        exact (truthAfter_append_of_known decided [vertex]).symm
      · by_cases opposed : other = opposite vertex
        · subst other
          rw [truthAfter_opposite, truthAfter_opposite, truthAfter_append_of_known decided [vertex]]
        · exact (unrelated other same opposed).symm

theorem foldl_decideVertex (walked : Walked count met truth) {vertices : List Nat}
    (bounds : ∀ vertex ∈ vertices, vertex < 2 * count) :
    Walked count (met ++ vertices) (vertices.foldl TwoSat.decideVertex truth) := by
  induction vertices generalizing met truth with
  | nil => simpa using walked
  | cons vertex rest ih =>
      have later := ih (walked.decideVertex (bounds vertex List.mem_cons_self))
        fun other member => bounds other (List.mem_cons_of_mem _ member)
      simpa using later

end Walked

/-- The vertices in the order in which the walk meets them. -/
def meetingOrder (decomposition : Digraph.Decomposition) : List Nat :=
  decomposition.components.reverse.flatten

/-- The truth of every vertex at a stage of the walk, when the components from an index on are walked. -/
def partialWalk (order : Nat) (decomposition : Digraph.Decomposition) (index : Nat) : Array Truth :=
  (decomposition.components.drop index).reverse.foldl
    (fun truth members => members.foldl decideVertex truth)
    (Array.replicate order .undefined)

/-- The vertices met at that stage. -/
def metFrom (decomposition : Digraph.Decomposition) (index : Nat) : List Nat :=
  (decomposition.components.drop index).reverse.flatten

theorem partialWalk_eq_foldl (order : Nat) (decomposition : Digraph.Decomposition) (index : Nat) :
    partialWalk order decomposition index =
      (metFrom decomposition index).foldl decideVertex (Array.replicate order .undefined) := by
  rw [partialWalk, metFrom, List.foldl_flatten]

theorem truthWalk_eq_partialWalk (order : Nat) (decomposition : Digraph.Decomposition) :
    truthWalk order decomposition = partialWalk order decomposition 0 := rfl

theorem metFrom_append (decomposition : Digraph.Decomposition) (index : Nat) :
    metFrom decomposition index ++ (decomposition.components.take index).reverse.flatten =
      meetingOrder decomposition := by
  rw [metFrom, meetingOrder, ← List.flatten_append, ← List.reverse_append, List.take_append_drop]

variable {graph : Digraph}

theorem mem_metFrom_iff {index vertex : Nat} :
    vertex ∈ metFrom graph.components index ↔
      vertex < graph.order ∧ index ≤ graph.components.componentOf vertex := by
  rw [metFrom, List.mem_flatten]
  simp only [List.mem_reverse]
  constructor
  · intro met
    obtain ⟨members, dropped, member⟩ := met
    obtain ⟨offset, found⟩ := List.mem_iff_getElem?.mp dropped
    rw [List.getElem?_drop] at found
    obtain ⟨bound, same⟩ := (Digraph.mem_members_iff found).mp member
    exact ⟨bound, by omega⟩
  · intro late
    obtain ⟨bound, after⟩ := late
    obtain ⟨members, found, member⟩ := (Digraph.mem_component_iff bound).mpr rfl
    let offset := graph.components.componentOf vertex - index
    refine ⟨members, List.mem_iff_getElem?.mpr ⟨offset, ?_⟩, member⟩
    rw [List.getElem?_drop, Nat.add_sub_cancel' after]
    exact found

theorem mem_meetingOrder_iff {vertex : Nat} :
    vertex ∈ meetingOrder graph.components ↔ vertex < graph.order := by
  rw [← List.mem_range, ← graph.flatten_components_perm.mem_iff, meetingOrder]
  simp only [List.mem_flatten, List.mem_reverse]

theorem meetingOrder_pairwise : (meetingOrder graph.components).Pairwise fun earlier later =>
    graph.components.componentOf later ≤ graph.components.componentOf earlier := by
  have index : ∀ position members vertex, graph.components.components[position]? = some members →
      vertex ∈ members → graph.components.componentOf vertex = position :=
    fun _ _ _ found member => ((Digraph.mem_members_iff found).mp member).2
  rw [meetingOrder, List.pairwise_flatten, List.pairwise_reverse]
  constructor
  · intro members listed
    obtain ⟨position, found⟩ := List.mem_iff_getElem?.mp (List.mem_reverse.mp listed)
    refine List.pairwise_of_forall_mem_list fun earlier member later memberToo => ?_
    exact Nat.le_of_eq ((index position members later found memberToo).trans
      (index position members earlier found member).symm)
  · refine List.pairwise_iff_getElem.mpr fun low high lowBound highBound before => ?_
    intro earlier member later memberToo
    rw [index high _ earlier (List.getElem?_eq_getElem highBound) member,
      index low _ later (List.getElem?_eq_getElem lowBound) memberToo]
    exact Nat.le_of_lt before

/-- Of a vertex and its opposite, the walk meets the one in the later component first. -/
theorem componentOf_le_first {vertex first other : Nat}
    (found : (meetingOrder graph.components).find? (concerns vertex) = some first)
    (related : concerns vertex other = true) (bound : other < graph.order) :
    graph.components.componentOf other ≤ graph.components.componentOf first := by
  obtain ⟨_, before, after, split, unconcerned⟩ := List.find?_eq_some_iff_append.mp found
  have ordered := @meetingOrder_pairwise graph
  have member := mem_meetingOrder_iff.mpr bound
  rw [split] at ordered member
  rcases List.mem_append.mp member with early | late
  · simpa [related] using unconcerned other early
  · rcases List.mem_cons.mp late with rfl | later
    · exact Nat.le_refl _
    · exact (List.pairwise_cons.mp (List.pairwise_append.mp ordered).2.1).1 other later

/-- The truth of every vertex after some steps of the walk goes with the vertices met by then. -/
theorem walked_before {count : Nat} (order_eq : graph.order = 2 * count) {before after : List Nat}
    (split : meetingOrder graph.components = before ++ after) :
    Walked count before (before.foldl decideVertex (Array.replicate graph.order .undefined)) := by
  rw [order_eq]
  exact (walked_nil count).foldl_decideVertex fun _ member =>
    order_eq ▸ mem_meetingOrder_iff.mp (split ▸ List.mem_append_left after member)

section Decided

variable {count : Nat} (order_eq : graph.order = 2 * count)
  (apart : ∀ vertex < graph.order,
    graph.components.componentOf vertex ≠ graph.components.componentOf (opposite vertex))

include order_eq apart

theorem truthAfter_meetingOrder {vertex : Nat} (bound : vertex < graph.order) :
    truthAfter (meetingOrder graph.components) vertex =
      if graph.components.componentOf (opposite vertex) < graph.components.componentOf vertex
      then .yes else .no := by
  have oppositeBound : opposite vertex < graph.order := order_eq ▸ opposite_lt (order_eq ▸ bound)
  rw [truthAfter]
  split
  · next unmet =>
      have missing := List.find?_eq_none.mp unmet vertex (mem_meetingOrder_iff.mpr bound)
      simp [concerns] at missing
  · next first found =>
      have different := apart vertex bound
      rcases concerns_iff.mp (List.find?_some found) with rfl | rfl
      · have lower := componentOf_le_first found (concerns_iff.mpr (.inr rfl)) oppositeBound
        rw [if_pos rfl, if_pos (by omega)]
      · have lower := componentOf_le_first found (concerns_iff.mpr (.inl rfl)) bound
        rw [if_neg (opposite_ne vertex), if_neg (by omega)]

/-- What a stage of the walk has decided is what the whole walk decides, and it has decided the vertices
that it has met or whose opposites it has met. -/
theorem partialWalk_getElem? (index : Nat) {vertex : Nat} (bound : vertex < graph.order) :
    (partialWalk graph.order graph.components index)[vertex]? = some (
      if graph.components.componentOf vertex < index ∧
          graph.components.componentOf (opposite vertex) < index
      then .undefined
      else .ofBool (graph.components.componentOf (opposite vertex) <
        graph.components.componentOf vertex)) := by
  have oppositeBound : opposite vertex < graph.order := order_eq ▸ opposite_lt (order_eq ▸ bound)
  have walked : Walked count (metFrom graph.components index)
      (partialWalk graph.order graph.components index) := by
    rw [partialWalk_eq_foldl]
    exact walked_before order_eq (metFrom_append graph.components index).symm
  rw [walked.getElem? (order_eq ▸ bound)]
  have whole := truthAfter_meetingOrder order_eq apart bound
  have unmet : truthAfter (metFrom graph.components index) vertex = .undefined ↔
      graph.components.componentOf vertex < index ∧
        graph.components.componentOf (opposite vertex) < index := by
    rw [truthAfter_eq_undefined_iff, find?_concerns_eq_none_iff]
    simp only [mem_metFrom_iff, bound, oppositeBound, true_and, Nat.not_le]
  split
  · next early => rw [unmet.mpr early]
  · next late =>
      rw [← metFrom_append graph.components index,
        truthAfter_append_of_known fun unknown => late (unmet.mp unknown)] at whole
      rw [whole]
      simp [Truth.ofBool]

/-- Where no vertex shares a component with its opposite, the one in the later component is true. -/
theorem truthWalk_getElem? {vertex : Nat} (bound : vertex < graph.order) :
    (truthWalk graph.order graph.components)[vertex]? =
      some (.ofBool (graph.components.componentOf (opposite vertex) <
        graph.components.componentOf vertex)) := by
  rw [truthWalk_eq_partialWalk, partialWalk_getElem? order_eq apart 0 bound, if_neg]
  exact fun early => Nat.not_lt_zero _ early.1

end Decided

end TwoSat

end Clausal
