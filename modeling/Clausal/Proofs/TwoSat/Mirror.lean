import Clausal.Proofs.ImplicationGraph.Clauses
import Clausal.Proofs.TwoSat.Decision
import Mathlib.Data.ZMod.Basic

/-!
The components of an implication graph mirror one another. Every edge has its contraposition, hence every
path has, and the opposites of a component's vertices are a component again. Where no component is its own
mirror, the components pair off, and the truth walk decides the two of a pair against each other.
-/

set_option autoImplicit false

namespace Clausal

theorem opposite_injective : Function.Injective opposite :=
  Function.LeftInverse.injective opposite_opposite

/-- The numbers below the length cancel in pairs when each counts as one modulo two. -/
theorem even_of_involution {length : Nat} (image : Nat → Nat)
    (inside : ∀ index < length, image index < length)
    (involutive : ∀ index < length, image (image index) = index)
    (moved : ∀ index < length, image index ≠ index) : Even length := by
  have bound : ∀ {index}, index ∈ Finset.range length → index < length := Finset.mem_range.mp
  have cancelled : ∑ _index ∈ Finset.range length, (1 : ZMod 2) = 0 := by
    refine Finset.sum_involution (fun index _ => image index) ?_ ?_ ?_ ?_
    · intro _ _
      decide
    · intro index member _
      exact moved index (bound member)
    · intro index member
      exact Finset.mem_range.mpr (inside index (bound member))
    · intro index member
      exact involutive index (bound member)
  rw [Finset.sum_const, Finset.card_range, nsmul_one] at cancelled
  exact ZMod.natCast_eq_zero_iff_even.mp cancelled

namespace Digraph

/-- The vertices come in opposite pairs, and every edge has its contraposition. -/
structure Skew (graph : Digraph) : Prop where
  paired : ∃ count, graph.order = 2 * count
  contrapositive : ∀ source target, target ∈ graph.successors source →
    opposite source ∈ graph.successors (opposite target)

/-- The index of the component that holds the opposite of a component's first vertex. -/
def Decomposition.mirror (decomposition : Decomposition) (index : Nat) : Nat :=
  match decomposition.components[index]? with
  | some (first :: _) => decomposition.componentOf (opposite first)
  | _ => index

theorem Decomposition.lt_length_of_getElem? {decomposition : Decomposition} {index : Nat}
    {members : List Nat} (listed : decomposition.components[index]? = some members) :
    index < decomposition.length :=
  (List.getElem?_eq_some_iff.mp listed).1

variable {graph : Digraph}

namespace Skew

theorem opposite_lt_order (skew : graph.Skew) {vertex : Nat} (bound : vertex < graph.order) :
    opposite vertex < graph.order := by
  obtain ⟨count, order⟩ := skew.paired
  rw [order] at bound ⊢
  exact opposite_lt bound

theorem reaches_opposite (skew : graph.Skew) {source target : Nat}
    (path : graph.Reaches source target) : graph.Reaches (opposite target) (opposite source) := by
  induction path with
  | refl => exact .refl
  | step edge _ ih => exact ih.trans (.edge (skew.contrapositive _ _ edge))

theorem connected_opposite (skew : graph.Skew) {left right : Nat}
    (connected : graph.Connected left right) : graph.Connected (opposite left) (opposite right) :=
  ⟨skew.reaches_opposite connected.2, skew.reaches_opposite connected.1⟩

theorem connected_opposite_iff (skew : graph.Skew) {left right : Nat} :
    graph.Connected left right ↔ graph.Connected (opposite left) (opposite right) := by
  refine ⟨skew.connected_opposite, fun connected => ?_⟩
  have back := skew.connected_opposite connected
  rwa [opposite_opposite, opposite_opposite] at back

theorem componentOf_opposite_eq_iff (skew : graph.Skew) {left right : Nat}
    (leftBound : left < graph.order) (rightBound : right < graph.order) :
    graph.components.componentOf left = graph.components.componentOf right ↔
      graph.components.componentOf (opposite left) =
        graph.components.componentOf (opposite right) := by
  rw [componentOf_eq_iff_connected leftBound rightBound,
    componentOf_eq_iff_connected (skew.opposite_lt_order leftBound)
      (skew.opposite_lt_order rightBound)]
  exact skew.connected_opposite_iff

/-- Whichever vertex of a component is asked, its opposite lies in the mirror. -/
theorem mirror_componentOf (skew : graph.Skew) {vertex : Nat} (bound : vertex < graph.order) :
    graph.components.mirror (graph.components.componentOf vertex) =
      graph.components.componentOf (opposite vertex) := by
  obtain ⟨members, listed, member⟩ := (mem_component_iff bound).mpr rfl
  cases members with
  | nil => cases member
  | cons first rest =>
      obtain ⟨firstBound, same⟩ := (mem_members_iff listed).mp List.mem_cons_self
      rw [Decomposition.mirror, listed]
      exact (skew.componentOf_opposite_eq_iff firstBound bound).mp same

variable {index : Nat}

theorem mirror_lt (skew : graph.Skew) (bound : index < graph.components.length) :
    graph.components.mirror index < graph.components.length := by
  obtain ⟨vertex, inside, rfl⟩ := exists_componentOf_eq bound
  rw [skew.mirror_componentOf inside]
  exact componentOf_lt (skew.opposite_lt_order inside)

theorem mirror_mirror (skew : graph.Skew) (bound : index < graph.components.length) :
    graph.components.mirror (graph.components.mirror index) = index := by
  obtain ⟨vertex, inside, rfl⟩ := exists_componentOf_eq bound
  rw [skew.mirror_componentOf inside, skew.mirror_componentOf (skew.opposite_lt_order inside),
    opposite_opposite]

theorem mem_mirror_iff (skew : graph.Skew) {members others : List Nat}
    (listed : graph.components.components[index]? = some members)
    (facing : graph.components.components[graph.components.mirror index]? = some others)
    {vertex : Nat} : vertex ∈ others ↔ opposite vertex ∈ members := by
  have bound := Decomposition.lt_length_of_getElem? listed
  rw [mem_members_iff facing, mem_members_iff listed]
  constructor
  · intro found
    obtain ⟨inside, same⟩ := found
    refine ⟨skew.opposite_lt_order inside, ?_⟩
    rw [← skew.mirror_componentOf inside, same, skew.mirror_mirror bound]
  · intro found
    obtain ⟨inside, same⟩ := found
    have back := skew.opposite_lt_order inside
    have across := skew.mirror_componentOf inside
    rw [opposite_opposite] at back across
    exact ⟨back, by rw [← across, same]⟩

theorem perm_map_opposite (skew : graph.Skew) {members others : List Nat}
    (listed : graph.components.components[index]? = some members)
    (facing : graph.components.components[graph.components.mirror index]? = some others) :
    others.Perm (members.map opposite) := by
  have nodup := graph.components_valid.1.nodup
  refine (List.perm_ext_iff_of_nodup (nodup others (List.mem_of_getElem? facing))
    ((nodup members (List.mem_of_getElem? listed)).map opposite_injective)).mpr ?_
  intro vertex
  rw [skew.mem_mirror_iff listed facing, List.mem_map]
  constructor
  · intro member
    exact ⟨opposite vertex, member, opposite_opposite vertex⟩
  · intro image
    obtain ⟨other, member, rfl⟩ := image
    rwa [opposite_opposite]

section Apart

variable (skew : graph.Skew)
  (apart : ∀ vertex < graph.order,
    graph.components.componentOf vertex ≠ graph.components.componentOf (opposite vertex))

include skew apart

theorem mirror_ne (bound : index < graph.components.length) :
    graph.components.mirror index ≠ index := by
  obtain ⟨vertex, inside, rfl⟩ := exists_componentOf_eq bound
  rw [skew.mirror_componentOf inside]
  exact (apart vertex inside).symm

theorem disjoint_mirror {members others : List Nat}
    (listed : graph.components.components[index]? = some members)
    (facing : graph.components.components[graph.components.mirror index]? = some others) :
    members.Disjoint others := by
  intro vertex member memberToo
  have here := ((mem_members_iff listed).mp member).2
  have there := ((mem_members_iff facing).mp memberToo).2
  have bound := Decomposition.lt_length_of_getElem? listed
  exact skew.mirror_ne apart bound (there.symm.trans here)

theorem even_length : Even graph.components.length :=
  even_of_involution graph.components.mirror (fun _ => skew.mirror_lt) (fun _ => skew.mirror_mirror)
    fun _ => skew.mirror_ne apart

end Apart

end Skew

end Digraph

theorem ImplicationGraph.Represents.skew {formula : Formula} {graph : ImplicationGraph}
    (represents : graph.Represents formula.clauses) : graph.digraph.Skew where
  paired := ⟨graph.atoms.length, represents.wellFormed.order_eq⟩
  contrapositive := by
    -- Every vertex is that of a literal, and the clauses imply what they imply contrapositively.
    intro source target edge
    have wellFormed := represents.wellFormed
    obtain ⟨left, leftFound⟩ := wellFormed.exists_vertex? (Digraph.lt_order_of_mem_successors edge)
    obtain ⟨right, rightFound⟩ := wellFormed.exists_vertex? (wellFormed.inside source target edge)
    have implies := (represents.successor_iff_implies leftFound rightFound).mp edge
    exact (represents.successor_iff_implies (wellFormed.vertex?_negate rightFound)
      (wellFormed.vertex?_negate leftFound)).mpr implies.contrapositive

namespace TwoSat

/-- Two components, each the opposites of the other's vertices, that are decided against each other. -/
structure MirrorImages (truth : Array Truth) (members others : List Nat) : Prop where
  opposites : others.Perm (members.map opposite)
  disjoint : members.Disjoint others
  decided : ∃ value : Bool, (∀ vertex ∈ members, truth[vertex]? = some (.ofBool value)) ∧
    ∀ vertex ∈ others, truth[vertex]? = some (.ofBool !value)

section Walk

variable {graph : Digraph} (skew : graph.Skew)
  (apart : ∀ vertex < graph.order,
    graph.components.componentOf vertex ≠ graph.components.componentOf (opposite vertex))

include skew apart

/-- At every stage of the walk a component is undecided or decided as a whole. -/
theorem partialWalk_of_mem (stage : Nat) {index vertex : Nat} {members : List Nat}
    (listed : graph.components.components[index]? = some members) (member : vertex ∈ members) :
    (partialWalk graph.order graph.components stage)[vertex]? = some (
      if index < stage ∧ graph.components.mirror index < stage then .undefined
      else .ofBool (graph.components.mirror index < index)) := by
  obtain ⟨bound, rfl⟩ := (Digraph.mem_members_iff listed).mp member
  obtain ⟨_, order_eq⟩ := skew.paired
  rw [skew.mirror_componentOf bound]
  exact partialWalk_getElem? order_eq apart stage bound

/-- A component is true exactly when it comes after its mirror. -/
theorem truthWalk_of_mem {index vertex : Nat} {members : List Nat}
    (listed : graph.components.components[index]? = some members) (member : vertex ∈ members) :
    (truthWalk graph.order graph.components)[vertex]? =
      some (.ofBool (graph.components.mirror index < index)) := by
  rw [truthWalk_eq_partialWalk, partialWalk_of_mem skew apart 0 listed member, if_neg]
  exact fun early => Nat.not_lt_zero index early.1

theorem mirrorImages {index : Nat} {members others : List Nat}
    (listed : graph.components.components[index]? = some members)
    (facing : graph.components.components[graph.components.mirror index]? = some others) :
    MirrorImages (truthWalk graph.order graph.components) members others := by
  have bound := Digraph.Decomposition.lt_length_of_getElem? listed
  have different := skew.mirror_ne apart bound
  refine ⟨skew.perm_map_opposite listed facing, skew.disjoint_mirror apart listed facing,
    decide (graph.components.mirror index < index),
    fun vertex member => truthWalk_of_mem skew apart listed member, ?_⟩
  intro vertex member
  -- The mirror's mirror is the component itself, so the comparison turns round.
  rw [truthWalk_of_mem skew apart facing member, skew.mirror_mirror bound, ← decide_not]
  exact congrArg (some ∘ Truth.ofBool) (decide_eq_decide.mpr (by omega))

end Walk

variable {formula : Formula} {graph : ImplicationGraph}

theorem contradictions_eq_nil_of_satisfiable (represents : graph.Represents formula.clauses)
    (satisfiable : formula.Satisfiable) : graph.contradictions graph.digraph.components = [] := by
  refine List.eq_nil_iff_forall_not_mem.mpr fun index member => ?_
  have inside := ((ImplicationGraph.mem_contradictions represents.wellFormed).mp member).1
  have conflicting :=
    (mem_contradictions_iff_conflicting represents (List.getElem?_eq_getElem inside)).mp member
  exact Formula.not_satisfiable_of_conflicting conflicting satisfiable

/-- In the implication graph of a formula of narrow clauses, vertices share a component exactly when their
opposites do. Without contradictions the components pair off into mirror images; no stage of the walk splits
a component, and in the end a component has one truth value and its mirror has the other. -/
theorem components_pair_off (formula : Formula)
    (narrow : ∀ clause ∈ formula.clauses, 0 < clause.size ∧ clause.size ≤ 2) :
    ∃ graph, ImplicationGraph.ofFormula formula = .ok graph ∧
      let decomposition := graph.digraph.components
      let truth := truthWalk graph.order decomposition
      (∀ left < graph.order, ∀ right < graph.order,
        decomposition.componentOf left = decomposition.componentOf right ↔
          decomposition.componentOf (opposite left) = decomposition.componentOf (opposite right)) ∧
      (graph.contradictions decomposition = [] →
        Even decomposition.length ∧
        (∀ index members, decomposition.components[index]? = some members →
          decomposition.mirror index ≠ index ∧
            decomposition.mirror (decomposition.mirror index) = index ∧
            (∀ stage, ∃ value, ∀ vertex ∈ members,
              (partialWalk graph.order decomposition stage)[vertex]? = some value) ∧
            ∃ others, decomposition.components[decomposition.mirror index]? = some others ∧
              MirrorImages truth members others) ∧
        (∀ limit, validate limit formula = .ok () →
          solve limit formula = .ok (.satisfied ⟨graph.order, graph.size, decomposition.length⟩
            (environmentOf graph truth))) ∧
        ∀ literal vertex, graph.vertex? literal = some vertex →
          truth[vertex]? = some ((environmentOf graph truth).eval literal)) := by
  obtain ⟨graph, built⟩ := (ImplicationGraph.exists_ofFormula_iff formula).mpr narrow
  have represents := ImplicationGraph.ofFormula_represents built
  have wellFormed := represents.wellFormed
  have skew := represents.skew
  refine ⟨graph, built, fun left leftBound right rightBound =>
    skew.componentOf_opposite_eq_iff leftBound rightBound, fun consistent => ?_⟩
  have apart : Apart graph := apart_of_no_contradictions wellFormed fun index member =>
    List.not_mem_nil (consistent ▸ member)
  refine ⟨skew.even_length apart, ?_, ?_, ?_⟩
  · intro index members listed
    have bound := Digraph.Decomposition.lt_length_of_getElem? listed
    have facing := List.getElem?_eq_getElem (skew.mirror_lt bound)
    exact ⟨skew.mirror_ne apart bound, skew.mirror_mirror bound,
      fun stage => ⟨_, fun _ member => partialWalk_of_mem skew apart stage listed member⟩,
      _, facing, mirrorImages skew apart listed facing⟩
  · intro limit accepted
    rw [solve_of_built built accepted, decideGraph, consistent]
    rfl
  · intro literal vertex found
    have walked := truthWalk_getElem? wellFormed.order_eq apart (wellFormed.vertex?_lt found)
    exact walked.trans (congrArg some (eval_walkedEnvironment wellFormed apart found).symm)

/-- Exactly one of two variables, which leaves no contradiction. -/
theorem components_pair_off_exclusive :
    let x : Variable := ⟨"x"⟩
    let y : Variable := ⟨"y"⟩
    let formula : Formula :=
      ⟨[⟨[⟨x, true⟩, ⟨y, true⟩], by decide⟩, ⟨[⟨x, false⟩, ⟨y, false⟩], by decide⟩]⟩
    (∀ clause ∈ formula.clauses, 0 < clause.size ∧ clause.size ≤ 2) ∧
      ∃ graph, ImplicationGraph.ofFormula formula = .ok graph ∧
        graph.contradictions graph.digraph.components = [] ∧ Even graph.digraph.components.length ∧
        ∃ members ∈ graph.digraph.components.components,
          vertexAt 0 true ∈ members ∧ ∃ others ∈ graph.digraph.components.components,
            vertexAt 0 false ∈ others ∧
              MirrorImages (truthWalk graph.order graph.digraph.components) members others := by
  intro x y formula
  have narrow : ∀ clause ∈ formula.clauses, 0 < clause.size ∧ clause.size ≤ 2 := by decide
  have satisfiable : formula.Satisfiable := ⟨fun atom => atom == x, by decide⟩
  obtain ⟨graph, built, _, pairing⟩ := components_pair_off formula narrow
  have represents := ImplicationGraph.ofFormula_represents built
  have consistent := contradictions_eq_nil_of_satisfiable represents satisfiable
  obtain ⟨even, mirrored, _⟩ := pairing consistent
  have bound : vertexAt 0 true < graph.order := by
    rw [represents.wellFormed.order_eq, represents.atoms_eq]
    decide
  obtain ⟨members, listed, member⟩ := (Digraph.mem_component_iff bound).mpr rfl
  obtain ⟨_, _, _, others, facing, images⟩ := mirrored _ members listed
  refine ⟨narrow, graph, built, consistent, even, members, List.mem_of_getElem? listed, member,
    others, List.mem_of_getElem? facing, ?_, images⟩
  exact images.opposites.mem_iff.mpr (List.mem_map_of_mem member)

end TwoSat

end Clausal
