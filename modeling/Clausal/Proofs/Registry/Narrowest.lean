import Clausal.Proofs.Registry

/-!
What is selected by width: of all complete kinds that accept it, the one with the narrowest limit, and of
several with the same limit the one that stands first.
-/

set_option autoImplicit false

namespace Clausal

/-- A limit is at most another one. To have no limit is the widest of all. -/
def LimitAtMost (left right : Option Quantity) : Prop :=
  Quantity.isAtMost? (limitStanding? left) (limitStanding? right) = true

/-- Every limit but one that is not a number. -/
def Limiting (limit : Option Quantity) : Prop := (limitStanding? limit).isSome = true

theorem denominator_pos_of_limitStanding? {limit : Option Quantity} {standing : Quantity.Standing}
    (found : limitStanding? limit = some standing) : 0 < standing.denominator := by
  cases limit with
  | none =>
      cases found
      exact Nat.one_pos
  | some quantity => exact Quantity.denominator_pos found

namespace LimitAtMost

variable {left right first second third : Option Quantity}

theorem trans (lower : LimitAtMost first second) (upper : LimitAtMost second third) :
    LimitAtMost first third :=
  Quantity.isAtMost?_trans (fun _ => denominator_pos_of_limitStanding?) lower upper

theorem total (leftLimits : Limiting left) (rightLimits : Limiting right) :
    LimitAtMost left right ∨ LimitAtMost right left :=
  Quantity.isAtMost?_total leftLimits rightLimits

theorem refl (limits : Limiting left) : LimitAtMost left left := (total limits limits).elim id id

end LimitAtMost

theorem isNarrower_iff {left right : Option Quantity} :
    isNarrower left right = true ↔ ¬ LimitAtMost right left := by
  rw [isNarrower, LimitAtMost, Bool.not_eq_true', Bool.not_eq_true]

namespace SolverKind

variable {kind : SolverKind} {width wider : Quantity}

theorem limiting_of_accepts (accepted : kind.accepts width = true) : Limiting kind.maxWidth :=
  Quantity.isSome_of_isAtMost? accepted

/-- Who accepts a width accepts smaller ones. -/
theorem accepts_of_le (below : width.le wider = true) (accepted : kind.accepts wider = true) :
    kind.accepts width = true :=
  Quantity.isAtMost?_trans (fun _ => Quantity.denominator_pos) below accepted

end SolverKind

namespace Registry

/-! The first of the narrowest in a list. -/

/-- The candidate is in the list; none has a narrower limit, and none before it has the same. -/
def FirstNarrowest (candidates : List (String × Option Quantity)) (best : String × Option Quantity) : Prop :=
  (∀ candidate ∈ candidates, LimitAtMost best.2 candidate.2) ∧
    ∃ before behind, candidates = before ++ best :: behind ∧
      ∀ candidate ∈ before, ¬ LimitAtMost candidate.2 best.2

namespace FirstNarrowest

variable {candidates : List (String × Option Quantity)} {best candidate : String × Option Quantity}

theorem singleton (limits : Limiting best.2) : FirstNarrowest [best] best :=
  ⟨List.forall_mem_singleton.mpr (.refl limits), [], [], rfl, nofun⟩

/-- One more candidate is compared with the best so far. -/
theorem concat (leads : FirstNarrowest candidates best) (bestLimits : Limiting best.2)
    (limits : Limiting candidate.2) :
    FirstNarrowest (candidates ++ [candidate]) (narrowerOf best candidate) := by
  obtain ⟨narrowest, before, behind, split, first⟩ := leads
  rw [narrowerOf]
  by_cases narrower : isNarrower candidate.2 best.2 = true
  · have below : ¬ LimitAtMost best.2 candidate.2 := isNarrower_iff.mp narrower
    have above : LimitAtMost candidate.2 best.2 := (LimitAtMost.total bestLimits limits).resolve_left below
    rw [if_pos narrower]
    refine ⟨fun other member => ?_, candidates, [], rfl, fun other member reaches => ?_⟩
    · rcases List.mem_append.mp member with old | new
      · exact above.trans (narrowest other old)
      · cases List.mem_singleton.mp new
        exact .refl limits
    · exact below ((narrowest other member).trans reaches)
  · rw [if_neg narrower]
    refine ⟨fun other member => ?_, before, behind ++ [candidate], ?_, first⟩
    · rcases List.mem_append.mp member with old | new
      · exact narrowest other old
      · cases List.mem_singleton.mp new
        exact Classical.not_not.mp (mt isNarrower_iff.mpr narrower)
    · rw [split, List.append_assoc, List.cons_append]

theorem foldl {rest : List (String × Option Quantity)} (leads : FirstNarrowest candidates best)
    (bestLimits : Limiting best.2) (limits : ∀ candidate ∈ rest, Limiting candidate.2) :
    FirstNarrowest (candidates ++ rest) (rest.foldl narrowerOf best) := by
  induction rest generalizing candidates best with
  | nil => rwa [List.append_nil]
  | cons candidate rest ih =>
      obtain ⟨candidateLimits, restLimits⟩ := List.forall_mem_cons.mp limits
      have limitsNext : Limiting (narrowerOf best candidate).2 := by
        rw [narrowerOf]
        split
        · exact candidateLimits
        · exact bestLimits
      rw [List.append_cons]
      exact ih (leads.concat bestLimits candidateLimits) limitsNext restLimits

end FirstNarrowest

/-! Registered kinds. -/

variable {registry : Registry} {width : Quantity} {name : String} {position : Nat} {kind : SolverKind}

def kindNamed? (registry : Registry) (name : String) : Option SolverKind :=
  (registry.position? name).bind registry.kindAt?

/-- A complete kind that accepts the width is registered under the name. -/
structure Suits (registry : Registry) (width : Quantity) (name : String) (kind : SolverKind) : Prop where
  registered : registry.kindNamed? name = some kind
  complete : kind.complete = true
  accepts : kind.accepts width = true

/-- Of all that suit the width, the name stands for the first of those with the narrowest limit. -/
structure Chosen (registry : Registry) (width : Quantity) (name : String) (kind : SolverKind) : Prop
    extends Suits registry width name kind where
  narrowest : ∀ other otherKind, registry.Suits width other otherKind →
    LimitAtMost kind.maxWidth otherKind.maxWidth
  first : ∃ before behind, registry.names = before ++ name :: behind ∧
    ∀ other ∈ before, ∀ otherKind, registry.Suits width other otherKind →
      ¬ LimitAtMost otherKind.maxWidth kind.maxWidth

/-- What an entry contributes to the candidates. -/
def candidate? (registry : Registry) (width : Quantity) (entry : String × Nat) :
    Option (String × Option Quantity) :=
  match registry.kindAt? entry.2 with
  | some kind => if kind.complete && kind.accepts width then some (entry.1, kind.maxWidth) else none
  | none => none

theorem candidates_eq (registry : Registry) (width : Quantity) :
    registry.candidates width = registry.entries.filterMap (registry.candidate? width) := rfl

theorem candidate?_eq_some_iff {entry : String × Nat} {candidate : String × Option Quantity} :
    registry.candidate? width entry = some candidate ↔
      ∃ kind, registry.kindAt? entry.2 = some kind ∧ kind.complete = true ∧ kind.accepts width = true ∧
        candidate = (entry.1, kind.maxWidth) := by
  unfold candidate?
  cases registry.kindAt? entry.2 with
  | none => simp
  | some kind =>
      cases complete : kind.complete with
      | false => simp [complete]
      | true =>
          cases accepts : kind.accepts width with
          | false => simp [complete, accepts]
          | true => simp [complete, accepts, Eq.comm (b := candidate)]

theorem kindNamed?_eq_some_iff : registry.kindNamed? name = some kind ↔
    ∃ position, (name, position) ∈ registry.entries ∧ registry.position? name = some position ∧
      registry.kindAt? position = some kind := by
  rw [kindNamed?, Option.bind_eq_some_iff]
  constructor
  · rintro ⟨position, found, standing⟩
    exact ⟨position, Assoc.mem_of_get?_eq_some found, found, standing⟩
  · rintro ⟨position, _, found, standing⟩
    exact ⟨position, found, standing⟩

namespace Sound

theorem kindNamed?_of_mem (sound : registry.Sound) (member : (name, position) ∈ registry.entries) :
    registry.kindNamed? name = registry.kindAt? position := by
  rw [kindNamed?, position?, Assoc.get?_of_mem sound.distinct member, Option.bind_some]

theorem candidate?_of_suits (sound : registry.Sound) (suits : registry.Suits width name kind)
    (member : (name, position) ∈ registry.entries) :
    registry.candidate? width (name, position) = some (name, kind.maxWidth) := by
  have standing : registry.kindAt? position = some kind :=
    (sound.kindNamed?_of_mem member).symm.trans suits.registered
  exact candidate?_eq_some_iff.mpr ⟨kind, standing, suits.complete, suits.accepts, rfl⟩

theorem suits_of_candidate? (sound : registry.Sound) (member : (name, position) ∈ registry.entries)
    {candidate : String × Option Quantity}
    (found : registry.candidate? width (name, position) = some candidate) :
    ∃ kind, registry.Suits width name kind ∧ candidate = (name, kind.maxWidth) := by
  obtain ⟨kind, standing, complete, accepts, same⟩ := candidate?_eq_some_iff.mp found
  exact ⟨kind, ⟨(sound.kindNamed?_of_mem member).trans standing, complete, accepts⟩, same⟩

theorem mem_candidates_iff (sound : registry.Sound) {candidate : String × Option Quantity} :
    candidate ∈ registry.candidates width ↔
      ∃ name kind, registry.Suits width name kind ∧ candidate = (name, kind.maxWidth) := by
  rw [candidates_eq, List.mem_filterMap]
  constructor
  · rintro ⟨⟨name, position⟩, member, found⟩
    exact ⟨name, sound.suits_of_candidate? member found⟩
  · rintro ⟨name, kind, suits, rfl⟩
    obtain ⟨position, member, _⟩ := kindNamed?_eq_some_iff.mp suits.registered
    exact ⟨(name, position), member, sound.candidate?_of_suits suits member⟩

theorem limiting_of_mem_candidates (sound : registry.Sound) {candidate : String × Option Quantity}
    (member : candidate ∈ registry.candidates width) : Limiting candidate.2 := by
  obtain ⟨name, kind, suits, rfl⟩ := sound.mem_candidates_iff.mp member
  exact SolverKind.limiting_of_accepts suits.accepts

/-- The first of the narrowest candidates is the first of the narrowest among the names. -/
theorem chosen_of_firstNarrowest (sound : registry.Sound) {best : String × Option Quantity}
    (leads : FirstNarrowest (registry.candidates width) best) :
    ∃ kind, registry.Chosen width best.1 kind := by
  -- Where the best one splits the candidates, its entry splits the entries that they come from.
  obtain ⟨narrowest, before, behind, split, first⟩ := leads
  rw [candidates_eq] at split
  obtain ⟨front, rest, entries, beforeEq, restEq⟩ := List.filterMap_eq_append_iff.mp split
  obtain ⟨skipped, ⟨name, position⟩, back, restSplit, skippedNone, found, _⟩ :=
    List.filterMap_eq_cons_iff.mp restEq
  have whole : registry.entries = (front ++ skipped) ++ (name, position) :: back := by
    rw [entries, restSplit, List.append_assoc]
  have member : (name, position) ∈ registry.entries := by simp [whole]
  obtain ⟨kind, suits, rfl⟩ := sound.suits_of_candidate? member found
  refine ⟨kind, suits, fun other otherKind otherSuits => ?_, (front ++ skipped).map Prod.fst,
    back.map Prod.fst, ?_, fun other listed otherKind otherSuits => ?_⟩
  · exact narrowest _ (sound.mem_candidates_iff.mpr ⟨other, otherKind, otherSuits, rfl⟩)
  · rw [names, Assoc.keys, whole, List.map_append, List.map_cons]
  · obtain ⟨⟨other, otherPosition⟩, inFront, rfl⟩ := List.mem_map.mp listed
    have otherMember : (other, otherPosition) ∈ registry.entries :=
      whole ▸ List.mem_append_left _ inFront
    have contributed := sound.candidate?_of_suits otherSuits otherMember
    refine first (other, otherKind.maxWidth) ?_
    rw [← beforeEq]
    rcases List.mem_append.mp inFront with early | late
    · exact List.mem_filterMap.mpr ⟨_, early, contributed⟩
    · cases (skippedNone _ late).symm.trans contributed

end Sound

namespace Chosen

variable {wider other : String} {widerKind otherKind : SolverKind} {later : Quantity}

theorem unique (left : registry.Chosen width name kind) (right : registry.Chosen width other otherKind) :
    name = other := by
  obtain ⟨leftBefore, leftBehind, leftSplit, leftFirst⟩ := left.first
  obtain ⟨rightBefore, rightBehind, rightSplit, rightFirst⟩ := right.first
  -- If one stood before the other, the later one would have to be strictly narrower.
  rcases List.append_eq_append_iff.mp (leftSplit.symm.trans rightSplit) with
    ⟨between, rfl, tails⟩ | ⟨between, rfl, tails⟩
  · cases between with
    | nil => exact (List.cons.inj tails).1
    | cons head rest =>
        obtain ⟨rfl, _⟩ := List.cons.inj tails
        have earlier := rightFirst name (by simp) kind left.toSuits
        exact absurd (left.narrowest other otherKind right.toSuits) earlier
  · cases between with
    | nil => exact (List.cons.inj tails).1.symm
    | cons head rest =>
        obtain ⟨rfl, _⟩ := List.cons.inj tails
        have earlier := leftFirst other (by simp) otherKind right.toSuits
        exact absurd (right.narrowest name kind left.toSuits) earlier

/-- Who is chosen for a larger width suits the smaller one as well, and may be wider than needed there. -/
theorem limitAtMost (below : width.le later = true) (narrow : registry.Chosen width name kind)
    (wide : registry.Chosen later wider widerKind) : LimitAtMost kind.maxWidth widerKind.maxWidth :=
  narrow.narrowest wider widerKind
    ⟨wide.registered, wide.complete, SolverKind.accepts_of_le below wide.accepts⟩

end Chosen

namespace Sound

theorem candidates_eq_nil_iff (sound : registry.Sound) :
    registry.candidates width = [] ↔ ¬ ∃ name kind, registry.Suits width name kind := by
  rw [List.eq_nil_iff_forall_not_mem]
  constructor
  · rintro none ⟨name, kind, suits⟩
    exact none _ (sound.mem_candidates_iff.mpr ⟨name, kind, suits, rfl⟩)
  · intro none candidate member
    obtain ⟨name, kind, suits, _⟩ := sound.mem_candidates_iff.mp member
    exact none ⟨name, kind, suits⟩

theorem select_eq_error_iff (sound : registry.Sound) {fault : UnknownSolver} :
    registry.select width = .error fault ↔
      (¬ ∃ name kind, registry.Suits width name kind) ∧ fault = ⟨automatic, registry.names⟩ := by
  rw [← sound.candidates_eq_nil_iff, select]
  split
  · next none => simp [none, eq_comm]
  · next first rest some => simp [some]

theorem chosen_of_select (sound : registry.Sound) (selected : registry.select width = .ok name) :
    ∃ kind, registry.Chosen width name kind := by
  unfold select at selected
  split at selected
  · cases selected
  · next first rest some =>
      cases selected
      have limits : ∀ candidate ∈ first :: rest, Limiting candidate.2 := fun candidate member =>
        sound.limiting_of_mem_candidates (some ▸ member)
      obtain ⟨firstLimits, restLimits⟩ := List.forall_mem_cons.mp limits
      have leads := (FirstNarrowest.singleton firstLimits).foldl firstLimits restLimits
      exact sound.chosen_of_firstNarrowest (some.symm ▸ leads)

theorem select_eq_ok_iff (sound : registry.Sound) :
    registry.select width = .ok name ↔ ∃ kind, registry.Chosen width name kind := by
  refine ⟨sound.chosen_of_select, fun ⟨kind, chosen⟩ => ?_⟩
  cases selected : registry.select width with
  | error fault => exact absurd ⟨name, kind, chosen.toSuits⟩ (sound.select_eq_error_iff.mp selected).1
  | ok other =>
      obtain ⟨otherKind, otherChosen⟩ := sound.chosen_of_select selected
      rw [chosen.unique otherChosen]

theorem exists_of_select (sound : registry.Sound) (selected : registry.select width = .ok name) :
    ∃ position kind, registry.find name = .ok position ∧ registry.kindAt? position = some kind ∧
      kind.complete = true ∧ kind.accepts width = true := by
  obtain ⟨kind, chosen⟩ := sound.chosen_of_select selected
  obtain ⟨position, _, found, standing⟩ := kindNamed?_eq_some_iff.mp chosen.registered
  exact ⟨position, kind, find_eq_ok_iff.mpr found, standing, chosen.complete, chosen.accepts⟩

end Sound

end Registry

end Clausal
