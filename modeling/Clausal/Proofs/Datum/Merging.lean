import Clausal.Datum.Tree
import Clausal.Proofs.Assoc

/-!
Merging trees of settings. What is merged wins, and what it does not mention stays. So a tree merged over
another one is itself again exactly if it has all keys of the other one wherever both have a map.
-/

set_option autoImplicit false

namespace Clausal.Datum

/-- Neither a map nor a list. -/
def IsScalar : Datum → Prop
  | .map _ => False
  | .list _ => False
  | _ => True

/-- A tree of scalars and maps. No map has a key twice. -/
inductive IsSettings : Datum → Prop where
  | scalar {value : Datum} : value.IsScalar → IsSettings value
  | map {entries : List (String × Datum)} : (Assoc.keys entries).Nodup →
      (∀ key value, Assoc.get? key entries = some value → IsSettings value) → IsSettings (.map entries)

/-- The same scalars stand under the same keys. The order of the keys does not matter. -/
inductive Same : Datum → Datum → Prop where
  | scalar {value : Datum} : value.IsScalar → Same value value
  | map {first second : List (String × Datum)} :
      (∀ key, Assoc.get? key first = none ↔ Assoc.get? key second = none) →
      (∀ key left right, Assoc.get? key first = some left → Assoc.get? key second = some right →
        Same left right) →
      Same (.map first) (.map second)

def Has (path : List String) (tree : Datum) : Prop := (node? path tree).isSome = true

def HasMap (path : List String) (tree : Datum) : Prop := ∃ entries, node? path tree = some (.map entries)

/-- Every map that stands where the defaults have one has all their keys. -/
def KeepsKeys (defaults tree : Datum) : Prop :=
  ∀ path step, Has (path ++ [step]) defaults → HasMap path tree → Has (path ++ [step]) tree

/-- What stood in the tree before still has a node after as long as only maps stand above it. -/
def Retains (before after : Datum) : Prop :=
  ∀ path, Has path before → (∀ above, above <+: path → above ≠ path → HasMap above after) → Has path after

/-- A scalar stands in the place of the section at the path, or of one above it. -/
def CutOff (path : List String) (tree : Datum) : Prop :=
  ∃ above value, above <+: path ∧ value.IsScalar ∧ node? above tree = some value

variable {value tree defaults before after : Datum} {old : Option Datum}
  {entries oldEntries first second : List (String × Datum)} {key step : String} {path rest : List String}

instance (path : List String) (tree : Datum) : Decidable (Has path tree) :=
  inferInstanceAs (Decidable (_ = true))

instance (path : List String) (tree : Datum) : Decidable (HasMap path tree) :=
  match found : node? path tree with
  | some (.map entries) => isTrue ⟨entries, found⟩
  | some .null | some (.bool _) | some (.int _) | some (.real _) | some (.text _) | some (.list _)
  | some (.foreign _) | none => isFalse fun ⟨_, same⟩ => nomatch found.symm.trans same

/-! Nodes. -/

theorem node?_cons_of_scalar (scalar : value.IsScalar) : node? (step :: rest) value = none := by
  cases value with
  | map entries => exact scalar.elim
  | list items => exact scalar.elim
  | _ => rfl

theorem has_cons_map :
    Has (step :: rest) (.map entries) ↔ ∃ value, Assoc.get? step entries = some value ∧ Has rest value := by
  unfold Has
  rw [node?]
  cases Assoc.get? step entries <;> simp

theorem hasMap_cons_map :
    HasMap (step :: rest) (.map entries) ↔
      ∃ value, Assoc.get? step entries = some value ∧ HasMap rest value := by
  unfold HasMap
  rw [node?]
  cases Assoc.get? step entries <;> simp

theorem not_has_cons_of_scalar (scalar : value.IsScalar) : ¬ Has (step :: rest) value := by
  rw [Has, node?_cons_of_scalar scalar]
  exact Bool.false_ne_true

theorem not_hasMap_of_scalar (scalar : value.IsScalar) : ¬ HasMap path value := by
  rintro ⟨entries, found⟩
  cases path with
  | nil =>
      cases found
      exact scalar
  | cons step rest =>
      rw [node?_cons_of_scalar scalar] at found
      cases found

/-- Only maps have something below them. -/
theorem IsSettings.hasMap_of_has (settings : IsSettings tree) (found : Has (path ++ step :: rest) tree) :
    HasMap path tree := by
  induction path generalizing tree with
  | nil =>
      cases settings with
      | scalar scalar => exact (not_has_cons_of_scalar scalar found).elim
      | map distinct values => exact ⟨_, rfl⟩
  | cons first path ih =>
      cases settings with
      | scalar scalar => exact (not_has_cons_of_scalar scalar found).elim
      | map distinct values =>
          obtain ⟨value, here, below⟩ := has_cons_map.mp found
          exact hasMap_cons_map.mpr ⟨value, here, ih (values _ _ here) below⟩

theorem HasMap.has (map : HasMap path tree) : Has path tree := by
  obtain ⟨entries, found⟩ := map
  rw [Has, found]
  rfl

theorem IsSettings.hasMap_above (settings : IsSettings tree) (map : HasMap path tree) {above : List String}
    (isAbove : above <+: path) : HasMap above tree := by
  obtain ⟨below, rfl⟩ := isAbove
  cases below with
  | nil => rwa [List.append_nil] at map
  | cons next rest => exact settings.hasMap_of_has map.has

/-- What stands in a tree of settings is a map or a scalar. -/
theorem IsSettings.hasMap_or_cutOff (settings : IsSettings tree) (found : Has path tree) :
    HasMap path tree ∨ CutOff path tree := by
  induction path generalizing tree with
  | nil =>
      cases settings with
      | scalar scalar => exact .inr ⟨[], _, List.prefix_refl [], scalar, rfl⟩
      | map distinct values => exact .inl ⟨_, rfl⟩
  | cons first path ih =>
      cases settings with
      | scalar scalar => exact (not_has_cons_of_scalar scalar found).elim
      | map distinct values =>
          obtain ⟨value, here, below⟩ := has_cons_map.mp found
          rcases ih (values _ _ here) below with map | ⟨above, scalar, isAbove, isScalar, stands⟩
          · exact .inl (hasMap_cons_map.mpr ⟨value, here, map⟩)
          · refine .inr ⟨first :: above, scalar, List.cons_prefix_cons.mpr ⟨rfl, isAbove⟩, isScalar, ?_⟩
            rw [node?, here]
            exact stands

theorem CutOff.below (cutOff : CutOff path tree) (step : String) : CutOff (path ++ [step]) tree := by
  obtain ⟨above, value, isAbove, scalar, stands⟩ := cutOff
  exact ⟨above, value, isAbove.trans (List.prefix_append path [step]), scalar, stands⟩

/-- No section is cut off where all sections down to it are maps. -/
theorem CutOff.exists_not_hasMap (cutOff : CutOff path tree) :
    ∃ above, above <+: path ∧ ¬ HasMap above tree := by
  obtain ⟨above, value, isAbove, scalar, stands⟩ := cutOff
  refine ⟨above, isAbove, fun map => ?_⟩
  obtain ⟨entries, standing⟩ := map
  cases stands.symm.trans standing
  exact scalar

mutual

/-- Where the maps of a tree are. -/
def mapPaths : Datum → List (List String)
  | .map entries => [] :: mapPathsBelow entries
  | _ => []

def mapPathsBelow : List (String × Datum) → List (List String)
  | [] => []
  | (key, value) :: rest => (mapPaths value).map (key :: ·) ++ mapPathsBelow rest

end

theorem mem_mapPathsBelow (member : (key, value) ∈ entries) (below : path ∈ mapPaths value) :
    key :: path ∈ mapPathsBelow entries := by
  induction entries with
  | nil => cases member
  | cons entry rest ih =>
      rw [mapPathsBelow, List.mem_append]
      rcases List.mem_cons.mp member with rfl | later
      · exact .inl (List.mem_map_of_mem below)
      · exact .inr (ih later)

theorem IsSettings.mem_mapPaths (settings : IsSettings tree) (map : HasMap path tree) :
    path ∈ mapPaths tree := by
  induction path generalizing tree with
  | nil =>
      obtain ⟨entries, same⟩ := map
      cases same
      exact List.mem_cons_self
  | cons step rest ih =>
      cases settings with
      | scalar scalar => exact (not_hasMap_of_scalar scalar map).elim
      | map distinct values =>
          obtain ⟨value, stands, below⟩ := hasMap_cons_map.mp map
          exact List.mem_cons_of_mem _ <|
            mem_mapPathsBelow (Assoc.mem_of_get?_eq_some stands) (ih (values _ _ stands) below)

/-! What merging makes. -/

theorem merge_of_scalar (old : Option Datum) (scalar : value.IsScalar) : merge old value = ⟨value, true⟩ := by
  cases value with
  | map entries => exact scalar.elim
  | list items => exact scalar.elim
  | _ => rfl

theorem merge_none (value : Datum) : merge none value = ⟨value, true⟩ := by
  cases value <;> rfl

theorem merge_over_scalar (scalar : before.IsScalar) (value : Datum) :
    merge (some before) value = ⟨value, true⟩ := by
  cases before with
  | map entries => exact scalar.elim
  | list items => exact scalar.elim
  | _ => cases value <;> rfl

theorem IsSettings.insert (settings : IsSettings (.map entries)) (key : String)
    (valueSettings : IsSettings value) : IsSettings (.map (Assoc.insert key value entries)) := by
  cases settings with
  | scalar scalar => exact scalar.elim
  | map distinct values =>
      refine .map (Assoc.nodup_keys_insert distinct) fun other found standing => ?_
      rw [Assoc.get?_insert] at standing
      split at standing
      · cases standing
        exact valueSettings
      · exact values other found standing

theorem IsSettings.empty : IsSettings (.map []) :=
  .map List.nodup_nil fun _ _ standing => nomatch standing

theorem IsSettings.cons (fresh : key ∉ Assoc.keys entries) (first : IsSettings value)
    (others : IsSettings (.map entries)) : IsSettings (.map ((key, value) :: entries)) := by
  cases others with
  | scalar scalar => exact scalar.elim
  | map distinct values =>
      refine .map (List.nodup_cons.mpr ⟨fresh, distinct⟩) fun other found standing => ?_
      rw [Assoc.get?] at standing
      split at standing
      · cases standing
        exact first
      · exact values other found standing

theorem IsSettings.under (settings : IsSettings (.map entries)) (key : String) :
    ∀ value ∈ Assoc.get? key entries, IsSettings value := by
  intro value standing
  cases settings with
  | scalar scalar => exact scalar.elim
  | map distinct values => exact values key value standing

theorem mergeEntries_isSettings (settings : IsSettings (.map oldEntries))
    (each : ∀ entry ∈ entries, ∀ old : Option Datum, (∀ value ∈ old, IsSettings value) →
      (merge old entry.2).complete = true ∧ IsSettings (merge old entry.2).result) :
    (mergeEntries oldEntries entries).complete = true ∧
      IsSettings (.map (mergeEntries oldEntries entries).result) := by
  induction entries generalizing oldEntries with
  | nil => exact ⟨rfl, settings⟩
  | cons entry rest ih =>
      obtain ⟨key, value⟩ := entry
      obtain ⟨complete, merged⟩ := each _ List.mem_cons_self _ (settings.under key)
      rw [mergeEntries, if_pos complete]
      exact ih (settings.insert key merged) fun entry member => each entry (List.mem_cons_of_mem _ member)

/-- Settings can always be merged, and give settings. -/
theorem IsSettings.merge (settings : IsSettings value) (oldSettings : ∀ before ∈ old, IsSettings before) :
    (merge old value).complete = true ∧ IsSettings (merge old value).result := by
  induction settings generalizing old with
  | scalar scalar =>
      rw [merge_of_scalar old scalar]
      exact ⟨rfl, .scalar scalar⟩
  | @map entries distinct values ih =>
      cases old with
      | none =>
          rw [merge_none]
          exact ⟨rfl, .map distinct values⟩
      | some before =>
          have beforeSettings := oldSettings before rfl
          cases beforeSettings with
          | scalar scalar =>
              rw [merge_over_scalar scalar]
              exact ⟨rfl, .map distinct values⟩
          | map oldDistinct oldValues =>
              refine mergeEntries_isSettings (.map oldDistinct oldValues) fun entry member old settings => ?_
              exact ih _ _ (Assoc.get?_of_mem distinct member) settings

theorem get?_mergeEntries_of_complete (distinct : (Assoc.keys entries).Nodup)
    (complete : (mergeEntries oldEntries entries).complete = true) (key : String) :
    Assoc.get? key (mergeEntries oldEntries entries).result =
      (Assoc.get? key entries).elim (Assoc.get? key oldEntries) fun value =>
        some (merge (Assoc.get? key oldEntries) value).result := by
  induction entries generalizing oldEntries with
  | nil => rfl
  | cons entry rest ih =>
      obtain ⟨given, value⟩ := entry
      obtain ⟨fresh, distinctRest⟩ := List.nodup_cons.mp distinct
      rw [mergeEntries] at complete ⊢
      split at complete
      · next done =>
          rw [if_pos done, ih distinctRest complete, Assoc.get?_insert, Assoc.get?]
          split
          · next same =>
              subst same
              rw [Assoc.get?_eq_none_iff.mpr fresh]
              rfl
          · rfl
      · cases complete

theorem IsSettings.distinct (settings : IsSettings (.map entries)) : (Assoc.keys entries).Nodup := by
  cases settings with
  | scalar scalar => exact scalar.elim
  | map distinct values => exact distinct

theorem IsSettings.complete (settings : IsSettings (.map entries))
    (oldSettings : IsSettings (.map oldEntries)) : (mergeEntries oldEntries entries).complete = true := by
  have both : ∀ before ∈ some (Datum.map oldEntries), IsSettings before := fun _ same =>
    Option.some.inj same ▸ oldSettings
  exact (settings.merge both).1

/-- Under a key stands what was merged there, or else what stood there before. -/
theorem IsSettings.get?_mergeEntries (settings : IsSettings (.map entries))
    (oldSettings : IsSettings (.map oldEntries)) (key : String) :
    Assoc.get? key (mergeEntries oldEntries entries).result =
      (Assoc.get? key entries).elim (Assoc.get? key oldEntries) fun value =>
        some (Datum.merge (Assoc.get? key oldEntries) value).result :=
  get?_mergeEntries_of_complete settings.distinct (settings.complete oldSettings) key

/-! Merging over defaults. -/

theorem IsSettings.same (settings : IsSettings tree) : Same tree tree := by
  induction settings with
  | scalar scalar => exact .scalar scalar
  | map distinct values ih =>
      refine .map (fun key => Iff.rfl) fun key left right first second => ?_
      cases Option.some.inj (first.symm.trans second)
      exact ih key left first

theorem same_map_iff :
    Same (.map first) (.map second) ↔
      (∀ key, Assoc.get? key first = none ↔ Assoc.get? key second = none) ∧
        ∀ key left right, Assoc.get? key first = some left → Assoc.get? key second = some right →
          Same left right := by
  refine ⟨fun same => ?_, fun both => .map both.1 both.2⟩
  cases same with
  | scalar scalar => exact scalar.elim
  | map keys values => exact ⟨keys, values⟩

theorem keepsKeys_map_iff :
    KeepsKeys (.map oldEntries) (.map entries) ↔
      (∀ key, Assoc.get? key entries = none → Assoc.get? key oldEntries = none) ∧
        ∀ key before value, Assoc.get? key oldEntries = some before →
          Assoc.get? key entries = some value → KeepsKeys before value := by
  constructor
  · intro keeps
    refine ⟨fun key missing => ?_, fun key before value stood stands path step found map => ?_⟩
    · cases stood : Assoc.get? key oldEntries with
      | none => rfl
      | some before =>
          obtain ⟨value, stands, _⟩ := has_cons_map.mp <|
            keeps [] key (has_cons_map.mpr ⟨before, stood, rfl⟩) ⟨entries, rfl⟩
          cases missing.symm.trans stands
    · obtain ⟨found, here, has⟩ := has_cons_map.mp <|
        keeps (key :: path) step (has_cons_map.mpr ⟨before, stood, found⟩)
          (hasMap_cons_map.mpr ⟨value, stands, map⟩)
      cases Option.some.inj (stands.symm.trans here)
      exact has
  · rintro ⟨known, deeper⟩ path step found map
    cases path with
    | nil =>
        obtain ⟨before, stood, _⟩ := has_cons_map.mp found
        cases stands : Assoc.get? step entries with
        | none => cases (known step stands).symm.trans stood
        | some value => exact has_cons_map.mpr ⟨value, stands, rfl⟩
    | cons key path =>
        obtain ⟨before, stood, foundBelow⟩ := has_cons_map.mp found
        obtain ⟨value, stands, mapBelow⟩ := hasMap_cons_map.mp map
        exact has_cons_map.mpr ⟨value, stands, deeper key before value stood stands path step foundBelow mapBelow⟩

/-- Merged over defaults, a tree gives itself exactly if it keeps their keys. -/
theorem same_merge_iff (defaultsSettings : IsSettings defaults) (settings : IsSettings tree) :
    Same (merge (some defaults) tree).result tree ↔ KeepsKeys defaults tree := by
  induction settings generalizing defaults with
  | scalar scalar =>
      rw [merge_of_scalar _ scalar]
      exact iff_of_true (.scalar scalar) fun path step _ map => (not_hasMap_of_scalar scalar map).elim
  | @map entries distinct values ih =>
      have settings : IsSettings (.map entries) := .map distinct values
      cases defaultsSettings with
      | scalar scalar =>
          rw [merge_over_scalar scalar]
          refine iff_of_true settings.same fun path step found _ => ?_
          have map := (IsSettings.scalar scalar).hasMap_of_has found
          exact (not_hasMap_of_scalar scalar map).elim
      | @map oldEntries oldDistinct oldValues =>
          have merged := settings.get?_mergeEntries (.map oldDistinct oldValues)
          rw [keepsKeys_map_iff]
          refine same_map_iff.trans (and_congr (forall_congr' fun key => ?_) ?_)
          · rw [merged]
            cases Assoc.get? key entries <;> simp
          · refine forall_congr' fun key => ?_
            rw [merged]
            cases stands : Assoc.get? key entries with
            | none => simp
            | some value =>
                cases stood : Assoc.get? key oldEntries with
                | none => simpa [merge_none] using (values key value stands).same
                | some before => simpa using ih key value stands (oldValues key before stood)

/-- A key that the tree has lost from one of its maps comes back as it stands in the defaults. -/
theorem node?_merge_of_lost (defaultsSettings : IsSettings defaults) (settings : IsSettings tree)
    (known : Has (path ++ [step]) defaults) (map : HasMap path tree) (lost : ¬ Has (path ++ [step]) tree) :
    node? (path ++ [step]) (merge (some defaults) tree).result = node? (path ++ [step]) defaults := by
  induction path generalizing defaults tree with
  | nil =>
      obtain ⟨entries, same⟩ := map
      cases same
      cases defaultsSettings with
      | scalar scalar => exact (not_has_cons_of_scalar scalar known).elim
      | @map oldEntries oldDistinct oldValues =>
          have missing : Assoc.get? step entries = none :=
            Option.eq_none_iff_forall_not_mem.mpr fun value stands =>
              lost (has_cons_map.mpr ⟨value, stands, rfl⟩)
          change (Assoc.get? step (mergeEntries oldEntries entries).result).bind _ = _
          rw [settings.get?_mergeEntries (.map oldDistinct oldValues), missing]
          rfl
  | cons first path ih =>
      cases settings with
      | scalar scalar => exact (not_hasMap_of_scalar scalar map).elim
      | @map entries distinct values =>
          obtain ⟨value, stands, mapBelow⟩ := hasMap_cons_map.mp map
          cases defaultsSettings with
          | scalar scalar => exact (not_has_cons_of_scalar scalar known).elim
          | @map oldEntries oldDistinct oldValues =>
              obtain ⟨before, stood, knownBelow⟩ := has_cons_map.mp known
              have lostBelow : ¬ Has (path ++ [step]) value := fun has =>
                lost (has_cons_map.mpr ⟨value, stands, has⟩)
              have below := ih (oldValues first before stood) (values first value stands) knownBelow
                mapBelow lostBelow
              change (Assoc.get? first (mergeEntries oldEntries entries).result).bind _ =
                (Assoc.get? first oldEntries).bind _
              rw [(IsSettings.map distinct values).get?_mergeEntries (.map oldDistinct oldValues), stands, stood]
              exact below

/-! What merging and setting retain. -/

theorem Retains.refl (tree : Datum) : Retains tree tree := fun _ found _ => found

theorem Retains.of_scalar (scalar : before.IsScalar) (after : Datum) : Retains before after := by
  intro path found _
  cases path with
  | nil => rfl
  | cons step rest => exact (not_has_cons_of_scalar scalar found).elim

theorem Retains.by_scalar (before : Datum) (scalar : after.IsScalar) : Retains before after := by
  intro path _ above
  cases path with
  | nil => rfl
  | cons step rest =>
      exact (not_hasMap_of_scalar scalar (above [] List.nil_prefix (List.cons_ne_nil _ _).symm)).elim

/-- A key of a section stays as long as its section stays, or else a scalar cuts it off. -/
theorem Retains.has_of_above (retains : Retains before after) (settings : IsSettings after)
    (found : Has (path ++ [step]) before) (standing : Has path after ∨ CutOff path after) :
    Has (path ++ [step]) after ∨ CutOff path after := by
  refine (standing.elim settings.hasMap_or_cutOff .inr).imp_left fun map => ?_
  refine retains (path ++ [step]) found fun above isAbove different => ?_
  exact settings.hasMap_above map ((List.prefix_concat_iff.mp isAbove).resolve_left different)

theorem Retains.has_or_cutOff (retains : Retains before after) (beforeSettings : IsSettings before)
    (settings : IsSettings after) (found : Has (path ++ [step]) before) :
    Has (path ++ [step]) after ∨ CutOff path after := by
  induction path using List.reverseRecOn generalizing step with
  | nil => exact retains.has_of_above settings found (.inl rfl)
  | append_singleton path last ih =>
      have above : Has (path ++ [last]) before := (beforeSettings.hasMap_of_has found).has
      exact retains.has_of_above settings found ((ih above).imp_right fun cutOff => cutOff.below last)

theorem Retains.map (each : ∀ key before, Assoc.get? key first = some before →
      ∃ after, Assoc.get? key second = some after ∧ Retains before after) :
    Retains (.map first) (.map second) := by
  intro path found above
  cases path with
  | nil => rfl
  | cons key rest =>
      obtain ⟨before, stood, below⟩ := has_cons_map.mp found
      obtain ⟨after, stands, retains⟩ := each key before stood
      refine has_cons_map.mpr ⟨after, stands, retains rest below fun passed isAbove different => ?_⟩
      obtain ⟨found, here, map⟩ := hasMap_cons_map.mp <|
        above (key :: passed) (List.cons_prefix_cons.mpr ⟨rfl, isAbove⟩) (by simpa using different)
      cases Option.some.inj (stands.symm.trans here)
      exact map

theorem Retains.insert {new : Datum}
    (here : ∀ before, Assoc.get? key entries = some before → Retains before new) :
    Retains (.map entries) (.map (Assoc.insert key new entries)) := by
  refine .map fun other before stood => ?_
  rw [Assoc.get?_insert]
  split
  · next same => exact ⟨new, rfl, here before (same ▸ stood)⟩
  · exact ⟨before, stood, .refl before⟩

theorem IsSettings.retains_merge (settings : IsSettings value) (beforeSettings : IsSettings before) :
    Retains before (Datum.merge (some before) value).result := by
  induction settings generalizing before with
  | scalar scalar =>
      rw [merge_of_scalar _ scalar]
      exact .by_scalar before scalar
  | @map entries distinct values ih =>
      cases beforeSettings with
      | scalar scalar => exact .of_scalar scalar _
      | map oldDistinct oldValues =>
          refine .map fun key before stood => ?_
          rw [(IsSettings.map distinct values).get?_mergeEntries (.map oldDistinct oldValues), stood]
          cases stands : Assoc.get? key entries with
          | none => exact ⟨before, rfl, .refl before⟩
          | some value => exact ⟨_, rfl, ih key value stands (oldValues key before stood)⟩

/-! Setting a node. -/

/-- Setting something in a map leaves a map. -/
theorem exists_setAt_map (value : Datum) (path : List String) (entries : List (String × Datum)) :
    ∃ changed, (setAt value path (.map entries)).tree = .map changed := by
  match path with
  | [] => exact ⟨entries, rfl⟩
  | [step] => exact ⟨_, rfl⟩
  | step :: next :: rest => exact ⟨_, rfl⟩

theorem exists_container (settings : ∀ before ∈ old, IsSettings before) :
    ∃ entries, container old = .map entries ∧ IsSettings (.map entries) ∧
      ∀ before ∈ old, before.IsScalar ∨ before = .map entries := by
  cases old with
  | none => exact ⟨[], rfl, .empty, fun before same => nomatch same⟩
  | some before =>
      have beforeSettings := settings before rfl
      cases before with
      | map entries => exact ⟨entries, rfl, beforeSettings, fun _ same => .inr (Option.some.inj same).symm⟩
      | list items => cases beforeSettings with
        | scalar scalar => exact scalar.elim
      | _ => exact ⟨[], rfl, .empty, fun _ same => .inl (Option.some.inj same ▸ trivial)⟩

/-- Setting a node keeps settings settings, and retains what is not replaced. -/
theorem IsSettings.setAt (settings : IsSettings (.map entries)) (valueSettings : IsSettings value)
    (path : List String) :
    IsSettings (Datum.setAt value path (.map entries)).tree ∧
      Retains (.map entries) (Datum.setAt value path (.map entries)).tree := by
  induction path generalizing entries with
  | nil => exact ⟨settings, .refl _⟩
  | cons step rest ih =>
      have values := settings.under step
      cases rest with
      | nil =>
          refine ⟨settings.insert step (valueSettings.merge values).2, .insert fun before stood => ?_⟩
          have retained := valueSettings.retains_merge (values before stood)
          rwa [← stood] at retained
      | cons next rest =>
          obtain ⟨inner, contained, innerSettings, stoodBefore⟩ := exists_container values
          obtain ⟨changed, retained⟩ := ih innerSettings
          rw [← contained] at changed
          refine ⟨settings.insert step changed, .insert fun before stood => ?_⟩
          rcases stoodBefore before stood with scalar | rfl
          · exact .of_scalar scalar _
          · change Retains (.map inner) (Datum.setAt value (next :: rest) (container (Assoc.get? step entries))).tree
            rwa [contained]

end Clausal.Datum
