import Clausal.Config
import Clausal.Proofs.Datum.Equality
import Clausal.Proofs.Datum.Merging
import Clausal.Proofs.Files
import Mathlib.Data.List.Induction

/-!
Saving a configuration and loading it again. What is loaded is merged over the defaults, so defaults that the
configuration had lost come back.
-/

set_option autoImplicit false

namespace Clausal.Config

/-- A change to a configuration. -/
inductive Edit where
  | set (key : String) (value : Datum)
  | update (entries : List (String × Datum))

/-- What a change brings in. -/
def Edit.value : Edit → Datum
  | .set _ value => value
  | .update entries => .map entries

/-- The configuration after a change; a change that fails changes nothing but what was set before the fault. -/
def edited (config : Config) : Edit → Config
  | .set key value => (config.set key value).1
  | .update entries => (config.update (.map entries)).toOption.getD config

def afterEdits (edits : List Edit) : Config := edits.foldl edited default

/-- Every section of the defaults is still a section. -/
def HoldsSections (config : Config) : Prop :=
  ∀ path, Datum.HasMap path default.tree → Datum.HasMap path config.tree

/-- After some of the changes a scalar stood in the place of the section, or of one above it. -/
def Replaced (edits : List Edit) (path : List String) : Prop :=
  ∃ earlier, earlier <+: edits ∧ Datum.CutOff path (afterEdits earlier).tree

variable {config : Config} {edits : List Edit} {edit : Edit} {files saved : Files} {path reading : String}

theorem afterEdits_concat (edits : List Edit) (edit : Edit) :
    afterEdits (edits ++ [edit]) = edited (afterEdits edits) edit :=
  List.foldl_append

theorem isSettings_default : Datum.IsSettings default.tree := by
  refine .cons (by decide) (.cons (by decide) (.scalar trivial) (.cons (by decide) ?walk .empty))
    (.cons (by decide) ?logging (.cons (by decide) ?output .empty))
  case walk => exact .cons (by decide) (.scalar trivial) (.cons (by decide) (.scalar trivial) .empty)
  case logging =>
    exact .cons (by decide) (.scalar trivial) <|
      .cons (by decide) (.scalar trivial) (.cons (by decide) (.scalar trivial) .empty)
  case output => exact .cons (by decide) (.scalar trivial) .empty

/-- The defaults have a handful of sections. -/
theorem holdsSections_iff :
    config.HoldsSections ↔ ∀ path ∈ Datum.mapPaths default.tree, Datum.HasMap path config.tree := by
  refine ⟨fun holds path member => holds path ?_, fun holds path map => holds path ?_⟩
  · revert path
    decide +kernel
  · exact isSettings_default.mem_mapPaths map

theorem tree_set (config : Config) (key : String) (value : Datum) :
    (config.set key value).1.tree = (config.tree.set key value).tree := by
  obtain ⟨changed, same⟩ := Datum.exists_setAt_map value (Datum.steps key) config.entries
  have setting : (config.tree.set key value).tree = .map changed := same
  rw [setting, tree, set, setting]
  rfl

/-- Settings can always be merged over a configuration of settings. -/
theorem update_of_isSettings (settings : config.tree.IsSettings) {entries : List (String × Datum)}
    (newSettings : Datum.IsSettings (.map entries)) :
    config.update (.map entries) = .ok ⟨(Datum.mergeEntries config.entries entries).result⟩ :=
  if_pos (newSettings.complete settings)

theorem isSettings_edited (settings : config.tree.IsSettings) (valueSettings : edit.value.IsSettings) :
    (edited config edit).tree.IsSettings ∧ config.tree.Retains (edited config edit).tree := by
  cases edit with
  | set key value =>
      rw [edited, tree_set]
      exact settings.setAt valueSettings _
  | update entries =>
      rw [edited, update_of_isSettings settings valueSettings]
      have old : ∀ before ∈ some config.tree, before.IsSettings := fun _ same => Option.some.inj same ▸ settings
      exact ⟨(valueSettings.merge old).2, valueSettings.retains_merge settings⟩

theorem isSettings_afterEdits (settings : ∀ edit ∈ edits, edit.value.IsSettings) :
    (afterEdits edits).tree.IsSettings := by
  induction edits using List.reverseRecOn with
  | nil => exact isSettings_default
  | append_singleton edits edit ih =>
      obtain ⟨before, last⟩ := List.forall_mem_append.mp settings
      rw [afterEdits_concat]
      exact (isSettings_edited (ih before) (last edit List.mem_cons_self)).1

theorem Replaced.concat {steps : List String} (replaced : Replaced edits steps) (edit : Edit) :
    Replaced (edits ++ [edit]) steps := by
  obtain ⟨earlier, isEarlier, cutOff⟩ := replaced
  exact ⟨earlier, isEarlier.trans (List.prefix_append _ _), cutOff⟩

/-- A key of the defaults can only get lost with its section. -/
theorem has_afterEdits (settings : ∀ edit ∈ edits, edit.value.IsSettings) {steps : List String}
    {step : String} (known : Datum.Has (steps ++ [step]) default.tree) :
    Datum.Has (steps ++ [step]) (afterEdits edits).tree ∨ Replaced edits steps := by
  induction edits using List.reverseRecOn with
  | nil => exact .inl known
  | append_singleton edits edit ih =>
      obtain ⟨before, last⟩ := List.forall_mem_append.mp settings
      have beforeSettings := isSettings_afterEdits before
      obtain ⟨after, retains⟩ := isSettings_edited beforeSettings (last edit List.mem_cons_self)
      rw [← afterEdits_concat] at after retains
      rcases ih before with stood | replaced
      · exact (retains.has_or_cutOff beforeSettings after stood).imp_right fun cutOff =>
          ⟨_, List.prefix_refl _, cutOff⟩
      · exact .inr (replaced.concat edit)

/-- A section of the defaults that was always held, with those above it, was never replaced. -/
theorem not_replaced (held : ∀ earlier, earlier <+: edits → (afterEdits earlier).HoldsSections)
    {steps : List String} {step : String} (known : Datum.Has (steps ++ [step]) default.tree) :
    ¬ Replaced edits steps := by
  intro replaced
  obtain ⟨earlier, isEarlier, cutOff⟩ := replaced
  obtain ⟨above, isAbove, noMap⟩ := cutOff.exists_not_hasMap
  have knownSection := isSettings_default.hasMap_of_has known
  exact noMap (held earlier isEarlier above (isSettings_default.hasMap_above knownSection isAbove))

/-- A saved configuration is read back and merged over the defaults. -/
theorem load_of_save (settings : config.tree.IsSettings) (written : config.save files path = .ok saved)
    (readable : Yaml.read config.document = .ok config.tree)
    (leads : saved.find reading = saved.find (files.absolute path)) :
    ∃ reloaded, load saved reading = .ok reloaded ∧
      reloaded.tree = (Datum.merge (some default.tree) config.tree).result := by
  obtain ⟨prepared, _, written⟩ := bind_eq_ok written
  have standing := leads.trans (Files.find_save written)
  have present : saved.contains reading = true := by rw [Files.contains, standing]; rfl
  have read : saved.read reading = .ok (Text.Utf8.encode config.document) := by rw [Files.read, standing]
  refine ⟨⟨(Datum.mergeEntries default.entries config.entries).result⟩, ?_, rfl⟩
  rw [load, present, read]
  simp only [Text.Utf8.decode_encode, treeOfDocument, readable]
  exact update_of_isSettings isSettings_default settings

/-- A configuration that was changed by settings and saved can be loaded again, and gives the saved tree merged
over the defaults. It is itself again exactly if its maps keep the keys that the defaults have there; and they do
if no section was ever replaced. Only a section that was replaced, by itself or with one above it, can have lost
keys of the defaults, and these come back as they stand there. -/
theorem reloads_same_iff (settings : ∀ edit ∈ edits, edit.value.IsSettings)
    (written : (afterEdits edits).save files path = .ok saved)
    (readable : Yaml.read (afterEdits edits).document = .ok (afterEdits edits).tree)
    (leads : saved.find reading = saved.find (files.absolute path)) :
    ∃ reloaded, load saved reading = .ok reloaded ∧
      reloaded.tree = (Datum.merge (some default.tree) (afterEdits edits).tree).result ∧
      (reloaded.tree.Same (afterEdits edits).tree ↔
        Datum.KeepsKeys default.tree (afterEdits edits).tree) ∧
      ((∀ earlier, earlier <+: edits → (afterEdits earlier).HoldsSections) →
        reloaded.tree.Same (afterEdits edits).tree) ∧
      ∀ steps step, Datum.Has (steps ++ [step]) default.tree →
        Datum.HasMap steps (afterEdits edits).tree →
        ¬ Datum.Has (steps ++ [step]) (afterEdits edits).tree →
          Replaced edits steps ∧
            Datum.node? (steps ++ [step]) reloaded.tree = Datum.node? (steps ++ [step]) default.tree := by
  have editedSettings := isSettings_afterEdits settings
  obtain ⟨reloaded, loaded, merged⟩ := load_of_save editedSettings written readable leads
  have same := Datum.same_merge_iff isSettings_default editedSettings
  rw [← merged] at same
  refine ⟨reloaded, loaded, merged, same, fun held => same.mpr fun steps step known _ => ?_, ?_⟩
  · exact (has_afterEdits settings known).resolve_right (not_replaced held known)
  · intro steps step known map lost
    refine ⟨(has_afterEdits settings known).resolve_left lost, ?_⟩
    rw [merged]
    exact Datum.node?_merge_of_lost isSettings_default editedSettings known map lost

/-- A solver is chosen, and log lines are to be short. -/
def chosenEdits : List Edit :=
  [.set "solver.name" (.text "dpll"), .update [("logging", .map [("format", .text "short")])]]

/-- A section is replaced by a number and built anew. -/
def rebuildingEdits : List Edit := [.set "logging" (.int 5), .set "logging.level" (.text "DEBUG")]

theorem absolute_config : Files.absolute {} "/config.yaml" = "/config.yaml" := by decide +kernel

theorem isSettings_rebuildingEdits : ∀ edit ∈ rebuildingEdits, edit.value.IsSettings :=
  List.forall_mem_cons.mpr ⟨.scalar trivial, List.forall_mem_singleton.mpr (.scalar trivial)⟩

theorem read_rebuilt :
    Yaml.read (afterEdits rebuildingEdits).document = .ok (afterEdits rebuildingEdits).tree :=
  Datum.eq_ok_of_equals (by decide +kernel)

theorem exists_save_rebuilt : ∃ saved, (afterEdits rebuildingEdits).save {} "/config.yaml" = .ok saved :=
  exists_of_isSome_toOption (by decide +kernel)

theorem format_lost : Datum.HasMap ["logging"] (afterEdits rebuildingEdits).tree ∧
    ¬ Datum.Has ["logging", "format"] (afterEdits rebuildingEdits).tree := by
  decide +kernel

theorem reloads_same_iff_chosen :
    (∃ saved reloaded, (afterEdits chosenEdits).save {} "/config.yaml" = .ok saved ∧
      load saved "/config.yaml" = .ok reloaded ∧ reloaded.tree.Same (afterEdits chosenEdits).tree) ∧
    ∃ saved reloaded, (afterEdits rebuildingEdits).save {} "/config.yaml" = .ok saved ∧
      load saved "/config.yaml" = .ok reloaded ∧ Replaced rebuildingEdits ["logging"] ∧
      Datum.node? ["logging", "format"] reloaded.tree = some (.text defaultFormat) := by
  constructor
  · have settings : ∀ edit ∈ chosenEdits, edit.value.IsSettings := by
      refine List.forall_mem_cons.mpr ⟨.scalar trivial, List.forall_mem_singleton.mpr ?_⟩
      exact .cons (by decide) (.cons (by decide) (.scalar trivial) .empty) .empty
    have standing : ∀ earlier, earlier <+: chosenEdits → (afterEdits earlier).HoldsSections := by
      intro earlier isEarlier
      rw [holdsSections_iff]
      rcases List.prefix_cons_iff.mp isEarlier with rfl | ⟨rest, rfl, isRest⟩
      · decide +kernel
      · rcases List.prefix_cons_iff.mp isRest with rfl | ⟨others, rfl, isOthers⟩
        · decide +kernel
        · rw [List.prefix_nil.mp isOthers]
          decide +kernel
    have possible : ((afterEdits chosenEdits).save {} "/config.yaml").toOption.isSome = true := by
      decide +kernel
    have readable : Yaml.read (afterEdits chosenEdits).document = .ok (afterEdits chosenEdits).tree :=
      Datum.eq_ok_of_equals (by decide +kernel)
    obtain ⟨saved, written⟩ := exists_of_isSome_toOption possible
    obtain ⟨reloaded, loaded, _, _, same, _⟩ :=
      reloads_same_iff settings written readable (congrArg saved.find absolute_config.symm)
    exact ⟨saved, reloaded, written, loaded, same standing⟩
  · obtain ⟨saved, written⟩ := exists_save_rebuilt
    obtain ⟨reloaded, loaded, _, _, _, lost⟩ :=
      reloads_same_iff isSettings_rebuildingEdits written read_rebuilt
        (congrArg saved.find absolute_config.symm)
    obtain ⟨replaced, back⟩ := lost ["logging"] "format" (by decide) format_lost.1 format_lost.2
    exact ⟨saved, reloaded, written, loaded, replaced, back⟩

/-- What was lost on the way comes back. -/
theorem not_same_of_rebuilt_section :
    (∀ edit ∈ rebuildingEdits, edit.value.IsSettings) ∧
      Yaml.read (afterEdits rebuildingEdits).document = .ok (afterEdits rebuildingEdits).tree ∧
      ∃ saved reloaded, (afterEdits rebuildingEdits).save {} "/config.yaml" = .ok saved ∧
        load saved "/config.yaml" = .ok reloaded ∧ ¬ reloaded.tree.Same (afterEdits rebuildingEdits).tree := by
  have lost : ¬ Datum.KeepsKeys default.tree (afterEdits rebuildingEdits).tree := fun keeps =>
    format_lost.2 (keeps ["logging"] "format" (by decide) format_lost.1)
  obtain ⟨saved, written⟩ := exists_save_rebuilt
  have editedSettings := isSettings_afterEdits isSettings_rebuildingEdits
  obtain ⟨reloaded, loaded, merged⟩ :=
    load_of_save editedSettings written read_rebuilt (congrArg saved.find absolute_config.symm)
  refine ⟨isSettings_rebuildingEdits, read_rebuilt, saved, reloaded, written, loaded, ?_⟩
  rw [merged, Datum.same_merge_iff isSettings_default editedSettings]
  exact lost

end Clausal.Config
