import Clausal.Proofs.Files

/-!
Files that stand. Nothing but writing in its own place changes what a file holds, and no file is ever taken
away.
-/

set_option autoImplicit false

namespace Clausal.Files

/-- A path leads to a file that may be written, and that has the given content. -/
structure Stands (files : Files) (path : String) (parts : List String) (content : List UInt8) : Prop where
  writable : files.writable path = .ok parts
  standing : files.node? parts = some (.file content)

/-- Paths are still read from the same directory, and what was a file is one. -/
structure Continues (before after : Files) : Prop where
  here : after.here = before.here
  standing : ∀ parts content, before.node? parts = some (.file content) →
    ∃ content, after.node? parts = some (.file content)

variable {files before between after : Files} {target parts : List String} {path text : String}
  {content : List UInt8}

theorem node?_set_of_file (standing : files.node? parts = some (.file content)) (target : List String)
    (node : Node) :
    (files.set target node).node? parts = if target = parts then some node else some (.file content) := by
  unfold node? at standing ⊢
  split at standing
  · cases standing
  · next below =>
      refine (if_neg below).trans ?_
      rw [set, Assoc.get?_insert, standing]

namespace Continues

theorem refl (files : Files) : Continues files files := ⟨rfl, fun _ content standing => ⟨content, standing⟩⟩

theorem trans (first : Continues before between) (second : Continues between after) : Continues before after where
  here := second.here.trans first.here
  standing parts content standing :=
    have ⟨content, standing⟩ := first.standing parts content standing
    second.standing parts content standing

theorem setFile (files : Files) (target : List String) (content : List UInt8) :
    Continues files (files.set target (.file content)) where
  here := rfl
  standing parts old standing := by
    rw [node?_set_of_file standing]
    split
    · exact ⟨content, rfl⟩
    · exact ⟨old, rfl⟩

theorem setDirectory (vacant : files.node? target = none) : Continues files (files.set target .directory) where
  here := rfl
  standing parts content standing := by
    have apart : target ≠ parts := fun same => nomatch (same ▸ vacant).symm.trans standing
    exact ⟨content, by rw [node?_set_of_file standing, if_neg apart]⟩

end Continues

theorem eq_of_makeDirectory (made : files.makeDirectory path = .ok after) :
    ∃ parts, files.node? parts = none ∧ after = files.set parts .directory := by
  unfold makeDirectory at made
  split at made
  · cases made
  · next parts _ =>
      split at made
      · cases made
      · next vacant =>
          cases made
          exact ⟨parts, vacant, rfl⟩

/-- Making directories only puts directories where nothing stands. -/
theorem makeDirectoriesWithin_induction {motive : Files → Prop} (start : motive files)
    (step : ∀ files parts, motive files → files.node? parts = none → motive (files.set parts .directory))
    {levels : Nat} (made : files.makeDirectoriesWithin path levels = .ok after) : motive after := by
  induction levels generalizing path after with
  | zero =>
      cases made
      exact start
  | succ levels ih =>
      unfold makeDirectoriesWithin at made
      split at made
      dsimp only at made
      split at made
      · cases made
      · next prepared prior =>
          have ready : motive prepared := by
            split at prior
            · cases prior
              exact start
            · split at prior
              · cases prior
                exact start
              · exact ih prior
          split at made
          · cases made
            exact ready
          · split at made
            · next last =>
                cases made
                obtain ⟨parts, vacant, rfl⟩ := eq_of_makeDirectory last
                exact step prepared parts ready vacant
            · split at made
              · cases made
                exact ready
              · cases made

/-- All but one place of a path is a directory on the way. -/
theorem eq_of_walk {reached rest found : List String} (walked : files.walk reached rest = .ok found) :
    found = rest.foldl Path.step reached := by
  induction rest generalizing reached with
  | nil =>
      cases walked
      rfl
  | cons part rest ih =>
      rw [walk] at walked
      split at walked
      · cases walked
      · cases walked
      · exact ih walked

theorem eq_resolve_of_writable (writable : files.writable path = .ok parts) :
    parts = Path.resolve files.here path := by
  have located := (writable_eq_ok_iff.mp writable).1
  unfold locate at located
  split at located
  · cases located
  · exact eq_of_walk located

namespace Stands

variable (stands : files.Stands path parts content)
include stands

theorem read : files.read path = .ok content := read_of_writable stands.writable stands.standing

/-- Another file is written. -/
theorem setFile (free : files.node? target ≠ some .directory) (apart : target ≠ parts)
    (written : List UInt8) : (files.set target (.file written)).Stands path parts content where
  writable := writable_set stands.writable free written
  standing := by rw [node?_set free, if_neg apart, stands.standing]

theorem setDirectory (vacant : files.node? target = none) :
    (files.set target .directory).Stands path parts content := by
  have free : files.node? target ≠ some .directory := fun same => nomatch vacant.symm.trans same
  have apart : target ≠ parts := fun same => nomatch (same ▸ vacant).symm.trans stands.standing
  obtain ⟨located, _, plain⟩ := writable_eq_ok_iff.mp stands.writable
  have standing : (files.set target .directory).node? parts = some (.file content) := by
    rw [node?_set free, if_neg apart, stands.standing]
  refine ⟨writable_eq_ok_iff.mpr ⟨locate_set free _ located, ?_, plain⟩, standing⟩
  rw [standing]
  exact fun same => nomatch same

theorem makeDirectories {directory : String} (made : files.makeDirectories directory = .ok after) :
    after.Stands path parts content :=
  makeDirectoriesWithin_induction (motive := fun files => files.Stands path parts content) stands
    (fun _ _ stands vacant => stands.setDirectory vacant) made

theorem save {other : String} (apart : Path.resolve files.here other ≠ parts)
    (saved : files.save other text = .ok after) : after.Stands path parts content := by
  obtain ⟨⟨created, handle⟩, opened, same⟩ := bind_eq_ok saved
  obtain ⟨target, writable, rfl, rfl⟩ := eq_of_create opened
  cases same
  have elsewhere : target ≠ parts := by rwa [eq_resolve_of_writable writable]
  have emptied := stands.setFile (free_of_writable writable) elsewhere []
  have again := writable_set writable (free_of_writable writable) []
  exact emptied.setFile (free_of_writable again) elsewhere _

end Stands

theorem continues_makeDirectories {directory : String} (made : files.makeDirectories directory = .ok after) :
    Continues files after :=
  makeDirectoriesWithin_induction (.refl files)
    (fun _ _ continues vacant => continues.trans (.setDirectory vacant)) made

theorem continues_create {handle : Handle} (opened : files.create path = .ok (after, handle)) :
    Continues files after := by
  obtain ⟨parts, _, rfl, _⟩ := eq_of_create opened
  exact .setFile files parts []

theorem continues_save (saved : files.save path text = .ok after) : Continues files after := by
  obtain ⟨⟨created, handle⟩, opened, same⟩ := bind_eq_ok saved
  cases same
  exact (continues_create opened).trans (.setFile _ _ _)

end Clausal.Files
