import Clausal.Files
import Clausal.Proofs.Fallible
import Clausal.Proofs.Text.Cutting

/-!
Writing to a tree of files. A file that is put where no directory stands gets in the way of no path, so that
what was saved is read back. Paths that differ in the ending of their names lead to different places.
-/

set_option autoImplicit false

namespace Clausal.Files

variable {files : Files} {target parts : List String} {path text : String} {content : List UInt8}

theorem node?_set (free : files.node? target ≠ some .directory) (node : Node) (parts : List String) :
    (files.set target node).node? parts = if target = parts then some node else files.node? parts := by
  by_cases above : parts.isPrefixOf files.here
  · have standing : files.node? parts = some .directory := if_pos above
    have different : target ≠ parts := fun same => free (same ▸ standing)
    rw [standing, if_neg different]
    exact if_pos above
  · simp only [node?, set, above, Assoc.get?_insert]
    rfl

/-- Only directories are passed on the way, and none of them stands at the target. -/
theorem walk_set (free : files.node? target ≠ some .directory) (node : Node) {rest reached found : List String}
    (walked : files.walk reached rest = .ok found) :
    (files.set target node).walk reached rest = .ok found := by
  induction rest generalizing reached with
  | nil => exact walked
  | cons part rest ih =>
      cases standing : files.node? reached with
      | none =>
          rw [walk, standing] at walked
          cases walked
      | some passed =>
          cases passed with
          | file content =>
              rw [walk, standing] at walked
              cases walked
          | directory =>
              have different : target ≠ reached := fun same => free (same ▸ standing)
              rw [walk, standing] at walked
              rw [walk, node?_set free, if_neg different, standing]
              exact ih walked

theorem locate_set (free : files.node? target ≠ some .directory) (node : Node)
    (located : files.locate path = .ok parts) : (files.set target node).locate path = .ok parts := by
  unfold locate at located ⊢
  split at located
  · cases located
  · next nonempty =>
      rw [if_neg nonempty]
      exact walk_set free node located

theorem writable_eq_ok_iff : files.writable path = .ok parts ↔
    files.locate path = .ok parts ∧ files.node? parts ≠ some .directory ∧
      Path.asksDirectory path = false := by
  unfold writable
  cases files.locate path with
  | error cause => simp
  | ok found =>
      simp only [Except.ok.injEq]
      split
      · next standing =>
          refine iff_of_false (fun same => nomatch same) ?_
          rintro ⟨rfl, free, _⟩
          exact free standing
      · next free =>
          cases Path.asksDirectory path with
          | true => exact iff_of_false (fun same => nomatch same) fun both => nomatch both.2.2
          | false =>
              refine ⟨fun same => ?_, fun both => congrArg Except.ok both.1⟩
              cases same
              exact ⟨rfl, free, rfl⟩

theorem writable_set (writable : files.writable path = .ok parts)
    (free : files.node? target ≠ some .directory) (content : List UInt8) :
    (files.set target (.file content)).writable path = .ok parts := by
  obtain ⟨located, vacant, plain⟩ := writable_eq_ok_iff.mp writable
  refine writable_eq_ok_iff.mpr ⟨locate_set free _ located, ?_, plain⟩
  rw [node?_set free]
  split
  · exact fun same => nomatch same
  · exact vacant

/-- A file where no directory stands opens no way either. -/
theorem walk_of_set (free : files.node? target ≠ some .directory) {rest reached found : List String}
    (walked : (files.set target (.file content)).walk reached rest = .ok found) :
    files.walk reached rest = .ok found := by
  induction rest generalizing reached with
  | nil => exact walked
  | cons part rest ih =>
      rw [walk, node?_set free] at walked
      split at walked
      · cases walked
      · cases walked
      · next standing =>
          split at standing
          · cases standing
          · rw [walk, standing]
            exact ih walked

theorem writable_set_iff (free : files.node? target ≠ some .directory) (content : List UInt8) :
    (files.set target (.file content)).writable path = .ok parts ↔ files.writable path = .ok parts := by
  refine ⟨fun writable => ?_, fun writable => writable_set writable free content⟩
  obtain ⟨located, vacant, plain⟩ := writable_eq_ok_iff.mp writable
  refine writable_eq_ok_iff.mpr ⟨?_, ?_, plain⟩
  · unfold locate at located ⊢
    split at located
    · cases located
    · next nonempty =>
        rw [if_neg nonempty]
        exact walk_of_set free located
  · rw [node?_set free] at vacant
    split at vacant
    · next same => exact same ▸ free
    · exact vacant

theorem free_of_writable (writable : files.writable path = .ok parts) :
    files.node? parts ≠ some .directory :=
  (writable_eq_ok_iff.mp writable).2.1

theorem find_of_writable (writable : files.writable path = .ok parts)
    (standing : files.node? parts = some (.file content)) : files.find path = .ok (.file content) := by
  obtain ⟨located, _, plain⟩ := writable_eq_ok_iff.mp writable
  rw [find, located]
  simp only [bind, Except.bind, standing, plain]
  rfl

theorem read_of_writable (writable : files.writable path = .ok parts)
    (standing : files.node? parts = some (.file content)) : files.read path = .ok content := by
  rw [read, find_of_writable writable standing]

theorem find_of_read (found : files.read path = .ok content) : files.find path = .ok (.file content) := by
  unfold read at found
  split at found
  · next standing =>
      cases found
      exact standing
  · cases found
  · cases found

theorem read_set (writable : files.writable path = .ok parts) (content : List UInt8) :
    (files.set parts (.file content)).read path = .ok content := by
  have free := free_of_writable writable
  refine read_of_writable (writable_set writable free content) ?_
  rw [node?_set free, if_pos rfl]

theorem create_of_writable (writable : files.writable path = .ok parts) :
    files.create path = .ok (files.set parts (.file []), ⟨parts, some 0⟩) := by
  rw [create, writable]
  rfl

theorem eq_of_create {created : Files} {handle : Handle} (opened : files.create path = .ok (created, handle)) :
    ∃ parts, files.writable path = .ok parts ∧ created = files.set parts (.file []) ∧
      handle = ⟨parts, some 0⟩ := by
  obtain ⟨parts, writable, same⟩ := bind_eq_ok opened
  cases same
  exact ⟨parts, writable, rfl, rfl⟩

/-- At its end a file is only added to, and the position stays at the end. -/
theorem write_at_end (standing : files.node? parts = some (.file content)) (text : String) :
    files.write ⟨parts, some content.length⟩ text =
      (files.set parts (.file (content ++ Text.Utf8.encode text)),
        ⟨parts, some (content ++ Text.Utf8.encode text).length⟩) := by
  have held : files.contentAt parts = content := by rw [contentAt, standing]
  have nothing : content.drop (content.length + (Text.Utf8.encode text).length) = [] :=
    List.drop_eq_nil_of_le (Nat.le_add_right _ _)
  simp [write, held, splice, nothing]

/-- Where a file may be written, what is saved is what is read, and it may be written again. -/
theorem exists_save (writable : files.writable path = .ok parts) (text : String) :
    ∃ saved, files.save path text = .ok saved ∧ saved.writable path = .ok parts ∧
      saved.read path = .ok (Text.Utf8.encode text) := by
  let emptied := files.set parts (.file [])
  have free := free_of_writable writable
  have again : emptied.writable path = .ok parts := writable_set writable free []
  have standing : emptied.node? parts = some (.file []) := by rw [node?_set free, if_pos rfl]
  have written : (emptied.write ⟨parts, some 0⟩ text).1 =
      emptied.set parts (.file (Text.Utf8.encode text)) :=
    congrArg Prod.fst (write_at_end standing text)
  refine ⟨_, ?_, writable_set again (free_of_writable again) _, read_set again _⟩
  rw [save, create_of_writable writable, ← written]
  rfl

/-- What was saved is found. -/
theorem find_save {saved : Files} (written : files.save path text = .ok saved) :
    saved.find path = .ok (.file (Text.Utf8.encode text)) := by
  obtain ⟨⟨created, handle⟩, opened, _⟩ := bind_eq_ok written
  obtain ⟨parts, writable, _, _⟩ := eq_of_create opened
  obtain ⟨again, writtenAgain, _, read⟩ := exists_save writable text
  cases writtenAgain.symm.trans written
  exact find_of_read read

/-! Places. -/

/-- The last component alone decides on the last step. -/
theorem exists_of_walk_concat {rest reached : List String} {part : String}
    (walked : files.walk reached (rest ++ [part]) = .ok parts) :
    ∃ before, parts = Path.step before part := by
  induction rest generalizing reached with
  | nil =>
      rw [List.nil_append, walk] at walked
      split at walked
      · cases walked
      · cases walked
      · cases walked
        exact ⟨reached, rfl⟩
  | cons first rest ih =>
      rw [List.cons_append, walk] at walked
      split at walked
      · cases walked
      · cases walked
      · exact ih walked

/-- What ends a name of a file and is neither empty nor dots. -/
def EndsName (ending : String) : Prop := '/' ∉ ending.toList ∧ 2 < ending.toList.length

instance (ending : String) : Decidable (EndsName ending) := inferInstanceAs (Decidable (_ ∧ _))

theorem exists_components_append (front : String) :
    ∃ (above : List String) (stem : String), ∀ ending, EndsName ending →
      Path.components (front ++ ending) = above ++ [stem ++ ending] ∧ stem ++ ending ≠ ".." := by
  obtain ⟨pieces, last, cut⟩ := Text.exists_splitOn_append '/' front.toList
  refine ⟨(pieces.map String.ofList).filter fun part => part ≠ "" ∧ part ≠ ".", String.ofList last,
    fun ending endsName => ?_⟩
  have joined : String.ofList (last ++ ending.toList) = String.ofList last ++ ending := by
    rw [String.ofList_append, String.ofList_toList]
  have long : 2 < (String.ofList last ++ ending).toList.length := by
    rw [String.toList_append, List.length_append]
    exact Nat.lt_of_lt_of_le endsName.2 (Nat.le_add_left _ _)
  have different (short : String) (bounded : short.toList.length ≤ 2) :
      String.ofList last ++ ending ≠ short := fun same => by
    rw [same] at long
    omega
  refine ⟨?_, different ".." (by decide)⟩
  rw [Path.components, String.toList_append, cut _ endsName.1, List.map_append, List.map_singleton,
    joined, List.filter_append]
  simp [different "" (by decide), different "." (by decide)]

/-- Names with different endings are not in the same place. -/
theorem ending_eq_of_locate_eq {other : Files} {front first second : String} (firstEnds : EndsName first)
    (secondEnds : EndsName second) (located : files.locate (front ++ first) = .ok parts)
    (alsoLocated : other.locate (front ++ second) = .ok parts) : first = second := by
  obtain ⟨above, stem, cut⟩ := exists_components_append front
  have named {tree : Files} {ending : String} (endsName : EndsName ending)
      (located : tree.locate (front ++ ending) = .ok parts) :
      parts.getLast? = some (stem ++ ending) := by
    obtain ⟨components, plain⟩ := cut ending endsName
    unfold locate at located
    split at located
    · cases located
    · rw [components] at located
      obtain ⟨before, same⟩ := exists_of_walk_concat located
      rw [same, Path.step, if_neg plain, List.getLast?_concat]
  have same := Option.some.inj ((named firstEnds located).symm.trans (named secondEnds alsoLocated))
  have lists := congrArg String.toList same
  rw [String.toList_append, String.toList_append] at lists
  exact String.toList_inj.mp (List.append_cancel_left lists)

end Clausal.Files
