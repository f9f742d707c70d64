import Clausal.Proofs.Files
import Clausal.Proofs.Session.Standard

/-!
Reading formulas from files and writing reports to them. Either a file holds a formula or there is a
reason why it cannot be loaded; what was reported is what stands in the file.
-/

set_option autoImplicit false

namespace Clausal

namespace Files

/-- The file at a path holds a formula. -/
inductive Loads (files : Files) (path : String) (document : Dimacs.Document) : Prop where
  | intro (bytes : List UInt8) (text : String) (read : files.read path = .ok bytes)
      (decoded : Text.Utf8.decode bytes = .ok text) (parsed : Dimacs.parseFile text = .ok document)

/-- Why no formula can be loaded from a path. -/
inductive Unloadable (files : Files) (path : String) : Prop where
  | missing (absent : files.contains path = false)
  | unreadable (fault : FileFault) (refused : files.read path = .error fault)
  | undecodable (bytes : List UInt8) (fault : Text.Utf8.Fault) (read : files.read path = .ok bytes)
      (refused : Text.Utf8.decode bytes = .error fault)
  | rejected (bytes : List UInt8) (text : String) (fault : Dimacs.Fault)
      (read : files.read path = .ok bytes) (decoded : Text.Utf8.decode bytes = .ok text)
      (refused : Dimacs.parseFile text = .error fault)

variable {files : Files} {path : String} {document other : Dimacs.Document}

theorem contains_of_read {bytes : List UInt8} (read : files.read path = .ok bytes) :
    files.contains path = true := by
  unfold Files.read at read
  unfold contains
  cases found : files.find path with
  | ok node => rfl
  | error cause =>
      rw [found] at read
      cases read

theorem Loads.unique (left : files.Loads path document) (right : files.Loads path other) :
    document = other := by
  obtain ⟨bytes, text, read, decoded, parsed⟩ := left
  obtain ⟨bytes', text', read', decoded', parsed'⟩ := right
  cases read.symm.trans read'
  cases decoded.symm.trans decoded'
  cases parsed.symm.trans parsed'
  rfl

theorem Loads.not_unloadable (loads : files.Loads path document) : ¬ files.Unloadable path := by
  obtain ⟨bytes, text, read, decoded, parsed⟩ := loads
  intro unloadable
  cases unloadable with
  | missing absent => cases absent.symm.trans (contains_of_read read)
  | unreadable fault refused => cases refused.symm.trans read
  | undecodable bytes' fault read' refused =>
      cases read.symm.trans read'
      cases refused.symm.trans decoded
  | rejected bytes' text' fault read' decoded' refused =>
      cases read.symm.trans read'
      cases decoded.symm.trans decoded'
      cases refused.symm.trans parsed

theorem loads_or_unloadable (files : Files) (path : String) :
    (∃ document, files.Loads path document) ∨ files.Unloadable path := by
  cases read : files.read path with
  | error fault => exact .inr (.unreadable fault read)
  | ok bytes =>
      cases decoded : Text.Utf8.decode bytes with
      | error fault => exact .inr (.undecodable bytes fault read decoded)
      | ok text =>
          cases parsed : Dimacs.parseFile text with
          | error fault => exact .inr (.rejected bytes text fault read decoded parsed)
          | ok document => exact .inl ⟨document, bytes, text, read, decoded, parsed⟩

end Files

namespace Session

variable {session : Session} {path : String} {document : Dimacs.Document}

theorem orFail_ok {α ε : Type} (form : ε → Fault) (value : α) : orFail form (.ok value) = pure value := rfl

theorem orFail_error {α ε : Type} (form : ε → Fault) (fault : ε) :
    (orFail form (.error fault) : Action α) = throw (form fault) := rfl

theorem run_changeFiles {ε : Type} (form : ε → Fault) (change : Files → Except ε Files) {files : Files}
    (changed : change session.files = .ok files) :
    (changeFiles form change).run session = (.ok (), { session with files }) := by
  rw [changeFiles, run_bind_of_ok _ (run_get session), changed]
  rfl

/-- Nothing is logged before a formula is there. -/
theorem run_loadFormula_of_unloadable (unloadable : session.files.Unloadable path) :
    ∃ fault, (loadFormula path).run session = (.error fault, session) := by
  unfold loadFormula
  rw [run_bind_of_ok _ (run_get session)]
  cases present : session.files.contains path with
  | false =>
      simp only [present]
      exact ⟨_, run_bind_of_error _ rfl⟩
  | true =>
      simp only [present]
      cases unloadable with
      | missing absent => cases absent.symm.trans present
      | unreadable fault refused =>
          simp only [refused, orFail_error]
          exact ⟨_, run_bind_of_error _ rfl⟩
      | undecodable bytes fault read refused =>
          simp only [read, refused, orFail_ok, orFail_error, pure_bind]
          exact ⟨_, run_bind_of_error _ rfl⟩
      | rejected bytes text fault read decoded refused =>
          simp only [read, decoded, refused, orFail_ok, orFail_error, pure_bind]
          exact ⟨_, run_bind_of_error _ rfl⟩

namespace Standard

theorem run_loadFormula (standard : session.Standard) (loads : session.files.Loads path document) :
    ∃ errors, (loadFormula path).run session = (.ok document, { session with errors }) := by
  obtain ⟨bytes, text, read, decoded, parsed⟩ := loads
  obtain ⟨errors, noted⟩ : ∃ errors, (noteDocument document).run session =
    (.ok (), { session with errors }) := standard.run_logAll _
  refine ⟨errors, ?_⟩
  unfold loadFormula
  rw [run_bind_of_ok _ (run_get session)]
  simp only [Files.contains_of_read read, read, decoded, parsed, orFail_ok, pure_bind]
  exact run_bind_of_ok _ noted

/-- The file is made and written, and it holds one line for each line of the report. -/
theorem run_writeOutcome (standard : session.Standard) {outcome : Outcome} {declared : Option Int}
    {lines : List String} (reported : Report.lines outcome declared = .ok lines) {prepared : Files}
    {parts : List String} (made : session.files.makeDirectoryOf path = .ok prepared)
    (writable : prepared.writable path = .ok parts) :
    ∃ files errors,
      (writeOutcome path outcome declared).run session = (.ok (), { session with files, errors }) ∧
        files.read path = .ok (Text.Utf8.encode (String.join (lines.map (· ++ "\n")))) := by
  obtain ⟨emptied, opened, stillWritable, _⟩ := Files.exists_save writable ""
  obtain ⟨files, saved, _, read⟩ :=
    Files.exists_save stillWritable (String.join (lines.map (· ++ "\n")))
  have ready : { session with files }.Standard := standard.changed _ _ _
  obtain ⟨errors, logged⟩ :=
    ready.run_logAll [⟨formulaSource, Logging.info, "Wrote result to " ++ path⟩]
  refine ⟨files, errors, ?_, read⟩
  have first : (changeFiles .file fun files => files.makeDirectoryOf path).run session =
      (.ok (), { session with files := prepared }) := run_changeFiles _ _ made
  have second : (changeFiles .file fun files => files.save path "").run
      { session with files := prepared } = (.ok (), { session with files := emptied }) :=
    run_changeFiles _ (fun files => files.save path "") opened
  have third : (changeFiles .file fun files => files.save path (String.join (lines.map (· ++ "\n")))).run
      { session with files := emptied } = (.ok (), { session with files }) :=
    run_changeFiles _ (fun files => files.save path (String.join (lines.map (· ++ "\n")))) saved
  unfold writeOutcome
  rw [run_bind_of_ok _ first, run_bind_of_ok _ second, reported, orFail_ok, pure_bind,
    run_bind_of_ok _ third]
  exact logged

end Standard

end Session

end Clausal
