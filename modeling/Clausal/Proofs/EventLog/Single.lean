import Clausal.Proofs.EventLog.Retention
import Clausal.Proofs.Files.Standing

/-!
Event logs that take one event at most. The event stands alone in its file, and the summary that closes the log
counts it and lists its file.
-/

set_option autoImplicit false

namespace Clausal.EventLog

/-- The summary of the log counts one event of each of some types, lists their files, and knows no others. -/
def Summarises (log : EventLog) (files : Files) (types : List String) : Prop :=
  ∃ summary metadata, files.read (log.path summaryEnding) = .ok (Text.Utf8.encode summary) ∧
    Json.writeIndented (.map metadata) = .ok summary ∧
    Assoc.get? "record_counts" metadata = some (.map (types.map fun type => (type, .int 1))) ∧
    Assoc.get? "log_files" metadata =
      some (.map (types.map fun type => (type, .text (log.eventPath type))))

/-- The file for the event of a type holds the event and nothing else. -/
def HoldsAlone (log : EventLog) (files : Files) (type : String) (event : Datum) : Prop :=
  ∃ text, Json.write event = .ok text ∧ files.HoldsLines (log.eventPath type) [text]

/-- The file for an event stands, and the line of the event is all that it holds. -/
def StandsAlone (log : EventLog) (files : Files) (type : String) (event : Datum) : Prop :=
  ∃ text parts, Json.write event = .ok text ∧
    files.Stands (log.eventPath type) parts (Text.Utf8.encode (text ++ "\n"))

/-- Nothing has been logged yet. -/
structure Fresh (log : EventLog) : Prop where
  handles : log.handles = []
  counts : log.counts = []
  listed : Assoc.get? "log_files" log.metadata = some (.map [])

/-- Since its start the log has taken one event of each of some types. -/
structure Took (start : EventLog) (types : List String) (log : EventLog) : Prop where
  names : log.SameNames start
  counts : log.counts = types.map fun type => (type, 1)
  listed : Assoc.get? "log_files" log.metadata =
    some (.map (types.map fun type => (type, .text (start.eventPath type))))

variable {files before prepared : Files} {log start : EventLog} {type directory runName : String}
  {types : List String} {event : Datum} {now : Instant}

theorem fresh_of_start (started : EventLog.start before now directory runName = .ok (prepared, log)) :
    log.Fresh := by
  obtain ⟨made, _, same⟩ := bind_eq_ok started
  cases same
  exact ⟨rfl, rfl, rfl⟩

theorem Fresh.took (fresh : log.Fresh) : log.Took [] log := ⟨⟨rfl, rfl⟩, fresh.counts, fresh.listed⟩

/-- A file that is not open is emptied and opened. -/
theorem handleFor_of_closed (closed : Assoc.get? type log.handles = none) {handle : Files.Handle}
    (done : (handleFor files log type).result = .ok handle) :
    ∃ parts, files.writable (log.eventPath type) = .ok parts ∧
      handleFor files log type =
        ⟨files.set parts (.file []),
          { log.notePath type with
            handles := Assoc.insert type ⟨parts, some 0⟩ log.handles
            counts := Assoc.insert type 0 log.counts },
          .ok ⟨parts, some 0⟩⟩ := by
  unfold handleFor at done ⊢
  simp only [closed] at done ⊢
  cases opened : files.create (log.eventPath type) with
  | error fault =>
      rw [opened] at done
      cases done
  | ok pair =>
      obtain ⟨created, first⟩ := pair
      obtain ⟨parts, writable, rfl, rfl⟩ := Files.eq_of_create opened
      exact ⟨parts, writable, rfl⟩

/-- An event that goes through to a file that is not open is alone in it. -/
theorem append_of_closed (closed : Assoc.get? type log.handles = none)
    (done : (append files log type event).result = .ok ()) :
    ∃ text parts, Json.write event = .ok text ∧
      (append files log type event).files.Stands (log.eventPath type) parts
        (Text.Utf8.encode (text ++ "\n")) ∧
      (append files log type event).log =
        { log.notePath type with
          handles := Assoc.insert type ⟨parts, some (Text.Utf8.encode (text ++ "\n")).length⟩
            (Assoc.insert type ⟨parts, some 0⟩ log.handles)
          counts := Assoc.insert type 1 (Assoc.insert type 0 log.counts) } := by
  unfold append at done ⊢
  dsimp only at done ⊢
  split at done
  · cases done
  · next handle opened =>
      obtain ⟨parts, writable, handled⟩ := handleFor_of_closed closed opened
      rw [handled] at opened done ⊢
      cases opened
      cases written : Json.write event with
      | error fault =>
          simp only [written] at done
          cases done
      | ok text =>
          have free := Files.free_of_writable writable
          have emptied : (files.set parts (.file [])).node? parts = some (.file []) := by
            rw [Files.node?_set free, if_pos rfl]
          have stays := Files.writable_set writable free []
          have wrote := Files.write_at_end emptied (text ++ "\n")
          rw [List.length_nil, List.nil_append] at wrote
          simp only [wrote, Assoc.get?_insert, if_pos, Option.getD_some]
          refine ⟨text, parts, rfl, ⟨Files.writable_set stays (Files.free_of_writable stays) _, ?_⟩, rfl⟩
          rw [Files.node?_set (Files.free_of_writable stays), if_pos rfl]

theorem continues_handleFor (files : Files) (log : EventLog) (type : String) :
    files.Continues (handleFor files log type).files := by
  unfold handleFor
  split
  · exact .refl files
  · dsimp only
    split
    · exact .refl files
    · next opened => exact Files.continues_create opened

theorem continues_append (files : Files) (log : EventLog) (type : String) (event : Datum) :
    files.Continues (append files log type event).files := by
  have opened := continues_handleFor files log type
  unfold append
  dsimp only
  split
  · exact opened
  · split
    · exact opened
    · exact opened.trans (.setFile _ _ _)

/-- The first event opens its file and is alone in it. -/
theorem Fresh.append (fresh : log.Fresh) (done : (EventLog.append files log type event).result = .ok ()) :
    log.Took [type] (EventLog.append files log type event).log ∧
      log.StandsAlone (EventLog.append files log type event).files type event := by
  have closed : Assoc.get? type log.handles = none := by
    rw [fresh.handles]
    rfl
  obtain ⟨text, parts, written, stands, changed⟩ := append_of_closed closed done
  refine ⟨?_, text, parts, written, stands⟩
  rw [changed]
  refine ⟨⟨rfl, rfl⟩, ?_, ?_⟩
  · simp [fresh.counts, Assoc.insert]
  · simp only [notePath, fresh.listed, Assoc.get?_insert, if_pos]
    rfl

theorem StandsAlone.holdsAlone (alone : log.StandsAlone files type event) : log.HoldsAlone files type event := by
  obtain ⟨text, parts, written, stands⟩ := alone
  refine ⟨text, written, text ++ "\n", stands.read, ?_⟩
  have plain : ∀ line ∈ [text], '\n' ∉ (line : String).toList :=
    List.forall_mem_singleton.mpr (Json.not_mem_feed_of_write written)
  have lines := Text.lines_join_feeds plain
  rwa [List.map_singleton, String.join_cons, String.join_nil, String.append_empty] at lines

/-- The summary tells what the log took, and leaves the files of events as they are. -/
theorem Took.finalize {path : String} (took : start.Took types log)
    (done : (EventLog.finalize files log now).result = .ok path) :
    start.Summarises (EventLog.finalize files log now).files types ∧
      ∀ type ∈ eventTypes, ∀ event, start.StandsAlone files type event →
        start.StandsAlone (EventLog.finalize files log now).files type event := by
  have path (ending : String) : log.path ending = start.path ending := took.names.path_eq ending
  obtain ⟨final, summary, saved, encoded, finalized⟩ :
      ∃ final summary, files.save (log.path summaryEnding) summary = .ok final ∧
        Json.writeIndented (.map (Assoc.insert "record_counts" log.countsDatum
          (Assoc.insert "end_time" (.text now.iso) log.metadata))) = .ok summary ∧
        (EventLog.finalize files log now).files = final := by
    unfold EventLog.finalize at done ⊢
    dsimp only at done ⊢
    split at done
    · cases done
    · next created handle opened =>
        split at done
        · cases done
        · next text written =>
            refine ⟨(created.write handle text).1, text, ?_, written, ?_⟩
            · rw [Files.save, summaryEnding, opened]
              rfl
            · rfl
  rw [path] at saved
  rw [finalized]
  have read := Files.find_save saved
  refine ⟨⟨summary, _, ?_, encoded, ?_, ?_⟩, ?_⟩
  · rw [Files.read, read]
  · rw [Assoc.get?_insert, if_pos rfl, countsDatum, took.counts, List.map_map]
    rfl
  · rw [Assoc.get?_insert, if_neg (by decide), Assoc.get?_insert, if_neg (by decide), took.listed]
  · rintro type known event ⟨text, parts, written, stands⟩
    refine ⟨text, parts, written, stands.save (fun same => ?_) saved⟩
    obtain ⟨⟨created, handle⟩, opened, _⟩ := bind_eq_ok saved
    obtain ⟨target, writable, _, _⟩ := Files.eq_of_create opened
    rw [← Files.eq_resolve_of_writable writable] at same
    exact summaryEnding_ne type known <|
      ending_eq_of_place_eq summaryEnding_mem_endings (eventEnding_mem_endings known) writable
        (same ▸ stands.writable)

end Clausal.EventLog
