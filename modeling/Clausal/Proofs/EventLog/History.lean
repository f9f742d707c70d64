import Clausal.Proofs.EventLog.Fields
import Clausal.Proofs.EventLog.Holdings
import Clausal.Proofs.Fallible
import Clausal.Proofs.Text.Cutting

/-!
Histories of event logs: what was asked of a log from its start on, and what it left in its files. The summary
that closes a history counts the lines of every file that it lists.
-/

set_option autoImplicit false

namespace Clausal

/-- The file at a path holds the given lines and nothing else. -/
def Files.HoldsLines (files : Files) (path : String) (texts : List String) : Prop :=
  ∃ content, files.read path = .ok (Text.Utf8.encode content) ∧
    Text.lines content.toList = texts.map String.toList ++ [[]]

namespace EventLog

/-- What is asked of a log. -/
inductive Call where
  | solve (now : Instant) (source : String) (outcome : Outcome)
  | exception (now : Instant) (source kind message : String)
  | close
  | finalize (now : Instant)

/-- The event that is to be logged, with its type. -/
def Call.event? : Call → Option (String × Datum)
  | .solve now source outcome => some (solveType, solveEvent now source outcome)
  | .exception now source kind message => some (exceptionType, exceptionEvent now source kind message)
  | .close => none
  | .finalize _ => none

/-- The files and the log after a call, whether it went through or not. -/
def after (state : Files × EventLog) : Call → Files × EventLog
  | .solve now source outcome =>
      let step := logSolve state.1 state.2 now source outcome
      (step.files, step.log)
  | .exception now source kind message =>
      let step := logException state.1 state.2 now source kind message
      (step.files, step.log)
  | .close => (state.1, state.2.close)
  | .finalize now =>
      let step := finalize state.1 state.2 now
      (step.files, step.log)

def afterAll (state : Files × EventLog) (calls : List Call) : Files × EventLog := calls.foldl after state

/-- The events of a type that are to be logged, in order. -/
def offered (type : String) (calls : List Call) : List Datum :=
  calls.filterMap fun call => call.event?.bind fun (given, event) => if given = type then some event else none

/-- The events of a type that can be logged. -/
def logged (type : String) (calls : List Call) : List Datum :=
  (offered type calls).filter fun event => (Json.write event).toOption.isSome

/-- What is held after a call: the file for its event is opened, and what closes the log closes all files. -/
def Holdings.after (holdings : Holdings) (call : Call) : Holdings :=
  match call.event? with
  | some (type, event) => Function.update holdings type (some ((Holding.opened (holdings type)).add event))
  | none => fun type => (holdings type).map Holding.closed

def Holdings.afterAll (calls : List Call) : Holdings := calls.foldl Holdings.after fun _ => none

variable {places : String → List String} {holdings : Holdings} {files prepared : Files}
  {log : EventLog} {calls : List Call} {call : Call} {type : String} {holding : Holding}
  {event : Datum}

theorem Holdings.afterAll_concat (calls : List Call) (call : Call) :
    afterAll (calls ++ [call]) = (afterAll calls).after call := by
  rw [afterAll, List.foldl_append]
  rfl

/-- Every event is a map with the fields of its type. -/
theorem exists_entries_of_event? (found : call.event? = some (type, event)) :
    ∃ entries, event = .map entries ∧ Assoc.keys entries = fieldNames type := by
  cases call with
  | solve now source outcome =>
      cases found
      exact ⟨_, rfl, rfl⟩
  | exception now source kind message =>
      cases found
      exact ⟨_, rfl, rfl⟩
  | close => cases found
  | finalize now => cases found

theorem exists_entries_of_mem_logged (member : event ∈ logged type calls) :
    ∃ entries, event = .map entries ∧ Assoc.keys entries = fieldNames type := by
  obtain ⟨call, _, chosen⟩ := List.mem_filterMap.mp (List.mem_of_mem_filter member)
  obtain ⟨⟨given, event⟩, found, same⟩ := Option.bind_eq_some_iff.mp chosen
  dsimp only at same
  split at same
  · next given =>
      cases same
      exact exists_entries_of_event? (given ▸ found)
  · cases same

theorem exists_text_of_mem_logged (member : event ∈ logged type calls) :
    ∃ text, Json.write event = .ok text := by
  have hasText := List.of_mem_filter member
  cases written : Json.write event with
  | error fault =>
      rw [written] at hasText
      cases hasText
  | ok text => exact ⟨text, rfl⟩

theorem logged_sublist_concat (type : String) (calls : List Call) (call : Call) :
    (logged type calls).Sublist (logged type (calls ++ [call])) := by
  rw [logged, logged, offered, offered, List.filterMap_append, List.filter_append]
  exact List.sublist_append_left _ _

theorem logged_concat_of_ok {text : String} (found : call.event? = some (type, event))
    (written : Json.write event = .ok text) (calls : List Call) :
    logged type (calls ++ [call]) = logged type calls ++ [event] := by
  have added : offered type (calls ++ [call]) = offered type calls ++ [event] := by
    simp [offered, found]
  have kept : [event].filter (fun event => (Json.write event).toOption.isSome) = [event] :=
    List.filter_cons_of_pos (by rw [written]; rfl)
  rw [logged, added, List.filter_append, kept, logged]

namespace Holding

theorem events_opened_sublist {before : Option Holding} {events : List Datum}
    (held : ∀ holding, before = some holding → holding.events.Sublist events) :
    (opened before).events.Sublist events := by
  unfold opened
  split
  · exact held _ rfl
  · exact List.nil_sublist _

theorem exists_texts {events : List Datum} (each : ∀ event ∈ events, ∃ text, Json.write event = .ok text) :
    ∃ texts : List String, events.mapM Json.write = .ok texts ∧
      texts.map (· ++ "\n") = events.map line ∧ ∀ text ∈ texts, '\n' ∉ text.toList := by
  induction events with
  | nil => exact ⟨[], rfl, rfl, List.forall_mem_nil _⟩
  | cons event rest ih =>
      obtain ⟨⟨text, written⟩, others⟩ := List.forall_mem_cons.mp each
      obtain ⟨texts, writtenOthers, lines, plain⟩ := ih others
      refine ⟨text :: texts, ?_, ?_, List.forall_mem_cons.mpr ⟨Json.not_mem_feed_of_write written, plain⟩⟩
      · rw [List.mapM_cons, written, writtenOthers]
        rfl
      · rw [List.map_cons, List.map_cons, lines, line, written]

end Holding

/-- A call leaves the events of a type as they are, or it writes one to them. -/
theorem Holdings.after_cases (held : holdings.after call type = some holding) :
    (∃ before, holdings type = some before ∧ holding.events = before.events) ∨
      ∃ event, call.event? = some (type, event) ∧
        holding = (Holding.opened (holdings type)).add event := by
  rw [after] at held
  cases found : call.event? with
  | none =>
      simp only [found] at held
      obtain ⟨before, heldBefore, rfl⟩ := Option.map_eq_some_iff.mp held
      exact .inl ⟨before, heldBefore, rfl⟩
  | some pair =>
      obtain ⟨given, event⟩ := pair
      simp only [found] at held
      by_cases same : type = given
      · subst same
        rw [Function.update_self] at held
        cases held
        exact .inr ⟨event, rfl, rfl⟩
      · rw [Function.update_of_ne same] at held
        exact .inl ⟨holding, held, rfl⟩

/-- What a file holds was logged, and stands in the order of the calls. -/
theorem events_sublist_logged (held : Holdings.afterAll calls type = some holding) :
    holding.events.Sublist (logged type calls) := by
  induction calls using List.reverseRecOn generalizing holding with
  | nil => cases held
  | append_singleton calls call ih =>
      rw [Holdings.afterAll_concat] at held
      have longer := logged_sublist_concat type calls call
      cases Holdings.after_cases held with
      | inl unchanged =>
          obtain ⟨before, heldBefore, same⟩ := unchanged
          rw [same]
          exact (ih heldBefore).trans longer
      | inr changed =>
          obtain ⟨event, found, rfl⟩ := changed
          have opened := Holding.events_opened_sublist fun _ heldBefore => ih heldBefore
          cases written : Json.write event with
          | error fault =>
              rw [Holding.add_of_error written]
              exact opened.trans longer
          | ok text =>
              rw [Holding.add_of_ok written, logged_concat_of_ok found written]
              exact opened.append (List.Sublist.refl _)

/-- A file is there as soon as an event of its type is to be logged. -/
theorem held_iff_offered (type : String) (calls : List Call) :
    Holdings.afterAll calls type ≠ none ↔ offered type calls ≠ [] := by
  induction calls using List.reverseRecOn with
  | nil => exact iff_of_false (fun held => held rfl) fun offers => offers rfl
  | append_singleton calls call ih =>
      rw [Holdings.afterAll_concat, Holdings.after, offered, List.filterMap_append, ← offered]
      cases found : call.event? with
      | none => simp [found, ih]
      | some pair =>
          obtain ⟨given, event⟩ := pair
          by_cases same : type = given
          · subst same
            simp [found]
          · simp [found, Function.update_of_ne same, Ne.symm same, ih]

namespace Tracks

theorem finalize (tracks : Tracks places holdings files log) (now : Instant) :
    ∃ text metadata final,
      Json.writeIndented (.map metadata) = .ok text ∧
      Assoc.get? "record_counts" metadata = some log.countsDatum ∧
      Assoc.get? "log_files" metadata = Assoc.get? "log_files" log.metadata ∧
      EventLog.finalize files log now =
        ⟨final, { log.close with metadata }, .ok (log.path summaryEnding)⟩ ∧
      final.node? (places summaryEnding) = some (.file (Text.Utf8.encode text)) ∧
      Tracks places (fun type => (holdings type).map Holding.closed) final
        { log.close with metadata } := by
  have countsWritable : Json.Writable log.countsDatum := by
    refine Json.writable_map fun entry member => ?_
    obtain ⟨⟨type, count⟩, _, rfl⟩ := List.mem_map.mp member
    exact Json.writable_int _
  have noted := (tracks.close.note "end_time" (by decide) (Json.writable_text now.iso)).note
    "record_counts" (by decide) countsWritable
  obtain ⟨text, written⟩ := Json.writable_map noted.summarisable Json.indented 0
  have emptied := tracks.setSummary []
  have free := tracks.free summaryEnding_mem_endings
  have standing : (files.set (places summaryEnding) (.file [])).node? (places summaryEnding) =
      some (.file []) := by
    rw [Files.node?_set free, if_pos rfl]
  refine ⟨text, _, _, written, ?_, ?_, ?_, ?_,
    (noted.setSummary []).setSummary (Text.Utf8.encode text)⟩
  · rw [Assoc.get?_insert, if_pos rfl]
  · rw [Assoc.get?_insert, if_neg (by decide), Assoc.get?_insert, if_neg (by decide)]
    rfl
  · have created : files.create (log.path "metadata.json") = _ :=
      Files.create_of_writable (tracks.writable summaryEnding summaryEnding_mem_endings)
    have filled := congrArg Prod.fst (Files.write_at_end standing text)
    have encoded : Json.writeIndented (.map (Assoc.insert "record_counts" log.countsDatum
        (Assoc.insert "end_time" (.text now.iso) log.metadata))) = .ok text := written
    simp only [EventLog.finalize, created, encoded]
    exact congrArg (fun files => Step.mk files _ _) filled
  · rw [Files.node?_set (emptied.free summaryEnding_mem_endings), if_pos rfl]

/-- Calls of every kind keep the log and its files in step. -/
theorem after (tracks : Tracks places holdings files log) (call : Call) :
    Tracks places (holdings.after call) (EventLog.after (files, log) call).1
      (EventLog.after (files, log) call).2 := by
  cases call with
  | solve now source outcome => exact tracks.append (by decide) (solveEvent now source outcome)
  | exception now source kind message =>
      exact tracks.append (by decide) (exceptionEvent now source kind message)
  | close => exact tracks.close
  | finalize now =>
      obtain ⟨text, metadata, final, _, _, _, finalized, _, kept⟩ := tracks.finalize now
      simp only [EventLog.after, finalized]
      exact kept

theorem afterAll (tracks : Tracks places (fun _ => none) files log) (calls : List Call) :
    Tracks places (Holdings.afterAll calls) (EventLog.afterAll (files, log) calls).1
      (EventLog.afterAll (files, log) calls).2 := by
  induction calls using List.reverseRecOn with
  | nil => exact tracks
  | append_singleton calls call ih =>
      rw [Holdings.afterAll_concat, EventLog.afterAll, List.foldl_append]
      exact ih.after call

theorem of_start {start : Instant} {directory runName : String}
    (started : EventLog.start files start directory runName = .ok (prepared, log))
    (writable : ∀ ending ∈ endings, prepared.writable (log.path ending) = .ok (places ending)) :
    Tracks places (fun _ => none) prepared log := by
  obtain ⟨made, _, same⟩ := bind_eq_ok started
  cases same
  refine
    { writable
      known := fun _ held => absurd rfl held
      standing := fun _ _ held => nomatch held
      handles := fun _ => rfl
      counts := fun _ => rfl
      distinct := List.nodup_nil
      notes := fun _ held => absurd rfl held
      listed := ⟨[], rfl, fun _ none => nomatch none⟩
      summarisable := ?_ }
  intro entry member
  simp only [List.mem_cons, List.not_mem_nil, or_false] at member
  obtain rfl | rfl | rfl := member
  · exact Json.writable_text _
  · exact Json.writable_text _
  · exact Json.writable_map fun _ none => nomatch none

/-- A file whose events are counted is listed, and holds as many lines as there are events. -/
theorem exists_lines (tracks : Tracks places holdings files log) (held : holdings type = some holding)
    (written : ∀ event ∈ holding.events, ∃ text, Json.write event = .ok text) {count : Nat}
    (counted : (type, count) ∈ log.counts) :
    log.Notes type ∧ ∃ texts : List String, files.HoldsLines (log.eventPath type) texts ∧
      count = texts.length ∧ holding.events.mapM Json.write = .ok texts := by
  have found := tracks.counts type
  rw [Assoc.get?_of_mem tracks.distinct counted, held] at found
  have some : holdings type ≠ none := by simp [held]
  obtain ⟨texts, encoded, lines, plain⟩ := Holding.exists_texts written
  have read := Files.read_of_writable
    (tracks.writable _ (eventEnding_mem_endings (tracks.known type some)))
    (tracks.standing type holding held)
  refine ⟨tracks.notes type some, texts, ⟨_, read, ?_⟩, ?_, encoded⟩
  · rw [← lines]
    exact Text.lines_join_feeds plain
  · have lengths := congrArg List.length lines
    rw [List.length_map, List.length_map] at lengths
    exact (Option.some.inj found).trans lengths.symm

theorem mem_keys_counts_iff (tracks : Tracks places holdings files log) :
    type ∈ Assoc.keys log.counts ↔ holdings type ≠ none := by
  rw [← not_iff_not, Classical.not_not, ← Assoc.get?_eq_none_iff, tracks.counts type,
    Option.map_eq_none_iff]

end Tracks

/-- The summary that closes a log counts each type of which events were to be logged, and lists a file for it.
The file holds as many lines as are counted, the JSON objects of the events that it holds, with the fields of
their type: those that were logged since it was last opened, in the order of logging. -/
theorem summary_counts_lines_of_files {log : EventLog} (start : Instant) (directory runName : String)
    (started : EventLog.start files start directory runName = .ok (prepared, log))
    (writable : ∀ ending ∈ endings, ∃ parts, prepared.writable (log.path ending) = .ok parts)
    (calls : List Call) (now : Instant) :
    ∃ final closed path summary metadata counts paths,
      finalize (afterAll (prepared, log) calls).1 (afterAll (prepared, log) calls).2 now =
        ⟨final, closed, .ok path⟩ ∧
      final.read path = .ok (Text.Utf8.encode summary) ∧
      Json.writeIndented (.map metadata) = .ok summary ∧
      Assoc.get? "record_counts" metadata = some (.map counts) ∧
      Assoc.get? "log_files" metadata = some (.map paths) ∧
      (∀ type, type ∈ Assoc.keys counts ↔ offered type calls ≠ []) ∧
      ∀ type number, (type, number) ∈ counts →
        ∃ (file : String) (texts : List String) (holding : Holding),
          Assoc.get? type paths = some (.text file) ∧ final.HoldsLines file texts ∧
          number = .int texts.length ∧ Holdings.afterAll calls type = some holding ∧
          holding.events.mapM Json.write = .ok texts ∧
          (∀ event ∈ holding.events,
            ∃ entries, event = .map entries ∧ Assoc.keys entries = fieldNames type) ∧
          holding.events.Sublist (logged type calls) := by
  let places := fun ending => (prepared.writable (log.path ending)).toOption.getD []
  have located : ∀ ending ∈ endings, prepared.writable (log.path ending) = .ok (places ending) := by
    intro ending member
    obtain ⟨parts, found⟩ := writable ending member
    simp only [places, found]
    rfl
  have tracks := (Tracks.of_start started located).afterAll calls
  obtain ⟨summary, metadata, final, encoded, counts, listed, finalized, standing, kept⟩ :=
    tracks.finalize now
  obtain ⟨paths, files, _⟩ := tracks.listed
  have read := Files.read_of_writable (kept.writable summaryEnding summaryEnding_mem_endings) standing
  refine ⟨final, _, _, summary, metadata, _, paths, finalized, read, encoded, counts,
    listed.trans files, ?_, ?_⟩
  · intro type
    rw [Assoc.keys, List.map_map, ← held_iff_offered, ← tracks.mem_keys_counts_iff, Assoc.keys]
    rfl
  · intro type number member
    obtain ⟨⟨_, count⟩, counted, same⟩ := List.mem_map.mp member
    cases same
    have known := tracks.mem_keys_counts_iff.mp (List.mem_map_of_mem counted)
    obtain ⟨holding, held⟩ := Option.ne_none_iff_exists'.mp known
    have inOrder := events_sublist_logged held
    have heldAfter : (Holdings.afterAll calls type).map Holding.closed = some holding.closed := by
      rw [held]
      rfl
    obtain ⟨⟨noted, notedListed, file⟩, texts, lines, rfl, written⟩ := kept.exists_lines heldAfter
      (fun event inside => exists_text_of_mem_logged (inOrder.subset inside)) counted
    cases notedListed.symm.trans (listed.trans files)
    exact ⟨_, texts, holding, file, lines, rfl, held, written,
      fun event inside => exists_entries_of_mem_logged (inOrder.subset inside), inOrder⟩

/-- A file is opened anew after its log was closed, and an event has no text. -/
def reopenedHistory : List Call :=
  [
    .exception ⟨1⟩ "a.cnf" "ValueError" "unreadable", .close,
    .solve ⟨2⟩ "b.cnf" { statistics := [("rate", .foreign "Fraction")] },
    .exception ⟨3⟩ "c.cnf" "ValueError" "unreadable"
  ]

theorem summary_counts_lines_of_files_reopened :
    ∃ prepared log,
      EventLog.start {} ⟨0⟩ "logs" "run" = .ok (prepared, log) ∧
      (∀ ending ∈ endings, ∃ parts, prepared.writable (log.path ending) = .ok parts) ∧
      ∃ final closed path,
        finalize (afterAll (prepared, log) reopenedHistory).1 (afterAll (prepared, log) reopenedHistory).2
          ⟨4⟩ = ⟨final, closed, .ok path⟩ ∧
        closed.counts = [("exception", 1), ("solve", 0)] := by
  have made : Files.makeDirectories {} "logs" = .ok ⟨[], [(["logs"], .directory)]⟩ := by decide +kernel
  have started : EventLog.start {} ⟨0⟩ "logs" "run" = .ok (⟨[], [(["logs"], .directory)]⟩,
      ⟨"logs", "run", [], [],
        [("run_name", .text "run"), ("start_time", .text (Instant.iso ⟨0⟩)), ("log_files", .map [])]⟩) := by
    rw [EventLog.start, made]
    rfl
  have located : ∀ ending ∈ endings,
      Files.writable ⟨[], [(["logs"], .directory)]⟩ (Path.join "logs" ("run" ++ "_" ++ ending)) =
        .ok ["logs", "run_" ++ ending] := by
    decide +kernel
  have writable : ∀ ending ∈ endings, ∃ parts,
      Files.writable ⟨[], [(["logs"], .directory)]⟩ (Path.join "logs" ("run" ++ "_" ++ ending)) =
        .ok parts := fun ending member => ⟨_, located ending member⟩
  obtain ⟨final, closed, path, _, _, _, _, finalized, _⟩ :=
    summary_counts_lines_of_files ⟨0⟩ "logs" "run" started writable reopenedHistory ⟨4⟩
  refine ⟨_, _, started, writable, final, closed, path, finalized, ?_⟩
  have same := congrArg (fun step => step.log.counts) finalized
  exact same.symm.trans (by decide +kernel)

end EventLog

end Clausal
