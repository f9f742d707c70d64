import Clausal.EventLog
import Clausal.Proofs.Assoc
import Clausal.Proofs.Datum.Json
import Clausal.Proofs.Files
import Mathlib.Logic.Function.Basic

/-!
What the files of an event log hold. A file holds the events that were written since it was last opened, each
on a line of its own; the log counts them, knows where the file is, and writes on at its end. Every operation
of the log keeps this so.
-/

set_option autoImplicit false

namespace Clausal

theorem Text.Utf8.encode_append (front back : String) : encode (front ++ back) = encode front ++ encode back := by
  simp [encode]

namespace EventLog

/-- The events in a file since it was last opened, and whether it is open still. -/
structure Holding where
  isOpen : Bool
  events : List Datum

namespace Holding

def closed (holding : Holding) : Holding := { holding with isOpen := false }

/-- What is in a file once it is open: nothing, unless it was open before. -/
def opened : Option Holding → Holding
  | some ⟨true, events⟩ => ⟨true, events⟩
  | _ => ⟨true, []⟩

/-- An event without a text is not written. -/
def add (holding : Holding) (event : Datum) : Holding :=
  match Json.write event with
  | .ok _ => { holding with events := holding.events ++ [event] }
  | .error _ => holding

def line (event : Datum) : String :=
  match Json.write event with
  | .ok text => text ++ "\n"
  | .error _ => ""

def content (holding : Holding) : List UInt8 :=
  Text.Utf8.encode (String.join (holding.events.map line))

variable {holding : Holding} {event : Datum}

@[simp] theorem isOpen_opened (before : Option Holding) : (opened before).isOpen = true := by
  unfold opened
  split <;> rfl

theorem opened_of_isOpen (isOpen : holding.isOpen = true) : opened (some holding) = holding := by
  obtain ⟨isOpen, events⟩ := holding
  subst isOpen
  rfl

theorem opened_of_not_isOpen {before : Option Holding}
    (unopened : ∀ holding, before = some holding → holding.isOpen = false) :
    opened before = ⟨true, []⟩ := by
  unfold opened
  split
  · next events => exact nomatch unopened ⟨true, events⟩ rfl
  · rfl

theorem add_of_ok {text : String} (written : Json.write event = .ok text) :
    holding.add event = { holding with events := holding.events ++ [event] } := by
  rw [add, written]

theorem add_of_error {fault : Json.Unserialisable} (refused : Json.write event = .error fault) :
    holding.add event = holding := by
  rw [add, refused]

theorem content_add {text : String} (written : Json.write event = .ok text) :
    (holding.add event).content = holding.content ++ Text.Utf8.encode (text ++ "\n") := by
  have last : line event = text ++ "\n" := by rw [line, written]
  rw [add_of_ok written, content, content, List.map_append, String.join_append,
    Text.Utf8.encode_append, List.map_singleton, last]
  simp

end Holding

/-- What is held for each type of events of which a file was opened. -/
abbrev Holdings := String → Option Holding

def eventTypes : List String := [solveType, exceptionType]

def eventEnding (type : String) : String := type ++ ".jsonl"

def summaryEnding : String := "metadata.json"

def endings : List String := summaryEnding :: eventTypes.map eventEnding

theorem summaryEnding_mem_endings : summaryEnding ∈ endings := List.mem_cons_self

theorem eventEnding_mem_endings {type : String} (known : type ∈ eventTypes) : eventEnding type ∈ endings :=
  List.mem_cons_of_mem _ (List.mem_map_of_mem known)

theorem summaryEnding_ne : ∀ type ∈ eventTypes, summaryEnding ≠ eventEnding type := by decide

theorem endsName_of_mem_endings : ∀ ending ∈ endings, Files.EndsName ending := by decide

theorem path_append (log : EventLog) (ending : String) :
    log.path ending = log.path "" ++ ending := by
  have sameHead : (log.runName ++ "_" ++ ending).toList.head? = (log.runName ++ "_").toList.head? := by
    rw [String.toList_append, List.head?_append_of_ne_nil]
    simp
  rw [path, path, Path.join, Path.join, sameHead, String.append_empty]
  split
  · rfl
  · split <;> simp only [String.append_assoc]

/-- The files of the log, the summary among them, are in different places. -/
theorem ending_eq_of_place_eq {log : EventLog} {files : Files} {first second : String}
    {parts : List String} (firstKnown : first ∈ endings) (secondKnown : second ∈ endings)
    (writable : files.writable (log.path first) = .ok parts)
    (alsoWritable : files.writable (log.path second) = .ok parts) : first = second := by
  have located := (Files.writable_eq_ok_iff.mp writable).1
  have alsoLocated := (Files.writable_eq_ok_iff.mp alsoWritable).1
  rw [path_append] at located alsoLocated
  exact Files.ending_eq_of_locate_eq (endsName_of_mem_endings first firstKnown)
    (endsName_of_mem_endings second secondKnown) located alsoLocated

/-- The log has the path of the file for a type of events in its list of files. -/
def Notes (log : EventLog) (type : String) : Prop :=
  ∃ paths, Assoc.get? "log_files" log.metadata = some (.map paths) ∧
    Assoc.get? type paths = some (.text (log.eventPath type))

/-- The log and its files agree on what is held. -/
structure Tracks (places : String → List String) (holdings : Holdings) (files : Files) (log : EventLog) :
    Prop where
  writable : ∀ ending ∈ endings, files.writable (log.path ending) = .ok (places ending)
  known : ∀ type, holdings type ≠ none → type ∈ eventTypes
  standing : ∀ type holding, holdings type = some holding →
    files.node? (places (eventEnding type)) = some (.file holding.content)
  handles : ∀ type, Assoc.get? type log.handles = (holdings type).bind fun holding =>
    if holding.isOpen then some ⟨places (eventEnding type), some holding.content.length⟩ else none
  counts : ∀ type, Assoc.get? type log.counts = (holdings type).map fun holding => holding.events.length
  distinct : (Assoc.keys log.counts).Nodup
  notes : ∀ type, holdings type ≠ none → log.Notes type
  listed : ∃ paths, Assoc.get? "log_files" log.metadata = some (.map paths) ∧
    ∀ entry ∈ paths, Json.Writable entry.2
  summarisable : ∀ entry ∈ log.metadata, Json.Writable entry.2

namespace Tracks

variable {places : String → List String} {holdings : Holdings} {files : Files} {log : EventLog}
  {type : String} {event : Datum}

theorem free (tracks : Tracks places holdings files log) {ending : String} (known : ending ∈ endings) :
    files.node? (places ending) ≠ some .directory :=
  Files.free_of_writable (tracks.writable ending known)

theorem ending_eq (tracks : Tracks places holdings files log) {first second : String}
    (firstKnown : first ∈ endings) (secondKnown : second ∈ endings)
    (same : places first = places second) : first = second := by
  have writable := tracks.writable first firstKnown
  rw [same] at writable
  exact ending_eq_of_place_eq firstKnown secondKnown writable (tracks.writable second secondKnown)

theorem type_eq (tracks : Tracks places holdings files log) {first second : String}
    (firstKnown : first ∈ eventTypes) (secondKnown : second ∈ eventTypes)
    (same : places (eventEnding first) = places (eventEnding second)) : first = second := by
  have endings := tracks.ending_eq (eventEnding_mem_endings firstKnown)
    (eventEnding_mem_endings secondKnown) same
  have lists := congrArg String.toList endings
  rw [eventEnding, eventEnding, String.toList_append, String.toList_append] at lists
  exact String.toList_inj.mp (List.append_cancel_right lists)

/-- A file that is open has the given holding, and the log has been brought in step. -/
theorem put (tracks : Tracks places holdings files log) (known : type ∈ eventTypes)
    (notes : log.Notes type) {holding : Holding} (isOpen : holding.isOpen = true) :
    Tracks places (Function.update holdings type (some holding))
      (files.set (places (eventEnding type)) (.file holding.content))
      { log with
        handles := Assoc.insert type ⟨places (eventEnding type), some holding.content.length⟩ log.handles
        counts := Assoc.insert type holding.events.length log.counts } where
  writable ending member :=
    Files.writable_set (tracks.writable ending member) (tracks.free (eventEnding_mem_endings known)) _
  known other held := by
    by_cases same : other = type
    · exact same ▸ known
    · exact tracks.known other (by rwa [Function.update_of_ne same] at held)
  standing other held holds := by
    rw [Files.node?_set (tracks.free (eventEnding_mem_endings known))]
    by_cases same : other = type
    · subst same
      rw [Function.update_self] at holds
      cases holds
      rw [if_pos rfl]
    · -- The file of another type is in another place.
      rw [Function.update_of_ne same] at holds
      have otherKnown : other ∈ eventTypes := tracks.known other (by simp [holds])
      rw [if_neg fun place => same (tracks.type_eq known otherKnown place).symm]
      exact tracks.standing other held holds
  handles other := by
    rw [Assoc.get?_insert, tracks.handles other]
    by_cases same : type = other
    · subst same
      simp [isOpen]
    · rw [if_neg same, Function.update_of_ne (Ne.symm same)]
  counts other := by
    rw [Assoc.get?_insert, tracks.counts other]
    by_cases same : type = other
    · subst same
      simp
    · rw [if_neg same, Function.update_of_ne (Ne.symm same)]
  distinct := Assoc.nodup_keys_insert tracks.distinct
  notes other held := by
    by_cases same : other = type
    · exact same ▸ notes
    · exact tracks.notes other (by rwa [Function.update_of_ne same] at held)
  listed := tracks.listed
  summarisable := tracks.summarisable

/-- The path of a file is noted before the file is opened, and other notes stay. -/
theorem notePath (tracks : Tracks places holdings files log) (type : String) :
    Tracks places holdings files (log.notePath type) ∧ (log.notePath type).Notes type := by
  obtain ⟨paths, listed, writable⟩ := tracks.listed
  have changed : log.notePath type = { log with
      metadata := Assoc.insert "log_files"
        (.map (Assoc.insert type (.text (log.eventPath type)) paths)) log.metadata } := by
    rw [EventLog.notePath, listed]
    rfl
  have writableAfter : ∀ entry ∈ Assoc.insert type (.text (log.eventPath type)) paths,
      Json.Writable entry.2 := by
    intro entry member
    cases Assoc.eq_or_mem_of_mem_insert member with
    | inl new => exact new ▸ Json.writable_text _
    | inr old => exact writable entry old
  have found : Assoc.get? "log_files" (Assoc.insert "log_files"
      (.map (Assoc.insert type (.text (log.eventPath type)) paths)) log.metadata) =
      some (.map (Assoc.insert type (.text (log.eventPath type)) paths)) := by
    rw [Assoc.get?_insert, if_pos rfl]
  rw [changed]
  refine ⟨{ tracks with notes := ?_, listed := ⟨_, found, writableAfter⟩, summarisable := ?_ },
    _, found, ?_⟩
  · intro other held
    obtain ⟨others, sameListed, noted⟩ := tracks.notes other held
    cases listed.symm.trans sameListed
    refine ⟨_, found, ?_⟩
    rw [Assoc.get?_insert]
    split
    · next same => exact same ▸ rfl
    · exact noted
  · intro entry member
    cases Assoc.eq_or_mem_of_mem_insert member with
    | inl new => exact new ▸ Json.writable_map writableAfter
    | inr old => exact tracks.summarisable entry old
  · rw [Assoc.get?_insert, if_pos rfl]
    rfl

theorem handleFor (tracks : Tracks places holdings files log) (known : type ∈ eventTypes) :
    ∃ opened later,
      EventLog.handleFor files log type =
        ⟨opened, later, .ok ⟨places (eventEnding type),
          some (Holding.opened (holdings type)).content.length⟩⟩ ∧
        Tracks places (Function.update holdings type (some (Holding.opened (holdings type)))) opened
          later := by
  -- The log has a handle just of the files that are open; any other file is emptied.
  by_cases isOpen : ∃ holding, holdings type = some holding ∧ holding.isOpen = true
  · obtain ⟨holding, held, isOpen⟩ := isOpen
    have handle := tracks.handles type
    rw [held, Option.bind_some, if_pos isOpen] at handle
    rw [held, Holding.opened_of_isOpen isOpen, ← held, Function.update_eq_self]
    refine ⟨files, log, ?_, tracks⟩
    rw [EventLog.handleFor, handle]
  · have empty : Holding.opened (holdings type) = ⟨true, []⟩ :=
      Holding.opened_of_not_isOpen fun holding held =>
        Bool.eq_false_iff.mpr fun opened => isOpen ⟨holding, held, opened⟩
    have noHandle : Assoc.get? type log.handles = none := by
      rw [tracks.handles type]
      cases held : holdings type with
      | none => rfl
      | some holding => exact if_neg fun opened => isOpen ⟨holding, held, opened⟩
    obtain ⟨noted, notes⟩ := tracks.notePath type
    rw [empty]
    refine ⟨_, _, ?_, noted.put known notes rfl⟩
    have created : files.create (log.eventPath type) = _ :=
      Files.create_of_writable (tracks.writable _ (eventEnding_mem_endings known))
    rw [EventLog.handleFor, noHandle]
    simp only [created]
    rfl

/-- An event is written behind what its file holds, and without a text it is not. -/
theorem append (tracks : Tracks places holdings files log) (known : type ∈ eventTypes) (event : Datum) :
    Tracks places
      (Function.update holdings type (some ((Holding.opened (holdings type)).add event)))
      (EventLog.append files log type event).files (EventLog.append files log type event).log := by
  obtain ⟨opened, later, handled, tracksLater⟩ := tracks.handleFor known
  cases written : Json.write event with
  | error fault =>
      rw [Holding.add_of_error written]
      simpa only [EventLog.append, handled, written] using tracksLater
  | ok text =>
      have isOpen : ((Holding.opened (holdings type)).add event).isOpen = true := by
        rw [Holding.add_of_ok written]
        exact Holding.isOpen_opened _
      have held : Function.update holdings type (some (Holding.opened (holdings type))) type =
          some (Holding.opened (holdings type)) := Function.update_self ..
      have count : Assoc.get? type later.counts = some (Holding.opened (holdings type)).events.length := by
        rw [tracksLater.counts type, held]
        rfl
      have put := tracksLater.put known (tracksLater.notes type (by simp)) isOpen
      rw [Function.update_idem] at put
      simp only [EventLog.append, handled, written, count,
        Files.write_at_end (tracksLater.standing type _ held)]
      rw [Holding.content_add written] at put
      rw [Holding.add_of_ok written] at put ⊢
      simpa using put

theorem close (tracks : Tracks places holdings files log) :
    Tracks places (fun type => (holdings type).map Holding.closed) files log.close where
  writable := tracks.writable
  known type held := tracks.known type fun none => held (by rw [none]; rfl)
  standing type holding holds := by
    obtain ⟨before, held, rfl⟩ := Option.map_eq_some_iff.mp holds
    exact tracks.standing type before held
  handles type := by
    cases held : holdings type <;> rfl
  counts type := by
    rw [Option.map_map]
    exact tracks.counts type
  distinct := tracks.distinct
  notes type held := tracks.notes type fun none => held (by rw [none]; rfl)
  listed := tracks.listed
  summarisable := tracks.summarisable

/-- An entry of the summary other than the list of files. -/
theorem note (tracks : Tracks places holdings files log) (key : String) {value : Datum}
    (different : key ≠ "log_files") (writable : Json.Writable value) :
    Tracks places holdings files { log with metadata := Assoc.insert key value log.metadata } := by
  have same : Assoc.get? "log_files" (Assoc.insert key value log.metadata) =
      Assoc.get? "log_files" log.metadata := by
    rw [Assoc.get?_insert, if_neg different]
  refine { tracks with notes := ?_, listed := ?_, summarisable := ?_ }
  · intro type held
    obtain ⟨paths, listed, noted⟩ := tracks.notes type held
    exact ⟨paths, same.trans listed, noted⟩
  · obtain ⟨paths, listed, each⟩ := tracks.listed
    exact ⟨paths, same.trans listed, each⟩
  · intro entry member
    cases Assoc.eq_or_mem_of_mem_insert member with
    | inl new => exact new ▸ writable
    | inr old => exact tracks.summarisable entry old

theorem setSummary (tracks : Tracks places holdings files log) (content : List UInt8) :
    Tracks places holdings (files.set (places summaryEnding) (.file content)) log := by
  have free := tracks.free summaryEnding_mem_endings
  refine { tracks with writable := ?_, standing := ?_ }
  · intro ending member
    exact Files.writable_set (tracks.writable ending member) free content
  · intro type holding held
    have known : type ∈ eventTypes := tracks.known type (by simp [held])
    have apart : places summaryEnding ≠ places (eventEnding type) := fun same =>
      summaryEnding_ne type known
        (tracks.ending_eq summaryEnding_mem_endings (eventEnding_mem_endings known) same)
    rw [Files.node?_set free, if_neg apart]
    exact tracks.standing type holding held

end Tracks

end EventLog

end Clausal
