import Clausal.Proofs.EventLog.History

/-!
Which events stay in their files. The file for a type of events is followed on its own, whatever becomes of the
other files of the log: it holds the events that went through since it was last opened. Events are lost just
when a file is opened again after the log was closed.
-/

set_option autoImplicit false

namespace Clausal.EventLog

/-! What a call answers, and what it does to the log. -/

def Call.answer (state : Files × EventLog) : Call → Except EventFault Unit
  | .solve now source outcome => (logSolve state.1 state.2 now source outcome).result
  | .exception now source kind message => (logException state.1 state.2 now source kind message).result
  | .close => .ok ()
  | .finalize now => (EventLog.finalize state.1 state.2 now).result.map fun _ => ()

/-- The event of a type that a call logs, if it goes through. -/
def Call.logs? (call : Call) (type : String) (state : Files × EventLog) : Option Datum :=
  call.event?.bind fun (given, event) =>
    if given = type ∧ (call.answer state).toOption.isSome then some event else none

/-- The events of a type that went through, in order. -/
def wentThrough (type : String) (state : Files × EventLog) : List Call → List Datum
  | [] => []
  | call :: rest => (call.logs? type state).toList ++ wentThrough type (after state call) rest

/-- The log was closed behind an event of the type that went through, and another one came up after that. -/
def Reopens (type : String) (state : Files × EventLog) (calls : List Call) : Prop :=
  ∃ earlier closing later, calls = earlier ++ closing :: later ∧ closing.event? = none ∧
    wentThrough type state earlier ≠ [] ∧ offered type later ≠ []

variable {state : Files × EventLog} {files : Files} {log : EventLog} {type other : String}
  {calls : List Call} {call : Call} {event : Datum}

theorem afterAll_concat (state : Files × EventLog) (calls : List Call) (call : Call) :
    afterAll state (calls ++ [call]) = after (afterAll state calls) call := by
  rw [afterAll, List.foldl_append]
  rfl

theorem wentThrough_concat (type : String) (state : Files × EventLog) (calls : List Call) (call : Call) :
    wentThrough type state (calls ++ [call]) =
      wentThrough type state calls ++ (call.logs? type (afterAll state calls)).toList := by
  induction calls generalizing state with
  | nil => exact List.append_nil _
  | cons first rest ih =>
      rw [List.cons_append, wentThrough, ih, wentThrough, List.append_assoc]
      rfl

theorem logged_append (type : String) (first second : List Call) :
    logged type (first ++ second) = logged type first ++ logged type second := by
  simp [logged, offered]

theorem mem_eventTypes_of_event? (found : call.event? = some (type, event)) : type ∈ eventTypes := by
  cases call with
  | solve now source outcome =>
      cases found
      exact List.mem_cons_self
  | exception now source kind message =>
      cases found
      exact List.mem_cons_of_mem _ List.mem_cons_self
  | close => cases found
  | finalize now => cases found

/-- A call for an event appends it. -/
theorem after_of_event? (found : call.event? = some (type, event)) (state : Files × EventLog) :
    after state call =
        ((append state.1 state.2 type event).files, (append state.1 state.2 type event).log) ∧
      call.answer state = (append state.1 state.2 type event).result := by
  cases call with
  | solve now source outcome =>
      cases found
      exact ⟨rfl, rfl⟩
  | exception now source kind message =>
      cases found
      exact ⟨rfl, rfl⟩
  | close => cases found
  | finalize now => cases found

/-- Two logs with the same names for their files. -/
def SameNames (first second : EventLog) : Prop :=
  first.directory = second.directory ∧ first.runName = second.runName

theorem SameNames.path_eq {first second : EventLog} (same : first.SameNames second) (ending : String) :
    first.path ending = second.path ending := by
  rw [path, path, same.1, same.2]

theorem sameNames_handleFor (files : Files) (log : EventLog) (type : String) :
    (handleFor files log type).log.SameNames log := by
  unfold handleFor
  split
  · exact ⟨rfl, rfl⟩
  · dsimp only
    split <;> exact ⟨rfl, rfl⟩

theorem sameNames_append (files : Files) (log : EventLog) (type : String) (event : Datum) :
    (append files log type event).log.SameNames log := by
  have opened := sameNames_handleFor files log type
  unfold append
  dsimp only
  split
  · exact opened
  · split <;> exact opened

theorem sameNames_finalize (files : Files) (log : EventLog) (now : Instant) :
    (finalize files log now).log.SameNames log := by
  unfold finalize
  dsimp only
  split
  · exact ⟨rfl, rfl⟩
  · split <;> exact ⟨rfl, rfl⟩

/-! One file among those of a log. -/

/-- The file for a type of events stands at the place where it can be opened, if there is one, with what is held
in it, and the log writes on at its end. -/
structure Follows (type : String) (place : Option (List String)) (held : Option Holding) (files : Files)
    (log : EventLog) : Prop where
  writable : ∀ parts, files.writable (log.eventPath type) = .ok parts ↔ place = some parts
  standing : ∀ holding, held = some holding →
    ∃ parts, place = some parts ∧ files.node? parts = some (.file holding.content)
  handle : Assoc.get? type log.handles = held.bind fun holding =>
    if holding.isOpen then place.map (⟨·, some holding.content.length⟩) else none
  placed : ∀ given handle, Assoc.get? given log.handles = some handle →
    given ∈ eventTypes ∧ files.writable (log.eventPath given) = .ok handle.parts

namespace Follows

variable {place : Option (List String)} {held : Option Holding} {parts target : List String}
  {ending : String}

theorem of_start {before : Files} {start : Instant} {directory runName : String}
    (started : EventLog.start before start directory runName = .ok (files, log)) (type : String) :
    Follows type (files.writable (log.eventPath type)).toOption none files log := by
  obtain ⟨made, _, same⟩ := bind_eq_ok started
  cases same
  refine ⟨fun parts => ?_, (fun _ none => nomatch none), rfl, (fun _ _ none => nomatch none)⟩
  cases files.writable _ <;> simp [Except.toOption]

/-- Writing another file of the log leaves the file as it is. -/
theorem set_beside (follows : Follows type place held files log) (known : type ∈ eventTypes)
    (member : ending ∈ endings) (different : ending ≠ eventEnding type)
    (writable : files.writable (log.path ending) = .ok target) (content : List UInt8) :
    Follows type place held (files.set target (.file content)) log := by
  have free := Files.free_of_writable writable
  refine ⟨fun parts => ?_, fun holding holds => ?_, follows.handle, fun given handle found => ?_⟩
  · rw [Files.writable_set_iff free]
    exact follows.writable parts
  · obtain ⟨parts, placed, standing⟩ := follows.standing holding holds
    have alsoWritable := (follows.writable parts).mpr placed
    have apart : target ≠ parts := fun same =>
      different (ending_eq_of_place_eq member (eventEnding_mem_endings known) (same ▸ writable) alsoWritable)
    refine ⟨parts, placed, ?_⟩
    rw [Files.node?_set free, if_neg apart]
    exact standing
  · obtain ⟨givenKnown, givenWritable⟩ := follows.placed given handle found
    exact ⟨givenKnown, Files.writable_set givenWritable free content⟩

theorem handle_beside (follows : Follows type place held files log) (otherKnown : other ∈ eventTypes)
    (different : other ≠ type) {handle : Files.Handle}
    (writable : files.writable (log.eventPath other) = .ok handle.parts) (counts : List (String × Nat))
    (metadata : List (String × Datum)) :
    Follows type place held files
      { log with handles := Assoc.insert other handle log.handles, counts, metadata } := by
  refine ⟨follows.writable, follows.standing, ?_, fun given opened found => ?_⟩
  · rw [Assoc.get?_insert, if_neg different]
    exact follows.handle
  · rw [Assoc.get?_insert] at found
    split at found
    · next same =>
        cases found
        cases same
        exact ⟨otherKnown, writable⟩
    · exact follows.placed given opened found

theorem eventEnding_injective {first second : String} (same : eventEnding first = eventEnding second) :
    first = second := by
  have lists := congrArg String.toList same
  rw [eventEnding, eventEnding, String.toList_append, String.toList_append] at lists
  exact String.toList_inj.mp (List.append_cancel_right lists)

theorem handleFor_beside (follows : Follows type place held files log) (known : type ∈ eventTypes)
    (otherKnown : other ∈ eventTypes) (different : other ≠ type) :
    let step := EventLog.handleFor files log other
    Follows type place held step.files step.log ∧
      ∀ handle, step.result = .ok handle →
        step.files.writable (step.log.eventPath other) = .ok handle.parts := by
  unfold EventLog.handleFor
  split
  · next handle found =>
      refine ⟨follows, fun opened same => ?_⟩
      cases same
      exact (follows.placed other handle found).2
  · dsimp only
    split
    · exact ⟨⟨follows.writable, follows.standing, follows.handle, follows.placed⟩, (fun _ same => nomatch same)⟩
    · next created handle opened =>
        obtain ⟨target, writable, rfl, rfl⟩ := Files.eq_of_create opened
        have beside : eventEnding other ≠ eventEnding type := fun same =>
          different (eventEnding_injective same)
        have emptied := follows.set_beside known (eventEnding_mem_endings otherKnown) beside writable []
        have stays := Files.writable_set writable (Files.free_of_writable writable) []
        refine ⟨emptied.handle_beside otherKnown different stays _ _, fun _ same => ?_⟩
        cases same
        exact stays

theorem append_beside (follows : Follows type place held files log) (known : type ∈ eventTypes)
    (otherKnown : other ∈ eventTypes) (different : other ≠ type) (event : Datum) :
    let step := EventLog.append files log other event
    Follows type place held step.files step.log := by
  obtain ⟨followsOpened, placed⟩ := follows.handleFor_beside known otherKnown different
  unfold EventLog.append
  dsimp only
  split
  · exact followsOpened
  · next handle opened =>
      split
      · exact followsOpened
      · have writable := placed handle opened
        have beside : eventEnding other ≠ eventEnding type := fun same =>
          different (eventEnding_injective same)
        have written := followsOpened.set_beside known (eventEnding_mem_endings otherKnown) beside writable
        have stays := Files.writable_set writable (Files.free_of_writable writable)
        refine (written _).handle_beside otherKnown different ?_ _ _
        exact stays _

/-- The file is open with the given holding. -/
theorem put (follows : Follows type (some parts) held files log) (known : type ∈ eventTypes)
    {holding : Holding} (isOpen : holding.isOpen = true) (counts : List (String × Nat))
    (metadata : List (String × Datum)) :
    Follows type (some parts) (some holding) (files.set parts (.file holding.content))
      { log with
        handles := Assoc.insert type ⟨parts, some holding.content.length⟩ log.handles
        counts, metadata } := by
  have writable := (follows.writable parts).mpr rfl
  have free := Files.free_of_writable writable
  refine ⟨fun others => ?_, fun other same => ?_, ?_, fun given opened found => ?_⟩
  · rw [Files.writable_set_iff free]
    exact follows.writable others
  · cases same
    refine ⟨parts, rfl, ?_⟩
    rw [Files.node?_set free, if_pos rfl]
  · rw [Assoc.get?_insert, if_pos rfl, Option.bind_some, if_pos isOpen]
    rfl
  · rw [Assoc.get?_insert] at found
    split at found
    · next same =>
        cases found
        cases same
        exact ⟨known, Files.writable_set writable free _⟩
    · obtain ⟨givenKnown, givenWritable⟩ := follows.placed given opened found
      exact ⟨givenKnown, Files.writable_set givenWritable free _⟩

theorem handleFor_self (follows : Follows type (some parts) held files log) (known : type ∈ eventTypes) :
    ∃ opened later,
      EventLog.handleFor files log type =
        ⟨opened, later, .ok ⟨parts, some (Holding.opened held).content.length⟩⟩ ∧
        Follows type (some parts) (some (Holding.opened held)) opened later := by
  have handle := follows.handle
  by_cases isOpen : ∃ holding, held = some holding ∧ holding.isOpen = true
  · obtain ⟨holding, rfl, isOpen⟩ := isOpen
    rw [Option.bind_some, if_pos isOpen, Option.map_some] at handle
    rw [Holding.opened_of_isOpen isOpen]
    refine ⟨files, log, ?_, follows⟩
    rw [EventLog.handleFor, handle]
  · have empty : Holding.opened held = ⟨true, []⟩ :=
      Holding.opened_of_not_isOpen fun holding holds =>
        Bool.eq_false_iff.mpr fun opened => isOpen ⟨holding, holds, opened⟩
    have noHandle : Assoc.get? type log.handles = none := by
      rw [handle]
      cases held with
      | none => rfl
      | some holding => exact if_neg fun opened => isOpen ⟨holding, rfl, opened⟩
    have created := Files.create_of_writable ((follows.writable parts).mpr rfl)
    rw [empty]
    refine ⟨_, _, ?_, follows.put known rfl (Assoc.insert type 0 log.counts) (log.notePath type).metadata⟩
    rw [EventLog.handleFor, noHandle]
    simp only [created]
    rfl

/-- Where the file can be opened, an event goes through if it has a text. -/
theorem append_self (follows : Follows type (some parts) held files log) (known : type ∈ eventTypes)
    (event : Datum) :
    let step := EventLog.append files log type event
    Follows type (some parts) (some ((Holding.opened held).add event)) step.files step.log ∧
      step.result.toOption.isSome = (Json.write event).toOption.isSome := by
  obtain ⟨opened, later, handled, followsOpened⟩ := follows.handleFor_self known
  cases written : Json.write event with
  | error fault =>
      simp only [EventLog.append, handled, written, Holding.add_of_error written]
      exact ⟨followsOpened, rfl⟩
  | ok text =>
      obtain ⟨_, same, standing⟩ := followsOpened.standing _ rfl
      cases same
      have isOpen : ((Holding.opened held).add event).isOpen = true := by
        rw [Holding.add_of_ok written]
        exact Holding.isOpen_opened _
      have put := followsOpened.put known isOpen
      rw [Holding.content_add written] at put
      simp only [EventLog.append, handled, written, Files.write_at_end standing]
      exact ⟨put _ _, rfl⟩

theorem append_unplaced (follows : Follows type none held files log) (event : Datum) :
    let step := EventLog.append files log type event
    Follows type none held step.files step.log ∧ step.result.toOption = none := by
  have noHandle : Assoc.get? type log.handles = none := by
    rw [follows.handle]
    cases held with
    | none => rfl
    | some holding => exact (follows.standing holding rfl).elim fun _ placed => nomatch placed.1
  have refused : ∃ fault, files.create (log.eventPath type) = .error fault := by
    cases created : files.create (log.eventPath type) with
    | error fault => exact ⟨fault, rfl⟩
    | ok pair =>
        obtain ⟨parts, writable, _⟩ := Files.eq_of_create created
        exact nomatch (follows.writable parts).mp writable
  obtain ⟨fault, refused⟩ := refused
  simp only [EventLog.append, EventLog.handleFor, noHandle, refused]
  exact ⟨⟨follows.writable, follows.standing, follows.handle, follows.placed⟩, rfl⟩

theorem close (follows : Follows type place held files log) (metadata : List (String × Datum)) :
    Follows type place (held.map Holding.closed) files { log.close with metadata } := by
  refine ⟨follows.writable, fun holding holds => ?_, ?_, (fun _ _ none => nomatch none)⟩
  · obtain ⟨before, held, rfl⟩ := Option.map_eq_some_iff.mp holds
    exact follows.standing before held
  · cases held <;> rfl

theorem finalize (follows : Follows type place held files log) (known : type ∈ eventTypes)
    (now : Instant) :
    let step := EventLog.finalize files log now
    Follows type place (held.map Holding.closed) step.files step.log := by
  have closed := follows.close
  have beside : summaryEnding ≠ eventEnding type := summaryEnding_ne type known
  unfold EventLog.finalize
  dsimp only
  split
  · exact closed _
  · next created handle opened =>
      obtain ⟨target, writable, rfl, rfl⟩ := Files.eq_of_create opened
      have emptied := fun metadata =>
        (closed metadata).set_beside known summaryEnding_mem_endings beside writable []
      have stays := Files.writable_set writable (Files.free_of_writable writable) []
      split
      · exact emptied _
      · exact (emptied _).set_beside known summaryEnding_mem_endings beside stays _

theorem after_silent (follows : Follows type place held state.1 state.2) (known : type ∈ eventTypes)
    (silent : call.event? = none) :
    Follows type place (held.map Holding.closed) (EventLog.after state call).1 (EventLog.after state call).2 := by
  cases call with
  | solve now source outcome => cases silent
  | exception now source kind message => cases silent
  | close => exact follows.close _
  | finalize now => exact follows.finalize known now

theorem after_beside (follows : Follows type place held state.1 state.2) (known : type ∈ eventTypes)
    (found : call.event? = some (other, event)) (different : other ≠ type) :
    Follows type place held (EventLog.after state call).1 (EventLog.after state call).2 := by
  rw [(after_of_event? found state).1]
  exact follows.append_beside known (mem_eventTypes_of_event? found) different event

/-- With a call the holding changes as if all other files could be opened as well. -/
theorem after {holdings : Holdings} (follows : Follows type (some parts) (holdings type) state.1 state.2)
    (known : type ∈ eventTypes) (call : Call) :
    Follows type (some parts) (holdings.after call type) (EventLog.after state call).1
        (EventLog.after state call).2 ∧
      (call.logs? type state).toList = logged type [call] := by
  cases found : call.event? with
  | none =>
      have silent : (call.logs? type state).toList = logged type [call] := by
        simp [Call.logs?, logged, offered, found]
      refine ⟨?_, silent⟩
      rw [Holdings.after, found]
      exact follows.after_silent known found
  | some pair =>
      obtain ⟨given, event⟩ := pair
      rw [Holdings.after, found]
      by_cases same : given = type
      · subst same
        obtain ⟨changed, answered⟩ := after_of_event? found state
        obtain ⟨followsLater, through⟩ := follows.append_self known event
        rw [changed]
        refine ⟨?_, ?_⟩
        · simpa only [Function.update_self] using followsLater
        · by_cases written : (Json.write event).toOption.isSome = true <;>
            simp [Call.logs?, logged, offered, found, answered, through, written]
      · refine ⟨?_, ?_⟩
        · simpa only [Function.update_of_ne (Ne.symm same)] using follows.after_beside known found same
        · simp [Call.logs?, logged, offered, found, same]

theorem after_unplaced (follows : Follows type none none state.1 state.2) (known : type ∈ eventTypes)
    (call : Call) :
    Follows type none none (EventLog.after state call).1 (EventLog.after state call).2 ∧
      call.logs? type state = none := by
  cases found : call.event? with
  | none =>
      exact ⟨follows.after_silent known found, by rw [Call.logs?, found]; rfl⟩
  | some pair =>
      obtain ⟨given, event⟩ := pair
      by_cases same : given = type
      · subst same
        obtain ⟨changed, answered⟩ := after_of_event? found state
        obtain ⟨followsLater, refused⟩ := follows.append_unplaced event
        rw [changed]
        exact ⟨followsLater, by simp [Call.logs?, found, answered, refused]⟩
      · exact ⟨follows.after_beside known found same, by simp [Call.logs?, found, same]⟩

theorem afterAll (follows : Follows type (some parts) none files log) (known : type ∈ eventTypes)
    (calls : List Call) :
    Follows type (some parts) (Holdings.afterAll calls type) (EventLog.afterAll (files, log) calls).1
        (EventLog.afterAll (files, log) calls).2 ∧
      wentThrough type (files, log) calls = logged type calls := by
  induction calls using List.reverseRecOn with
  | nil => exact ⟨follows, rfl⟩
  | append_singleton calls call ih =>
      obtain ⟨followsSoFar, same⟩ := ih
      obtain ⟨followsLater, last⟩ := followsSoFar.after known call
      rw [afterAll_concat, Holdings.afterAll_concat, wentThrough_concat, same, last, logged_append]
      exact ⟨followsLater, rfl⟩

theorem afterAll_unplaced (follows : Follows type none none files log) (known : type ∈ eventTypes)
    (calls : List Call) :
    Follows type none none (EventLog.afterAll (files, log) calls).1
        (EventLog.afterAll (files, log) calls).2 ∧
      wentThrough type (files, log) calls = [] := by
  induction calls using List.reverseRecOn with
  | nil => exact ⟨follows, rfl⟩
  | append_singleton calls call ih =>
      obtain ⟨followsSoFar, nothing⟩ := ih
      obtain ⟨followsLater, silent⟩ := followsSoFar.after_unplaced known call
      rw [afterAll_concat, wentThrough_concat, nothing, silent]
      exact ⟨followsLater, rfl⟩

end Follows

/-! What is lost. -/

theorem Holding.events_add (holding : Holding) (event : Datum) :
    (holding.add event).events =
      holding.events ++ [event].filter fun event => (Json.write event).toOption.isSome := by
  cases written : Json.write event with
  | error fault =>
      rw [Holding.add_of_error written]
      simp [written, Except.toOption]
  | ok text =>
      rw [Holding.add_of_ok written]
      simp [written, Except.toOption]

/-- The log was closed after the last event of a type came up. -/
def ClosedSince (type : String) (calls : List Call) : Prop :=
  ∃ earlier closing later, calls = earlier ++ closing :: later ∧ closing.event? = none ∧
    offered type later = []

/-- The log was closed behind an event of a type that has a text, and another one came up after that. -/
def LoggedAnew (type : String) (calls : List Call) : Prop :=
  ∃ earlier closing later, calls = earlier ++ closing :: later ∧ closing.event? = none ∧
    logged type earlier ≠ [] ∧ offered type later ≠ []

variable {earlier later : List Call} {closing : Call} {holdings : Holdings} {holding : Holding}

theorem concat_eq_split_iff : calls ++ [call] = earlier ++ closing :: later ↔
    (earlier = calls ∧ closing = call ∧ later = []) ∨
      ∃ front, calls = earlier ++ closing :: front ∧ later = front ++ [call] := by
  constructor
  · intro split
    rcases List.eq_nil_or_concat' later with rfl | ⟨front, last, rfl⟩
    · obtain ⟨rfl, same⟩ := List.append_inj' split rfl
      cases same
      exact .inl ⟨rfl, rfl, rfl⟩
    · rw [← List.cons_append, ← List.append_assoc] at split
      obtain ⟨rfl, same⟩ := List.append_inj' split rfl
      cases same
      exact .inr ⟨front, rfl, rfl⟩
  · rintro (⟨rfl, rfl, rfl⟩ | ⟨front, rfl, rfl⟩)
    · rfl
    · simp

theorem offered_append (type : String) (first second : List Call) :
    offered type (first ++ second) = offered type first ++ offered type second := by
  simp [offered]

theorem logged_eq_nil_of_offered (none : offered type calls = []) : logged type calls = [] := by
  rw [logged, none]
  rfl

theorem offered_of_event?_none (silent : call.event? = none) : offered type [call] = [] := by
  simp [offered, silent]

theorem closedSince_concat : ClosedSince type (calls ++ [call]) ↔
    call.event? = none ∨ ClosedSince type calls ∧ offered type [call] = [] := by
  constructor
  · rintro ⟨earlier, closing, later, split, silent, nothing⟩
    rcases concat_eq_split_iff.mp split with ⟨rfl, rfl, rfl⟩ | ⟨front, before, rfl⟩
    · exact .inl silent
    · rw [offered_append] at nothing
      obtain ⟨none, last⟩ := List.append_eq_nil_iff.mp nothing
      exact .inr ⟨⟨earlier, closing, front, before, silent, none⟩, last⟩
  · rintro (silent | ⟨⟨earlier, closing, later, split, silent, nothing⟩, last⟩)
    · exact ⟨calls, call, [], rfl, silent, rfl⟩
    · refine ⟨earlier, closing, later ++ [call], concat_eq_split_iff.mpr (.inr ⟨later, split, rfl⟩), silent, ?_⟩
      rw [offered_append, nothing, last]
      rfl

/-- What comes up last loses what was logged before if the log was closed in between. -/
theorem loggedAnew_concat : LoggedAnew type (calls ++ [call]) ↔
    LoggedAnew type calls ∨
      ClosedSince type calls ∧ logged type calls ≠ [] ∧ offered type [call] ≠ [] := by
  constructor
  · rintro ⟨earlier, closing, later, split, silent, some, another⟩
    rcases concat_eq_split_iff.mp split with ⟨rfl, rfl, rfl⟩ | ⟨front, rfl, rfl⟩
    · exact absurd rfl another
    · rw [offered_append] at another
      by_cases nothing : offered type front = []
      · refine .inr ⟨⟨earlier, closing, front, rfl, silent, nothing⟩, ?_, ?_⟩
        · rw [logged_append]
          exact fun empty => some (List.append_eq_nil_iff.mp empty).1
        · rwa [nothing, List.nil_append] at another
      · exact .inl ⟨earlier, closing, front, rfl, silent, some, nothing⟩
  · rintro (⟨earlier, closing, later, rfl, silent, some, another⟩ |
      ⟨⟨earlier, closing, later, rfl, silent, nothing⟩, some, last⟩)
    · refine ⟨earlier, closing, later ++ [call], by simp, silent, some, ?_⟩
      rw [offered_append]
      exact fun empty => another (List.append_eq_nil_iff.mp empty).1
    · refine ⟨earlier, closing, later ++ [call], by simp, silent, ?_, ?_⟩
      · -- Behind the closing call there was nothing of the type.
        have behind : logged type (closing :: later) = [] := by
          refine logged_eq_nil_of_offered ?_
          rw [← List.singleton_append, offered_append, offered_of_event?_none silent, nothing]
          rfl
        rwa [logged_append, behind, List.append_nil] at some
      · rw [offered_append, nothing]
        exact last

theorem Holdings.of_after (held : holdings.after call type = some holding) :
    (call.event? = none ∧ ∃ before, holdings type = some before ∧ holding = before.closed) ∨
      (call.event? ≠ none ∧ offered type [call] = [] ∧ holdings type = some holding) ∨
        ∃ event, call.event? = some (type, event) ∧
          holding = (Holding.opened (holdings type)).add event := by
  rw [after] at held
  cases found : call.event? with
  | none =>
      simp only [found] at held
      obtain ⟨before, heldBefore, rfl⟩ := Option.map_eq_some_iff.mp held
      exact .inl ⟨rfl, before, heldBefore, rfl⟩
  | some pair =>
      obtain ⟨given, event⟩ := pair
      simp only [found] at held
      by_cases same : type = given
      · subst same
        rw [Function.update_self] at held
        cases held
        exact .inr (.inr ⟨event, rfl, rfl⟩)
      · rw [Function.update_of_ne same] at held
        exact .inr (.inl ⟨Option.some_ne_none _, by simp [offered, found, Ne.symm same], held⟩)

theorem offered_of_event? (found : call.event? = some (type, event)) : offered type [call] = [event] := by
  simp [offered, found]

theorem isOpen_iff (held : Holdings.afterAll calls type = some holding) :
    holding.isOpen = true ↔ ¬ ClosedSince type calls := by
  induction calls using List.reverseRecOn generalizing holding with
  | nil => cases held
  | append_singleton calls call ih =>
      rw [Holdings.afterAll_concat] at held
      rw [closedSince_concat]
      rcases Holdings.of_after held with ⟨silent, before, _, rfl⟩ | ⟨spoken, none, heldBefore⟩ |
        ⟨event, found, rfl⟩
      · simp [Holding.closed, silent]
      · simp [spoken, none, ih heldBefore]
      · have isOpen : ((Holding.opened (Holdings.afterAll calls type)).add event).isOpen = true := by
          cases written : Json.write event with
          | error fault => rw [Holding.add_of_error written, Holding.isOpen_opened]
          | ok text =>
              rw [Holding.add_of_ok written]
              exact Holding.isOpen_opened _
        simp [isOpen, found, offered_of_event? found]

theorem logged_ne_nil_of_loggedAnew (anew : LoggedAnew type calls) : logged type calls ≠ [] := by
  obtain ⟨earlier, closing, later, rfl, _, some, _⟩ := anew
  rw [logged_append]
  exact fun empty => some (List.append_eq_nil_iff.mp empty).1

/-- A file that is open is written on; any other one begins anew. -/
theorem events_opened (soFar : ∀ holding, Holdings.afterAll calls type = some holding →
      holding.events <:+ logged type calls ∧ (holding.events = logged type calls ↔ ¬ LoggedAnew type calls)) :
    (Holding.opened (Holdings.afterAll calls type)).events <:+ logged type calls ∧
      ((Holding.opened (Holdings.afterAll calls type)).events = logged type calls ↔
        ¬ LoggedAnew type calls ∧ (ClosedSince type calls → logged type calls = [])) := by
  have old : logged type calls = [] → ¬ LoggedAnew type calls := fun nothing anew =>
    logged_ne_nil_of_loggedAnew anew nothing
  cases held : Holdings.afterAll calls type with
  | none =>
      have nothing : logged type calls = [] := by
        refine logged_eq_nil_of_offered (Classical.not_not.mp fun some => ?_)
        exact (held_iff_offered type calls).mpr some held
      rw [nothing]
      exact ⟨List.nil_suffix, iff_of_true rfl ⟨old nothing, fun _ => rfl⟩⟩
  | some holding =>
      by_cases isOpen : holding.isOpen = true
      · have unclosed := (isOpen_iff held).mp isOpen
        obtain ⟨suffix, all⟩ := soFar holding held
        rw [Holding.opened_of_isOpen isOpen, all]
        exact ⟨suffix, iff_self_and.mpr fun _ closed => absurd closed unclosed⟩
      · have closed : ClosedSince type calls :=
          Classical.not_not.mp fun unclosed => isOpen ((isOpen_iff held).mpr unclosed)
        have begun : Holding.opened (some holding) = ⟨true, []⟩ :=
          Holding.opened_of_not_isOpen fun other same =>
            Bool.eq_false_iff.mpr fun opened => isOpen (Option.some.inj same ▸ opened)
        rw [begun]
        exact ⟨List.nil_suffix, fun same => ⟨old same.symm, fun _ => same.symm⟩,
          fun both => (both.2 closed).symm⟩

/-- A file holds the last of the events that were logged, and all of them unless it was opened anew behind some
of them. -/
theorem events_suffix_logged (held : Holdings.afterAll calls type = some holding) :
    holding.events <:+ logged type calls ∧
      (holding.events = logged type calls ↔ ¬ LoggedAnew type calls) := by
  induction calls using List.reverseRecOn generalizing holding with
  | nil => cases held
  | append_singleton calls call ih =>
      rw [Holdings.afterAll_concat] at held
      rw [loggedAnew_concat, logged_append]
      rcases Holdings.of_after held with ⟨silent, before, heldBefore, rfl⟩ | ⟨_, none, heldBefore⟩ |
        ⟨event, found, rfl⟩
      · have none : offered type [call] = [] := offered_of_event?_none silent
        rw [logged_eq_nil_of_offered none, List.append_nil]
        simpa [none, Holding.closed] using ih heldBefore
      · rw [logged_eq_nil_of_offered none, List.append_nil]
        simpa [none] using ih heldBefore
      · have offers := offered_of_event? found
        have last : logged type [call] = [event].filter fun event => (Json.write event).toOption.isSome := by
          rw [logged, offers]
        obtain ⟨⟨lost, split⟩, all⟩ := events_opened (fun _ heldBefore => ih heldBefore)
        rw [Holding.events_add, ← last, offers, List.append_left_inj, all]
        refine ⟨⟨lost, by rw [← List.append_assoc, split]⟩, ?_⟩
        simp [Classical.or_iff_not_imp_left]

theorem sameNames_after (state : Files × EventLog) (call : Call) :
    (after state call).2.SameNames state.2 := by
  cases call with
  | solve now source outcome => exact sameNames_append _ _ _ _
  | exception now source kind message => exact sameNames_append _ _ _ _
  | close => exact ⟨rfl, rfl⟩
  | finalize now => exact sameNames_finalize _ _ _

theorem sameNames_afterAll (state : Files × EventLog) (calls : List Call) :
    (afterAll state calls).2.SameNames state.2 := by
  induction calls using List.reverseRecOn with
  | nil => exact ⟨rfl, rfl⟩
  | append_singleton calls call ih =>
      rw [afterAll_concat]
      have last := sameNames_after (afterAll state calls) call
      exact ⟨last.1.trans ih.1, last.2.trans ih.2⟩

theorem wentThrough_of_unknown (unknown : type ∉ eventTypes) (state : Files × EventLog)
    (calls : List Call) : wentThrough type state calls = [] := by
  induction calls generalizing state with
  | nil => rfl
  | cons call rest ih =>
      rw [wentThrough, ih, List.append_nil, Option.toList_eq_nil_iff, Call.logs?, Option.bind_eq_none_iff]
      rintro ⟨given, event⟩ found
      have different : given ≠ type := fun same => unknown (same ▸ mem_eventTypes_of_event? found)
      exact if_neg fun both => different both.1

theorem not_reopens_of_nothing (nothing : ∀ calls, wentThrough type state calls = [])
    (calls : List Call) : ¬ Reopens type state calls := by
  rintro ⟨earlier, closing, later, _, _, some, _⟩
  exact some (nothing earlier)

theorem Follows.holdsLines {place : Option (List String)}
    (follows : Follows type place (some holding) files log)
    (each : ∀ event ∈ holding.events, ∃ text, Json.write event = .ok text) :
    ∃ texts, holding.events.mapM Json.write = .ok texts ∧
      files.HoldsLines (log.eventPath type) texts := by
  obtain ⟨parts, placed, standing⟩ := follows.standing holding rfl
  obtain ⟨texts, encoded, lines, plain⟩ := Holding.exists_texts each
  have read := Files.read_of_writable ((follows.writable parts).mpr placed) standing
  refine ⟨texts, encoded, _, read, ?_⟩
  rw [← lines]
  exact Text.lines_join_feeds plain

/-- An event that goes through has a file that can be opened. -/
theorem exists_follows_of_wentThrough {before : Files} {start : Instant} {directory runName : String}
    (started : EventLog.start before start directory runName = .ok (files, log))
    (some : wentThrough type (files, log) calls ≠ []) :
    type ∈ eventTypes ∧ ∃ parts, Follows type (.some parts) none files log := by
  have known : type ∈ eventTypes := Classical.not_not.mp fun unknown =>
    some (wentThrough_of_unknown unknown _ calls)
  have follows := Follows.of_start started type
  cases place : (files.writable (log.eventPath type)).toOption with
  | none =>
      rw [place] at follows
      exact absurd (follows.afterAll_unplaced known calls).2 some
  | some parts =>
      rw [place] at follows
      exact ⟨known, parts, follows⟩

/-- After any history, the file for a type of events holds the last of those that went through, in the order of
logging. It holds all of them unless the log was closed behind one of them and another one came up after that,
which opens the file anew. -/
theorem file_keeps_events_iff {before prepared : Files} (start : Instant) (directory runName : String)
    (started : EventLog.start before start directory runName = .ok (prepared, log)) (calls : List Call)
    (type : String) :
    let events := wentThrough type (prepared, log) calls
    ∃ kept, kept <:+ events ∧
      (events ≠ [] → ∃ texts, kept.mapM Json.write = .ok texts ∧
        (afterAll (prepared, log) calls).1.HoldsLines (log.eventPath type) texts) ∧
      (kept = events ↔ ¬ Reopens type (prepared, log) calls) := by
  intro events
  by_cases nothing : ∀ calls, wentThrough type (prepared, log) calls = []
  · exact ⟨[], List.nil_suffix, fun some => absurd (nothing calls) some,
      iff_of_true (nothing calls).symm (not_reopens_of_nothing nothing calls)⟩
  · obtain ⟨_, some⟩ := not_forall.mp nothing
    obtain ⟨known, parts, follows⟩ := exists_follows_of_wentThrough started some
    have through := follows.afterAll known
    have same : events = logged type calls := (through calls).2
    have anew : Reopens type (prepared, log) calls ↔ LoggedAnew type calls := by
      simp only [Reopens, LoggedAnew, fun calls => (through calls).2]
    have followsLater := (through calls).1
    have name : (afterAll (prepared, log) calls).2.eventPath type = log.eventPath type :=
      (sameNames_afterAll _ calls).path_eq _
    rw [same, anew]
    cases held : Holdings.afterAll calls type with
    | none =>
        have empty : logged type calls = [] := logged_eq_nil_of_offered <|
          Classical.not_not.mp fun some => (held_iff_offered type calls).mpr some held
        exact ⟨[], List.nil_suffix, fun some => absurd empty some,
          iff_of_true empty.symm fun anew => logged_ne_nil_of_loggedAnew anew empty⟩
    | some holding =>
        obtain ⟨suffix, all⟩ := events_suffix_logged held
        rw [held] at followsLater
        have lines := followsLater.holdsLines fun event member =>
          exists_text_of_mem_logged (suffix.subset member)
        exact ⟨holding.events, suffix, fun _ => name ▸ lines, all⟩

/-- An exception is logged, the log is closed, and another exception is logged. -/
def resumedHistory : List Call :=
  [
    .exception ⟨1⟩ "a.cnf" "ValueError" "unreadable", .close,
    .exception ⟨2⟩ "b.cnf" "ValueError" "unreadable"
  ]

/-- Both exceptions go through, and the file does not hold as many lines. -/
theorem file_keeps_events_iff_resumed :
    ∃ prepared log, EventLog.start {} ⟨0⟩ "logs" "run" = .ok (prepared, log) ∧
      Reopens exceptionType (prepared, log) resumedHistory ∧
      ∃ texts, (afterAll (prepared, log) resumedHistory).1.HoldsLines (log.eventPath exceptionType) texts ∧
        texts.length < (wentThrough exceptionType (prepared, log) resumedHistory).length := by
  have made : Files.makeDirectories {} "logs" = .ok ⟨[], [(["logs"], .directory)]⟩ := by decide +kernel
  let prepared : Files := ⟨[], [(["logs"], .directory)]⟩
  let log : EventLog := ⟨"logs", "run", [], [],
    [("run_name", .text "run"), ("start_time", .text (Instant.iso ⟨0⟩)), ("log_files", .map [])]⟩
  have started : EventLog.start {} ⟨0⟩ "logs" "run" = .ok (prepared, log) := by
    rw [EventLog.start, made]
    rfl
  have first : (wentThrough exceptionType (prepared, log) (resumedHistory.take 1)).length = 1 := by
    decide +kernel
  have both : (wentThrough exceptionType (prepared, log) resumedHistory).length = 2 := by decide +kernel
  have reopens : Reopens exceptionType (prepared, log) resumedHistory :=
    ⟨resumedHistory.take 1, .close, resumedHistory.drop 2, rfl, rfl, List.ne_nil_of_length_eq_add_one first,
      List.cons_ne_nil _ _⟩
  obtain ⟨kept, ⟨lost, split⟩, lines, all⟩ :=
    file_keeps_events_iff ⟨0⟩ "logs" "run" started resumedHistory exceptionType
  obtain ⟨texts, written, holds⟩ := lines (List.ne_nil_of_length_eq_add_one both)
  refine ⟨prepared, log, started, reopens, texts, holds, ?_⟩
  have some : lost ≠ [] := fun none => all.not.mpr (fun same => same reopens) (by rw [← split, none]; rfl)
  rw [← split, List.length_append, length_of_mapM_eq_ok written]
  exact Nat.lt_add_of_pos_left (List.length_pos_iff.mpr some)

end Clausal.EventLog
