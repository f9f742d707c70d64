import Clausal.Datum.Tree
import Clausal.EventLog
import Clausal.Proofs.Environment

/-!
What events tell. Every event has the fields of its type; the outcome of a run and a fault can be read off the
fields of the events that they are logged as.
-/

set_option autoImplicit false

namespace Clausal

theorem Status.label_injective : Function.Injective Status.label := by
  intro left right same
  cases left <;> cases right <;> first | rfl | exact absurd same (by decide)

theorem Environment.get?_decided_eq_some_iff {environment : Environment} {atom : Variable} {value : Bool} :
    Assoc.get? atom environment.decided = some value ↔ environment.get atom = .ofBool value := by
  rw [← mem_decided_iff]
  have distinct : (Assoc.keys environment.decided).Nodup :=
    environment.keys_decided_sublist.nodup environment.nodup_atoms
  exact ⟨Assoc.mem_of_get?_eq_some, Assoc.get?_of_mem distinct⟩

namespace EventLog

/-- The names of the fields of an event, in order. -/
def fieldNames (type : String) : List String :=
  if type = solveType then ["source", "status", "runtime", "statistics", "assignment", "timestamp"]
  else ["source", "exception_type", "exception_message", "timestamp"]

/-- The event tells the outcome of a run on what came from the source. -/
structure TellsOutcome (event : Datum) (now : Instant) (source : String) (outcome : Outcome) : Prop where
  source : event.node? ["source"] = some (.text source)
  status : ∀ status : Status,
    event.node? ["status"] = some (.text status.label) ↔ outcome.status = status
  runtime : event.node? ["runtime"] = some (.ofQuantity outcome.runtime)
  statistics : event.node? ["statistics"] = some (.map outcome.statistics)
  /-- Only a satisfiable outcome has values, those of the variables that its environment decides. -/
  assignment : ∀ (atom : Variable) (value : Bool),
    event.node? ["assignment", atom.name] = some (.bool value) ↔
      outcome.status = .satisfiable ∧
        ∃ environment, outcome.environment = some environment ∧ environment.get atom = .ofBool value
  timestamp : event.node? ["timestamp"] = some (.real now.seconds)

/-- The event tells a fault that came up with what came from the source. -/
structure TellsFault (event : Datum) (now : Instant) (source kind message : String) : Prop where
  source : event.node? ["source"] = some (.text source)
  kind : event.node? ["exception_type"] = some (.text kind)
  message : event.node? ["exception_message"] = some (.text message)
  timestamp : event.node? ["timestamp"] = some (.real now.seconds)

theorem node?_assignment (now : Instant) (source : String) (outcome : Outcome) (step : String) :
    (solveEvent now source outcome).node? ["assignment", step] =
      outcome.assignment?.bind fun assignment =>
        Assoc.get? step (assignment.map (Prod.map Variable.name Datum.bool)) := by
  change Datum.node? [step] ((outcome.assignment?.map _).getD .null) = _
  cases outcome.assignment? with
  | none => rfl
  | some assignment => exact Option.bind_fun_some _

theorem solveEvent_tells (now : Instant) (source : String) (outcome : Outcome) :
    TellsOutcome (solveEvent now source outcome) now source outcome where
  source := rfl
  status := by
    intro status
    change some (Datum.text outcome.status.label) = _ ↔ _
    rw [Option.some.injEq, Datum.text.injEq, Status.label_injective.eq_iff]
  runtime := rfl
  statistics := rfl
  assignment := by
    intro atom value
    have named : Function.Injective Variable.name := fun _ _ same => congrArg Variable.mk same
    rw [node?_assignment, Outcome.assignment?]
    cases outcome.status with
    | satisfiable =>
        cases outcome.environment with
        | none => simp
        | some environment => simp [Assoc.get?_mapEntries named, Environment.get?_decided_eq_some_iff]
    | unsatisfiable => simp
    | unknown => simp
    | error => simp
  timestamp := rfl

theorem exceptionEvent_tells (now : Instant) (source kind message : String) :
    TellsFault (exceptionEvent now source kind message) now source kind message :=
  ⟨rfl, rfl, rfl, rfl⟩

end EventLog

end Clausal
