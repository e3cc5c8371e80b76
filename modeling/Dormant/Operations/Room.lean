import Dormant.Rules.Feeding
import Dormant.Rules.Pauses
import Dormant.Operations.LetGo

/-!
# A display under exercise

The engine and an exercise send commands to one sink, each without looking at the other. `Room`
puts the two beside what is under way between the engine and the sink, with the command that the
sink carried out last, and lets each party step in any order. `Spared` is what the restore of an
exercise is for: in the end the panel is as the machine takes it to be.
-/

namespace Dormant
set_option autoImplicit false

open Tasks

def SinkCall.kind : SinkCall → Option CommandKind
  | .blank _ => some .blank
  | .wake | .wakeOnce => some .wake
  | .readState => none

/-- What the sink has carried out when it replies. -/
def SinkCall.carried : (call : SinkCall) → call.Reply → Option CommandKind
  | .blank _, result => if Except.isOk result then some .blank else none
  | .wake, result => if Except.isOk result then some .wake else none
  | .wakeOnce, result => if Except.isOk result then some .wake else none
  | .readState, _ => none

def SequenceCall.Commands (call : SequenceCall) : Prop := call.sinkCall.any (·.isCommand) = true

def ExerciseOutput.resume? :
    ExerciseOutput → Option (List RuleId × UInt64 × GenerationId)
  | .resume rules operationId generation => some (rules, operationId, generation)
  | _ => none

namespace Exercise

/-- The call whose reply the sequence waits for. -/
def pending (x : Exercise) : Option SequenceCall :=
  match x.supervisor, x.sequence with
  | .unstarted, _ => none
  | _, .waiting call _ => some call
  | _, _ => none

/-- The kind of the command that the sink carries out for the exercise in this step. -/
def carries (x : Exercise) : ExerciseEvent → Option CommandKind
  | .answer (.sink call) reply => if x.pending = some (.sink call) then call.carried reply else none
  | .wokeOnce result =>
    match x.supervisor with
    | .waking => if result.isOk then some .wake else none
    | _ => none
  | _ => none

end Exercise

/-- `resumes` are the ends of exercises on their way to the engine. -/
structure Room where
  engine : RulesEngine
  traffic : Traffic
  last : Option CommandKind
  exercise : Option Exercise
  resumes : List (List RuleId × UInt64 × GenerationId)

inductive RoomEvent where
  | engine (env : Env) (event : Event)
  | land (c : Command) (result : Except CmdFailure Unit)
  | hear (env : Env) (c : Command) (result : Except CmdFailure Unit)
  | resume (env : Env)
  | exercise (event : ExerciseEvent)

def Command.result (d : DisplayId) (c : Command) (result : Except CmdFailure Unit) :
    InternalResult :=
  match c with
  | .blank gen => .blank d gen result
  | .wake gen => .wake d gen result

/-- The exercise of a display that the engine spawns. -/
def startedBy (d : DisplayId) (outputs : List Output) : Option Exercise :=
  ((outputs.filterMap Output.task?).find? (·.display == d)).map Exercise.new

namespace Room

/-- The engine handles an event. -/
def handle (d : DisplayId) (r : Room) (env : Env) (event : Event) : Room :=
  let handled := Dormant.engine.next r.engine (env, event)
  { r with
    engine := handled.1
    traffic := r.traffic.send (commandsTo d handled.2)
    exercise := r.exercise.or (startedBy d handled.2) }

def next (d : DisplayId) (r : Room) : RoomEvent → Room
  | .engine env event => r.handle d env event
  | .land c result =>
    if c ∈ r.traffic.flying then
      { r with traffic := r.traffic.land c result, last := lastAfter r.last c result }
    else r
  | .hear env c result =>
    if (c, result) ∈ r.traffic.landed then
      { r with traffic := r.traffic.hear c result }.handle d env (.result (c.result d result))
    else r
  | .resume env =>
    match r.resumes with
    | [] => r
    | (rules, operationId, generation) :: rest =>
      { r with resumes := rest }.handle d env
        (.result (.exerciseResume rules operationId generation))
  | .exercise event =>
    match r.exercise with
    | none => r
    | some x =>
      let stepped := Dormant.exercise.next x event
      { r with
        exercise := some stepped.1
        resumes := r.resumes ++ stepped.2.filterMap ExerciseOutput.resume?
        last := (x.carries event).or r.last }

/-- Nothing is on its way to the sink. -/
def still (r : Room) : Prop :=
  r.traffic.flying = [] ∧ ∀ x ∈ r.exercise, ∀ call ∈ x.pending, ¬ call.Commands

/-- Once the exercise has ended and the sink has nothing to do, an active display was not
blanked last, nor a blanked one woken. -/
def Spared (d : DisplayId) (r : Room) : Prop :=
  ∀ x ∈ r.exercise, x.letGo.isSome → r.still → ∀ m ∈ r.engine.machines d,
    (m.phase = .active → r.last ≠ some .blank) ∧ (m.phase = .blanked → r.last ≠ some .wake)

/-- An engine with what is under way of a display, before an exercise. -/
def before (e : RulesEngine) (t : Traffic) (last : Option CommandKind) : Room where
  engine := e
  traffic := t
  last := last
  exercise := none
  resumes := []

end Room

def room (d : DisplayId) : Runs.System Room RoomEvent Empty where
  next r i := (r.next d i, [])

end Dormant
