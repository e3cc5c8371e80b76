import Dormant.Rules.Types
import Dormant.Foundations.Runs
import Dormant.Foundations.Tasks

/-!
# The exercise

The control-path exercise of `rules.rs` off the engine's loop: the sequence of sink calls, which
runs on a task of its own, and the task that supervises it. The supervisor races the sequence
against the cancellation of its lease. Dropping the handle of a spawned task detaches it, so the
sequence goes on when it has lost.
-/

namespace Dormant
set_option autoImplicit false

open Tasks

/-! ## The sink -/

inductive PowerState where
  | on
  | standby
  deriving DecidableEq, Repr

structure PanelState where
  power : Option PowerState
  brightness : Option UInt16
  deriving DecidableEq, Repr

inductive SinkCall where
  | blank (mode : BlankMode)
  | wake
  | wakeOnce
  | readState
  deriving DecidableEq, Repr

def SinkCall.Reply : SinkCall → Type
  | .blank _ => Except CmdFailure Unit
  | .wake => Except CmdFailure Unit
  | .wakeOnce => Except CmdFailure Unit
  | .readState => Option PanelState

def SinkCall.isCommand : SinkCall → Bool
  | .readState => false
  | _ => true

def SinkCall.isWake : SinkCall → Bool
  | .wake | .wakeOnce => true
  | _ => false

/-! ## The sequence -/

/-- What the sequence waits for: the sink, or the settle window. -/
inductive SequenceCall where
  | sink (call : SinkCall)
  | sleep (duration : ℕ)
  deriving DecidableEq, Repr

def SequenceCall.Reply : SequenceCall → Type
  | .sink call => call.Reply
  | .sleep _ => Unit

def SequenceCall.sinkCall : SequenceCall → Option SinkCall
  | .sink call => some call
  | .sleep _ => none

abbrev Sequence (α : Type) : Type := Task SequenceCall SequenceCall.Reply α

def sinkBlank (mode : BlankMode) : Sequence (Except CmdFailure Unit) :=
  Task.request (SequenceCall.sink (.blank mode))

def sinkWake : Sequence (Except CmdFailure Unit) := Task.request (SequenceCall.sink .wake)

def sinkWakeOnce : Sequence (Except CmdFailure Unit) :=
  Task.request (SequenceCall.sink .wakeOnce)

/-- A read that takes too long is answered with `none`. -/
def boundedReadState : Sequence (Option PanelState) := Task.request (SequenceCall.sink .readState)

def settle (duration : ℕ) : Sequence Unit := Task.request (SequenceCall.sleep duration)

def readAfterWakeWithSettle (wakeSettle : ℕ) : Sequence (Option PanelState) := do
  let firstRead ← boundedReadState
  if firstRead.bind (·.power) = some .on then
    return firstRead
  else
    settle wakeSettle
    let retryRead ← boundedReadState
    return retryRead.or firstRead

def errorOf (result : Except CmdFailure Unit) : Option String :=
  match result with
  | .ok _ => none
  | .error failure => some failure.error

def blankVerdict (result : Except CmdFailure Unit) (baseline after : Option PanelState) :
    ExerciseVerdict :=
  if !result.isOk then .failed
  else if baseline.isNone || after.isNone then .unconfirmable
  else if baseline = after then .failed
  else .confirmed

def restoreVerdict (result : Except CmdFailure Unit)
    (baseline postBlank postWake : Option PanelState) : ExerciseVerdict :=
  if !result.isOk then .failed
  else if baseline.isNone || postBlank.isNone || postWake.isNone then .unconfirmable
  else if postWake = postBlank then .failed
  else if postWake ≠ baseline then .failed
  else .confirmed

def isBlankedFamilyPhase (phase : String) : Bool :=
  phase == "blanked" || phase == "blanking" || phase == "staged" || phase == "render_pending"

/-- A step of the report, with what the panel read before and after it. -/
structure SequenceStep extends ExerciseStep where
  stateBefore : Option PanelState
  stateAfter : Option PanelState
  deriving DecidableEq, Repr

structure SequenceReport where
  display : DisplayId
  prePhase : String
  operationId : Option UInt64
  generation : Option GenerationId
  pausedRules : List RuleId
  steps : List SequenceStep
  deriving DecidableEq, Repr

def restoreByBlank (mode : BlankMode) (before : Option PanelState) : Sequence SequenceStep := do
  let result ← sinkBlank mode
  let after ← boundedReadState
  return {
    command := "restore", blankMode := some mode, returnedOk := result.isOk,
    stateBefore := before, stateAfter := after,
    verdict := if result.isOk then .confirmed else .failed, error := errorOf result }

def restoreByWake (before : Option PanelState) : Sequence SequenceStep := do
  let result ← sinkWakeOnce
  let after ← boundedReadState
  return {
    command := "restore", blankMode := none, returnedOk := result.isOk,
    stateBefore := before, stateAfter := after,
    verdict := if !result.isOk then .failed else if after.isNone then .unconfirmable
      else .confirmed,
    error := errorOf result }

def runExerciseSequence (task : ExerciseTask) : Sequence SequenceReport := do
  let mode := task.effectiveMode.getD .powerOff
  let baseline ← boundedReadState
  let blankResult ← sinkBlank mode
  let stateAfterBlank ← boundedReadState
  let wakeResult ← sinkWake
  let stateAfterWake ← readAfterWakeWithSettle task.wakeSettle
  let restoreStep ←
    if isBlankedFamilyPhase task.prePhase then restoreByBlank mode stateAfterWake
    else restoreByWake stateAfterWake
  return {
    display := task.display, prePhase := task.prePhase, operationId := none, generation := none,
    pausedRules := task.rulesToResume,
    steps := [
      { command := "read", blankMode := none, returnedOk := true, stateBefore := none,
        stateAfter := baseline, verdict := .unconfirmable, error := none },
      { command := "blank", blankMode := some mode, returnedOk := blankResult.isOk,
        stateBefore := baseline, stateAfter := stateAfterBlank,
        verdict := blankVerdict blankResult baseline stateAfterBlank,
        error := errorOf blankResult },
      { command := "wake", blankMode := none, returnedOk := wakeResult.isOk,
        stateBefore := stateAfterBlank, stateAfter := stateAfterWake,
        verdict := restoreVerdict wakeResult baseline stateAfterBlank stateAfterWake,
        error := errorOf wakeResult },
      restoreStep] }

/-! ## The supervisor -/

/-- What the supervised run came to: `failed` for its `Err`, after a cancellation or a panic of
the sequence, and `unwound` when the supervisor panicked itself. -/
inductive Outcome where
  | report (report : SequenceReport)
  | failed
  | unwound
  deriving DecidableEq, Repr

/-- How far the spawned task of `handle_exercise` is. It wakes the panel once when it does not
get a report; at its end it drops its pause guard, and last its lease. -/
inductive Supervisor where
  | unstarted
  | racing
  | waking
  | returned (outcome : Outcome)
  | resumed (outcome : Outcome)
  | over (outcome : Outcome)
  deriving DecidableEq, Repr

structure Exercise where
  task : ExerciseTask
  sequence : Spawned SequenceCall SequenceCall.Reply SequenceReport
  supervisor : Supervisor
  cancelled : Bool

def Exercise.new (task : ExerciseTask) : Exercise where
  task := task
  sequence := .ready (runExerciseSequence task)
  supervisor := .unstarted
  cancelled := false

/-- One step of the scheduler, of the sink, or of whoever cancels the generation. -/
inductive ExerciseEvent where
  | start
  | poll
  | answer (call : SequenceCall) (reply : call.Reply)
  | panic
  | cancel
  | join
  | takeCancelled
  | wokeOnce (result : Except CmdFailure Unit)
  | wakePanics
  | dropGuard
  | dropLease

inductive ExerciseOutput where
  | call (call : SinkCall)
  | resume (rules : List RuleId) (operationId : UInt64) (generation : GenerationId)
  | reply (report : SequenceReport)
  | leaseDropped
  deriving DecidableEq, Repr

namespace Exercise

/-- The report that the caller gets, with the operation filled in. -/
def replyOf (x : Exercise) : Outcome → List ExerciseOutput
  | .report report =>
    [.reply { report with
      operationId := some x.task.operationId, generation := some x.task.generation }]
  | .failed =>
    [.reply {
      display := x.task.display, prePhase := "unknown", operationId := some x.task.operationId,
      generation := some x.task.generation, pausedRules := x.task.rulesToResume,
      steps := [{ command := "panic", blankMode := none, returnedOk := false, stateBefore := none,
                  stateAfter := none, verdict := .failed,
                  error := some "E_EXERCISE_PANIC: exercise task panicked" }] }]
  | .unwound => []

def callsOf (calls : List SequenceCall) : List ExerciseOutput :=
  calls.filterMap fun call => call.sinkCall.map .call

/-- The sequence runs once its supervisor has spawned it. -/
def runSequence (x : Exercise)
    (step : Spawned SequenceCall SequenceCall.Reply SequenceReport →
      Spawned SequenceCall SequenceCall.Reply SequenceReport × List SequenceCall) :
    Exercise × List ExerciseOutput :=
  match x.supervisor with
  | .unstarted => (x, [])
  | _ => ({ x with sequence := (step x.sequence).1 }, callsOf (step x.sequence).2)

def wakeAfter (x : Exercise) : Exercise × List ExerciseOutput :=
  ({ x with supervisor := .waking }, [.call .wakeOnce])

def step (x : Exercise) : ExerciseEvent → Exercise × List ExerciseOutput
  | .start =>
    match x.supervisor with
    | .unstarted => ({ x with supervisor := .racing }, [])
    | _ => (x, [])
  | .poll => x.runSequence Spawned.poll
  | .answer call reply => x.runSequence (Spawned.answer call reply)
  | .panic => x.runSequence fun s => (s.panic, [])
  | .cancel => ({ x with cancelled := true }, [])
  | .join =>
    match x.supervisor, x.sequence with
    | .racing, .finished report => ({ x with supervisor := .returned (.report report) }, [])
    | .racing, .panicked => x.wakeAfter
    | _, _ => (x, [])
  | .takeCancelled =>
    -- the handle of the sequence is dropped here, which detaches the sequence
    match x.supervisor, x.cancelled with
    | .racing, true => x.wakeAfter
    | _, _ => (x, [])
  | .wokeOnce _ =>
    match x.supervisor with
    | .waking => ({ x with supervisor := .returned .failed }, [])
    | _ => (x, [])
  | .wakePanics =>
    match x.supervisor with
    | .waking => ({ x with supervisor := .returned .unwound }, [])
    | _ => (x, [])
  | .dropGuard =>
    match x.supervisor with
    | .returned outcome =>
      ({ x with supervisor := .resumed outcome },
        [.resume x.task.rulesToResume x.task.operationId x.task.generation])
    | _ => (x, [])
  | .dropLease =>
    match x.supervisor with
    | .resumed outcome =>
      ({ x with supervisor := .over outcome }, x.replyOf outcome ++ [.leaseDropped])
    | _ => (x, [])

end Exercise

def exercise : Runs.System Exercise ExerciseEvent ExerciseOutput where
  next := Exercise.step

end Dormant
