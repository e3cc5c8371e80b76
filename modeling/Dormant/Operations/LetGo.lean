import Dormant.Operations.Exercise

/-!
# What an exercise does after it has let go

An exercise has let go when its pause guard and its lease are dropped. `LetsGo` says that it
sends nothing from then on, and that a wake was its last command when it gave up. A supervisor
that takes the cancellation leaves the sequence to itself, so that both hold when the
cancellation comes after the sequence's last call.
-/

namespace Dormant
set_option autoImplicit false

open Tasks

def SequenceCall.onSink (call : SequenceCall) : Prop := call.sinkCall.isSome = true

def ExerciseOutput.sinkCall : ExerciseOutput → Option SinkCall
  | .call c => some c
  | _ => none

def Outcome.gaveUp : Outcome → Bool
  | .report _ => false
  | .failed | .unwound => true

namespace Exercise
variable {x : Exercise}

/-- The calls that the exercise has made of the sink. -/
def noteCalls (calls : List SinkCall) (_ : Exercise) (_ : ExerciseEvent)
    (result : Exercise × List ExerciseOutput) : List SinkCall :=
  calls ++ result.2.filterMap (·.sinkCall)

def logged : Runs.System (List SinkCall × Exercise) ExerciseEvent ExerciseOutput :=
  exercise.observed noteCalls

/-- What the exercise came to, once its guard and its lease are dropped. -/
def letGo (x : Exercise) : Option Outcome :=
  match x.supervisor with
  | .over outcome => some outcome
  | _ => none

def lastCommand (calls : List SinkCall) : Option SinkCall :=
  (calls.filter (·.isCommand)).getLast?

structure LetsGo (task : ExerciseTask) (events : List ExerciseEvent) : Prop where
  silent : exercise.Steps (fun x i => x.letGo.isSome → ∀ o ∈ (exercise.next x i).2,
    o.sinkCall = none) (new task) events
  woken : logged.Throughout (fun x => ∀ outcome ∈ x.2.letGo, outcome.gaveUp = true →
    ∃ call ∈ lastCommand x.1, call.isWake = true) ([], new task) events

/-- The race goes to the cancellation while the sequence has a call of the sink to make. -/
def cutShort (x : Exercise) (i : ExerciseEvent) : Prop :=
  i = .takeCancelled ∧ x.supervisor = .racing ∧ x.cancelled = true ∧
    ¬ x.sequence.Avoids SequenceCall.onSink

/-! ## The invariant -/

/-- The supervisor is past the race. -/
def decided (x : Exercise) : Bool :=
  match x.supervisor with
  | .unstarted | .racing => false
  | _ => true

/-- The supervisor did not get a report. -/
def forsaken (x : Exercise) : Bool :=
  match x.supervisor with
  | .unstarted | .racing => false
  | .waking => true
  | .returned outcome | .resumed outcome | .over outcome => outcome.gaveUp

/-- Past the race nothing is called any more, and a supervisor without a report has woken the
panel last. -/
structure Quiet (calls : List SinkCall) (x : Exercise) : Prop where
  silent : x.decided = true → x.sequence.Avoids SequenceCall.onSink
  woken : x.forsaken = true → lastCommand calls = some .wakeOnce

theorem sinkCall_callsOf {calls : List SequenceCall} (h : ∀ i ∈ calls, ¬ i.onSink) :
    callsOf calls = [] := by
  rw [callsOf, List.filterMap_eq_nil_iff]
  intro i hi
  have hnone := h i hi
  unfold SequenceCall.onSink at hnone
  rw [Bool.not_eq_true, Option.isSome_eq_false_iff, Option.isNone_iff_eq_none] at hnone
  rw [hnone, Option.map_none]

theorem lastCommand_wakeOnce (calls : List SinkCall) :
    lastCommand (calls ++ [.wakeOnce]) = some .wakeOnce := by
  rw [lastCommand, List.filter_append]
  exact List.getLast?_concat

/-- The sequence's steps, one definition for all three. -/
theorem runSequence_eq (hs : x.supervisor ≠ .unstarted)
    (step : Spawned SequenceCall SequenceCall.Reply SequenceReport →
      Spawned SequenceCall SequenceCall.Reply SequenceReport × List SequenceCall) :
    x.runSequence step = ({ x with sequence := (step x.sequence).1 }, callsOf (step x.sequence).2) := by
  unfold runSequence
  split
  · rename_i h
    exact absurd h hs
  · rfl

/-- Past the race, a step of the sequence calls nothing. -/
theorem Quiet.runSequence {calls : List SinkCall} (h : Quiet calls x) (hd : x.decided = true)
    (e : Spawned.Event SequenceCall SequenceCall.Reply) :
    (x.runSequence fun s => Spawned.system.next s e).2 = [] ∧
      Quiet calls (x.runSequence fun s => Spawned.system.next s e).1 := by
  have hs : x.supervisor ≠ .unstarted := by
    intro hs
    simp [decided, hs] at hd
  obtain ⟨havoids, hcalls⟩ := (h.silent hd).next e
  rw [runSequence_eq hs]
  exact ⟨sinkCall_callsOf hcalls, ⟨fun _ => havoids, h.woken⟩⟩

/-- Before it is decided, the race asks nothing of the calls. -/
theorem quiet_of_undecided {calls : List SinkCall} (hd : x.decided = false) : Quiet calls x := by
  refine ⟨by simp [hd], fun hf => ?_⟩
  unfold decided at hd
  unfold forsaken at hf
  cases hs : x.supervisor <;> simp [hs] at hd hf

theorem runSequence_supervisor
    (step : Spawned SequenceCall SequenceCall.Reply SequenceReport →
      Spawned SequenceCall SequenceCall.Reply SequenceReport × List SequenceCall) :
    (x.runSequence step).1.supervisor = x.supervisor := by
  unfold Exercise.runSequence
  split <;> rfl

theorem quiet_sequence {calls : List SinkCall} (h : Quiet calls x)
    (e : Spawned.Event SequenceCall SequenceCall.Reply) :
    Quiet (calls ++ (x.runSequence fun s => Spawned.system.next s e).2.filterMap (·.sinkCall))
      (x.runSequence fun s => Spawned.system.next s e).1 := by
  cases hd : x.decided with
  | true =>
    obtain ⟨hnone, hquiet⟩ := h.runSequence hd e
    rw [hnone, List.filterMap_nil, List.append_nil]
    exact hquiet
  | false =>
    apply quiet_of_undecided
    unfold decided at hd ⊢
    rw [runSequence_supervisor]
    exact hd

theorem quiet_wakeAfter {calls : List SinkCall} (havoids : x.sequence.Avoids SequenceCall.onSink) :
    Quiet (calls ++ x.wakeAfter.2.filterMap (·.sinkCall)) x.wakeAfter.1 :=
  ⟨fun _ => havoids, fun _ => lastCommand_wakeOnce calls⟩

theorem quiet_next {calls : List SinkCall} (h : Quiet calls x) {i : ExerciseEvent}
    (hi : ¬ x.cutShort i) : Quiet (logged.next (calls, x) i).1.1 (logged.next (calls, x) i).1.2 := by
  show Quiet (calls ++ (x.step i).2.filterMap (·.sinkCall)) (x.step i).1
  have same (hstep : x.step i = (x, [])) :
      Quiet (calls ++ (x.step i).2.filterMap (·.sinkCall)) (x.step i).1 := by
    rw [hstep, List.filterMap_nil, List.append_nil]
    exact h
  cases i with
  | poll => exact quiet_sequence h .poll
  | answer call reply => exact quiet_sequence h (.answer call reply)
  | panic => exact quiet_sequence h .panic
  | cancel =>
    show Quiet (calls ++ []) { x with cancelled := true }
    rw [List.append_nil]
    exact ⟨h.silent, h.woken⟩
  | start =>
    cases hs : x.supervisor with
    | unstarted => exact quiet_of_undecided (by simp [step, hs, decided])
    | _ => exact same (by simp [step, hs])
  | join =>
    cases hs : x.supervisor with
    | racing =>
      cases hq : x.sequence with
      | finished report =>
        simp only [step, hs, hq, List.filterMap_nil, List.append_nil]
        exact ⟨fun _ => trivial, by simp [forsaken, Outcome.gaveUp]⟩
      | panicked =>
        simp only [step, hs, hq]
        apply quiet_wakeAfter
        rw [hq]
        trivial
      | _ => exact same (by simp [step, hs, hq])
    | _ => exact same (by simp [step, hs])
  | takeCancelled =>
    cases hs : x.supervisor with
    | racing =>
      cases hc : x.cancelled with
      | true =>
        simp only [step, hs, hc]
        apply quiet_wakeAfter
        by_contra havoids
        exact hi ⟨rfl, hs, hc, havoids⟩
      | false => exact same (by simp [step, hs, hc])
    | _ => exact same (by simp [step, hs])
  | wokeOnce result =>
    cases hs : x.supervisor with
    | waking =>
      simp only [step, hs, List.filterMap_nil, List.append_nil]
      exact ⟨fun _ => h.silent (by simp [decided, hs]), fun _ => h.woken (by simp [forsaken, hs])⟩
    | _ => exact same (by simp [step, hs])
  | wakePanics =>
    cases hs : x.supervisor with
    | waking =>
      simp only [step, hs, List.filterMap_nil, List.append_nil]
      exact ⟨fun _ => h.silent (by simp [decided, hs]), fun _ => h.woken (by simp [forsaken, hs])⟩
    | _ => exact same (by simp [step, hs])
  | dropGuard =>
    cases hs : x.supervisor with
    | returned outcome =>
      simp only [step, hs, List.filterMap_cons, ExerciseOutput.sinkCall, List.filterMap_nil,
        List.append_nil]
      exact ⟨fun _ => h.silent (by simp [decided, hs]),
        fun hf => h.woken (by simpa [forsaken, hs] using hf)⟩
    | _ => exact same (by simp [step, hs])
  | dropLease =>
    cases hs : x.supervisor with
    | resumed outcome =>
      have hnone : (x.replyOf outcome ++ [ExerciseOutput.leaseDropped]).filterMap
          ExerciseOutput.sinkCall = [] := by
        cases outcome <;> rfl
      simp only [step, hs, hnone, List.append_nil]
      exact ⟨fun _ => h.silent (by simp [decided, hs]),
        fun hf => h.woken (by simpa [forsaken, hs] using hf)⟩
    | _ => exact same (by simp [step, hs])

/-! ## The law -/

theorem letGo_decided {outcome : Outcome} (h : x.letGo = some outcome) :
    x.decided = true ∧ x.forsaken = outcome.gaveUp := by
  unfold letGo at h
  split at h
  · rename_i hs
    obtain rfl := Option.some.inj h
    simp [decided, forsaken, hs]
  · cases h

/-- Once it has let go, a step calls nothing. -/
theorem Quiet.calls_nothing {calls : List SinkCall} (h : Quiet calls x) (hl : x.letGo.isSome)
    (i : ExerciseEvent) : ∀ o ∈ (exercise.next x i).2, o.sinkCall = none := by
  obtain ⟨outcome, hl⟩ := Option.isSome_iff_exists.mp hl
  have hd := (letGo_decided hl).1
  have hs : x.supervisor = .over outcome := by
    unfold letGo at hl
    split at hl
    · rename_i hs
      rw [hs, Option.some.inj hl]
    · cases hl
  have sequence (e : Spawned.Event SequenceCall SequenceCall.Reply) :
      ∀ o ∈ (x.runSequence fun s => Spawned.system.next s e).2, o.sinkCall = none := by
    rw [(h.runSequence hd e).1]
    simp
  cases i with
  | poll => exact sequence .poll
  | answer call reply => exact sequence (.answer call reply)
  | panic => exact sequence .panic
  | _ => simp [exercise, step, hs]

/-- An exercise whose sequence has made its last call whenever the race goes to the cancellation
sends nothing after it has let go, and wakes the panel last when it gives up. -/
theorem exercise_lets_go (task : ExerciseTask) (events : List ExerciseEvent)
    (h : exercise.Steps (fun x i => ¬ x.cutShort i) (new task) events) : LetsGo task events := by
  have hstep (y : List SinkCall × Exercise) (i : ExerciseEvent) (hy : Quiet y.1 y.2)
      (hi : ¬ y.2.cutShort i) : Quiet (logged.next y i).1.1 (logged.next y i).1.2 :=
    quiet_next hy hi
  have hnew : Quiet [] (new task) := quiet_of_undecided rfl
  have hlogged : logged.Steps (fun y i => ¬ y.2.cutShort i) ([], new task) events :=
    Runs.System.steps_observed [] (new task) events |>.mpr h
  refine ⟨?_, hlogged.throughout _ hstep (fun y hy outcome hl hgave => ?_) hnew⟩
  · rw [← Runs.System.steps_observed ([] : List SinkCall) (new task) events]
    exact hlogged.derive _ hstep (fun y i hy _ hl => hy.calls_nothing hl i) hnew
  · rw [← (letGo_decided hl).2] at hgave
    exact ⟨.wakeOnce, hy.woken hgave, rfl⟩

/-- An exercise on a panel that is taken to be on, cancelled while its last read is on its way. -/
def cancelledLate : List ExerciseEvent :=
  [.start, .poll, .answer (.sink .readState) none, .answer (.sink (.blank .powerOff)) (.ok ()),
    .answer (.sink .readState) none, .answer (.sink .wake) (.ok ()),
    .answer (.sink .readState) (some { power := some .on, brightness := none }),
    .answer (.sink .wakeOnce) (.ok ()), .cancel, .takeCancelled, .wokeOnce (.ok ()), .dropGuard,
    .dropLease, .answer (.sink .readState) none]

def oledTask (prePhase : String) : ExerciseTask where
  display := ⟨"oled"⟩
  effectiveMode := none
  prePhase := prePhase
  rulesToResume := [⟨"office"⟩]
  operationId := 0
  generation := ⟨7⟩
  wakeSettle := 3

theorem exercise_lets_go_late : LetsGo (oledTask "active") cancelledLate := by
  have other {x : Exercise} {i : ExerciseEvent} (hi : i ≠ .takeCancelled) : ¬ x.cutShort i :=
    fun h => hi h.1
  apply exercise_lets_go
  refine ⟨other ?_, other ?_, other ?_, other ?_, other ?_, other ?_, other ?_, other ?_, other ?_,
    fun h => ?_, other ?_, other ?_, other ?_, other ?_, trivial⟩
  case refine_10 => exact h.2.2.2 fun _ => trivial
  all_goals simp

/-- An exercise on a dark panel, cancelled while its first read is on its way: with its lease
dropped and the pause released it still blanks the panel, wakes it and blanks it again. -/
theorem cancelled_exercise_goes_on :
    let early : List ExerciseEvent :=
      [.start, .poll, .cancel, .takeCancelled, .wokeOnce (.ok ()), .dropGuard, .dropLease]
    let late : List ExerciseEvent :=
      [.answer (.sink .readState) none, .answer (.sink (.blank .powerOff)) (.ok ()),
        .answer (.sink .readState) none, .answer (.sink .wake) (.ok ()),
        .answer (.sink .readState) (some { power := some .on, brightness := none }),
        .answer (.sink (.blank .powerOff)) (.ok ()), .answer (.sink .readState) none]
    let x := exercise.run (new (oledTask "blanked")) early
    x.letGo = some .failed ∧ .call (.blank .powerOff) ∈ exercise.outputs x late ∧
      lastCommand (logged.run ([], new (oledTask "blanked")) (early ++ late)).1 =
        some (.blank .powerOff) := by
  decide

/-! ## Why the cancellation has to come late -/

def eventOf : Spawned.Event SequenceCall SequenceCall.Reply → ExerciseEvent
  | .poll => .poll
  | .answer call reply => .answer call reply
  | .panic => .panic

theorem next_eventOf (hs : x.supervisor ≠ .unstarted)
    (e : Spawned.Event SequenceCall SequenceCall.Reply) : exercise.next x (eventOf e) =
      ({ x with sequence := (Spawned.system.next x.sequence e).1 },
        callsOf (Spawned.system.next x.sequence e).2) := by
  have hnext : exercise.next x (eventOf e) =
      x.runSequence fun s => Spawned.system.next s e := by
    cases e <;> rfl
  rw [hnext, runSequence_eq hs]

/-- What lets go with calls left to make can be led to make one. -/
theorem calls_of_letGo {events : List (Spawned.Event SequenceCall SequenceCall.Reply)}
    {outcome : Outcome} (hs : x.supervisor = .over outcome)
    (h : exercise.Steps (fun x i => x.letGo.isSome → ∀ o ∈ (exercise.next x i).2,
      o.sinkCall = none) x (events.map eventOf)) :
    ∀ i ∈ Spawned.system.outputs x.sequence events, ¬ i.onSink := by
  induction events generalizing x with
  | nil => simp [Runs.System.outputs]
  | cons e events ih =>
    have hnext := next_eventOf (x := x) (by simp [hs]) e
    rw [List.map_cons, Runs.System.Steps, hnext] at h
    have hnone := h.1 (by simp [letGo, hs])
    intro i hi
    rcases List.mem_append.mp hi with hi | hi
    · intro hsink
      obtain ⟨c, hc⟩ := Option.isSome_iff_exists.mp hsink
      have hcall : ExerciseOutput.call c ∈ callsOf (Spawned.system.next x.sequence e).2 :=
        List.mem_filterMap.mpr ⟨i, hi, by rw [hc]; rfl⟩
      cases hnone _ hcall
    · exact ih (x := { x with sequence := (Spawned.system.next x.sequence e).1 }) hs h.2 i hi

/-- A cancellation that cuts the sequence short leaves an exercise that can go on to send
something after it has let go. -/
theorem cutShort_goes_on {i : ExerciseEvent} (h : x.cutShort i) :
    ∃ after, ¬ exercise.Steps (fun x i => x.letGo.isSome → ∀ o ∈ (exercise.next x i).2,
      o.sinkCall = none) x (i :: after) := by
  obtain ⟨rfl, hs, hc, havoids⟩ := h
  obtain ⟨events, j, hj, hsink⟩ := Spawned.exists_call havoids
  refine ⟨[.wokeOnce (.ok ()), .dropGuard, .dropLease] ++ events.map eventOf, fun hsteps => ?_⟩
  have hover : (exercise.run x [.takeCancelled, .wokeOnce (.ok ()), .dropGuard, .dropLease]) =
      { x with supervisor := .over .failed } := by
    simp [exercise, step, hs, hc, wakeAfter]
  have hrest := (Runs.System.steps_append x
    [.takeCancelled, .wokeOnce (.ok ()), .dropGuard, .dropLease] (events.map eventOf)).mp hsteps
  rw [hover] at hrest
  have hsupervisor : ({ x with supervisor := .over .failed } : Exercise).supervisor =
      .over .failed := rfl
  exact calls_of_letGo hsupervisor hrest.2 j hj hsink

end Exercise
end Dormant
