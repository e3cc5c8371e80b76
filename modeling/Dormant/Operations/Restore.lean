import Dormant.Operations.Room

/-!
# What an exercise leaves on the panel

An exercise goes back to the phase it found by a command of its own, while the machine has gone
on. On a display that was taken to be on, the pause keeps every blank of the machine away, and
the closing wake fits whatever presence has done. The closing blank fits a machine that is still
dark; `Keeps` asks for that, and the rest of the run keeps it.
-/

namespace Dormant
set_option autoImplicit false

open Tasks

instance (call : SinkCall) : Nonempty call.Reply := by
  cases call
  · exact ⟨(.ok () : Except CmdFailure Unit)⟩
  · exact ⟨(.ok () : Except CmdFailure Unit)⟩
  · exact ⟨(.ok () : Except CmdFailure Unit)⟩
  · exact ⟨(none : Option PanelState)⟩

instance (call : SequenceCall) : Nonempty call.Reply := by
  cases call with
  | sink call => exact inferInstanceAs (Nonempty call.Reply)
  | sleep duration => exact ⟨()⟩

/-- The command by which an exercise goes back to the phase it found. -/
def restoreCall (task : ExerciseTask) : SinkCall :=
  if isBlankedFamilyPhase task.prePhase then .blank (task.effectiveMode.getD .powerOff)
  else .wakeOnce

/-! ## The restore is the last command of the sequence -/

theorem lasts_restoreByBlank (mode : BlankMode) (before : Option PanelState) :
    (restoreByBlank mode before).Lasts SequenceCall.Commands
      (· = .sink (.blank mode)) := by
  unfold restoreByBlank
  refine Task.lasts_request (by rfl) rfl fun r => ?_
  exact ⟨by simp [SequenceCall.Commands, SequenceCall.sinkCall, SinkCall.isCommand], fun _ => trivial⟩

theorem lasts_restoreByWake (before : Option PanelState) :
    (restoreByWake before).Lasts SequenceCall.Commands (· = .sink .wakeOnce) := by
  unfold restoreByWake
  refine Task.lasts_request (by rfl) rfl fun r => ?_
  exact ⟨by simp [SequenceCall.Commands, SequenceCall.sinkCall, SinkCall.isCommand], fun _ => trivial⟩

theorem runExerciseSequence_lasts (task : ExerciseTask) :
    (runExerciseSequence task).Lasts SequenceCall.Commands (· = .sink (restoreCall task)) := by
  unfold runExerciseSequence restoreCall
  apply Task.lasts_bind
  intro baseline
  apply Task.lasts_bind
  intro blankResult
  apply Task.lasts_bind
  intro stateAfterBlank
  apply Task.lasts_bind
  intro wakeResult
  apply Task.lasts_bind
  intro stateAfterWake
  dsimp only
  split
  · exact (lasts_restoreByBlank _ _).bind fun _ => trivial
  · exact (lasts_restoreByWake _).bind fun _ => trivial

namespace Exercise
variable {x : Exercise} {i : ExerciseEvent}

/-! ## The course of an exercise -/

/-- The exercise gets, or gives up, its last command. -/
def closes (x : Exercise) : ExerciseEvent → Prop
  | .answer call reply =>
    x.supervisor ≠ .unstarted ∧ x.sequence.Closes SequenceCall.Commands call reply
  | .wokeOnce _ | .wakePanics => x.supervisor = .waking
  | _ => False

/-- The race goes to the cancellation when the sequence has its last command behind it. -/
def takesLate (x : Exercise) (i : ExerciseEvent) : Prop :=
  i = .takeCancelled → x.supervisor = .racing → x.cancelled = true →
    x.sequence.Silent SequenceCall.Commands

/-- The supervisor has what it waited for. -/
def relinquished (x : Exercise) : Bool :=
  match x.supervisor with
  | .returned _ | .resumed _ | .over _ => true
  | _ => false

/-- The guard of the exercise is dropped. -/
def released (x : Exercise) : Bool :=
  match x.supervisor with
  | .resumed _ | .over _ => true
  | _ => false

/-- No command is in flight or to come, unless the supervisor changes its mind. -/
structure Settled (x : Exercise) : Prop where
  silent : x.sequence.Silent SequenceCall.Commands
  relinquished : x.sequence = .panicked → x.relinquished = true

structure Course (x : Exercise) : Prop where
  sequence : x.sequence.Lasts SequenceCall.Commands (· = .sink (restoreCall x.task)) ∨
    x.sequence.Silent SequenceCall.Commands
  decided : x.decided = true → x.sequence.Silent SequenceCall.Commands

theorem course_new (task : ExerciseTask) : (new task).Course :=
  ⟨.inl (runExerciseSequence_lasts task), fun h => by simp [new, decided] at h⟩

theorem not_settled_new (task : ExerciseTask) : ¬ (new task).Settled := by
  intro h
  have hlasts : (new task).sequence.Lasts SequenceCall.Commands (· = .sink (restoreCall task)) :=
    runExerciseSequence_lasts task
  exact h.silent.not_lasts hlasts

theorem task_next (x : Exercise) (i : ExerciseEvent) : (x.step i).1.task = x.task := by
  have sequence (step : Spawned SequenceCall SequenceCall.Reply SequenceReport →
      Spawned SequenceCall SequenceCall.Reply SequenceReport × List SequenceCall) :
      (x.runSequence step).1.task = x.task := by
    unfold runSequence
    split <;> rfl
  cases i <;> simp only [step, sequence] <;> repeat' split
  all_goals rfl

theorem Closes.restore (hc : x.Course) {call : SequenceCall} {reply : call.Reply}
    (h : x.closes (.answer call reply)) : call = .sink (restoreCall x.task) :=
  h.2.last hc.sequence

/-- A sequence with its last command behind it has none carried out. -/
theorem carries_silent (h : x.sequence.Silent SequenceCall.Commands) (call : SequenceCall)
    (reply : call.Reply) : x.carries (.answer call reply) = none := by
  cases call with
  | sleep duration => rfl
  | sink call =>
    have hcarries : x.carries (.answer (.sink call) reply) =
        if x.pending = some (.sink call) then call.carried reply else none := rfl
    rw [hcarries]
    split
    · rename_i hpending
      have hcommand : ¬ SequenceCall.Commands (.sink call) := by
        unfold pending at hpending
        split at hpending
        · cases hpending
        · rename_i pending resume hs _
          obtain rfl := Option.some.inj hpending
          rw [hs] at h
          exact h.1
        · cases hpending
      cases call with
      | readState => rfl
      | _ => exact absurd rfl hcommand
    · rfl

theorem decided_of_relinquished (h : x.relinquished = true) : x.decided = true := by
  cases hs : x.supervisor <;> simp [relinquished, decided, hs] at h ⊢

theorem sequence_settled (hs : x.supervisor ≠ .unstarted) (hc : x.Course)
    (e : Spawned.Event SequenceCall SequenceCall.Reply) :
    (x.runSequence fun s => Spawned.system.next s e).1.Course ∧
      ((x.runSequence fun s => Spawned.system.next s e).1.Settled →
        x.Settled ∨ x.closes (eventOf e)) := by
  rw [runSequence_eq hs]
  have hsilent (h : x.sequence.Silent SequenceCall.Commands) :
      (Spawned.system.next x.sequence e).1.Silent SequenceCall.Commands := by
    cases e with
    | poll => exact h.poll
    | answer call reply => exact h.answer call reply
    | panic => exact h.panic
  have hpanicked (h : x.sequence = .panicked) :
      (Spawned.system.next x.sequence e).1 = .panicked := by
    rw [h]
    cases e <;> rfl
  rcases hc.sequence with hlasts | hquiet
  · -- the last command is still to be answered
    have hundecided : x.decided ≠ true := fun hd => (hc.decided hd).not_lasts hlasts
    cases e with
    | poll =>
      refine ⟨⟨.inl hlasts.poll, fun hd => absurd hd hundecided⟩, fun h => ?_⟩
      exact absurd hlasts.poll h.silent.not_lasts
    | answer call reply =>
      rcases hlasts.answer call reply with ⟨hcloses, -, hdone⟩ | hlater
      · exact ⟨⟨.inr hdone, fun _ => hdone⟩, fun _ => .inr ⟨hs, hcloses⟩⟩
      · refine ⟨⟨.inl hlater, fun hd => absurd hd hundecided⟩, fun h => ?_⟩
        exact absurd hlater h.silent.not_lasts
    | panic =>
      refine ⟨⟨hlasts.panic, fun hd => absurd hd hundecided⟩, fun h => ?_⟩
      have hcases : x.sequence.panic = .panicked ∨ x.sequence.panic = x.sequence := by
        cases x.sequence <;> simp [Spawned.panic]
      rcases hcases with hp | hsame
      · exact absurd (decided_of_relinquished (h.relinquished hp)) hundecided
      · have hquiet : x.sequence.panic.Silent SequenceCall.Commands := h.silent
        rw [hsame] at hquiet
        exact absurd hlasts hquiet.not_lasts
  · exact ⟨⟨.inr (hsilent hquiet), fun _ => hsilent hquiet⟩,
      fun h => .inl ⟨hquiet, fun hp => h.relinquished (hpanicked hp)⟩⟩

/-- A step keeps the course, and settles an exercise only by its last command. -/
theorem course_next (hc : x.Course) (hi : x.takesLate i) :
    (x.step i).1.Course ∧ ((x.step i).1.Settled → x.Settled ∧ x.carries i = none ∨ x.closes i) := by
  have same (hstep : x.step i = (x, [])) (hnone : x.carries i = none) : (x.step i).1.Course ∧
      ((x.step i).1.Settled → x.Settled ∧ x.carries i = none ∨ x.closes i) := by
    rw [hstep]
    exact ⟨hc, fun h => .inl ⟨h, hnone⟩⟩
  have sequence (e : Spawned.Event SequenceCall SequenceCall.Reply) (he : i = eventOf e)
      (hnone : x.sequence.Silent SequenceCall.Commands → x.carries i = none) :
      (x.step i).1.Course ∧
        ((x.step i).1.Settled → x.Settled ∧ x.carries i = none ∨ x.closes i) := by
    by_cases hs : x.supervisor = .unstarted
    · refine same ?_ ?_
      · subst he
        cases e <;> simp [eventOf, step, runSequence, hs]
      · subst he
        cases e with
        | answer call reply => cases call <;> simp [eventOf, carries, pending, hs]
        | _ => rfl
    · obtain ⟨hcourse, hsettled⟩ := sequence_settled hs hc e
      have hstep : x.step i = x.runSequence fun s => Spawned.system.next s e := by
        subst he
        cases e <;> rfl
      rw [hstep]
      refine ⟨hcourse, fun h => ?_⟩
      rcases hsettled h with hx | hx
      · exact .inl ⟨hx, hnone hx.silent⟩
      · exact .inr (he ▸ hx)
  cases i with
  | poll => exact sequence .poll rfl fun _ => rfl
  | answer call reply => exact sequence (.answer call reply) rfl fun h => carries_silent h call reply
  | panic => exact sequence .panic rfl fun _ => rfl
  | cancel => exact ⟨⟨hc.sequence, hc.decided⟩, fun h => .inl ⟨⟨h.silent, h.relinquished⟩, rfl⟩⟩
  | start =>
    cases hs : x.supervisor with
    | unstarted =>
      simp only [step, hs]
      refine ⟨⟨hc.sequence, by simp [decided]⟩, fun h => .inl ⟨⟨h.silent, fun hp => ?_⟩, rfl⟩⟩
      simpa [Exercise.relinquished] using h.relinquished hp
    | _ => exact same (by simp [step, hs]) rfl
  | join =>
    cases hs : x.supervisor with
    | racing =>
      cases hq : x.sequence with
      | finished report =>
        have hquiet : x.sequence.Silent SequenceCall.Commands := by rw [hq]; trivial
        have hstep : x.step .join = ({ x with supervisor := .returned (.report report) }, []) := by
          simp only [step, hs, hq]
        rw [hstep]
        exact ⟨⟨.inr hquiet, fun _ => hquiet⟩, fun _ => .inl ⟨⟨hquiet, by simp [hq]⟩, rfl⟩⟩
      | panicked =>
        have hquiet : x.sequence.Silent SequenceCall.Commands := by rw [hq]; trivial
        have hstep : x.step .join = x.wakeAfter := by simp only [step, hs, hq]
        rw [hstep]
        refine ⟨⟨.inr hquiet, fun _ => hquiet⟩, fun h => ?_⟩
        have hover := h.relinquished hq
        simp [wakeAfter, Exercise.relinquished] at hover
      | _ => exact same (by simp [step, hs, hq]) rfl
    | _ => exact same (by simp [step, hs]) rfl
  | takeCancelled =>
    cases hs : x.supervisor with
    | racing =>
      cases hca : x.cancelled with
      | true =>
        simp only [step, hs, hca]
        have hquiet := hi rfl hs hca
        refine ⟨⟨.inr hquiet, fun _ => hquiet⟩, fun h => .inl ⟨⟨hquiet, fun hp => ?_⟩, rfl⟩⟩
        have hover := h.relinquished hp
        simp [wakeAfter, Exercise.relinquished] at hover
      | false => exact same (by simp [step, hs, hca]) rfl
    | _ => exact same (by simp [step, hs]) rfl
  | wokeOnce result =>
    cases hs : x.supervisor with
    | waking =>
      simp only [step, hs]
      have hquiet := hc.decided (by simp [decided, hs])
      exact ⟨⟨.inr hquiet, fun _ => hquiet⟩, fun _ => .inr hs⟩
    | _ => exact same (by simp [step, hs]) (by simp [carries, hs])
  | wakePanics =>
    cases hs : x.supervisor with
    | waking =>
      simp only [step, hs]
      have hquiet := hc.decided (by simp [decided, hs])
      exact ⟨⟨.inr hquiet, fun _ => hquiet⟩, fun _ => .inr hs⟩
    | _ => exact same (by simp [step, hs]) rfl
  | dropGuard =>
    cases hs : x.supervisor with
    | returned outcome =>
      simp only [step, hs]
      have hquiet := hc.decided (by simp [decided, hs])
      exact ⟨⟨.inr hquiet, fun _ => hquiet⟩,
        fun _ => .inl ⟨⟨hquiet, fun _ => by simp [Exercise.relinquished, hs]⟩, rfl⟩⟩
    | _ => exact same (by simp [step, hs]) rfl
  | dropLease =>
    cases hs : x.supervisor with
    | resumed outcome =>
      simp only [step, hs]
      have hquiet := hc.decided (by simp [decided, hs])
      exact ⟨⟨.inr hquiet, fun _ => hquiet⟩,
        fun _ => .inl ⟨⟨hquiet, fun _ => by simp [Exercise.relinquished, hs]⟩, rfl⟩⟩
    | _ => exact same (by simp [step, hs]) rfl

/-- Before the guard is dropped nothing is sent to the engine. -/
theorem resumes_step (h : (x.step i).1.released = false) :
    x.released = false ∧ (x.step i).2.filterMap ExerciseOutput.resume? = [] := by
  have sequence (step : Spawned SequenceCall SequenceCall.Reply SequenceReport →
      Spawned SequenceCall SequenceCall.Reply SequenceReport × List SequenceCall)
      (h : (x.runSequence step).1.released = false) :
      x.released = false ∧ (x.runSequence step).2.filterMap ExerciseOutput.resume? = [] := by
    refine ⟨?_, ?_⟩
    · unfold released at h ⊢
      rwa [runSequence_supervisor] at h
    · unfold runSequence
      split
      · rfl
      · rw [callsOf, List.filterMap_filterMap, List.filterMap_eq_nil_iff]
        intro call _
        cases call <;> rfl
  cases i with
  | poll => exact sequence _ h
  | answer call reply => exact sequence _ h
  | panic => exact sequence _ h
  | cancel => exact ⟨h, rfl⟩
  | _ =>
    simp only [step] at h ⊢
    split at h <;> simp_all [released, wakeAfter, ExerciseOutput.resume?]

/-- An exercise that closes has its guard. -/
theorem not_released_of_closes (hc : x.Course) (h : x.closes i) : x.released = false := by
  cases i with
  | answer call reply =>
    by_contra hr
    have hd : x.decided = true := by
      cases hs : x.supervisor <;> simp [released, decided, hs] at hr ⊢
    obtain ⟨-, hP, resume, hwaiting, -⟩ := h
    have hsilent := hc.decided hd
    rw [hwaiting] at hsilent
    exact hsilent.1 hP
  | wokeOnce result =>
    have hs : x.supervisor = .waking := h
    simp [released, hs]
  | wakePanics =>
    have hs : x.supervisor = .waking := h
    simp [released, hs]
  | _ => exact h.elim

/-- On a panel that was taken to be on, the last command is a wake. -/
theorem carries_wake (hc : x.Course) (h : x.closes i)
    (hfamily : isBlankedFamilyPhase x.task.prePhase = false) {k : CommandKind}
    (hk : x.carries i = some k) : k = .wake := by
  cases i with
  | answer call reply =>
    obtain rfl : call = .sink .wakeOnce := by
      rw [Closes.restore hc h, restoreCall, if_neg (by simp [hfamily])]
    have hcarries : x.carries (.answer (.sink .wakeOnce) reply) =
        if x.pending = some (.sink .wakeOnce) then SinkCall.carried .wakeOnce reply else none := rfl
    rw [hcarries] at hk
    split at hk
    · have hcarried : SinkCall.carried .wakeOnce reply =
          if Except.isOk (α := Unit) reply then some .wake else none := rfl
      rw [hcarried] at hk
      split at hk
      · exact (Option.some.inj hk).symm
      · cases hk
    · cases hk
  | wokeOnce result =>
    have hs : x.supervisor = .waking := h
    simp only [carries, hs] at hk
    split at hk
    · exact (Option.some.inj hk).symm
    · cases hk
  | wakePanics => cases hk
  | _ => exact h.elim

end Exercise
end Dormant
