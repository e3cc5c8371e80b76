import Dormant.StateMachine.Facts

/-!
# An Active machine whose zones are vacant

Every way into Active goes through `enterActive`, which chains into Grace when the zones are
known to be vacant and no input-wake hold is on; and the news that the zones are vacant takes
Active to Grace. So a machine stays in Active over vacant zones for the time of a hold only.
-/

namespace Dormant
set_option autoImplicit false

namespace DisplayStateMachine

def VacancyOk (s : DisplayStateMachine) : Prop :=
  s.phase = .active → s.zonePresent = some false → s.inputWakeHoldActive = true

variable {s t : DisplayStateMachine} {input : Input}

theorem vacancyOk_of_phase (h : s.phase ≠ .active) : s.VacancyOk := fun hp => absurd hp h

/-- A step that reaches Active by staying there keeps what is known of the zones. -/
theorem vacancyOk_congr (hp : t.phase = s.phase) (hset : t.setting = s.setting)
    (hs : s.VacancyOk) : t.VacancyOk := by
  have hz : t.zonePresent = s.zonePresent := congrArg Setting.zonePresent hset
  have hf : t.inputWakeHoldActive = s.inputWakeHoldActive :=
    congrArg Setting.inputWakeHoldActive hset
  unfold VacancyOk
  rw [hp, hz, hf]
  exact hs

section Helpers
variable (s) (now : ℕ) (cause : String)

theorem vacancyOk_enterGrace : (s.enterGrace now cause).1.VacancyOk :=
  vacancyOk_of_phase (by simp)

theorem vacancyOk_enterActive : (s.enterActive now cause).1.VacancyOk := by
  unfold enterActive
  dsimp only
  split
  · exact vacancyOk_enterGrace _ now _
  · rename_i hn
    intro _ hz
    by_contra hf
    exact hn ⟨hz, Bool.eq_false_iff.mpr hf⟩

theorem vacancyOk_enterLadderStage (idx : ℕ) : (s.enterLadderStage idx now cause).1.VacancyOk := by
  unfold enterLadderStage
  split
  · exact vacancyOk_enterActive s now cause
  · dsimp only
    split
    · exact vacancyOk_of_phase (by simp [issueBlankForMode])
    · exact vacancyOk_of_phase (by simp)

theorem vacancyOk_advanceStage : (s.advanceStage now cause).1.VacancyOk := by
  unfold advanceStage
  split
  · exact vacancyOk_enterActive s now cause
  · exact vacancyOk_enterLadderStage s now cause _

theorem vacancyOk_advanceToNextController :
    (s.advanceToNextController now cause).1.VacancyOk := by
  unfold advanceToNextController
  split
  · exact vacancyOk_enterLadderStage s now cause _
  · exact vacancyOk_enterActive s now cause

theorem vacancyOk_unfreezeGrace {s : DisplayStateMachine} (hs : s.VacancyOk) (now : ℕ) :
    (s.unfreezeGrace now).1.VacancyOk := by
  unfold unfreezeGrace
  split
  · exact hs
  · split
    · exact hs
    · exact vacancyOk_of_phase (by simp)

theorem vacancyOk_maybeAutoResume {s : DisplayStateMachine} (hs : s.VacancyOk) (now : ℕ) :
    (s.maybeAutoResume now).1.VacancyOk := by
  by_cases hd : s.pauseDue now
  · rw [maybeAutoResume_due s now hd]
    exact vacancyOk_unfreezeGrace (s := s.clearPause) hs now
  · rw [maybeAutoResume_not_due s now hd]
    exact hs

theorem vacancyOk_graceTick {s : DisplayStateMachine} (hs : s.VacancyOk) (untilTick now : ℕ) :
    (s.graceTick untilTick now).1.VacancyOk := by
  have ha := vacancyOk_maybeAutoResume hs now
  unfold graceTick
  dsimp only
  split_ifs
  · exact ha
  · exact ha
  · refine vacancyOk_congr ?_ (setting_freezeGrace _ now untilTick) ha
    unfold freezeGrace
    split <;> rfl
  · exact ha
  · exact ha
  · exact ha
  · exact vacancyOk_enterLadderStage _ now _ 0

theorem vacancyOk_blankAnswered (result : Except CmdFailure Unit) :
    (s.blankAnswered result now).1.VacancyOk := by
  unfold blankAnswered
  cases result with
  | ok u =>
    dsimp only
    split
    · exact vacancyOk_of_phase (by simp [issueWake])
    · exact vacancyOk_of_phase (by simp)
  | error failure =>
    dsimp only
    split
    · exact vacancyOk_enterGrace _ now _
    · exact vacancyOk_enterActive _ now _

end Helpers

/-- Whatever the zones were, the news of them leaves no machine in Active over vacant zones. -/
theorem vacancyOk_seen (s : DisplayStateMachine) (present : Bool) (now : ℕ) :
    (s.step (.zonePresent present) now).1.VacancyOk := by
  cases present with
  | true =>
    intro _ hz
    have hset := step_setting s (.zonePresent true) now
    have hseen : (s.step (.zonePresent true) now).1.zonePresent = some true := by
      have h := congrArg Setting.zonePresent hset
      have hw : s.wakeAccepted (.zonePresent true) = false := by
        cases hp : s.phase <;> simp [wakeAccepted, hp]
      rw [hw] at h
      exact h
    rw [hseen] at hz
    cases hz
  | false =>
    cases hp : s.phase with
    | active =>
      have hstep : s.step (.zonePresent false) now =
          (s.seeZone false).enterGrace now "zone_clear" := by
        simp [step, hp, stepActive]
      rw [hstep]
      exact vacancyOk_enterGrace _ now _
    | _ =>
      refine vacancyOk_of_phase ?_
      simp [step, hp, stepGrace, stepBlanking, stepBlanked, stepWaking, stepRenderPending,
        stepStaged, seeZone]

theorem vacancyOk_note (hs : s.VacancyOk) (h : ∀ present, input ≠ .zonePresent present) :
    (s.note input).VacancyOk := by
  cases input with
  | zonePresent present => exact absurd rfl (h present)
  | _ => exact hs

/-- Every step keeps the machine out of Active over vacant zones, unless a hold is on. -/
theorem VacancyOk.step (hs : s.VacancyOk) (input : Input) (now : ℕ) :
    (s.step input now).1.VacancyOk := by
  by_cases hin : ∃ present, input = .zonePresent present
  · obtain ⟨present, rfl⟩ := hin
    exact vacancyOk_seen s present now
  have hnote : (s.note input).VacancyOk :=
    vacancyOk_note hs fun present heq => hin ⟨present, heq⟩
  have hm := step_move s input now
  generalize s.step input now = r at hm
  cases hm with
  | quiet => exact hnote
  | ticked => exact vacancyOk_maybeAutoResume hs now
  | graceTicked untilTick => exact vacancyOk_graceTick hs untilTick now
  | vacated => exact vacancyOk_enterGrace _ now _
  | froze untilTick hp =>
    refine vacancyOk_of_phase ?_
    unfold freezeGrace
    split <;> simp [hp]
  | repaused => exact hnote
  | thawed => exact vacancyOk_unfreezeGrace hnote now
  | regained => exact hnote
  | activated cause => exact vacancyOk_enterActive _ now cause
  | forceBlanked => exact vacancyOk_of_phase (by simp [issueBlank])
  | softBlanked => exact vacancyOk_enterLadderStage _ now _ 0
  | deferred hp => exact vacancyOk_of_phase (by simp [hp])
  | blankAnswered result => exact vacancyOk_blankAnswered s now result
  | woken => exact vacancyOk_of_phase (by simp [issueWake])
  | rewoken => exact vacancyOk_of_phase (by simp [issueWake])
  | retried => exact vacancyOk_of_phase (by simp [issueWake])
  | awoken => exact vacancyOk_enterActive _ now _
  | torn cause => exact vacancyOk_enterActive _ now cause
  | tornAwake => exact vacancyOk_of_phase (by simp [issueWake])
  | renderForceBlanked => exact vacancyOk_of_phase (by simp [forceBlankFromRender, issueBlank])
  | renderSoftBlanked => exact vacancyOk_enterLadderStage _ now _ 0
  | rendered => exact vacancyOk_of_phase (by simp)
  | renderFailed => exact vacancyOk_advanceToNextController s now _
  | advanced => exact vacancyOk_advanceStage s now _
  | captured hp => exact vacancyOk_of_phase (by simp [captureDwell, hp])
  | rearmed hp =>
    refine vacancyOk_of_phase ?_
    obtain ⟨gen, deadline, he⟩ := (s.note input).rearmStageTick_frame now
    rw [he]
    simp [hp]

end DisplayStateMachine
end Dormant
