import Dormant.StateMachine.Facts

/-!
# Each wake has a tick that retries it

Every wake command of a step comes with a tick one `wakeRetryInterval` later, and the result of
a wake that is not in flight asks for nothing.
-/

namespace Dormant
set_option autoImplicit false

def Effect.isWake : Effect → Bool
  | .issueWake _ => true
  | _ => false

/-- How many wake commands the effects issue. -/
def wakes (effects : List Effect) : ℕ := effects.countP Effect.isWake

@[simp] theorem wakes_nil : wakes [] = 0 := rfl

@[simp] theorem wakes_append (a b : List Effect) : wakes (a ++ b) = wakes a + wakes b :=
  List.countP_append

theorem wakes_cons {e : Effect} (he : e.isWake = false) (effects : List Effect) :
    wakes (e :: effects) = wakes effects :=
  List.countP_cons_of_neg (by simp [he])

theorem Clerical.wakes_eq {effects : List Effect} (h : Clerical effects) : wakes effects = 0 := by
  refine List.countP_eq_zero.mpr fun e he => ?_
  have hc := h e he
  cases e <;> simp [Effect.clerical, Effect.isWake] at hc ⊢

namespace DisplayStateMachine
variable (s : DisplayStateMachine) (now : ℕ) (cause : String)

/-! ## The helpers that issue no wake -/

theorem wakes_issueBlank {pre : List Effect} (hpre : wakes pre = 0) :
    wakes (s.issueBlank pre).2 = 0 := by
  rw [issueBlank, wakes_append, hpre]
  rfl

theorem wakes_enterLadderStage (idx : ℕ) : wakes (s.enterLadderStage idx now cause).2 = 0 := by
  have hteardown (b : Bool) (gen : UInt64) :
      wakes (if b then [Effect.teardownRender gen] else []) = 0 := by cases b <;> rfl
  unfold enterLadderStage
  split
  · exact (clerical_enterActive s now cause).wakes_eq
  · dsimp only
    split
    · rw [issueBlankForMode, wakes_append, wakes_append, hteardown]
      rfl
    · rw [wakes_append, wakes_append, hteardown]
      rfl

theorem wakes_teardownRender : wakes (s.teardownRender now cause).2 = 0 := by
  unfold teardownRender
  dsimp only
  rw [wakes_cons rfl]
  exact (clerical_enterActive s now cause).wakes_eq

theorem wakes_advanceStage : wakes (s.advanceStage now cause).2 = 0 := by
  unfold advanceStage
  split
  · exact (clerical_enterActive s now cause).wakes_eq
  · exact wakes_enterLadderStage s now cause _

theorem wakes_advanceToNextController : wakes (s.advanceToNextController now cause).2 = 0 := by
  unfold advanceToNextController
  split
  · exact wakes_enterLadderStage s now cause _
  · exact wakes_teardownRender s now cause

theorem wakes_scheduleStageTick : wakes (s.scheduleStageTick now).2 = 0 := by
  unfold scheduleStageTick
  split
  · rfl
  · split <;> rfl

theorem wakes_rearmStageTick : wakes (s.rearmStageTick now).2 = 0 := by
  unfold rearmStageTick
  dsimp only
  split
  · rfl
  · split <;> rfl

theorem wakes_graceTick (untilTick : ℕ) : wakes (s.graceTick untilTick now).2 = 0 := by
  have ha := (clerical_maybeAutoResume s now).wakes_eq
  unfold graceTick
  dsimp only
  split_ifs
  · exact ha
  · exact ha
  · exact ha
  · exact ha
  · rw [wakes_append, ha]
    rfl
  · exact ha
  · rw [wakes_append, ha, wakes_enterLadderStage]

/-! ## The step -/

/-- The effects ask for a retry tick for each wake that they issue. -/
def Retried (effects : List Effect) : Prop :=
  wakes effects ≤ (ticks effects).count (now + s.timings.wakeRetryInterval)

variable {s now}

theorem retried_of_none {effects : List Effect} (h : wakes effects = 0) : s.Retried now effects := by
  unfold Retried
  rw [h]
  exact Nat.zero_le _

theorem retried_issueWake (s : DisplayStateMachine) (now : ℕ) (pre : List Effect)
    (hpre : wakes pre = 0) : s.Retried now (s.issueWake pre now).2 := by
  have hone : wakes (s.issueWake pre now).2 = 1 := by
    rw [issueWake, wakes_append, hpre]
    rfl
  unfold Retried
  rw [hone, Nat.one_le_iff_ne_zero, Nat.ne_zero_iff_zero_lt, List.count_pos_iff]
  simp [issueWake, ticks, Effect.tick?]

theorem Retried.append {effects : List Effect} (h : s.Retried now effects) (pre : List Effect)
    (hpre : wakes pre = 0) : s.Retried now (pre ++ effects) := by
  unfold Retried at h ⊢
  rw [wakes_append, hpre, ticks, List.filterMap_append, List.count_append]
  simp only [ticks] at h
  omega

theorem Retried.congr {t : DisplayStateMachine} (ht : t.setting = s.setting)
    {effects : List Effect} (h : t.Retried now effects) : s.Retried now effects := by
  have htimings : t.timings = s.timings := congrArg Setting.timings ht
  unfold Retried at h ⊢
  rwa [← htimings]

theorem retried_step (s : DisplayStateMachine) (input : Input) (now : ℕ) :
    s.Retried now (s.step input now).2 := by
  have hm := step_move s input now
  generalize s.step input now = r at hm
  have hnote : (s.note input).timings = s.timings := by cases input <;> rfl
  cases hm with
  | quiet => exact retried_of_none (clerical_noteEffects input).wakes_eq
  | ticked => exact retried_of_none (clerical_maybeAutoResume s now).wakes_eq
  | graceTicked untilTick => exact retried_of_none (wakes_graceTick s now untilTick)
  | vacated => exact retried_of_none (clerical_enterGrace _ now _).wakes_eq
  | froze => exact retried_of_none (clerical_noteEffects input).wakes_eq
  | repaused => exact retried_of_none (clerical_noteEffects _).wakes_eq
  | thawed => exact retried_of_none (clerical_unfreezeGrace _ now).wakes_eq
  | regained => exact retried_of_none rfl
  | activated cause => exact retried_of_none (clerical_enterActive _ now cause).wakes_eq
  | forceBlanked => exact retried_of_none (wakes_issueBlank _ rfl)
  | softBlanked => exact retried_of_none (wakes_enterLadderStage _ now _ 0)
  | deferred => exact retried_of_none rfl
  | blankAnswered result =>
    unfold blankAnswered
    cases result with
    | ok u =>
      dsimp only
      split
      · have hw := retried_issueWake { s with lastBlank := some now, pendingWake := false } now
          [.logTransition "blanking" "waking" "presence_during_blank"] rfl
        exact hw
      · refine retried_of_none ?_
        rw [wakes_cons rfl]
        exact wakes_scheduleStageTick _ now
    | error failure =>
      dsimp only
      split
      · exact retried_of_none (clerical_enterGrace _ now _).wakes_eq
      · exact retried_of_none (clerical_enterActive _ now _).wakes_eq
  | woken source cause =>
    have hw := retried_issueWake (s.note input) now [.logTransition source "waking" cause] rfl
    unfold Retried at hw
    rw [hnote] at hw
    exact hw
  | rewoken pre hp hinput =>
    refine retried_issueWake s now pre ?_
    rcases hinput with ⟨-, rfl⟩ | ⟨-, rfl⟩ | ⟨-, rfl⟩ <;> rfl
  | retried =>
    have htimings : (s.maybeAutoResume now).1.timings = s.timings :=
      congrArg Setting.timings (setting_maybeAutoResume s now)
    have hw := retried_issueWake (s.maybeAutoResume now).1 now [] rfl
    unfold Retried at hw
    rw [htimings] at hw
    have hlogged := Retried.append hw
      [.logTransition "waking" "waking" "wake_retry_scheduled"] rfl
    exact hlogged.append _ (clerical_maybeAutoResume s now).wakes_eq
  | awoken => exact retried_of_none (clerical_enterActive _ now _).wakes_eq
  | torn cause => exact retried_of_none (wakes_teardownRender _ now cause)
  | tornAwake source =>
    have htorn := setting_teardownRender (s.note (.ownershipChanged true)) now "ownership_acquired"
    have hw := retried_issueWake
      ((s.note (.ownershipChanged true)).teardownRender now "ownership_acquired").1 now
      [.logTransition source "waking" "ownership_acquired"] rfl
    have hall := (hw.congr htorn).append _
      (wakes_teardownRender (s.note (.ownershipChanged true)) now "ownership_acquired")
    exact hall
  | renderForceBlanked source =>
    refine retried_of_none ?_
    unfold forceBlankFromRender
    dsimp only
    rw [wakes_cons rfl, wakes_cons rfl]
    exact wakes_issueBlank _ rfl
  | renderSoftBlanked source =>
    refine retried_of_none ?_
    unfold softBlankFromRender
    dsimp only
    rw [wakes_cons rfl, wakes_cons rfl]
    exact wakes_enterLadderStage _ now _ 0
  | rendered =>
    refine retried_of_none ?_
    rw [wakes_cons rfl]
    exact wakes_scheduleStageTick _ now
  | renderFailed => exact retried_of_none (wakes_advanceToNextController s now _)
  | advanced => exact retried_of_none (wakes_advanceStage s now _)
  | captured => exact retried_of_none (clerical_noteEffects input).wakes_eq
  | rearmed => exact retried_of_none (wakes_rearmStageTick _ now)

end DisplayStateMachine
end Dormant
