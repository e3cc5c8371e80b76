import Dormant.StateMachine.Ladder

/-!
# What a held or disowned display still puts on the screen

A pause, an inhibitor and lost ownership hold back the ladder. Grace consults all three, so
its tick starts nothing then. Two arms consult less. A failed surface moves on to the next
controller whatever is on, and the stage tick reads a pause off the captured dwell, which
only Staged captures. `leaks` names these two steps, and `dark_iff_leaks` says that they are
the only ones.
-/

namespace Dormant
set_option autoImplicit false

def emitsDark (effects : List Effect) : Bool := effects.any Effect.darkens

@[simp] theorem emitsDark_nil : emitsDark [] = false := rfl

@[simp] theorem emitsDark_cons (e : Effect) (effects : List Effect) :
    emitsDark (e :: effects) = (e.darkens || emitsDark effects) := rfl

@[simp] theorem emitsDark_append (a b : List Effect) :
    emitsDark (a ++ b) = (emitsDark a || emitsDark b) :=
  List.any_append

namespace DisplayStateMachine
variable {s : DisplayStateMachine} {input : Input}

/-- Something holds back the blank path: an overlay is on, or another host owns the display. -/
def suppressed (s : DisplayStateMachine) : Bool := s.held || !s.owned

@[simp] theorem emitsDark_noteEffects (input : Input) : emitsDark (noteEffects input) = false := by
  unfold noteEffects
  split <;> rfl

/-! ## The helpers -/

section Helpers
variable (s : DisplayStateMachine) (now : ℕ) (cause : String)

@[simp] theorem dark_enterGrace : emitsDark (s.enterGrace now cause).2 = false := by
  unfold enterGrace
  dsimp only
  split <;> rfl

@[simp] theorem dark_enterActive : emitsDark (s.enterActive now cause).2 = false := by
  unfold enterActive
  dsimp only
  split
  · exact dark_enterGrace _ now _
  · rfl

@[simp] theorem dark_teardownRender : emitsDark (s.teardownRender now cause).2 = false :=
  dark_enterActive s now cause

theorem dark_issueWake {pre : List Effect} (hpre : emitsDark pre = false) :
    emitsDark (s.issueWake pre now).2 = false := by
  simp [issueWake, hpre, Effect.darkens]

@[simp] theorem dark_scheduleStageTick : emitsDark (s.scheduleStageTick now).2 = false := by
  unfold scheduleStageTick
  split
  · rfl
  · split <;> rfl

@[simp] theorem dark_rearmStageTick : emitsDark (s.rearmStageTick now).2 = false := by
  unfold rearmStageTick
  dsimp only
  split
  · rfl
  · split <;> rfl

@[simp] theorem dark_unfreezeGrace : emitsDark (s.unfreezeGrace now).2 = false := by
  unfold unfreezeGrace
  split
  · rfl
  · split <;> rfl

@[simp] theorem dark_maybeAutoResume : emitsDark (s.maybeAutoResume now).2 = false := by
  unfold maybeAutoResume
  split
  · split
    · exact dark_unfreezeGrace _ now
    · rfl
  · rfl

@[simp] theorem dark_blankAnswered (result : Except CmdFailure Unit) :
    emitsDark (s.blankAnswered result now).2 = false := by
  unfold blankAnswered
  cases result with
  | ok u =>
    dsimp only
    split
    · exact dark_issueWake _ now rfl
    · exact dark_scheduleStageTick _ now
  | error failure =>
    dsimp only
    split
    · exact dark_enterGrace _ now _
    · exact dark_enterActive _ now _

theorem dark_enterLadderStage (idx : ℕ) :
    emitsDark (s.enterLadderStage idx now cause).2 = true ↔ idx < s.ladder.length := by
  unfold enterLadderStage
  split
  · rename_i h
    simpa using List.getElem?_eq_none_iff.mp h
  · rename_i stage h
    refine iff_of_true ?_ (List.getElem?_eq_some_iff.mp h).1
    dsimp only
    split
    · simp [issueBlankForMode, Effect.darkens]
    · simp [Effect.darkens]

theorem dark_advanceStage :
    emitsDark (s.advanceStage now cause).2 = true ↔ s.nextStage < s.ladder.length := by
  unfold advanceStage
  split
  · rename_i h
    simpa using h
  · exact dark_enterLadderStage s now cause s.nextStage

theorem dark_advanceToNextController :
    emitsDark (s.advanceToNextController now cause).2 = true ↔
      (s.nextController s.nextStage).isSome = true := by
  unfold advanceToNextController
  cases h : s.nextController s.nextStage with
  | none => simp
  | some idx =>
    obtain ⟨-, stage, hs, -⟩ := nextController_eq_some s h
    simpa using (dark_enterLadderStage s now cause idx).mpr (List.getElem?_eq_some_iff.mp hs).1

end Helpers

theorem graceTick_dark {untilTick now : ℕ}
    (h : emitsDark (s.graceTick untilTick now).2 = true) :
    (s.graceTick untilTick now).1.suppressed = false := by
  have hset := setting_graceTick s now untilTick
  have ha := setting_maybeAutoResume s now
  rw [← ha] at hset
  have hsup : (s.graceTick untilTick now).1.suppressed = (s.maybeAutoResume now).1.suppressed := by
    have ho := congrArg Setting.overlays hset
    have hw := congrArg Setting.owned hset
    simp only [setting] at ho hw
    simp only [suppressed, held, ho, hw]
  rw [hsup]
  unfold graceTick at h
  dsimp only at h
  split_ifs at h with h1 h2 h3 h4 h5 h6
  all_goals simp_all [Effect.darkens, suppressed, held]

/-! ## The two arms that leak -/

/-- A failed surface with a controller further up the ladder. -/
def failsOver (s : DisplayStateMachine) (input : Input) : Prop :=
  ∃ idx gen failure, s.phase = .renderPending idx gen ∧ input = .renderResult gen (.error failure) ∧
    ∃ next stage, s.nextStage ≤ next ∧ s.ladder[next]? = some stage ∧ stage.kind.isRender = false

/-- A current stage tick with a rung ahead that neither an inhibitor nor lost ownership nor a
captured dwell holds back. A pause alone does not. -/
def ticksOn (s : DisplayStateMachine) (input : Input) : Prop :=
  (s.phase = .blanked ∨ ∃ idx gen, s.phase = .staged idx gen) ∧ input = .stageTick s.stageGen ∧
    s.stageDwellFrozenRemaining = none ∧ s.overlays.inhibited = false ∧ s.owned = true ∧
    s.nextStage < s.ladder.length

def leaks (s : DisplayStateMachine) (input : Input) : Prop := s.failsOver input ∨ s.ticksOn input

theorem leaks_of_dark {now : ℕ} (hforce : input ≠ .forceBlank) (hsoft : input ≠ .softBlank)
    (hsup : (s.step input now).1.suppressed = true)
    (hdark : emitsDark (s.step input now).2 = true) : s.leaks input := by
  have hm := step_move s input now
  generalize s.step input now = r at hm hsup hdark
  cases hm with
  | quiet => simp at hdark
  | ticked => simp at hdark
  | graceTicked untilTick => simp [graceTick_dark hdark] at hsup
  | vacated => simp at hdark
  | froze => simp at hdark
  | repaused => simp at hdark
  | thawed => simp at hdark
  | regained => simp [Effect.darkens] at hdark
  | activated => simp at hdark
  | forceBlanked => exact absurd rfl hforce
  | softBlanked => exact absurd rfl hsoft
  | deferred => simp at hdark
  | blankAnswered => simp at hdark
  | woken => simp [dark_issueWake, Effect.darkens] at hdark
  | rewoken pre h hinput =>
    have hpre : emitsDark pre = false := by
      rcases hinput with ⟨-, rfl⟩ | ⟨-, rfl⟩ | ⟨-, rfl⟩ <;> rfl
    simp [dark_issueWake s now hpre] at hdark
  | retried =>
    have hwake := dark_issueWake (s.maybeAutoResume now).1 now emitsDark_nil
    simp [hwake, Effect.darkens] at hdark
  | awoken => simp at hdark
  | torn => simp at hdark
  | tornAwake => simp [dark_issueWake, Effect.darkens] at hdark
  | renderForceBlanked => exact absurd rfl hforce
  | renderSoftBlanked => exact absurd rfl hsoft
  | rendered => simp [Effect.darkens] at hdark
  | @renderFailed gen failure idx h =>
    rw [dark_advanceToNextController, nextController_isSome_iff] at hdark
    exact .inl ⟨idx, gen, failure, h, rfl, hdark⟩
  | advanced h hfrozen hinhibited howned =>
    rw [dark_advanceStage] at hdark
    exact .inr ⟨h, rfl, hfrozen, hinhibited, howned, hdark⟩
  | captured => simp at hdark
  | rearmed => simp at hdark

theorem dark_of_leaks (now : ℕ) (h : s.leaks input) :
    emitsDark (s.step input now).2 = true ∧
      (s.step input now).1.suppressed = s.suppressed := by
  have hsame (hinput : ∀ c : Setting, c.after input now = c) :
      (s.step input now).1.suppressed = s.suppressed := by
    simp only [suppressed, held, step_overlays, step_owned, hinput, setting]
  rcases h with ⟨idx, gen, failure, hp, rfl, hnext⟩ | ⟨hp, rfl, hf, hi, ho, hlt⟩
  · have hstep : s.step (.renderResult gen (.error failure)) now =
        s.advanceToNextController now "render_failed" := by
      simp [step, hp, stepRenderPending]
    refine ⟨?_, hsame fun _ => rfl⟩
    rw [hstep, dark_advanceToNextController, nextController_isSome_iff]
    exact hnext
  · have hstep : s.step (.stageTick s.stageGen) now = s.advanceStage now "stage_tick" := by
      rcases hp with hp | ⟨idx, gen, hp⟩ <;>
        simp [step, hp, stepBlanked, stepStaged, stageTicked, stageAdvanceFrozen, hf, hi, ho]
    refine ⟨?_, hsame fun _ => rfl⟩
    rw [hstep, dark_advanceStage]
    exact hlt

/-! ## Runs -/

/-- Unless it was asked to, a display that is held back before and after a step puts nothing
dark on the screen. -/
def holdsBack (s : DisplayStateMachine) : Feed → Prop
  | .input input now =>
    input ≠ .forceBlank → input ≠ .softBlank → s.suppressed = true →
      (s.step input now).1.suppressed = true → emitsDark (s.step input now).2 = false
  | .hold _ => True

def leaksFeed (s : DisplayStateMachine) : Feed → Prop
  | .input input _ => s.suppressed = true ∧ s.leaks input
  | .hold _ => False

theorem holdsBack_iff (s : DisplayStateMachine) (f : Feed) : s.holdsBack f ↔ ¬ s.leaksFeed f := by
  cases f with
  | hold active => simp [holdsBack, leaksFeed]
  | input input now =>
    constructor
    · rintro h ⟨hs, hl⟩
      obtain ⟨hdark, hsame⟩ := dark_of_leaks now hl
      have hne : input ≠ .forceBlank ∧ input ≠ .softBlank := by
        rcases hl with ⟨_, _, _, _, rfl, _⟩ | ⟨_, rfl, _⟩ <;> simp
      have hquiet := h hne.1 hne.2 hs (hsame.trans hs)
      simp [hdark] at hquiet
    · intro hn hforce hsoft hs hsup
      by_contra hdark
      exact hn ⟨hs, leaks_of_dark hforce hsoft hsup (by simpa using hdark)⟩

/-- A run holds the blank path back at every step exactly when no step of it leaks. -/
theorem held_back_iff (timings : SmTimings) (ladder : List LadderStage) (start : ℕ)
    (feeds : List Feed) :
    machine.Steps holdsBack (new timings ladder start) feeds ↔
      machine.Steps (fun s f => ¬ s.leaksFeed f) (new timings ladder start) feeds :=
  Runs.System.steps_congr holdsBack_iff _ _

/-- A pause in Blanked captures no dwell, so the stage tick issues the next blank under it. -/
theorem paused_blank_issued :
    ¬ machine.Steps holdsBack
      (new { gracePeriod := 60, minBlankTime := 0, minWakeTime := 0, startupHoldoff := 0,
             wakeRetryInterval := 5 }
        [⟨.controller .brightnessZero, some 10⟩, ⟨.controller .powerOff, none⟩] 0)
      [.input .softBlank 1, .input (.blankResult 1 (.ok ())) 2, .input (.pause none) 3,
        .input (.stageTick 2) 12] := by
  intro h
  have hlast := h.2.2.2.1 nofun nofun (by decide) (by decide)
  exact absurd hlast (by decide)

end DisplayStateMachine
end Dormant
