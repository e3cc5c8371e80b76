import Dormant.Foundations.Runs
import Dormant.StateMachine.Moves

/-!
# Runs of a machine, and what its helpers leave alone

`machine` is the state machine as a system: its inputs are those of `step`, each at an
instant, and the setting of the input-wake hold. The rest are the facts about the helpers
that the invariants share: the overlays after a step, the countdown helpers case by case,
and the effects each helper can emit.
-/

namespace Dormant
set_option autoImplicit false

inductive Feed where
  | input (input : Input) (now : ℕ)
  | hold (active : Bool)

def machine : Runs.System DisplayStateMachine Feed Effect where
  next s
    | .input input now => s.step input now
    | .hold active => (s.setInputWakeHoldActive active, [])

@[simp] theorem machine_input (s : DisplayStateMachine) (input : Input) (now : ℕ) :
    machine.next s (.input input now) = s.step input now := rfl

@[simp] theorem machine_hold (s : DisplayStateMachine) (active : Bool) :
    machine.next s (.hold active) = (s.setInputWakeHoldActive active, []) := rfl

/-- An input does not come before an instant. -/
def Feed.inOrder (clock : ℕ) : Feed → Prop
  | .input _ now => clock ≤ now
  | .hold _ => True

instance (clock : ℕ) : (f : Feed) → Decidable (f.inOrder clock)
  | .input _ now => inferInstanceAs (Decidable (clock ≤ now))
  | .hold _ => isTrue trivial

/-- The time without an overlay between two instants. -/
def DisplayStateMachine.unheldTime (s : DisplayStateMachine) (clock now : ℕ) : ℕ :=
  if s.held then 0 else now - clock

/-! ## The effects by kind -/

def Effect.tick? : Effect → Option ℕ
  | .scheduleTickAt tick => some tick
  | _ => none

def Effect.stageTick? : Effect → Option (UInt64 × ℕ)
  | .scheduleStageTickAt gen tick => some (gen, tick)
  | _ => none

/-- The effect puts something dark on the display: a blank command or a render surface. -/
def Effect.darkens : Effect → Bool
  | .issueBlank _ _ | .showRender _ _ _ => true
  | _ => false

/-- The effect only keeps the books: it logs a transition or asks for a tick. -/
def Effect.clerical : Effect → Bool
  | .logTransition _ _ _ | .scheduleTickAt _ => true
  | _ => false

def Clerical (effects : List Effect) : Prop := ∀ e ∈ effects, e.clerical = true

theorem Clerical.filterMap_nil {α : Type} {effects : List Effect} (h : Clerical effects)
    {kind : Effect → Option α} (hkind : ∀ e : Effect, e.clerical = true → kind e = none) :
    effects.filterMap kind = [] :=
  List.filterMap_eq_nil_iff.mpr fun e he => hkind e (h e he)

def ticks (effects : List Effect) : List ℕ := effects.filterMap Effect.tick?

def stageTicks (effects : List Effect) : List (UInt64 × ℕ) :=
  effects.filterMap Effect.stageTick?

namespace DisplayStateMachine
variable (s : DisplayStateMachine) (now : ℕ)

/-! ## The pause and its deadline -/

/-- The display is paused up to a deadline that has passed. -/
def pauseDue : Prop := ∃ deadline, s.overlays.paused = some ⟨some deadline⟩ ∧ deadline ≤ now

theorem maybeAutoResume_due (h : s.pauseDue now) :
    s.maybeAutoResume now = s.clearPause.unfreezeGrace now := by
  obtain ⟨deadline, hp, hd⟩ := h
  simp only [maybeAutoResume, hp, if_pos hd, clearPause]

theorem maybeAutoResume_not_due (h : ¬ s.pauseDue now) : s.maybeAutoResume now = (s, []) := by
  unfold maybeAutoResume
  split
  · rename_i deadline hp
    rw [if_neg fun hd => h ⟨deadline, hp, hd⟩]
  · rfl

theorem unfreezeGrace_unfrozen {s : DisplayStateMachine} (hf : s.graceFrozenRemaining = none)
    (now : ℕ) : s.unfreezeGrace now = (s, []) := by
  simp [unfreezeGrace, hf]

theorem maybeAutoResume_unfrozen {s : DisplayStateMachine} (hf : s.graceFrozenRemaining = none)
    (now : ℕ) :
    s.maybeAutoResume now = (s, []) ∨ s.maybeAutoResume now = (s.clearPause, []) := by
  by_cases hd : s.pauseDue now
  · rw [maybeAutoResume_due s now hd]
    exact .inr (unfreezeGrace_unfrozen (s := s.clearPause) hf now)
  · exact .inl (maybeAutoResume_not_due s now hd)

/-! ## Helpers that only keep the books -/

section Clerical
variable (cause : String)

theorem clerical_noteEffects (input : Input) : Clerical (noteEffects input) := by
  unfold noteEffects
  split <;> simp [Clerical, Effect.clerical]

theorem clerical_enterGrace : Clerical (s.enterGrace now cause).2 := by
  unfold enterGrace
  dsimp only
  split <;> simp [Clerical, Effect.clerical]

theorem clerical_enterActive : Clerical (s.enterActive now cause).2 := by
  unfold enterActive
  dsimp only
  split
  · exact List.forall_mem_cons.mpr ⟨rfl, clerical_enterGrace _ now _⟩
  · simp [Clerical, Effect.clerical]

theorem clerical_unfreezeGrace : Clerical (s.unfreezeGrace now).2 := by
  unfold unfreezeGrace
  repeat' split
  all_goals simp [Clerical, Effect.clerical]

theorem clerical_maybeAutoResume : Clerical (s.maybeAutoResume now).2 := by
  by_cases hd : s.pauseDue now
  · rw [maybeAutoResume_due s now hd]
    exact clerical_unfreezeGrace _ now
  · rw [maybeAutoResume_not_due s now hd]
    exact List.forall_mem_nil _

end Clerical

/-- A pause that is due thaws a frozen countdown when no inhibitor is left. -/
theorem maybeAutoResume_thaw {s : DisplayStateMachine} {now : ℕ} (hd : s.pauseDue now)
    (hi : s.overlays.inhibited = false) (hf : s.graceFrozenRemaining.isSome = true) :
    ∃ remaining, s.graceFrozenRemaining = some remaining ∧ s.maybeAutoResume now =
      ({ s.clearPause with graceFrozenRemaining := none, phase := .grace (now + remaining) },
        [.scheduleTickAt (now + remaining)]) := by
  obtain ⟨remaining, hr⟩ := Option.isSome_iff_exists.mp hf
  refine ⟨remaining, hr, ?_⟩
  rw [maybeAutoResume_due s now hd]
  simp [unfreezeGrace, clearPause, hr, hi]

/-- A tick that thaws no countdown leaves the phase alone. -/
theorem maybeAutoResume_phase {s : DisplayStateMachine} {now : ℕ}
    (h : ¬ (s.pauseDue now ∧ s.overlays.inhibited = false ∧
      s.graceFrozenRemaining.isSome = true)) : (s.maybeAutoResume now).1.phase = s.phase := by
  by_cases hd : s.pauseDue now
  · rw [maybeAutoResume_due s now hd]
    unfold unfreezeGrace
    cases hf : s.graceFrozenRemaining with
    | none => simp [clearPause, hf]
    | some remaining =>
      cases hi : s.overlays.inhibited with
      | true => simp [clearPause, hf, hi]
      | false => exact absurd ⟨hd, hi, by simp [hf]⟩ h
  · rw [maybeAutoResume_not_due s now hd]

/-! ## What the small helpers touch -/

variable (input : Input)

/-- Recording an input touches the overlays, the zone level and the ownership flag. -/
theorem note_frame : ∃ overlays zone owns,
    s.note input = { s with overlays := overlays, zonePresent := zone, owned := owns } := by
  cases input <;> exact ⟨_, _, _, rfl⟩

@[simp] theorem note_inGrace : (s.note input).inGrace = s.inGrace := by cases input <;> rfl

@[simp] theorem note_phase : (s.note input).phase = s.phase := by cases input <;> rfl

@[simp] theorem note_graceFrozenRemaining :
    (s.note input).graceFrozenRemaining = s.graceFrozenRemaining := by
  cases input <;> rfl

/-- Scheduling the stage tick touches the stage generation and the deadline. -/
theorem scheduleStageTick_frame : ∃ gen deadline, (s.scheduleStageTick now).1 =
    { s with stageGen := gen, scheduledStageDeadline := deadline } := by
  unfold scheduleStageTick
  split
  · exact ⟨_, _, rfl⟩
  · split <;> exact ⟨_, _, rfl⟩

theorem rearmStageTick_frame : ∃ gen deadline, (s.rearmStageTick now).1 =
    { s with stageGen := gen, scheduledStageDeadline := deadline,
             stageDwellFrozenRemaining := none } := by
  unfold rearmStageTick
  dsimp only
  split
  · exact ⟨_, _, rfl⟩
  · split <;> exact ⟨_, _, rfl⟩

@[simp] theorem enterGrace_phase (cause : String) :
    (s.enterGrace now cause).1.phase = .grace (now + s.timings.gracePeriod) := by
  unfold enterGrace
  dsimp only
  split <;> rfl

theorem enterActive_phase (cause : String) :
    (s.enterActive now cause).1.phase = .active ∨
      (s.enterActive now cause).1.phase = .grace (now + s.timings.gracePeriod) := by
  unfold enterActive
  dsimp only
  split
  · exact .inr (enterGrace_phase _ _ _)
  · exact .inl rfl

@[simp] theorem scheduleStageTick_phase : (s.scheduleStageTick now).1.phase = s.phase := by
  obtain ⟨gen, deadline, h⟩ := s.scheduleStageTick_frame now
  rw [h]

/-- An input that is only recorded in Grace leaves the overlays alone. -/
theorem quiet_grace_overlays {s : DisplayStateMachine} {input : Input} (hg : s.inGrace = true)
    (h : s.quiet input) : (s.note input).overlays = s.overlays := by
  cases hp : s.phase <;> simp only [inGrace, hp, Bool.false_eq_true] at hg
  simp only [quiet, hp] at h
  cases input <;> simp only [quietGrace] at h <;> rfl

end DisplayStateMachine

/-! ## The setting of a machine

What a machine is told about the world, and what it was built with. Every phase records an
input in the same way, so the setting evolves by itself. -/

/-- The fields that no phase change touches, the accepted wake's instant among them. -/
structure Setting where
  overlays : Overlays
  zonePresent : Option Bool
  owned : Bool
  inputWakeHoldActive : Bool
  ladder : List LadderStage
  timings : SmTimings
  startedAt : ℕ
  blankMode : BlankMode
  lastWake : Option ℕ

def Overlays.resumedAt (o : Overlays) (now : ℕ) : Overlays :=
  match o.paused with
  | some ⟨some deadline⟩ => if deadline ≤ now then { o with paused := none } else o
  | _ => o

/-- The setting after an input, whatever the phase. -/
def Setting.after (c : Setting) (input : Input) (now : ℕ) : Setting :=
  match input with
  | .zonePresent present => { c with zonePresent := some present }
  | .tick => { c with overlays := c.overlays.resumedAt now }
  | .inhibitorChanged inhibited => { c with overlays := { c.overlays with inhibited := inhibited } }
  | .pause untilTick => { c with overlays := { c.overlays with paused := some ⟨untilTick⟩ } }
  | .resume => { c with overlays := { c.overlays with paused := none } }
  | .ownershipChanged owns => { c with owned := owns }
  | _ => c

namespace DisplayStateMachine

def setting (s : DisplayStateMachine) : Setting :=
  { overlays := s.overlays, zonePresent := s.zonePresent, owned := s.owned,
    inputWakeHoldActive := s.inputWakeHoldActive, ladder := s.ladder, timings := s.timings,
    startedAt := s.startedAt, blankMode := s.blankMode, lastWake := s.lastWake }

/-- The input is the result of the wake in flight, and the wake succeeded. -/
def wakeAccepted (s : DisplayStateMachine) (input : Input) : Bool :=
  match s.phase, input with
  | .waking, .wakeResult gen (.ok _) => s.lastWakeGen == some gen
  | _, _ => false

section Setting
variable (s : DisplayStateMachine) (now : ℕ) (cause : String) (pre : List Effect)

@[simp] theorem setting_enterGrace : (s.enterGrace now cause).1.setting = s.setting := by
  unfold enterGrace
  dsimp only
  split <;> rfl

@[simp] theorem setting_enterActive : (s.enterActive now cause).1.setting = s.setting := by
  unfold enterActive
  dsimp only
  split
  · exact setting_enterGrace _ _ _
  · rfl

@[simp] theorem setting_issueBlank : (s.issueBlank pre).1.setting = s.setting := rfl

@[simp] theorem setting_issueWake : (s.issueWake pre now).1.setting = s.setting := rfl

@[simp] theorem setting_enterLadderStage (idx : ℕ) :
    (s.enterLadderStage idx now cause).1.setting = s.setting := by
  unfold enterLadderStage
  split
  · exact setting_enterActive _ _ _
  · dsimp only
    split <;> rfl

@[simp] theorem setting_teardownRender : (s.teardownRender now cause).1.setting = s.setting :=
  setting_enterActive _ _ _

@[simp] theorem setting_advanceStage : (s.advanceStage now cause).1.setting = s.setting := by
  unfold advanceStage
  split <;> simp

@[simp] theorem setting_advanceToNextController :
    (s.advanceToNextController now cause).1.setting = s.setting := by
  unfold advanceToNextController
  split <;> simp

@[simp] theorem setting_scheduleStageTick : (s.scheduleStageTick now).1.setting = s.setting := by
  obtain ⟨gen, deadline, h⟩ := s.scheduleStageTick_frame now
  rw [h]
  rfl

@[simp] theorem setting_rearmStageTick : (s.rearmStageTick now).1.setting = s.setting := by
  obtain ⟨gen, deadline, h⟩ := s.rearmStageTick_frame now
  rw [h]
  rfl

@[simp] theorem setting_freezeGrace (untilTick : ℕ) :
    (s.freezeGrace untilTick now).setting = s.setting := by
  unfold freezeGrace
  split <;> rfl

@[simp] theorem setting_unfreezeGrace : (s.unfreezeGrace now).1.setting = s.setting := by
  unfold unfreezeGrace
  split
  · rfl
  · split <;> rfl

@[simp] theorem setting_maybeAutoResume :
    (s.maybeAutoResume now).1.setting = s.setting.after .tick now := by
  unfold maybeAutoResume Setting.after Overlays.resumedAt
  cases hp : s.overlays.paused with
  | none => simp [setting, hp]
  | some p =>
    obtain ⟨_ | deadline⟩ := p
    · simp [setting, hp]
    · dsimp only [setting]
      simp only [hp]
      split
      · exact setting_unfreezeGrace _ _
      · rfl

@[simp] theorem setting_graceTick (untilTick : ℕ) :
    (s.graceTick untilTick now).1.setting = s.setting.after .tick now := by
  unfold graceTick
  dsimp only
  repeat' split
  all_goals simp

@[simp] theorem setting_blankAnswered (result : Except CmdFailure Unit) :
    (s.blankAnswered result now).1.setting = s.setting := by
  unfold blankAnswered
  cases result <;> dsimp only <;> split <;> simp <;> rfl

theorem setting_note {input : Input} (h : input ≠ .tick) :
    (s.note input).setting = s.setting.after input now := by
  cases input <;> first | rfl | exact absurd rfl h

end Setting

theorem ne_tick_of_quiet {s : DisplayStateMachine} {input : Input} (h : s.quiet input) :
    input ≠ .tick := by
  rintro rfl
  cases hp : s.phase <;> simp only [quiet, hp] at h <;> exact h

theorem ne_tick_of_wakeRequest {input : Input} (h : wakeRequest input = true) : input ≠ .tick := by
  rintro rfl
  exact Bool.false_ne_true h

theorem step_wakeAccepted {s : DisplayStateMachine} {input : Input} (h : s.wakeAccepted input = true)
    (now : ℕ) : s.phase = .waking ∧ (∃ gen, input = .wakeResult gen (.ok ())) ∧
      s.step input now = { s with lastWake := some now }.enterActive now "wake_completed" := by
  unfold wakeAccepted at h
  split at h
  · rename_i gen u hp
    have hgen : s.lastWakeGen = some gen := by simpa using h
    exact ⟨hp, ⟨gen, rfl⟩, by simp [step, hp, stepWaking, hgen]⟩
  · exact absurd h Bool.false_ne_true

/-- The setting after a step depends on the setting before it, the input and the instant, and
on whether the input is an accepted wake. -/
theorem step_setting (s : DisplayStateMachine) (input : Input) (now : ℕ) :
    (s.step input now).1.setting = if s.wakeAccepted input = true
      then { s.setting with lastWake := some now } else s.setting.after input now := by
  split
  · rename_i hw
    rw [(step_wakeAccepted hw now).2.2]
    exact setting_enterActive _ now _
  rename_i hw
  have hm := step_move s input now
  generalize s.step input now = r at hm
  cases hm with
  | quiet h => exact setting_note s now (ne_tick_of_quiet h)
  | ticked => exact setting_maybeAutoResume s now
  | graceTicked untilTick => exact setting_graceTick s now untilTick
  | vacated => exact setting_enterGrace _ now _
  | froze untilTick h hinput =>
    refine (setting_freezeGrace _ now untilTick).trans (setting_note s now ?_)
    rcases hinput with rfl | ⟨⟨u, rfl⟩, -⟩ <;> simp
  | repaused => rfl
  | thawed h hinput =>
    refine (setting_unfreezeGrace _ now).trans (setting_note s now ?_)
    rcases hinput with rfl | rfl <;> simp
  | regained => rfl
  | activated cause h =>
    refine (setting_enterActive _ now cause).trans (setting_note s now ?_)
    rcases h with ⟨-, h⟩ | ⟨-, rfl⟩
    · exact ne_tick_of_wakeRequest h
    · simp
  | forceBlanked =>
    rw [setting_issueBlank]
    split <;> rfl
  | softBlanked =>
    rw [setting_enterLadderStage]
    split <;> rfl
  | deferred h hinput =>
    refine Eq.trans rfl (setting_note s now ?_)
    rcases hinput with h | ⟨rfl, -⟩
    · exact ne_tick_of_wakeRequest h
    · simp
  | blankAnswered result => exact setting_blankAnswered s now result
  | woken source cause h =>
    refine (setting_issueWake _ now _).trans (setting_note s now ?_)
    rcases h with ⟨-, h⟩ | ⟨-, rfl, -⟩
    · exact ne_tick_of_wakeRequest h
    · simp
  | rewoken pre h hinput =>
    rw [setting_issueWake]
    rcases hinput with ⟨rfl, -⟩ | ⟨rfl, -⟩ | ⟨⟨gen, failure, rfl, -⟩, -⟩ <;> rfl
  | retried => exact setting_maybeAutoResume s now
  | awoken h hgen => exact absurd (by simp [wakeAccepted, h, hgen]) hw
  | torn cause h hinput =>
    refine (setting_teardownRender _ now cause).trans (setting_note s now ?_)
    rcases hinput with h | rfl
    · exact ne_tick_of_wakeRequest h
    · simp
  | tornAwake => exact setting_teardownRender _ now _
  | renderForceBlanked => rfl
  | renderSoftBlanked => exact setting_enterLadderStage _ now _ 0
  | rendered => exact setting_scheduleStageTick _ now
  | renderFailed => exact setting_advanceToNextController s now _
  | advanced => exact setting_advanceStage s now _
  | captured h hinput =>
    refine Eq.trans rfl (setting_note s now ?_)
    rcases hinput with rfl | ⟨⟨u, rfl⟩, -⟩ <;> simp
  | rearmed h hinput =>
    refine (setting_rearmStageTick _ now).trans (setting_note s now ?_)
    rcases hinput with rfl | ⟨rfl, -⟩ <;> simp

section SettingFields
variable (s : DisplayStateMachine) (input : Input) (now : ℕ)

theorem step_setting_frame :
    { (s.step input now).1.setting with lastWake := s.lastWake } = s.setting.after input now := by
  rw [step_setting]
  split
  · rename_i hw
    obtain ⟨-, ⟨gen, rfl⟩, -⟩ := step_wakeAccepted hw now
    rfl
  · cases input <;> rfl

theorem step_overlays :
    (s.step input now).1.overlays = (s.setting.after input now).overlays := by
  rw [← step_setting_frame]
  rfl

theorem step_zonePresent :
    (s.step input now).1.zonePresent = (s.setting.after input now).zonePresent := by
  rw [← step_setting_frame]
  rfl

theorem step_owned : (s.step input now).1.owned = (s.setting.after input now).owned := by
  rw [← step_setting_frame]
  rfl

theorem step_lastWake : (s.step input now).1.lastWake =
    if s.wakeAccepted input = true then some now else s.lastWake := by
  have h := congrArg Setting.lastWake (step_setting s input now)
  split
  · rename_i hw
    rwa [if_pos hw] at h
  · rename_i hw
    rw [if_neg hw] at h
    refine h.trans ?_
    cases input <;> rfl

theorem setting_after_built (c : Setting) :
    (c.after input now).ladder = c.ladder ∧ (c.after input now).timings = c.timings ∧
      (c.after input now).startedAt = c.startedAt := by
  cases input <;> exact ⟨rfl, rfl, rfl⟩

@[simp] theorem step_timings : (s.step input now).1.timings = s.timings :=
  (congrArg Setting.timings (step_setting_frame s input now)).trans
    (setting_after_built input now s.setting).2.1

@[simp] theorem step_startedAt : (s.step input now).1.startedAt = s.startedAt :=
  (congrArg Setting.startedAt (step_setting_frame s input now)).trans
    (setting_after_built input now s.setting).2.2

end SettingFields

end DisplayStateMachine
end Dormant
