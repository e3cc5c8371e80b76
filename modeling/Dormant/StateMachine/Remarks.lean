import Dormant.StateMachine.Facts

/-!
# A machine says where it goes

Subscribers follow a display by the transitions that its machine logs. A step ends in the phase
that it logged last, or stays where it was. One step is silent: a tick that thaws a countdown left
behind outside Grace.
-/

namespace Dormant
set_option autoImplicit false

def Effect.dest? : Effect → Option String
  | .logTransition _ dest _ => some dest
  | _ => none

def dests (effects : List Effect) : List String := effects.filterMap Effect.dest?

@[simp] theorem dests_append (a b : List Effect) : dests (a ++ b) = dests a ++ dests b :=
  List.filterMap_append

namespace DisplayStateMachine
variable {s t : DisplayStateMachine} {r : DisplayStateMachine × List Effect}

/-- The last transition logged leads to the phase of the result. -/
def Says (r : DisplayStateMachine × List Effect) : Prop :=
  (dests r.2).getLast? = some r.1.phaseName

/-- The result is in the phase that was logged last, if any was. -/
def Tells (s : DisplayStateMachine) (r : DisplayStateMachine × List Effect) : Prop :=
  (dests r.2).getLast?.getD s.phaseName = r.1.phaseName

/-- A countdown is frozen where no tick may thaw it: outside Grace, and not in Waking, where a
tick goes on to wake the display. -/
def mute (s : DisplayStateMachine) : Bool :=
  s.graceFrozenRemaining.isSome && !s.inGrace && s.phaseName != "waking"

theorem Says.tells (h : Says r) (s : DisplayStateMachine) : Tells s r := by
  rw [Tells, h]
  rfl

theorem Says.after (h : Says r) (pre : List Effect) : Says (r.1, pre ++ r.2) := by
  rw [Says, dests_append, List.getLast?_append, h]
  rfl

theorem Tells.after (h : Tells t r) (pre : List Effect)
    (hpre : (dests pre).getLast?.getD s.phaseName = t.phaseName) : Tells s (r.1, pre ++ r.2) := by
  rw [Tells, dests_append, List.getLast?_append]
  rw [Tells] at h
  cases hlast : (dests r.2).getLast? with
  | none =>
    rw [hlast] at h
    exact hpre.trans h
  | some dest =>
    rw [hlast] at h
    exact h

theorem tells_still (hp : t.phaseName = s.phaseName) {effects : List Effect}
    (he : dests effects = []) : Tells s (t, effects) := by
  rw [Tells, he]
  exact hp.symm

theorem phaseName_congr (hp : t.phase = s.phase) : t.phaseName = s.phaseName := by
  rw [phaseName, hp, phaseName]

theorem phaseName_note (s : DisplayStateMachine) (input : Input) :
    (s.note input).phaseName = s.phaseName :=
  phaseName_congr (note_phase s input)

theorem dests_noteEffects (input : Input) : dests (noteEffects input) = [] := by
  unfold noteEffects
  split <;> rfl

/-! ## The helpers -/

variable (s) (now : ℕ) (cause : String)

theorem says_enterGrace : Says (s.enterGrace now cause) := by
  unfold enterGrace
  dsimp only
  split <;> rfl

theorem says_enterActive : Says (s.enterActive now cause) := by
  unfold enterActive
  dsimp only
  split
  · exact (says_enterGrace _ now _).after [_]
  · rfl

theorem says_teardownRender : Says (s.teardownRender now cause) :=
  (says_enterActive s now cause).after [_]

theorem says_enterLadderStage (idx : ℕ) : Says (s.enterLadderStage idx now cause) := by
  unfold enterLadderStage
  split
  · exact says_enterActive s now cause
  · rename_i stage _
    dsimp only
    have hteardown : dests (if (s.onRenderStage && !stage.kind.isRender) = true then
        [Effect.teardownRender s.stageGen] else []) = [] := by split <;> rfl
    split
    · rename_i mode hkind
      rw [Says, dests_append, dests_append, hteardown, hkind]
      rfl
    · rename_i kind hkind
      have hrender : stage.kind.isRender = true := by
        cases hk : stage.kind with
        | controller mode => exact absurd hk (hkind mode)
        | renderBlack => rfl
        | renderScreensaver => rfl
      rw [Says, dests_append, dests_append, hteardown, if_pos hrender]
      rfl

theorem says_advanceStage : Says (s.advanceStage now cause) := by
  unfold advanceStage
  split
  · exact says_enterActive s now cause
  · exact says_enterLadderStage s now cause _

theorem says_advanceToNextController : Says (s.advanceToNextController now cause) := by
  unfold advanceToNextController
  split
  · exact says_enterLadderStage s now cause _
  · exact says_teardownRender s now cause

theorem says_issueWake (source : String) :
    Says (s.issueWake [.logTransition source "waking" cause] now) := rfl

theorem says_issueBlank (source : String) :
    Says (s.issueBlank [.logTransition source "blanking" cause]) := rfl

theorem still_scheduleStageTick : dests (s.scheduleStageTick now).2 = [] ∧
    (s.scheduleStageTick now).1.phaseName = s.phaseName := by
  obtain ⟨gen, deadline, hframe⟩ := s.scheduleStageTick_frame now
  refine ⟨?_, by rw [hframe]; rfl⟩
  unfold scheduleStageTick
  split
  · rfl
  · split <;> rfl

theorem still_rearmStageTick : dests (s.rearmStageTick now).2 = [] ∧
    (s.rearmStageTick now).1.phaseName = s.phaseName := by
  obtain ⟨gen, deadline, hframe⟩ := s.rearmStageTick_frame now
  refine ⟨?_, by rw [hframe]; rfl⟩
  unfold rearmStageTick
  dsimp only
  split
  · rfl
  · split <;> rfl

theorem dests_unfreezeGrace : dests (s.unfreezeGrace now).2 = [] := by
  unfold unfreezeGrace
  repeat' split
  all_goals rfl

theorem dests_maybeAutoResume : dests (s.maybeAutoResume now).2 = [] := by
  by_cases hd : s.pauseDue now
  · rw [maybeAutoResume_due s now hd]
    exact dests_unfreezeGrace _ now
  · rw [maybeAutoResume_not_due s now hd]
    rfl

variable {s}

/-- In Grace a thaw only moves the deadline. -/
theorem phaseName_unfreezeGrace (h : s.graceFrozenRemaining.isSome = true → s.inGrace = true) :
    (s.unfreezeGrace now).1.phaseName = s.phaseName := by
  unfold unfreezeGrace
  split
  · rfl
  · rename_i remaining hf
    split
    · rfl
    · have hg := h (by simp [hf])
      cases hp : s.phase <;> simp [inGrace, hp] at hg
      simp [phaseName, hp]

theorem phaseName_maybeAutoResume (h : s.graceFrozenRemaining.isSome = true → s.inGrace = true) :
    (s.maybeAutoResume now).1.phaseName = s.phaseName := by
  by_cases hd : s.pauseDue now
  · rw [maybeAutoResume_due s now hd]
    exact phaseName_unfreezeGrace (s := s.clearPause) now h
  · rw [maybeAutoResume_not_due s now hd]

theorem tells_graceTick (hg : s.inGrace = true) (untilTick : ℕ) :
    Tells s (s.graceTick untilTick now) := by
  have hp := phaseName_maybeAutoResume (s := s) now fun _ => hg
  have he := dests_maybeAutoResume s now
  have hfrozen : ((s.maybeAutoResume now).1.freezeGrace untilTick now).phaseName =
      (s.maybeAutoResume now).1.phaseName := by
    unfold freezeGrace
    split <;> rfl
  unfold graceTick
  dsimp only
  split_ifs
  · exact tells_still hp he
  · exact tells_still hp he
  · exact tells_still (hfrozen.trans hp) he
  · exact tells_still hp he
  · refine tells_still hp ?_
    rw [dests_append, he]
    rfl
  · exact tells_still hp he
  · exact ((says_enterLadderStage _ now _ 0).after _).tells s

/-! ## The step -/

/-- Every step but the tick of a mute machine tells where the machine goes. -/
theorem step_tells (s : DisplayStateMachine) {input : Input} (now : ℕ)
    (h : input = .tick → s.mute = false) : Tells s (s.step input now) := by
  have hm := step_move s input now
  generalize s.step input now = r at hm
  cases hm with
  | quiet => exact tells_still (phaseName_note s input) (dests_noteEffects input)
  | ticked hg hw =>
    have hname : s.phaseName ≠ "waking" := by
      cases hp : s.phase <;> simp [phaseName, hp] at hw ⊢
    have hmute := h rfl
    simp only [mute, hg, Bool.not_false, Bool.and_true, Bool.and_eq_false_iff, bne_eq_false_iff_eq,
      hname, or_false] at hmute
    exact tells_still (phaseName_maybeAutoResume now fun hf => by simp [hmute] at hf)
      (dests_maybeAutoResume s now)
  | graceTicked untilTick hp => exact tells_graceTick now (by simp [inGrace, hp]) untilTick
  | vacated => exact (says_enterGrace _ now _).tells s
  | froze untilTick hp =>
    refine tells_still ?_ (dests_noteEffects input)
    unfold freezeGrace
    split <;> exact phaseName_note s input
  | repaused => exact tells_still (phaseName_note s _) (dests_noteEffects _)
  | thawed hg =>
    have hname := phaseName_unfreezeGrace (s := s.note input) now fun _ => by simpa using hg
    exact tells_still (hname.trans (phaseName_note s input)) (dests_unfreezeGrace _ now)
  | regained => exact tells_still (phaseName_note s _) rfl
  | activated cause => exact (says_enterActive _ now cause).tells s
  | forceBlanked source => exact (says_issueBlank _ _ source).tells s
  | softBlanked => exact (says_enterLadderStage _ now _ 0).tells s
  | deferred =>
    have hname : ({ s.note input with pendingWake := true } : DisplayStateMachine).phaseName =
        s.phaseName := phaseName_note s input
    exact tells_still hname rfl
  | blankAnswered result =>
    unfold blankAnswered
    cases result with
    | ok u =>
      dsimp only
      split
      · exact (says_issueWake _ now _ _).tells s
      · obtain ⟨he, hp⟩ := still_scheduleStageTick
          ({ s with lastBlank := some now, phase := .blanked }) now
        refine (tells_still (s := { s with lastBlank := some now, phase := .blanked }) hp he).after
          [_] rfl
    | error failure =>
      dsimp only
      split
      · exact (says_enterGrace _ now _).tells s
      · exact (says_enterActive _ now _).tells s
  | woken source cause => exact (says_issueWake _ now cause source).tells s
  | rewoken pre hp hinput =>
    have hname : (s.issueWake [] now).1.phaseName = s.phaseName := by
      simp [phaseName, issueWake, hp]
    rcases hinput with ⟨-, rfl⟩ | ⟨-, rfl⟩ | ⟨-, rfl⟩
    · exact tells_still hname rfl
    · exact tells_still hname rfl
    · exact (says_issueWake _ now _ _).tells s
  | retried =>
    have hsaid : Says (((s.maybeAutoResume now).1.issueWake [] now).1,
        .logTransition "waking" "waking" "wake_retry_scheduled" ::
          ((s.maybeAutoResume now).1.issueWake [] now).2) := rfl
    exact (hsaid.after _).tells s
  | awoken => exact (says_enterActive _ now _).tells s
  | torn cause => exact (says_teardownRender _ now cause).tells s
  | tornAwake source => exact ((says_issueWake _ now _ source).after _).tells s
  | renderForceBlanked source =>
    have hsaid : Says (s.forceBlankFromRender source) := rfl
    exact hsaid.tells s
  | renderSoftBlanked source =>
    exact ((says_enterLadderStage { s with currentStage := none } now "soft_blank" 0).after
      [.teardownRender s.stageGen, .logTransition source "entering_ladder" "soft_blank"]).tells s
  | rendered idx hp =>
    obtain ⟨he, hname⟩ := still_scheduleStageTick ({ s with phase := .staged idx _ }) now
    exact (tells_still (s := { s with phase := .staged idx _ }) hname he).after [_] rfl
  | renderFailed => exact (says_advanceToNextController s now _).tells s
  | advanced => exact (says_advanceStage s now _).tells s
  | captured => exact tells_still (phaseName_note s input) (dests_noteEffects input)
  | rearmed =>
    obtain ⟨he, hname⟩ := still_rearmStageTick (s.note input) now
    exact tells_still (hname.trans (phaseName_note s input)) he

/-- A mute machine that a tick resumes goes to Grace and says nothing. -/
theorem step_silent {s : DisplayStateMachine} {now : ℕ} (h : s.mute = true) (hd : s.pauseDue now)
    (hi : s.overlays.inhibited = false) :
    dests (s.step .tick now).2 = [] ∧ (s.step .tick now).1.inGrace = true := by
  simp only [mute, Bool.and_eq_true, Bool.not_eq_true', bne_iff_ne] at h
  obtain ⟨⟨hf, hg⟩, hw⟩ := h
  have hstep : s.step .tick now = s.maybeAutoResume now := by
    cases hp : s.phase <;> simp [inGrace, phaseName, hp] at hg hw <;>
      simp only [step, hp, stepActive, stepBlanking, stepBlanked, stepRenderPending, stepStaged]
  obtain ⟨remaining, -, hthaw⟩ := maybeAutoResume_thaw hd hi hf
  rw [hstep]
  exact ⟨dests_maybeAutoResume s now, by rw [hthaw]; rfl⟩

end DisplayStateMachine
end Dormant
