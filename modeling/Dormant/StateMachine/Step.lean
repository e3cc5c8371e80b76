import Dormant.StateMachine.Helpers

/-!
# The transition function

`DisplayStateMachine::step` of `state_machine.rs`: one definition for each phase of the
source's match, with the arms in the source's order, and `step` to dispatch on the phase.
-/

namespace Dormant
set_option autoImplicit false

namespace DisplayStateMachine

def recordPause (s : DisplayStateMachine) (untilTick : Option ℕ) :
    DisplayStateMachine × List Effect :=
  ({ s with overlays := { s.overlays with paused := some ⟨untilTick⟩ } },
    match untilTick with
    | some deadline => [.scheduleTickAt deadline]
    | none => [])

def setInhibited (s : DisplayStateMachine) (inhibited : Bool) : DisplayStateMachine :=
  { s with overlays := { s.overlays with inhibited := inhibited } }

def clearPause (s : DisplayStateMachine) : DisplayStateMachine :=
  { s with overlays := { s.overlays with paused := none } }

def seeZone (s : DisplayStateMachine) (present : Bool) : DisplayStateMachine :=
  { s with zonePresent := some present }

def disown (s : DisplayStateMachine) : DisplayStateMachine := { s with owned := false }

/-! ## Active -/

def stepActive (s : DisplayStateMachine) (input : Input) (now : ℕ) :
    DisplayStateMachine × List Effect :=
  match input with
  | .zonePresent present =>
    if present then (s.seeZone present, []) else (s.seeZone present).enterGrace now "zone_clear"
  | .tick => s.maybeAutoResume now
  | .inhibitorChanged inhibited => (s.setInhibited inhibited, [])
  | .pause untilTick => s.recordPause untilTick
  | .resume => (s.clearPause, [])
  | .blankResult _ _ => (s, [])
  | .wakeResult _ _ => (s, [])
  | .forceBlank => s.issueBlank [.logTransition "active" "blanking" "force_blank"]
  | .softBlank => s.enterLadderStage 0 now "soft_blank"
  | .forceWake => (s, [])
  | .inputWake => (s, [])
  | .ownershipChanged owns =>
    if owns then s.reconcileOwnershipGain now "active" else (s.disown, [])
  | .stageTick _ | .renderResult _ _ => (s, [])

/-! ## Grace -/

/-- The tick that a blocked expiry is put off to: the later of the two gates still shut. -/
def rescheduleAt (s : DisplayStateMachine) (now : ℕ) : ℕ :=
  let holdoff := s.startedAt + s.timings.startupHoldoff
  let reschedule :=
    if now - s.startedAt < s.timings.startupHoldoff ∧ now < holdoff then holdoff else now
  match s.lastWake with
  | none => reschedule
  | some woke =>
    let dwell := woke + s.timings.minWakeTime
    if now - woke < s.timings.minWakeTime ∧ reschedule < dwell then dwell else reschedule

/-- The startup holdoff or the minimum wake time still forbids the blank. -/
def blankBlocked (s : DisplayStateMachine) (now : ℕ) : Bool :=
  decide (now - s.startedAt < s.timings.startupHoldoff) ||
    match s.lastWake with
    | none => false
    | some woke => decide (now - woke < s.timings.minWakeTime)

/-- A tick in Grace: auto-resume, then expiry and the blank gates. -/
def graceTick (s : DisplayStateMachine) (untilTick now : ℕ) :
    DisplayStateMachine × List Effect :=
  let wasFrozen := s.graceFrozenRemaining.isSome
  let (s, effects) := s.maybeAutoResume now
  -- an auto-resume that unfroze the countdown leaves expiry to its own tick
  if wasFrozen && s.graceFrozenRemaining.isNone then (s, effects)
  else if s.graceFrozenRemaining.isSome then (s, effects)
  else if s.overlays.inhibited || s.overlays.paused.isSome then
    (s.freezeGrace untilTick now, effects)
  else if now < untilTick then (s, effects)
  else if s.blankBlocked now then (s, effects ++ [.scheduleTickAt (s.rescheduleAt now)])
  else if !s.owned then (s, effects)
  else
    let (s, more) := s.enterLadderStage 0 now "grace_expired"
    (s, effects ++ more)

def stepGrace (s : DisplayStateMachine) (untilTick : ℕ) (input : Input) (now : ℕ) :
    DisplayStateMachine × List Effect :=
  match input with
  | .zonePresent present =>
    if present then (s.seeZone present).enterActive now "presence_during_grace"
    else (s.seeZone present, [])
  | .tick => s.graceTick untilTick now
  | .inhibitorChanged inhibited =>
    if inhibited then ((s.setInhibited inhibited).freezeGrace untilTick now, [])
    else (s.setInhibited inhibited).unfreezeGrace now
  | .pause pauseUntil =>
    let wasPaused := s.overlays.paused.isSome
    let (s, effects) := s.recordPause pauseUntil
    (if wasPaused then s else s.freezeGrace untilTick now, effects)
  | .resume => s.clearPause.unfreezeGrace now
  | .blankResult _ _ => (s, [])
  | .wakeResult _ _ => (s, [])
  | .forceBlank =>
    { s with graceFrozenRemaining := none }.issueBlank
      [.logTransition "grace" "blanking" "force_blank"]
  | .softBlank => { s with graceFrozenRemaining := none }.enterLadderStage 0 now "soft_blank"
  | .forceWake => { s with graceFrozenRemaining := none }.enterActive now "force_wake"
  | .inputWake => { s with graceFrozenRemaining := none }.enterActive now "input_wake"
  | .ownershipChanged owns =>
    if owns then s.reconcileOwnershipGain now "grace" else (s.disown, [])
  | .stageTick _ | .renderResult _ _ => (s, [])

/-! ## Blanking -/

def blankAnswered (s : DisplayStateMachine) (result : Except CmdFailure Unit) (now : ℕ) :
    DisplayStateMachine × List Effect :=
  match result with
  | .ok _ =>
    let s := { s with lastBlank := some now }
    if s.pendingWake then
      { s with pendingWake := false }.issueWake
        [.logTransition "blanking" "waking" "presence_during_blank"] now
    else
      let (s, more) := { s with phase := .blanked }.scheduleStageTick now
      (s, .logTransition "blanking" "blanked" "blank_succeeded" :: more)
  | .error _ =>
    let s := { s with pendingWake := false }
    -- with the zone still absent the retry chain needs a driver of its own
    if s.zonePresent = some false then s.enterGrace now "blank_failed_regrace"
    else s.enterActive now "blank_failed"

def stepBlanking (s : DisplayStateMachine) (input : Input) (now : ℕ) :
    DisplayStateMachine × List Effect :=
  match input with
  | .zonePresent present =>
    let s := s.seeZone present
    (if present then { s with pendingWake := true } else s, [])
  | .tick => s.maybeAutoResume now
  | .inhibitorChanged inhibited => (s.setInhibited inhibited, [])
  | .pause untilTick => s.recordPause untilTick
  | .resume => (s.clearPause, [])
  | .blankResult gen result =>
    if some gen ≠ s.lastBlankGen then (s, []) else s.blankAnswered result now
  | .wakeResult _ _ => (s, [])
  | .forceBlank => (s, [])
  | .softBlank => (s, [])
  | .forceWake => ({ s with pendingWake := true }, [])
  | .inputWake => ({ s with pendingWake := true }, [])
  | .ownershipChanged owns =>
    if owns then s.reconcileOwnershipGain now "blanking" else (s.disown, [])
  | .stageTick _ | .renderResult _ _ => (s, [])

/-! ## Blanked -/

/-- A stage tick in Blanked or Staged: stale, gated, or the advance to the next rung. -/
def stageTicked (s : DisplayStateMachine) (gen : UInt64) (now : ℕ) :
    DisplayStateMachine × List Effect :=
  if gen ≠ s.stageGen then (s, [])
  else if s.stageAdvanceFrozen || s.overlays.inhibited || !s.owned then (s, [])
  else s.advanceStage now "stage_tick"

def stepBlanked (s : DisplayStateMachine) (input : Input) (now : ℕ) :
    DisplayStateMachine × List Effect :=
  match input with
  | .zonePresent present =>
    let s := s.seeZone present
    if present then s.issueWake [.logTransition "blanked" "waking" "presence_detected"] now
    else (s, [])
  | .tick => s.maybeAutoResume now
  | .inhibitorChanged inhibited => (s.setInhibited inhibited, [])
  | .pause untilTick => s.recordPause untilTick
  | .resume => (s.clearPause, [])
  | .blankResult _ _ => (s, [])
  | .wakeResult _ _ => (s, [])
  | .renderResult _ _ => (s, [])
  | .forceBlank => (s, [])
  | .softBlank => (s, [])
  | .forceWake => s.issueWake [.logTransition "blanked" "waking" "force_wake"] now
  | .inputWake => s.issueWake [.logTransition "blanked" "waking" "input_wake"] now
  | .stageTick gen => s.stageTicked gen now
  | .ownershipChanged owns =>
    if owns then s.reconcileOwnershipGain now "blanked"
    else s.disown.enterActive now "ownership_yielded"

/-! ## Waking -/

def stepWaking (s : DisplayStateMachine) (input : Input) (now : ℕ) :
    DisplayStateMachine × List Effect :=
  match input with
  | .zonePresent present => (s.seeZone present, [])
  | .tick =>
    let (s, effects) := s.maybeAutoResume now
    let (s, more) := s.issueWake [] now
    (s, effects ++ .logTransition "waking" "waking" "wake_retry_scheduled" :: more)
  | .inhibitorChanged inhibited => (s.setInhibited inhibited, [])
  | .pause untilTick => s.recordPause untilTick
  | .resume => (s.clearPause, [])
  | .blankResult _ _ => (s, [])
  | .wakeResult gen result =>
    if some gen ≠ s.lastWakeGen then (s, [])
    else
      match result with
      | .ok _ => { s with lastWake := some now }.enterActive now "wake_completed"
      | .error _ =>
        let (s, more) := s.issueWake [] now
        (s, .logTransition "waking" "waking" "wake_retry" :: more)
  | .forceBlank => s.issueBlank [.logTransition "waking" "blanking" "force_blank"]
  | .softBlank => (s, [])
  | .forceWake => s.issueWake [] now
  | .inputWake => s.issueWake [] now
  | .ownershipChanged owns =>
    if owns then s.reconcileOwnershipGain now "waking" else (s.disown, [])
  | .stageTick _ | .renderResult _ _ => (s, [])

/-! ## RenderPending -/

def forceBlankFromRender (s : DisplayStateMachine) (source : String) :
    DisplayStateMachine × List Effect :=
  let teardown := Effect.teardownRender s.stageGen
  let (s, more) := { s with currentStage := none }.issueBlank []
  (s, teardown :: .logTransition source "blanking" "force_blank" :: more)

def softBlankFromRender (s : DisplayStateMachine) (source : String) (now : ℕ) :
    DisplayStateMachine × List Effect :=
  let teardown := Effect.teardownRender s.stageGen
  let (s, more) := { s with currentStage := none }.enterLadderStage 0 now "soft_blank"
  (s, teardown :: .logTransition source "entering_ladder" "soft_blank" :: more)

def stepRenderPending (s : DisplayStateMachine) (idx : ℕ) (pendingGen : UInt64) (input : Input)
    (now : ℕ) : DisplayStateMachine × List Effect :=
  match input with
  | .zonePresent present =>
    let s := s.seeZone present
    if present then s.teardownRender now "presence_detected" else (s, [])
  | .tick => s.maybeAutoResume now
  | .inhibitorChanged inhibited => (s.setInhibited inhibited, [])
  | .pause untilTick => s.recordPause untilTick
  | .resume => (s.clearPause, [])
  | .renderResult gen result =>
    if pendingGen ≠ gen then (s, [])
    else
      match result with
      | .ok _ =>
        let (s, more) := { s with phase := .staged idx pendingGen }.scheduleStageTick now
        (s, .logTransition "render_pending" "staged" "render_succeeded" :: more)
      | .error _ => s.advanceToNextController now "render_failed"
  | .inputWake => s.teardownRender now "input_wake"
  | .forceWake => s.teardownRender now "force_wake"
  | .forceBlank => s.forceBlankFromRender "render_pending"
  | .softBlank => s.softBlankFromRender "render_pending" now
  | .ownershipChanged owns =>
    if owns then s.reconcileOwnershipGain now "render_pending"
    else s.disown.teardownRender now "ownership_yielded"
  | .blankResult _ _ | .wakeResult _ _ => (s, [])
  | .stageTick _ => (s, [])

/-! ## Staged -/

def stepStaged (s : DisplayStateMachine) (input : Input) (now : ℕ) :
    DisplayStateMachine × List Effect :=
  match input with
  | .zonePresent present =>
    let s := s.seeZone present
    if present then s.teardownRender now "presence_detected" else (s, [])
  | .tick => s.maybeAutoResume now
  | .inhibitorChanged inhibited =>
    let s := s.setInhibited inhibited
    if inhibited then (s.captureDwell now, []) else s.rearmStageTick now
  | .pause untilTick =>
    let wasPaused := s.overlays.paused.isSome
    let (s, effects) := s.recordPause untilTick
    (if wasPaused then s else s.captureDwell now, effects)
  | .resume =>
    let s := s.clearPause
    if s.overlays.inhibited then (s, []) else s.rearmStageTick now
  | .stageTick gen => s.stageTicked gen now
  | .inputWake => s.teardownRender now "input_wake"
  | .forceWake => s.teardownRender now "force_wake"
  | .forceBlank => s.forceBlankFromRender "staged"
  | .softBlank => s.softBlankFromRender "staged" now
  | .ownershipChanged owns =>
    if owns then s.reconcileOwnershipGain now "staged"
    else s.disown.teardownRender now "ownership_yielded"
  | .blankResult _ _ | .wakeResult _ _ | .renderResult _ _ => (s, [])

/-! ## The step -/

/-- Feed an input at an instant: the new machine and the effects in emission order. -/
def step (s : DisplayStateMachine) (input : Input) (now : ℕ) :
    DisplayStateMachine × List Effect :=
  match s.phase with
  | .active => s.stepActive input now
  | .grace untilTick => s.stepGrace untilTick input now
  | .blanking => s.stepBlanking input now
  | .blanked => s.stepBlanked input now
  | .waking => s.stepWaking input now
  | .renderPending idx gen => s.stepRenderPending idx gen input now
  | .staged _ _ => s.stepStaged input now

/-- The condition of the debug assertion at the end of `step`. -/
def frozenGraceAssertion (s : DisplayStateMachine) : Bool :=
  s.inGrace || s.graceFrozenRemaining.isNone

end DisplayStateMachine
end Dormant
