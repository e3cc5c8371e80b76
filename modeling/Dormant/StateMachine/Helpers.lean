import Dormant.StateMachine.Types

/-!
# The private helpers of the state machine

`enter_active`, `enter_grace`, `issue_blank`, `issue_wake`, the ladder helpers and the
freeze helpers of `state_machine.rs`. Each takes the machine and returns the new machine
with the effects in emission order.
-/

namespace Dormant
set_option autoImplicit false

namespace DisplayStateMachine

/-! ## Grace and the overlays -/

def freezeGrace (s : DisplayStateMachine) (untilTick now : ℕ) : DisplayStateMachine :=
  if s.graceFrozenRemaining.isNone then
    { s with graceFrozenRemaining := some (untilTick - now) }
  else s

def unfreezeGrace (s : DisplayStateMachine) (now : ℕ) : DisplayStateMachine × List Effect :=
  match s.graceFrozenRemaining with
  | none => (s, [])
  | some remaining =>
    if s.overlays.inhibited || s.overlays.paused.isSome then (s, [])
    else
      ({ s with graceFrozenRemaining := none, phase := .grace (now + remaining) },
        [.scheduleTickAt (now + remaining)])

def maybeAutoResume (s : DisplayStateMachine) (now : ℕ) : DisplayStateMachine × List Effect :=
  match s.overlays.paused with
  | some ⟨some deadline⟩ =>
    if deadline ≤ now then
      unfreezeGrace { s with overlays := { s.overlays with paused := none } } now
    else (s, [])
  | _ => (s, [])

/-- Enter Grace, frozen from the start when an overlay is on. -/
def enterGrace (s : DisplayStateMachine) (now : ℕ) (cause : String) :
    DisplayStateMachine × List Effect :=
  let log := Effect.logTransition s.phaseName "grace" cause
  let deadline := now + s.timings.gracePeriod
  if s.overlays.inhibited || s.overlays.paused.isSome then
    ({ s with graceFrozenRemaining := some s.timings.gracePeriod, phase := .grace deadline }, [log])
  else
    ({ s with graceFrozenRemaining := none, phase := .grace deadline },
      [log, .scheduleTickAt deadline])

/-- Enter Active, and chain into Grace when the zone is known absent and no input-wake
hold is active. -/
def enterActive (s : DisplayStateMachine) (now : ℕ) (cause : String) :
    DisplayStateMachine × List Effect :=
  let log := Effect.logTransition s.phaseName "active" cause
  let s := { s with
    graceFrozenRemaining := none, stageDwellFrozenRemaining := none,
    scheduledStageDeadline := none, currentStage := none, phase := .active }
  if s.zonePresent = some false ∧ s.inputWakeHoldActive = false then
    let (s, effects) := s.enterGrace now "deferred_zone_clear"
    (s, log :: effects)
  else (s, [log])

/-! ## Commands -/

def issueBlankForMode (s : DisplayStateMachine) (pre : List Effect) (mode : BlankMode) :
    DisplayStateMachine × List Effect :=
  let gen := s.cmdGen + 1
  ({ s with cmdGen := gen, lastBlankGen := some gen, phase := .blanking },
    pre ++ [.issueBlank gen mode])

def issueBlank (s : DisplayStateMachine) (pre : List Effect) : DisplayStateMachine × List Effect :=
  let gen := s.cmdGen + 1
  ({ s with cmdGen := gen, lastBlankGen := some gen, phase := .blanking },
    pre ++ [.issueBlank gen s.blankMode])

def issueWake (s : DisplayStateMachine) (pre : List Effect) (now : ℕ) :
    DisplayStateMachine × List Effect :=
  let gen := s.cmdGen + 1
  ({ s with cmdGen := gen, lastWakeGen := some gen, phase := .waking },
    pre ++ [.issueWake gen, .scheduleTickAt (now + s.timings.wakeRetryInterval)])

/-! ## The ladder -/

def onRenderStage (s : DisplayStateMachine) : Bool :=
  match s.currentStage.bind (s.ladder[·]?) with
  | some stage => stage.kind.isRender
  | none => false

/-- Enter a ladder stage. Leaving a render stage for a controller stage tears the surface
down first, under the generation it was shown with. -/
def enterLadderStage (s : DisplayStateMachine) (idx : ℕ) (now : ℕ) (cause : String) :
    DisplayStateMachine × List Effect :=
  match s.ladder[idx]? with
  | none => s.enterActive now cause
  | some stage =>
    let prevWasRender := s.onRenderStage
    let prevStageGen := s.stageGen
    let gen := s.stageGen + 1
    let source := s.phaseName
    let s := { s with stageGen := gen, currentStage := some idx }
    let dest := if stage.kind.isRender then "render_pending" else "blanking"
    let teardown :=
      if prevWasRender && !stage.kind.isRender then [Effect.teardownRender prevStageGen] else []
    let effects := teardown ++ [Effect.logTransition source dest cause]
    match stage.kind with
    | .controller mode =>
      let (s, more) := s.issueBlankForMode [] mode
      (s, effects ++ more)
    | kind =>
      ({ s with phase := .renderPending idx gen }, effects ++ [.showRender gen idx kind])

def nextStage (s : DisplayStateMachine) : ℕ :=
  match s.currentStage with
  | some idx => idx + 1
  | none => 0

def advanceStage (s : DisplayStateMachine) (now : ℕ) (cause : String) :
    DisplayStateMachine × List Effect :=
  if s.ladder.length ≤ s.nextStage then s.enterActive now cause
  else s.enterLadderStage s.nextStage now cause

def teardownRender (s : DisplayStateMachine) (now : ℕ) (cause : String) :
    DisplayStateMachine × List Effect :=
  let teardown := Effect.teardownRender s.stageGen
  let (s, effects) := s.enterActive now cause
  (s, teardown :: effects)

/-- The first controller stage at or after an index. -/
def nextController (s : DisplayStateMachine) (start : ℕ) : Option ℕ :=
  (List.range' start (s.ladder.length - start)).find? fun idx =>
    match s.ladder[idx]? with
    | some stage => !stage.kind.isRender
    | none => false

/-- Advance past the render stages to the next controller stage, or give up. -/
def advanceToNextController (s : DisplayStateMachine) (now : ℕ) (cause : String) :
    DisplayStateMachine × List Effect :=
  match s.nextController s.nextStage with
  | some idx => s.enterLadderStage idx now cause
  | none => s.teardownRender now cause

def currentDwell (s : DisplayStateMachine) : Option ℕ :=
  (s.currentStage.bind (s.ladder[·]?)).bind (·.dwell)

def scheduleStageTick (s : DisplayStateMachine) (now : ℕ) : DisplayStateMachine × List Effect :=
  match s.currentStage with
  | none => (s, [])
  | some _ =>
    match s.currentDwell with
    | none => ({ s with scheduledStageDeadline := none }, [])
    | some dwell =>
      let gen := s.stageGen + 1
      ({ s with stageGen := gen, scheduledStageDeadline := some (now + dwell) },
        [.scheduleStageTickAt gen (now + dwell)])

def stageAdvanceFrozen (s : DisplayStateMachine) : Bool :=
  s.stageDwellFrozenRemaining.isSome

/-- Re-arm the stage tick with the captured remaining dwell. -/
def rearmStageTick (s : DisplayStateMachine) (now : ℕ) : DisplayStateMachine × List Effect :=
  let remaining := s.stageDwellFrozenRemaining.getD 0
  let s := { s with stageDwellFrozenRemaining := none }
  match s.currentStage with
  | none => (s, [])
  | some _ =>
    match s.currentDwell with
    | none => ({ s with scheduledStageDeadline := none }, [])
    | some dwell =>
      let gen := s.stageGen + 1
      let deadline := now + min remaining dwell
      ({ s with stageGen := gen, scheduledStageDeadline := some deadline },
        [.scheduleStageTickAt gen deadline])

/-- What is left of the scheduled dwell, kept if it was captured before. -/
def captureDwell (s : DisplayStateMachine) (now : ℕ) : DisplayStateMachine :=
  let remaining := match s.scheduledStageDeadline with
    | some deadline => deadline - now
    | none => 0
  { s with stageDwellFrozenRemaining := s.stageDwellFrozenRemaining.or (some remaining) }

/-! ## Ownership -/

/-- Reconcile the visible panel with the machine when ownership is gained. -/
def reconcileOwnershipGain (s : DisplayStateMachine) (now : ℕ) (source : String) :
    DisplayStateMachine × List Effect :=
  let s := { s with owned := true }
  let log := Effect.logTransition source "waking" "ownership_acquired"
  match s.phase with
  | .grace untilTick =>
    -- the expiry tick may have been consumed while the display was not owned
    if s.zonePresent = some false then (s, [.scheduleTickAt untilTick]) else (s, [])
  | phase =>
    if s.zonePresent ≠ some true ∧ s.overlays.inhibited = false ∧ s.overlays.paused = none then
      (s, [])
    else
      match phase with
      | .blanking => ({ s with pendingWake := true }, [])
      | .waking | .grace _ => (s, [])
      | .renderPending _ _ | .staged _ _ =>
        let (s, effects) := s.teardownRender now "ownership_acquired"
        let (s, more) := s.issueWake [log] now
        (s, effects ++ more)
      | .active | .blanked => s.issueWake [log] now

end DisplayStateMachine
end Dormant
