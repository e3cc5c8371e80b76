import Mathlib.Data.List.Basic

/-!
# The data of one display's state machine

`Phase`, `Overlays`, `Input`, `Effect`, `SmTimings` and the record `DisplayStateMachine`
of `state_machine.rs`, with the domain types they mention from `types.rs`.

The source's monotonic `Tick` and its `Duration` are counts of nanoseconds, so both are `ℕ`.
`Instant - Instant` and `saturating_duration_since` stop at zero, as subtraction does on `ℕ`.
Generation counters are the source's `u64` and wrap.
-/

namespace Dormant
set_option autoImplicit false

inductive BlankMode where
  | powerOff
  | screenOffAudioOn
  | brightnessZero
  deriving DecidableEq, Repr

inductive StageKind where
  | controller (mode : BlankMode)
  | renderBlack
  | renderScreensaver
  deriving DecidableEq, Repr

def StageKind.isRender : StageKind → Bool
  | .controller _ => false
  | .renderBlack => true
  | .renderScreensaver => true

structure LadderStage where
  kind : StageKind
  dwell : Option ℕ
  deriving DecidableEq, Repr

structure CmdFailure where
  controller : String
  error : String
  deriving DecidableEq, Repr

inductive Phase where
  | active
  | grace (untilTick : ℕ)
  | blanking
  | blanked
  | waking
  | renderPending (idx : ℕ) (gen : UInt64)
  | staged (idx : ℕ) (gen : UInt64)
  deriving DecidableEq, Repr

structure PauseState where
  untilTick : Option ℕ
  deriving DecidableEq, Repr

/-- The flags that hold back the blank path. -/
structure Overlays where
  inhibited : Bool
  paused : Option PauseState
  deriving DecidableEq, Repr

def Overlays.default : Overlays := { inhibited := false, paused := none }

inductive Input where
  | zonePresent (present : Bool)
  | tick
  | inhibitorChanged (inhibited : Bool)
  | pause (untilTick : Option ℕ)
  | resume
  | blankResult (gen : UInt64) (result : Except CmdFailure Unit)
  | wakeResult (gen : UInt64) (result : Except CmdFailure Unit)
  | forceBlank
  | forceWake
  | softBlank
  | stageTick (gen : UInt64)
  | renderResult (gen : UInt64) (result : Except CmdFailure Unit)
  | inputWake
  | ownershipChanged (owns : Bool)

inductive Effect where
  | issueBlank (gen : UInt64) (mode : BlankMode)
  | issueWake (gen : UInt64)
  | scheduleTickAt (tick : ℕ)
  | logTransition (source dest cause : String)
  | showRender (gen : UInt64) (idx : ℕ) (kind : StageKind)
  | teardownRender (gen : UInt64)
  | scheduleStageTickAt (gen : UInt64) (tick : ℕ)
  deriving DecidableEq, Repr

/-- The machine's timing parameters. `min_blank_time` is read by no transition. -/
structure SmTimings where
  gracePeriod : ℕ
  minBlankTime : ℕ
  minWakeTime : ℕ
  startupHoldoff : ℕ
  wakeRetryInterval : ℕ
  deriving DecidableEq, Repr

/-- The state of one display. `pending_reblank`, which the source marks as dead, is left out. -/
structure DisplayStateMachine where
  phase : Phase
  overlays : Overlays
  cmdGen : UInt64
  lastBlankGen : Option UInt64
  lastWakeGen : Option UInt64
  lastWake : Option ℕ
  lastBlank : Option ℕ
  startedAt : ℕ
  blankMode : BlankMode
  ladder : List LadderStage
  stageGen : UInt64
  currentStage : Option ℕ
  stageDwellFrozenRemaining : Option ℕ
  scheduledStageDeadline : Option ℕ
  owned : Bool
  timings : SmTimings
  pendingWake : Bool
  inputWakeHoldActive : Bool
  zonePresent : Option Bool
  graceFrozenRemaining : Option ℕ
  deriving DecidableEq, Repr

/-- The first controller stage's mode, or power-off for a render-only ladder. -/
def primaryBlankMode : List LadderStage → BlankMode
  | [] => .powerOff
  | stage :: rest =>
    match stage.kind with
    | .controller mode => mode
    | _ => primaryBlankMode rest

namespace DisplayStateMachine

/-- A machine starts in `Active`, owned and without overlays. -/
def new (timings : SmTimings) (ladder : List LadderStage) (now : ℕ) : DisplayStateMachine where
  phase := .active
  overlays := Overlays.default
  cmdGen := 0
  lastBlankGen := none
  lastWakeGen := none
  lastWake := none
  lastBlank := none
  startedAt := now
  blankMode := primaryBlankMode ladder
  ladder := ladder
  stageGen := 0
  currentStage := none
  stageDwellFrozenRemaining := none
  scheduledStageDeadline := none
  owned := true
  timings := timings
  pendingWake := false
  inputWakeHoldActive := false
  zonePresent := none
  graceFrozenRemaining := none

def phaseName (s : DisplayStateMachine) : String :=
  match s.phase with
  | .active => "active"
  | .grace _ => "grace"
  | .blanking => "blanking"
  | .blanked => "blanked"
  | .waking => "waking"
  | .renderPending _ _ => "render_pending"
  | .staged _ _ => "staged"

def setInputWakeHoldActive (s : DisplayStateMachine) (active : Bool) : DisplayStateMachine :=
  { s with inputWakeHoldActive := active }

def inGrace (s : DisplayStateMachine) : Bool :=
  match s.phase with
  | .grace _ => true
  | _ => false

/-- An overlay holds back the blank path: the display is inhibited or paused. -/
def held (s : DisplayStateMachine) : Bool :=
  s.overlays.inhibited || s.overlays.paused.isSome

end DisplayStateMachine
end Dormant
