import Dormant.Rules.Zone
import Dormant.StateMachine.Facts
import Mathlib.Data.List.Dedup

/-!
# The data of the rules engine

The runtime configuration, the messages, the timers and the record `RulesEngine` of
`rules.rs`. A hash map is a function to `Option`, with the order of its keys beside it where
the source iterates over them. What the engine sends, over the event bus or to a task that it
spawns, is appended to `outbox`.
-/

namespace Dormant
set_option autoImplicit false

structure DisplayId where
  id : String
  deriving DecidableEq, Repr, Ord

structure RuleId where
  id : String
  deriving DecidableEq, Repr

structure GenerationId where
  val : UInt64
  deriving DecidableEq, Repr

/-! ## Configuration -/

structure DisplayRuntimeCfg where
  display : DisplayId
  blankMode : BlankMode
  ladder : List LadderStage
  timings : SmTimings

structure RuleRuntimeCfg where
  rule : RuleId
  zone : ZoneId
  displays : List DisplayId
  inputWakeHold : ℕ

structure SensorRuntimeCfg where
  sensor : SensorId
  holdTime : Option ℕ
  staleTimeout : ℕ

structure RulesEngineConfig where
  rules : List RuleRuntimeCfg
  displays : List DisplayRuntimeCfg
  sensors : List SensorRuntimeCfg
  doctorWakeSettle : ℕ

/-! ## Operations -/

inductive OperationKind where
  | exercise (display : DisplayId)
  | emergencyWake
  deriving DecidableEq, Repr

structure AcceptedOperation where
  id : UInt64
  generation : GenerationId
  kind : OperationKind
  deriving DecidableEq, Repr

inductive ExerciseVerdict where
  | confirmed
  | unconfirmable
  | failed
  deriving DecidableEq, Repr

structure ExerciseStep where
  command : String
  blankMode : Option BlankMode
  returnedOk : Bool
  verdict : ExerciseVerdict
  error : Option String
  deriving DecidableEq, Repr

structure ExerciseReport where
  display : DisplayId
  prePhase : String
  operationId : Option UInt64
  generation : Option GenerationId
  pausedRules : List RuleId
  steps : List ExerciseStep
  deriving DecidableEq, Repr

/-- The arguments of a spawned exercise, with what its guard sends when it ends. -/
structure ExerciseTask where
  display : DisplayId
  effectiveMode : Option BlankMode
  prePhase : String
  rulesToResume : List RuleId
  operationId : UInt64
  generation : GenerationId
  wakeSettle : ℕ
  deriving DecidableEq, Repr

/-! ## Messages -/

inductive InhibitorKind where
  | userActivity
  | audioPlayback
  | call
  deriving DecidableEq, Repr

structure SensorAvailabilityEvent where
  sensor : SensorId
  online : Bool
  stamp : ℕ
  deriving DecidableEq, Repr

inductive DaemonEvent where
  | sensorChanged (sensor : SensorId) (state : SensorState)
  | zoneChanged (zone : ZoneId) (present : Bool) (cause : SensorId)
  | displayPhase (display : DisplayId) (phase cause : String) (presenceConfirmed : Option Bool)
  | pauseChanged (display : DisplayId) (paused : Bool) (rule : Option RuleId)
  | wakeRetry (display : DisplayId) (attempt : UInt64)
  | blankFailure (display : DisplayId) (controller detail : String)
  | blankRecovered (display : DisplayId)
  | wakeRecovered (display : DisplayId) (attempts : UInt64)
  deriving DecidableEq, Repr

/-- The messages that reach the engine's state, the presence query, and `passive` for those
that only read it or set what its snapshots show. -/
inductive ControlMsg where
  | pause (rule : Option RuleId) (untilStamp : Option ℕ)
  | resume (rule : Option RuleId)
  | forceBlank (display : DisplayId)
  | forceWake (display : DisplayId)
  | softBlank (display : DisplayId)
  | setInhibited (rule : Option RuleId) (kind : InhibitorKind) (inhibited : Bool)
  | setClaimSuppression (display : DisplayId) (deadline : Option ℕ)
  | inputWake (display : DisplayId)
  | ownershipPoll (display : DisplayId)
  | publishDaemonEvent (event : DaemonEvent)
  | emergencyWake
  | emergencyWakeAccepted (operation : AcceptedOperation)
  | exercise (display : DisplayId)
  | exerciseAccepted (operation : AcceptedOperation)
  | sensorAvailability (event : SensorAvailabilityEvent)
  | queryPresenceConfirmed (display : DisplayId)
  | passive
  deriving DecidableEq, Repr

inductive InternalResult where
  | blank (display : DisplayId) (gen : UInt64) (result : Except CmdFailure Unit)
  | wake (display : DisplayId) (gen : UInt64) (result : Except CmdFailure Unit)
  | render (display : DisplayId) (gen : UInt64) (result : Except CmdFailure Unit)
  | exerciseResume (rules : List RuleId) (operationId : UInt64) (generation : GenerationId)

/-! ## Timers -/

inductive TimerEntry where
  | displayTick (display : DisplayId)
  | displayStageTick (display : DisplayId) (gen : UInt64)
  | holdExpiry (sensor : SensorId)
  | inputWakeHoldExpiry (display : DisplayId)
  deriving DecidableEq, Repr, Ord

abbrev Timer := ℕ × TimerEntry

/-- The heap's order: by deadline, then by entry. -/
def Timer.before (t u : Timer) : Bool :=
  decide (t.1 < u.1) || (decide (t.1 = u.1) && (compare t.2 u.2).isLE)

def earliest : List Timer → Option Timer
  | [] => none
  | t :: timers =>
    match earliest timers with
    | none => some t
    | some u => if Timer.before t u then some t else some u

/-! ## The engine -/

/-- One rule's inhibitors: the last bit of each kind, unset until reported, and their OR as
the displays were last told. -/
structure InhibitorSet where
  kinds : InhibitorKind → Bool
  effective : Bool

def InhibitorSet.default : InhibitorSet := { kinds := fun _ => false, effective := false }

def anyEngaged (kinds : InhibitorKind → Bool) : Bool :=
  kinds .userActivity || kinds .audioPlayback || kinds .call

structure HoldState where
  armedUntil : Option ℕ
  pendingAbsent : Option PresenceEvent

/-- What a task outside the engine's loop is given, or what is sent over the event bus, to
the observation hub or to the caller. -/
inductive Output where
  | event (event : DaemonEvent)
  | phaseChanged (generation : GenerationId) (rule : Option RuleId) (display : DisplayId)
      (oldPhase newPhase : Phase)
  | blank (display : DisplayId) (gen : UInt64) (mode : BlankMode)
  | wake (display : DisplayId) (gen : UInt64)
  | showRender (display : DisplayId) (gen : UInt64) (idx : ℕ) (kind : StageKind)
  | renderUnavailable (display : DisplayId) (gen : UInt64) (failure : CmdFailure)
  | teardownRender (display : DisplayId) (gen : UInt64)
  | wakeOnce (display : DisplayId)
  | exercise (task : ExerciseTask)
  | exerciseReply (report : ExerciseReport)
  | presenceReply (verdict : Option Bool)
  deriving DecidableEq, Repr

/-- What the engine reads of the world while it handles one event: the clocks, the ownership
gate, and what the shared operation registry hands out. `nowTick` was read at the top of the
loop, before the wait for the event. -/
structure Env where
  now : ℕ
  nowTick : ℕ
  wall : ℕ
  owns : DisplayId → Bool
  leaseAccepted : AcceptedOperation → Bool
  tryAcquire : GenerationId → OperationKind → Option AcceptedOperation

/-- What an engine is built from. `ruleOrder` is the iteration order of its rule index. -/
structure Setup where
  cfg : RulesEngineConfig
  zoneEngine : ZoneEngine
  executors : List DisplayId
  renderSinks : List DisplayId
  generation : Option GenerationId
  ruleOrder : List RuleId
  ruleOrder_perm : ruleOrder.Perm (cfg.rules.map (·.rule)).dedup

/-- `ruleOrder` and `executors` list the keys of their maps in iteration order. -/
structure RulesEngine where
  cfg : RulesEngineConfig
  zoneEngine : ZoneEngine
  machines : DisplayId → Option DisplayStateMachine
  executors : List DisplayId
  renderSinks : List DisplayId
  lastOwned : DisplayId → Option Bool
  ruleDisplays : RuleId → Option (List DisplayId)
  ruleOrder : List RuleId
  zoneRules : ZoneId → List RuleId
  pausedScopes : DisplayId → Option (Option RuleId)
  inhibitorState : RuleId → InhibitorSet
  holds : SensorId → Option HoldState
  wakeAttempts : DisplayId → Option UInt64
  lastBlankFailed : DisplayId → Bool
  sensorLastSeenVirtual : SensorId → Option ℕ
  availabilityOnline : SensorId → Option ℕ
  timers : List Timer
  generation : Option GenerationId
  claimSuppression : DisplayId → Option ℕ
  inputWakeHolds : DisplayId → Option ℕ
  outbox : List Output

end Dormant
