import Dormant.Coordination.Record
import Dormant.Foundations.Threads

/-!
# Pulling a display to this machine

`DirectSwitchHandle::pull` of `direct_switch.rs` as a task. It asks the executor and the hooks, and
waits for them; what it does to the cooldown map, the coordination cache and the control channel it
does at once. The suppression guard is the set at its start and a clear on every way out.
-/

namespace Dormant
set_option autoImplicit false

open Tasks

inductive SwitchReason where
  | activity
  | hotkey
  | cli
  | web
  | tray
  | release
  | toggle
  deriving DecidableEq, Repr

def SwitchReason.asStr : SwitchReason → String
  | .activity => "activity_follow"
  | .hotkey => "hotkey"
  | .cli => "cli"
  | .web => "web"
  | .tray => "tray"
  | .release => "push"
  | .toggle => "pull"

inductive SwitchOutcome where
  | switched
  | notConfigured
  | hookAborted (reason : String)
  | writeFailed (error : String)
  | unsupported
  | cooldown
  | alreadyLocal
  | alreadyPeer
  deriving DecidableEq, Repr

inductive InputSourceReadback where
  | exact (code : UInt8)
  | differentFrom (code : UInt8)
  deriving DecidableEq, Repr

structure InputSourceTarget where
  writeCode : UInt8
  expectedReadback : InputSourceReadback
  deriving DecidableEq, Repr

/-- The part of a display's configuration that a pull reads. -/
structure SwitchConfig where
  shared : Bool
  sharedInputCode : Option UInt8
  sharedInputWriteCode : Option UInt8
  /-- Whether there are actions to run before the switch, and after it. -/
  beforeAcquire : Bool
  afterAcquire : Bool
  deriving DecidableEq, Repr

structure OwnershipEvent where
  display : DisplayId
  owned : Bool
  observedInputCode : Option UInt8
  writtenCode : Option UInt8
  cause : String
  verified : Option Bool
  degraded : Bool
  deriving DecidableEq, Repr

/-- The control messages of a switch. -/
inductive SwitchMsg where
  | setClaimSuppression (display : DisplayId) (deadline : Option ℕ)
  | ownership (event : OwnershipEvent)
  | ownershipPoll (display : DisplayId)
  | inputWake (display : DisplayId)
  deriving DecidableEq, Repr

/-! ## The handle -/

/-- What a pull shares with the rest of the daemon. -/
structure SwitchState where
  now : ℕ
  config : DisplayId → Option SwitchConfig
  executors : DisplayId → Bool
  coordination : Option CoordinationHandle
  lastActivityPull : DisplayId → Option ℕ
  frontCtl : List SwitchMsg

/-- The cooldown of activity pulls, and the room of the control channel. -/
structure SwitchSetting where
  cooldown : ℕ
  capacity : ℕ

/-- `SUPPRESSION_DURATION`, in nanoseconds. -/
def suppressionDuration : ℕ := 5000000000

namespace SwitchState

def trySend (setting : SwitchSetting) (msg : SwitchMsg) (s : SwitchState) : SwitchState × Bool :=
  if s.frontCtl.length < setting.capacity then
    ({ s with frontCtl := s.frontCtl ++ [msg] }, true)
  else (s, false)

def resolveLocalTarget (display : DisplayId) (s : SwitchState) :
    Option (SwitchConfig × InputSourceTarget) :=
  match s.config display with
  | none => none
  | some config =>
    if config.shared then
      config.sharedInputCode.map fun readCode =>
        (config,
          { writeCode := config.sharedInputWriteCode.getD readCode
            expectedReadback := .exact readCode })
    else none

def observationAgreesLocal (display : DisplayId) (localCode : UInt8) (s : SwitchState) : Bool :=
  match s.coordination with
  | none => false
  | some coordination =>
    match coordination.records display with
    | none => false
    | some record =>
      record.owned && record.hasSuccessfulInputRead && record.consecutiveFailures == 0 &&
        record.lastObservedCode == some localCode

/-- An activity pull of the display was recorded within the cooldown. -/
def coolingDown (setting : SwitchSetting) (display : DisplayId) (s : SwitchState) : Bool :=
  match s.lastActivityPull display with
  | none => false
  | some last => s.now < last + setting.cooldown

def owns (display : DisplayId) (s : SwitchState) : Bool :=
  s.coordination.all fun coordination => coordination.owns display

end SwitchState

/-! ## Its calls -/

inductive HookPhase where
  | before
  | after
  deriving DecidableEq, Repr

inductive SwitchCall where
  | resolveLocalTarget (display : DisplayId)
  | resolveExecutor (display : DisplayId)
  | observationAgreesLocal (display : DisplayId) (localCode : UInt8)
  | readInputSource (display : DisplayId)
  | coolingDown (display : DisplayId)
  | suppress (display : DisplayId)
  | unsuppress (display : DisplayId)
  | runHook (display : DisplayId) (phase : HookPhase)
  | powerOnIfStandby (display : DisplayId)
  | writeInputSource (display : DisplayId) (target : InputSourceTarget)
  | recordActivityPull (display : DisplayId)
  | markOwnedImmediate (display : DisplayId) (verifiedCode : UInt8)
  | owns (display : DisplayId)
  | trySend (msg : SwitchMsg)
  deriving DecidableEq, Repr

/-- A read may time out, a hook slot may abort with a reason, and a write may fail. A message is
sent when the channel has room, and the cache is marked when there is one. -/
@[reducible] def SwitchCall.Reply : SwitchCall → Type
  | .resolveLocalTarget _ => Option (SwitchConfig × InputSourceTarget)
  | .resolveExecutor _ => Bool
  | .observationAgreesLocal _ _ => Bool
  | .readInputSource _ => Option (Except CmdFailure (Option UInt8))
  | .coolingDown _ => Bool
  | .suppress _ => Bool
  | .unsuppress _ => Bool
  | .runHook _ _ => Option String
  | .powerOnIfStandby _ => Unit
  | .writeInputSource _ _ => Except CmdFailure Unit
  | .recordActivityPull _ => Unit
  | .markOwnedImmediate _ _ => Bool
  | .owns _ => Bool
  | .trySend _ => Bool

abbrev Switching := Task SwitchCall SwitchCall.Reply

/-- What is done at once. The other calls wait for the hooks or the executor. -/
def SwitchCall.act (setting : SwitchSetting) :
    (call : SwitchCall) → Option (SwitchState → SwitchState × call.Reply)
  | .resolveLocalTarget display => some fun s => (s, s.resolveLocalTarget display)
  | .resolveExecutor display => some fun s => (s, s.executors display)
  | .observationAgreesLocal display localCode =>
    some fun s => (s, s.observationAgreesLocal display localCode)
  | .coolingDown display => some fun s => (s, s.coolingDown setting display)
  | .suppress display =>
    some fun s =>
      s.trySend setting (.setClaimSuppression display (some (s.now + suppressionDuration)))
  | .unsuppress display => some (SwitchState.trySend setting (.setClaimSuppression display none))
  | .recordActivityPull display =>
    some fun s =>
      ({ s with lastActivityPull := Function.update s.lastActivityPull display (some s.now) }, ())
  | .markOwnedImmediate display verifiedCode =>
    some fun s =>
      ({ s with
          coordination := s.coordination.map fun coordination =>
            coordination.markOwnedImmediate display verifiedCode },
        s.coordination.isSome)
  | .owns display => some fun s => (s, s.owns display)
  | .trySend msg => some (SwitchState.trySend setting msg)
  | .readInputSource _ => none
  | .runHook _ _ => none
  | .powerOnIfStandby _ => none
  | .writeInputSource _ _ => none

/-! ## The pull -/

structure PullRequest where
  display : DisplayId
  reason : SwitchReason
  force : Bool
  deriving DecidableEq, Repr

namespace PullRequest
variable (p : PullRequest)

/-- A slot without actions is not run. -/
def runHook (actions : Bool) (phase : HookPhase) : Switching (Option String) :=
  if actions then Task.request (SwitchCall.runHook p.display phase) else return none

def inputWake : Switching Unit :=
  if p.reason = .activity then return ()
  else do
    let _ ← Task.request (SwitchCall.trySend (.inputWake p.display))
    return ()

/-- The event of a pull that did not get through, with the verdict of the cache. -/
def publishFailed (target : InputSourceTarget) (verified : Option Bool) : Switching Unit := do
  let owned ← Task.request (SwitchCall.owns p.display)
  let _ ← Task.request (SwitchCall.trySend (.ownership {
    display := p.display, owned := owned, observedInputCode := none,
    writtenCode := some target.writeCode, cause := p.reason.asStr, verified := verified,
    degraded := false }))
  return ()

def recordActivity : Switching Unit :=
  if p.reason = .activity then Task.request (SwitchCall.recordActivityPull p.display)
  else return ()

def markOwned (target : InputSourceTarget) : Switching Unit := do
  let wired ← Task.request (SwitchCall.markOwnedImmediate p.display target.writeCode)
  if wired then
    let _ ← Task.request (SwitchCall.trySend (.ownershipPoll p.display))
    return ()
  else return ()

/-- The write has been verified. -/
def commit (config : SwitchConfig) (target : InputSourceTarget) : Switching SwitchOutcome := do
  let _ ← Task.request (SwitchCall.unsuppress p.display)
  let _ ← p.runHook config.afterAcquire .after
  p.recordActivity
  p.markOwned target
  let _ ← Task.request (SwitchCall.trySend (.ownership {
    display := p.display, owned := true, observedInputCode := none,
    writtenCode := some target.writeCode, cause := p.reason.asStr, verified := some true,
    degraded := false }))
  p.inputWake
  return .switched

/-- From the suppression guard on. -/
def acquire (config : SwitchConfig) (target : InputSourceTarget) : Switching SwitchOutcome := do
  let _ ← Task.request (SwitchCall.suppress p.display)
  match ← p.runHook config.beforeAcquire .before with
  | some reason =>
    let _ ← Task.request (SwitchCall.unsuppress p.display)
    p.publishFailed target none
    return .hookAborted reason
  | none =>
    Task.request (SwitchCall.powerOnIfStandby p.display)
    match ← Task.request (SwitchCall.writeInputSource p.display target) with
    | .ok () => p.commit config target
    | .error cmd =>
      let _ ← Task.request (SwitchCall.unsuppress p.display)
      p.publishFailed target (some false)
      return .writeFailed cmd.error

/-- The cache and a fresh read agree that the panel shows the local input. -/
def alreadyLocal (localCode : UInt8) : Switching Bool :=
  if p.force then return false
  else do
    let agrees ← Task.request (SwitchCall.observationAgreesLocal p.display localCode)
    if agrees then
      let read ← Task.request (SwitchCall.readInputSource p.display)
      match read with
      | some (.ok (some code)) => return decide (code = localCode)
      | _ => return false
    else return false

/-- Only activity pulls cool down. -/
def cooldownGate : Switching Bool :=
  if p.reason = .activity then Task.request (SwitchCall.coolingDown p.display) else return false

def pull : Switching SwitchOutcome := do
  match ← Task.request (SwitchCall.resolveLocalTarget p.display) with
  | none => return .unsupported
  | some (config, target) =>
    match ← Task.request (SwitchCall.resolveExecutor p.display), config.sharedInputCode with
    | true, some localCode =>
      if ← p.alreadyLocal localCode then
        p.inputWake
        return .alreadyLocal
      else if ← p.cooldownGate then return .cooldown
      else p.acquire config target
    | _, _ => return .unsupported

end PullRequest

/-- What is left to clear when the pull is given up at a call: the guard is live from the
suppression to the end of the write. -/
def SwitchCall.unwind : SwitchCall → Switching Unit
  | .runHook display .before => do
    let _ ← Task.request (SwitchCall.unsuppress display)
    return ()
  | .powerOnIfStandby display => do
    let _ ← Task.request (SwitchCall.unsuppress display)
    return ()
  | .writeInputSource display _ => do
    let _ ← Task.request (SwitchCall.unsuppress display)
    return ()
  | _ => return ()

end Dormant
