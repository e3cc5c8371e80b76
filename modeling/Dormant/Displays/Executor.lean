import Dormant.Coordination.Record
import Dormant.Foundations.Threads

/-!
# The executor of a display

`DisplayExecutor` of `executor.rs`: `blank`, `wake_once` and `wake` as tasks over the ordered chain
of controllers, with the registry of `blank_owner.rs`. A task waits for the controllers and for the
backoff. The supersede token, the registry and the health rows it reads and writes at once.
-/

namespace Dormant
set_option autoImplicit false

open Tasks

/-! ## Who blanked the panel -/

structure OwnerEntry where
  fingerprint : String
  controllerIndex : ℕ
  deriving DecidableEq, Repr

structure BlankOwnerRegistry where
  owners : DisplayId → Option OwnerEntry

namespace BlankOwnerRegistry
variable (registry : BlankOwnerRegistry) (display : DisplayId) (fingerprint : String)

def new : BlankOwnerRegistry where
  owners _ := none

/-- An entry of another chain is removed. -/
def owner : BlankOwnerRegistry × Option ℕ :=
  match registry.owners display with
  | some entry =>
    if entry.fingerprint = fingerprint then (registry, some entry.controllerIndex)
    else ({ owners := Function.update registry.owners display none }, none)
  | none => (registry, none)

def record (controllerIndex : ℕ) : BlankOwnerRegistry where
  owners := Function.update registry.owners display (some { fingerprint, controllerIndex })

def clearIfOwner (controllerIndex : ℕ) : BlankOwnerRegistry :=
  if registry.owners display = some { fingerprint, controllerIndex } then
    { owners := Function.update registry.owners display none }
  else registry

end BlankOwnerRegistry

/-! ## The executor -/

inductive ControllerRole where
  | primary
  | fallback
  deriving DecidableEq, Repr

structure ControllerHealth where
  name : String
  role : ControllerRole
  healthy : Bool
  detail : Option String
  deriving DecidableEq, Repr

structure RetrySettings where
  wakeRetries : UInt32
  /-- In nanoseconds. -/
  wakeRetryBackoff : ℕ
  deriving DecidableEq, Repr

/-- What is fixed when an executor is built. The chain is the names of its controllers. -/
structure DisplayExecutor where
  display : DisplayId
  chain : List String
  retry : RetrySettings
  chainFingerprint : String

/-- What the calls of an executor share. The supersede tokens are numbered in the order of their
rotations, and all but the current one are cancelled. -/
structure ExecutorState where
  supersede : ℕ
  health : List ControllerHealth
  blankOwners : BlankOwnerRegistry
  supportedModes : ℕ → List BlankMode

/-- The calls of a command. A controller is named by its index. -/
inductive ExecutorCall where
  | rotateSupersede
  | isCancelled (token : ℕ)
  | owner
  | recordOwner (i : ℕ)
  | clearIfOwner (i : ℕ)
  | storeHealth (health : List ControllerHealth)
  | supportedModes (i : ℕ)
  | isAvailable (i : ℕ)
  | reprobe (i : ℕ)
  | blank (i : ℕ) (mode : BlankMode)
  | wake (i : ℕ)
  | backoff (duration : ℕ)
  | panic
  deriving DecidableEq, Repr

/-- A controller's error is its text. Nothing comes back from a panic. -/
@[reducible] def ExecutorCall.Reply : ExecutorCall → Type
  | .rotateSupersede => ℕ
  | .isCancelled _ => Bool
  | .owner => Option ℕ
  | .recordOwner _ => Unit
  | .clearIfOwner _ => Unit
  | .storeHealth _ => Unit
  | .supportedModes _ => List BlankMode
  | .isAvailable _ => Bool
  | .reprobe _ => Unit
  | .blank _ _ => Except String Unit
  | .wake _ => Except String Unit
  | .backoff _ => Unit
  | .panic => Empty

abbrev Execution := Task ExecutorCall ExecutorCall.Reply

abbrev CommandResult := Except CmdFailure Unit

namespace DisplayExecutor
variable (ex : DisplayExecutor)

def act : (call : ExecutorCall) → Option (ExecutorState → ExecutorState × call.Reply)
  | .rotateSupersede =>
    some fun s => ({ s with supersede := s.supersede + 1 }, s.supersede + 1)
  | .isCancelled token => some fun s => (s, decide (token ≠ s.supersede))
  | .owner =>
    some fun s =>
      let looked := s.blankOwners.owner ex.display ex.chainFingerprint
      ({ s with blankOwners := looked.1 }, looked.2)
  | .recordOwner i =>
    some fun s =>
      ({ s with blankOwners := s.blankOwners.record ex.display ex.chainFingerprint i }, ())
  | .clearIfOwner i =>
    some fun s =>
      ({ s with blankOwners := s.blankOwners.clearIfOwner ex.display ex.chainFingerprint i }, ())
  | .storeHealth health => some fun s => ({ s with health := health }, ())
  | .supportedModes i => some fun s => (s, s.supportedModes i)
  | .isAvailable _ => none
  | .reprobe _ => none
  | .blank _ _ => none
  | .wake _ => none
  | .backoff _ => none
  | .panic => none

/-- One row for every controller, before the first attempt. -/
def freshHealth : List ControllerHealth :=
  ex.chain.mapIdx fun i name =>
    { name, role := if i = 0 then .primary else .fallback, healthy := false, detail := none }

end DisplayExecutor

def healthy (health : List ControllerHealth) (i : ℕ) : List ControllerHealth :=
  health.modify i fun row => { row with healthy := true, detail := none }

def unhealthy (health : List ControllerHealth) (i : ℕ) (detail : String) :
    List ControllerHealth :=
  health.modify i fun row => { row with healthy := false, detail := some detail }

/-! ## Blanking -/

/-- `{mode:?}`. -/
def BlankMode.debug : BlankMode → String
  | .powerOff => "PowerOff"
  | .screenOffAudioOn => "ScreenOffAudioOn"
  | .brightnessZero => "BrightnessZero"

structure BlankTally where
  health : List ControllerHealth
  eligibleCount : ℕ
  lastController : String
  anyEligibleFailed : Bool

namespace DisplayExecutor
variable (ex : DisplayExecutor)

/-- A controller has blanked the panel: its row, and then the owner. -/
def blanked (tally : BlankTally) (i : ℕ) : Execution Unit := do
  Task.request (ExecutorCall.storeHealth (healthy tally.health i))
  Task.request (ExecutorCall.recordOwner i)

/-- A pass of `blank` over the controllers, from a place in the chain on. There is nothing left when
one of them succeeds. -/
def blankPass (mode : BlankMode) (probe : ℕ → Execution Unit)
    (skip : BlankTally → ℕ → String → BlankTally) (fail : BlankTally → BlankTally) :
    List (String × ℕ) → BlankTally → Execution (Option BlankTally)
  | [], tally => return some tally
  | (name, i) :: rest, tally => do
    probe i
    if ← Task.request (ExecutorCall.isAvailable i) then
      if mode ∈ (← Task.request (ExecutorCall.supportedModes i)) then
        match ← Task.request (ExecutorCall.blank i mode) with
        | .ok () =>
          blanked tally i
          return none
        | .error e =>
          blankPass mode probe skip fail rest
            (fail { tally with
              health := unhealthy tally.health i e
              eligibleCount := tally.eligibleCount + 1
              lastController := name })
      else blankPass mode probe skip fail rest (skip tally i "mode not supported")
    else blankPass mode probe skip fail rest (skip tally i "controller unavailable")

/-- The main round of `blank`. -/
def blankRound (mode : BlankMode) :
    List (String × ℕ) → BlankTally → Execution (Option BlankTally) :=
  blankPass mode (fun _ => pure ())
    (fun tally i detail => { tally with health := unhealthy tally.health i detail })
    (fun tally => { tally with anyEligibleFailed := true })

/-- It leaves the rows of the controllers that it skips. -/
def reprobeBlankPass (mode : BlankMode) :
    List (String × ℕ) → BlankTally → Execution (Option BlankTally) :=
  blankPass mode (fun i => Task.request (ExecutorCall.reprobe i)) (fun tally _ _ => tally) id

def blankFailed (mode : BlankMode) (tally : BlankTally) : Execution CommandResult := do
  Task.request (ExecutorCall.storeHealth tally.health)
  return .error
    { controller := tally.lastController
      error := "E_BLANK_FAILED: no controller succeeded (mode=" ++ mode.debug ++ ")" }

/-- The token that it takes out is not looked at again. -/
def blank (mode : BlankMode) : Execution CommandResult := do
  let _supersedeToken ← Task.request ExecutorCall.rotateSupersede
  let start : BlankTally :=
    { health := ex.freshHealth, eligibleCount := 0, lastController := "none-eligible",
      anyEligibleFailed := false }
  match ← blankRound mode ex.chain.zipIdx start with
  | none => return .ok ()
  | some tally =>
    if tally.eligibleCount = 0 ∨ tally.anyEligibleFailed then
      match ← reprobeBlankPass mode ex.chain.zipIdx tally with
      | none => return .ok ()
      | some tally => blankFailed mode tally
    else blankFailed mode tally

end DisplayExecutor

/-! ## Waking -/

/-- Where a loop of a command goes on, or the result that the command returns from inside it. -/
inductive Flow (α : Type) where
  | next (a : α)
  | returned (result : CommandResult)

def superseded : CommandResult :=
  .error { controller := "superseded", error := "E_WAKE_FAILED: superseded by blank" }

def ownerFirstOrder (owner : Option ℕ) (len : ℕ) : List ℕ :=
  let owner := owner.filter (· < len)
  owner.toList ++ (List.range len).filter fun i => some i ≠ owner

namespace DisplayExecutor
variable (ex : DisplayExecutor)

/-- The owner is attempted whether it is available or not. -/
def attempts (owner : Option ℕ) (i : ℕ) : Execution Bool :=
  if owner = some i then return true else Task.request (ExecutorCall.isAvailable i)

def storeRows : Option (List ControllerHealth) → Execution Unit
  | some rows => Task.request (ExecutorCall.storeHealth rows)
  | none => pure ()

def clearOwner (owner : Option ℕ) (i : ℕ) : Execution Unit :=
  if owner = some i then Task.request (ExecutorCall.clearIfOwner i) else pure ()

/-- A controller has woken the panel. The burst of `wake` also stores its rows. -/
def woken {α : Type} (owner : Option ℕ) (token : ℕ) (rows : Option (List ControllerHealth))
    (i : ℕ) : Execution (Flow α) := do
  if ← Task.request (ExecutorCall.isCancelled token) then return .returned superseded
  else
    storeRows rows
    clearOwner owner i
    return .returned (.ok ())

/-- One round through the controllers, with what it keeps of them. -/
def attemptRound {α : Type} (owner : Option ℕ) (token : ℕ)
    (rows : α → ℕ → Option (List ControllerHealth)) (fail : α → ℕ → String → α) :
    List ℕ → α → Execution (Flow α)
  | [], a => return .next a
  | i :: rest, a => do
    if ← Task.request (ExecutorCall.isCancelled token) then return .returned superseded
    else if ← attempts owner i then
      match ← Task.request (ExecutorCall.wake i) with
      | .ok () => woken owner token (rows a i) i
      | .error e => attemptRound owner token rows fail rest (fail a i e)
    else attemptRound owner token rows fail rest (fail a i "controller unavailable")

/-- One round of `wake`. -/
def wakeRound (owner : Option ℕ) (token : ℕ) :
    List ℕ → List ControllerHealth → Execution (Flow (List ControllerHealth)) :=
  attemptRound owner token (fun health i => some (healthy health i)) unhealthy

/-- The round of `wake_once`. -/
def wakeOnceRound (owner : Option ℕ) (token : ℕ) (order : List ℕ) : Execution (Flow Unit) :=
  attemptRound owner token (fun _ _ => none) (fun _ _ _ => ()) order ()

/-- The on-demand re-probe at the end of both. The token is looked at after the controller has said
whether it is available. -/
def reprobeWakePass (owner : Option ℕ) (token : ℕ) : List ℕ → Execution (Flow Unit)
  | [] => return .next ()
  | i :: rest => do
    Task.request (ExecutorCall.reprobe i)
    if ← attempts owner i then
      if ← Task.request (ExecutorCall.isCancelled token) then return .returned superseded
      else
        match ← Task.request (ExecutorCall.wake i) with
        | .ok () => woken owner token none i
        | .error _ => reprobeWakePass owner token rest
    else reprobeWakePass owner token rest

def exhausted (error : String) : CommandResult :=
  .error { controller := "exhausted", error := "E_WAKE_FAILED: " ++ error }

def emptyChain : CommandResult :=
  .error { controller := "none-eligible", error := "E_WAKE_FAILED: empty controller chain" }

def wakeOnce : Execution CommandResult := do
  let token ← Task.request ExecutorCall.rotateSupersede
  if ex.chain.isEmpty then return emptyChain
  else
    let owner ← Task.request ExecutorCall.owner
    match ← wakeOnceRound owner token (ownerFirstOrder owner ex.chain.length) with
    | .returned result => return result
    | .next () =>
      match ← reprobeWakePass owner token (List.range ex.chain.length) with
      | .returned result => return result
      | .next () => return exhausted "no controller succeeded in single attempt"

/-- The pause after a round, doubled with each round. `Duration` and `u32` saturate. -/
def backoffAfter (round : ℕ) : ℕ :=
  let multiplier := if round < 32 then Nat.shiftLeft 1 round else UInt32.size - 1
  min (ex.retry.wakeRetryBackoff * multiplier) durationMax

/-- The rounds of `wake` that are left. A pause ends with the sleep or with the cancellation, and
what comes of both at once is the same either way: the round that follows starts with a check. -/
def wakeRounds (owner : Option ℕ) (token : ℕ) (order : List ℕ) :
    ℕ → ℕ → List ControllerHealth → Execution (Flow (List ControllerHealth))
  | 0, _, health => return .next health
  | left + 1, round, health => do
    match ← wakeRound owner token order health with
    | .returned result => return .returned result
    | .next health =>
      if left = 0 then return .next health
      else
        Task.request (ExecutorCall.backoff (ex.backoffAfter round))
        if ← Task.request (ExecutorCall.isCancelled token) then return .returned superseded
        else wakeRounds owner token order left (round + 1) health

def wake : Execution CommandResult := do
  let token ← Task.request ExecutorCall.rotateSupersede
  if ex.chain.isEmpty then return emptyChain
  else if ex.retry.wakeRetries.toNat + 1 = UInt32.size then
    -- "wake_retries overflow"
    Task.call ExecutorCall.panic Empty.elim
  else
    let totalRounds := ex.retry.wakeRetries.toNat + 1
    let owner ← Task.request ExecutorCall.owner
    let order := ownerFirstOrder owner ex.chain.length
    match ← ex.wakeRounds owner token order totalRounds 0 ex.freshHealth with
    | .returned result => return result
    | .next health =>
      Task.request (ExecutorCall.storeHealth health)
      match ← reprobeWakePass owner token (List.range ex.chain.length) with
      | .returned result => return result
      | .next () => return exhausted s!"burst exhausted after {totalRounds} rounds"

end DisplayExecutor

inductive ExecutorCommand where
  | blank (mode : BlankMode)
  | wakeOnce
  | wake
  deriving DecidableEq, Repr

def DisplayExecutor.program (ex : DisplayExecutor) : ExecutorCommand → Execution CommandResult
  | .blank mode => ex.blank mode
  | .wakeOnce => ex.wakeOnce
  | .wake => ex.wake

end Dormant
