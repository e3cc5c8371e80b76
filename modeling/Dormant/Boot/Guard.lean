import Mathlib.Algebra.Group.Nat.Defs
import Mathlib.Data.List.Basic
import Dormant.Foundations.Runs

/-!
# Boots of the daemon

`decide` and `prepare` of `boot_guard.rs`, and `boot` of `boot.rs`, over the files of a state
directory. The hash of the standard library is a parameter. What a boot finds outside the
directory, and whether its builds, its lock and its start succeed, comes with it, as a `Boot`.
-/

namespace Dormant
set_option autoImplicit false

inductive Fingerprint where
  | bytes (len hash64 : ℕ)
  | unreadable
  deriving DecidableEq, Repr

structure StartEntry where
  epochS : ℕ
  fingerprint : Fingerprint
  nonce : ℕ
  deriving DecidableEq, Repr

structure CrashLoopState where
  schemaVersion : ℕ
  starts : List StartEntry
  rollbackActive : Bool
  rolledBackFrom : Option Fingerprint
  deriving DecidableEq, Repr

/-- Also of an absent or a corrupt file. -/
def CrashLoopState.default : CrashLoopState where
  schemaVersion := 1
  starts := []
  rollbackActive := false
  rolledBackFrom := none

inductive Action where
  | proceed
  | rollBack
  | continueRollback
  deriving DecidableEq, Repr

structure Verdict where
  action : Action
  clearRollbackActive : Bool
  retryAfterQuiet : Bool
  lkgMissingDisarmed : Bool
  deriving DecidableEq, Repr

structure LkgInfo where
  exist : Bool
  validates : Bool
  bytesEqualCurrent : Bool
  deriving DecidableEq, Repr

def crashLoopThreshold : ℕ := 3

/-- In seconds. -/
def crashLoopWindow : ℕ := 6 * 60

def maxStarts : ℕ := 10

/-! ## The verdict -/

/-- The body of the loop, with what is counted so far. -/
def countStart (discountNonces : List ℕ) (current : Fingerprint) (nowEpochS : ℕ)
    (counted : ℕ × ℕ) (e : StartEntry) : ℕ × ℕ :=
  if e.nonce ∈ discountNonces then counted
  else if nowEpochS - e.epochS > crashLoopWindow then counted
  else if e.fingerprint = current then (counted.1 + 1, counted.2 + 1)
  else (counted.1 + 1, counted.2)

/-- The total and, of these, the matching ones. -/
def sameFingerprintWindowStats (starts : List StartEntry) (discountNonces : List ℕ)
    (current : Fingerprint) (nowEpochS : ℕ) : ℕ × ℕ :=
  starts.foldl (countStart discountNonces current nowEpochS) (0, 0)

def liveStarts (starts : List StartEntry) (discountNonces : List ℕ) : List StartEntry :=
  starts.filter fun e => e.nonce ∉ discountNonces

/-- The previous live start is older than the window. -/
def ageLeg (starts : List StartEntry) (discountNonces : List ℕ) (nowEpochS : ℕ) : Prop :=
  ∃ e ∈ (liveStarts starts discountNonces).reverse[1]?, nowEpochS - e.epochS > crashLoopWindow

instance (starts : List StartEntry) (discountNonces : List ℕ) (nowEpochS : ℕ) :
    Decidable (ageLeg starts discountNonces nowEpochS) :=
  inferInstanceAs (Decidable (∃ e ∈ (liveStarts starts discountNonces).reverse[1]?, _))

def CrashLoopState.decide (state : CrashLoopState) (discountNonces : List ℕ) (lkg : LkgInfo)
    (current : Fingerprint) (nowEpochS : ℕ) (lkgRollbackEnabled : Bool) : Verdict :=
  if ageLeg state.starts discountNonces nowEpochS ∧ some current = state.rolledBackFrom then
    ⟨.proceed, true, true, false⟩
  else if state.rollbackActive ∧ ¬(lkg.exist ∧ lkg.validates) then
    ⟨.proceed, true, false, true⟩
  else if state.rollbackActive ∧ some current = state.rolledBackFrom ∧ lkg.exist ∧
      lkg.validates then
    ⟨.continueRollback, false, false, false⟩
  else
    let stats := sameFingerprintWindowStats state.starts discountNonces current nowEpochS
    if crashLoopThreshold ≤ stats.1 ∧ (0 < stats.1 ∧ stats.2 = stats.1) ∧
        ¬lkg.bytesEqualCurrent ∧ lkg.exist ∧ ¬state.rollbackActive ∧ lkgRollbackEnabled then
      ⟨.rollBack, false, false, false⟩
    else if some current ≠ state.rolledBackFrom ∨
        ageLeg state.starts discountNonces nowEpochS then
      ⟨.proceed, true, false, false⟩
    else ⟨.proceed, false, false, false⟩

/-! ## Files -/

/-- The bytes are `none` if the file cannot be read. -/
structure LkgFile where
  bytes : Option (List UInt8)
  validates : Bool
  deriving DecidableEq, Repr

/-- The text of an error, and that of its whole chain. -/
structure BuildError where
  text : String
  chain : String
  deriving DecidableEq, Repr

structure Boot where
  configPath : String
  configBytes : Option (List UInt8)
  lkg : Option LkgFile
  lkgRollbackEnabled : Bool
  now : ℕ
  nonce : ℕ
  configBuild : Except BuildError Unit
  lkgBuild : Except BuildError Unit
  lockAcquired : Bool
  discountedAt : ℕ
  appStarts : Bool

/-- A discount file is its nonce and its modification time. -/
structure StateDir where
  path : String
  crashLoop : CrashLoopState
  discounts : List (ℕ × ℕ)
  deriving DecidableEq, Repr

def StateDir.lkgPath (dir : StateDir) : String := dir.path ++ "/" ++ "last-known-good.toml"

section
variable (hasher : List UInt8 → ℕ)

def fingerprintBytes (bytes : List UInt8) : Fingerprint :=
  .bytes (min bytes.length (2 ^ 64 - 1)) (hasher bytes)

def fingerprintFile : Option (List UInt8) → Fingerprint
  | some bytes => fingerprintBytes hasher bytes
  | none => .unreadable

/-- A label is the length and sixteen digits of the hash. -/
def Fingerprint.label : Fingerprint → String
  | .bytes len hash64 =>
    toString len ++ ":" ++ String.ofList ((Nat.toDigits 16 hash64).leftpad 16 '0')
  | .unreadable => "unreadable"

def filesBytesEqual : Option (List UInt8) → Option (List UInt8) → Bool
  | some x, some y => x = y
  | _, _ => false

def buildLkgInfo (b : Boot) : LkgInfo :=
  match b.lkg with
  | none => ⟨false, false, false⟩
  | some lkg => ⟨true, lkg.validates, filesBytesEqual lkg.bytes b.configBytes⟩

/-! ## Preparing a boot -/

inductive DeferredEvent where
  | crashLoopDetected (count : ℕ)
  | rollbackBoot (failedFp lkgFp : Fingerprint) (detail : String)
  | rollbackContinued
  | rollbackRetry (message : String)
  | lkgMissingRollbackDisarmed
  deriving DecidableEq, Repr

structure RollbackStatus where
  failedFp : String
  lkgFp : String
  detail : String
  recoveryCommand : Option String
  deriving DecidableEq, Repr

structure BootPlan where
  chosenConfig : String
  operatorConfig : String
  nonce : ℕ
  deferredEvents : List DeferredEvent
  pendingMessage : Option String
  rollbackStatus : Option RollbackStatus
  deriving DecidableEq, Repr

def pendingMessageForRollback (detail : String) : String :=
  "your latest config failed and was rolled back to last-known-good — fix it and reload: " ++ detail

def recoveryCommandSuggestion : String := "systemctl --user restart dormant"

def stickyMessage : String :=
  "sticky rollback active; latest config is still being held back — edit it, wait past " ++
    "CRASH_LOOP_WINDOW for a loud retry, or set watchdog.lkg_rollback_enabled = false while " ++
    "debugging"

def retryMessage : String :=
  "retrying latest config after a quiet period; to stop this cycle, edit the config, wait past " ++
    "CRASH_LOOP_WINDOW between restarts, or set watchdog.lkg_rollback_enabled = false while " ++
    "debugging"

namespace StateDir
variable (dir : StateDir) (b : Boot)

/-- A discount file that is older than the window is deleted. -/
def collectAndSweepDiscounts : StateDir :=
  { dir with discounts := dir.discounts.filter fun discount =>
      ¬b.now - discount.2 > crashLoopWindow }

def discountNonces : List ℕ := dir.discounts.map Prod.fst

/-- The starts with that of this boot, of which the ten most recent are kept. -/
def recordStart : CrashLoopState :=
  let starts := dir.crashLoop.starts ++ [⟨b.now, fingerprintFile hasher b.configBytes, b.nonce⟩]
  { dir.crashLoop with starts := starts.drop (starts.length - maxStarts) }

/-- The verdict of `decide` on the directory as the boot finds it. -/
def verdict : Verdict :=
  (dir.recordStart hasher b).decide (dir.collectAndSweepDiscounts b).discountNonces
    (buildLkgInfo b) (fingerprintFile hasher b.configBytes) b.now b.lkgRollbackEnabled

/-- The directory as `prepare` leaves it. -/
def prepared : StateDir :=
  let state := dir.recordStart hasher b
  let verdict := dir.verdict hasher b
  let crashLoop :=
    match verdict.action with
    | .rollBack =>
      { state with
        rollbackActive := true
        rolledBackFrom := some (fingerprintFile hasher b.configBytes) }
    | .continueRollback => state
    | .proceed =>
      if verdict.clearRollbackActive then
        { state with rollbackActive := false, rolledBackFrom := none }
      else state
  { dir.collectAndSweepDiscounts b with crashLoop := crashLoop }

/-- The plan is `none` where `prepare` panics. -/
def prepare : Option BootPlan :=
  let verdict := dir.verdict hasher b
  let currentFp := fingerprintFile hasher b.configBytes
  let lkgFp := fingerprintFile hasher (b.lkg.bind LkgFile.bytes)
  let plan (chosenConfig : String) (pendingMessage : Option String)
      (deferredEvents : List DeferredEvent) (rollbackStatus : Option RollbackStatus) : BootPlan :=
    { chosenConfig, operatorConfig := b.configPath, nonce := b.nonce, deferredEvents,
      pendingMessage, rollbackStatus }
  match verdict.action with
  | .rollBack =>
    let detail := "crash-loop threshold reached for '" ++ b.configPath ++
      "'; rolling back to last-known-good"
    let message := pendingMessageForRollback detail
    some (plan dir.lkgPath (some message) [.rollbackBoot currentFp lkgFp detail]
      (some ⟨currentFp.label, lkgFp.label, message, some recoveryCommandSuggestion⟩))
  | .continueRollback =>
    (dir.prepared hasher b).crashLoop.rolledBackFrom.map fun failed =>
      plan dir.lkgPath (some stickyMessage) [.rollbackContinued]
        (some ⟨failed.label, lkgFp.label, stickyMessage, some recoveryCommandSuggestion⟩)
  | .proceed =>
    if verdict.retryAfterQuiet then
      some (plan b.configPath (some retryMessage) [.rollbackRetry retryMessage] none)
    else if verdict.lkgMissingDisarmed then
      some (plan b.configPath none [.lkgMissingRollbackDisarmed] none)
    else
      let stats := sameFingerprintWindowStats (dir.recordStart hasher b).starts
        (dir.collectAndSweepDiscounts b).discountNonces currentFp b.now
      let events : List DeferredEvent :=
        if crashLoopThreshold ≤ stats.1 ∧ stats.1 = stats.2 then [.crashLoopDetected stats.1]
        else []
      some (plan b.configPath none events none)

/-! ## Booting -/

/-- A file that exists is left as it is. -/
def recordDiscount : StateDir :=
  if b.nonce ∈ dir.discountNonces then dir
  else { dir with discounts := dir.discounts ++ [(b.nonce, b.discountedAt)] }

def writeImmediateRollbackState (failedFp : Fingerprint) : StateDir :=
  { dir with crashLoop := { dir.crashLoop with
      rollbackActive := true
      rolledBackFrom := some failedFp } }

end StateDir

/-- The pending message and the status are those that are parked in the engine. -/
inductive BootOutcome where
  | started (usedConfig : String) (rolledBack : Bool) (pendingReload : Option String)
      (rollback : Option RollbackStatus)
  | lockFailed
  | buildFailed (message : String)
  | startFailed
  deriving DecidableEq, Repr

namespace StateDir
variable (dir : StateDir) (b : Boot)

def immediateRollbackEligible : Bool :=
  match b.lkg with
  | none => false
  | some lkg => !filesBytesEqual lkg.bytes b.configBytes

/-- A build that succeeds is followed by the lock and the start. -/
def lockAndStart (plan : BootPlan) (usedConfig : String) (rolledBack : Bool)
    (immediatePending : Option String) (immediateRollback : Option RollbackStatus) :
    StateDir × BootOutcome :=
  if b.lockAcquired = false then (dir.recordDiscount b, .lockFailed)
  else if b.appStarts = false then (dir, .startFailed)
  else
    (dir, .started usedConfig rolledBack (immediatePending.or plan.pendingMessage)
      (immediateRollback.or plan.rollbackStatus))

def boot (plan : BootPlan) : StateDir × BootOutcome :=
  if plan.chosenConfig = dir.lkgPath then
    match b.lkgBuild with
    | .ok _ => dir.lockAndStart b plan plan.chosenConfig true none none
    | .error e => (dir, .buildFailed e.chain)
  else
    match b.configBuild with
    | .ok _ => dir.lockAndStart b plan plan.chosenConfig false none none
    | .error e =>
      if immediateRollbackEligible b then
        let currentFp := fingerprintFile hasher b.configBytes
        let lkgFp := fingerprintFile hasher (b.lkg.bind LkgFile.bytes)
        let written := dir.writeImmediateRollbackState currentFp
        match b.lkgBuild with
        | .ok _ =>
          let pending := pendingMessageForRollback e.text
          written.lockAndStart b plan dir.lkgPath true (some pending)
            (some ⟨currentFp.label, lkgFp.label, pending, some recoveryCommandSuggestion⟩)
        | .error e2 => (written, .buildFailed e2.chain)
      else (dir, .buildFailed e.chain)

end StateDir

/-- What a boot answers. -/
structure BootRecord where
  action : Action
  chosenConfig : Option String
  outcome : Option BootOutcome
  deriving DecidableEq, Repr

/-- The boot after `prepare`. A process that panics boots nothing. -/
def StateDir.booted (dir : StateDir) (b : Boot) : StateDir × Option BootOutcome :=
  match dir.prepare hasher b with
  | none => (dir.prepared hasher b, none)
  | some plan =>
    let result := (dir.prepared hasher b).boot hasher b plan
    (result.1, some result.2)

def StateDir.record (dir : StateDir) (b : Boot) : BootRecord where
  action := (dir.verdict hasher b).action
  chosenConfig := (dir.prepare hasher b).map BootPlan.chosenConfig
  outcome := (dir.booted hasher b).2

/-- A history of boots of one directory. -/
def bootings : Runs.System StateDir Boot BootRecord where
  next dir b := ((dir.booted hasher b).1, [dir.record hasher b])

/-- A history of `prepare` calls. -/
def preparations : Runs.System StateDir Boot (Action × Option BootPlan) where
  next dir b := (dir.prepared hasher b, [((dir.verdict hasher b).action, dir.prepare hasher b)])

end

end Dormant
