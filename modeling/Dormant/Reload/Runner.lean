import Mathlib.Data.Finset.Basic
import Dormant.Foundations.Runs
import Dormant.Reload.Config

/-!
# The runner and its reloads

`Runner` of `app.rs`: a batch of reloads (`execute_reload_batch` from its load on, and `reload`) and
a tick of the watchdog. What the files hold, what engines, panels and spawns answer and the time
come with each of them. An engine reads its inputs until it is torn down, and what waits in the
queues of the routers is left out.
-/

namespace Dormant.Reload
set_option autoImplicit false

/-! ## Snapshots -/

/-- What `phase_name` gives. -/
inductive PhaseName where
  | active
  | grace
  | blanking
  | blanked
  | waking
  | renderPending
  | staged
  deriving DecidableEq, Repr

structure DisplaySnapshot where
  phase : PhaseName
  cmdGen : UInt64
  deriving DecidableEq, Repr

structure StateSnapshot where
  displays : List (DisplayId × DisplaySnapshot)
  deriving DecidableEq, Repr

def phaseIsDark (phase : PhaseName) : Bool :=
  decide (phase = .blanked) || decide (phase = .blanking) || decide (phase = .waking)

namespace StateSnapshot
variable (snapshot : StateSnapshot)

def phaseOf (id : DisplayId) : Option PhaseName :=
  (snapshot.displays.find? fun d => decide (d.1 = id)).map (·.2.phase)

def matching (p : DisplayId → PhaseName → Bool) : List DisplayId :=
  (snapshot.displays.filter fun d => p d.1 d.2.phase).map Prod.fst

/-- The displays without a rule that are caught in a blank. -/
def needQuiesce (ruled : List DisplayId) : List DisplayId :=
  snapshot.matching fun id phase => decide (phase = .blanking) && !ruled.contains id

def allTerminal (need : List DisplayId) : Bool :=
  need.all fun id =>
    match snapshot.phaseOf id with
    | none => true
    | some phase => decide (phase = .blanked) || decide (phase = .active)

/-- The polls are those until the deadline. -/
def quiesce (need : List DisplayId) : StateSnapshot → List (Option StateSnapshot) → StateSnapshot
  | snapshot, [] => snapshot
  | snapshot, poll :: polls =>
    if snapshot.allTerminal need then snapshot
    else quiesce need (poll.getD snapshot) polls

end StateSnapshot

/-- The snapshot that the lists of a reload are made from. -/
def settledSnapshot (ruled : List DisplayId) (preliminary : Option StateSnapshot)
    (polls : List (Option StateSnapshot)) : Option StateSnapshot :=
  preliminary.map fun snapshot =>
    let need := snapshot.needQuiesce ruled
    if need.isEmpty then snapshot else StateSnapshot.quiesce need snapshot polls

def matchingOf (snapshot : Option StateSnapshot) (p : DisplayId → PhaseName → Bool) :
    List DisplayId :=
  match snapshot with
  | none => []
  | some snapshot => snapshot.matching p

def removedDarkDisplays (snapshot : Option StateSnapshot) (newExecutors : List DisplayId) :
    List DisplayId :=
  matchingOf snapshot fun id phase => !newExecutors.contains id && phaseIsDark phase

def retainedDarkDisplays (snapshot : Option StateSnapshot) (newExecutors ruled : List DisplayId) :
    List DisplayId :=
  matchingOf snapshot fun id phase =>
    newExecutors.contains id && phaseIsDark phase && ruled.contains id

def changedDispatchDarkDisplays (snapshot : Option StateSnapshot) (oldCfg newCfg : Config)
    (ruled : List DisplayId) : List DisplayId :=
  matchingOf snapshot fun id phase =>
    phaseIsDark phase && !ruled.contains id &&
      match oldCfg.display id, newCfg.display id with
      | some o, some n => !dispatchRelevantEq o n
      | _, _ => false

/-- The displays without a rule that are still in a blank. -/
def stuckDisplays (snapshot : Option StateSnapshot) (ruled : List DisplayId) : List DisplayId :=
  matchingOf snapshot fun id phase => decide (phase = .blanking) && !ruled.contains id

/-! ## The runner -/

/-- The task of an engine. No two have one serial number. -/
structure Engine where
  serial : ℕ
  generation : GenerationId
  deriving DecidableEq, Repr

/-- The executors of an assembly. -/
structure Executors where
  serial : ℕ
  ids : List DisplayId
  deriving DecidableEq, Repr

structure Generation where
  cfg : Config
  creds : Credentials
  executors : Executors
  engine : Option Engine
  deriving DecidableEq, Repr

/-- A router without its queue. The router of events has no generation id. -/
structure Route where
  paused : Bool
  target : Option Engine
  generationId : Option GenerationId
  deriving DecidableEq, Repr

def Route.pause (route : Route) : Route := { route with paused := true, target := none }

structure LkgCandidate where
  bytes : Bytes
  since : ℕ
  source : String
  deriving DecidableEq, Repr

/-- The record of a shared display is its key, and the slot of activity-follow the displays that
its task pulls. -/
structure Runner where
  generation : Generation
  appliedRevision : RuntimeRevision
  generationId : GenerationId
  ctlRoute : Route
  eventsRoute : Route
  executorsTx : Option Executors
  quiescing : Finset GenerationId
  generationBarrierAckTimeout : ℕ
  activityFollow : Option (List DisplayId)
  coordination : Option (Finset DisplayId)
  configTx : Config
  credsTx : Credentials
  rollbackActive : Bool
  rollbackStateClearPending : Bool
  lkgCandidate : Option LkgCandidate
  lkgDeferCount : UInt32
  cancelled : Bool
  nextSerial : ℕ
  deriving DecidableEq

inductive ReloadOutcome where
  | reloaded
  | rejected (detail : String)
  deriving DecidableEq, Repr

/-- A verified wake is through the executors of the old assembly, a defensive one through those of
the new. -/
inductive RunnerAction where
  | setPendingReload (detail : Option String)
  | wake (display : DisplayId) (error : Option String)
  | defensiveWake (display : DisplayId)
  | spawn (generation : Generation) (restore : Option StateSnapshot) (pending : Option String)
  | wroteLkg (bytes : Bytes)
  deriving DecidableEq, Repr

inductive BarrierFailure where
  | closedBefore
  | exitedBefore
  | timeout
  deriving DecidableEq, Repr

def BarrierFailure.detail : BarrierFailure → String
  | .closedBefore => "old engine closed before accepting its generation barrier"
  | .exitedBefore => "old engine exited before acknowledging its generation barrier"
  | .timeout => "old engine did not acknowledge its generation barrier before timeout"

/-- What a batch finds, from its load on. -/
structure Attempt where
  config : ConfigRead
  creds : CredsRead
  assembleError : Option String
  preliminary : Option StateSnapshot
  polls : List (Option StateSnapshot)
  operationsQuiesce : Bool
  barrier : Option BarrierFailure
  wakeError : DisplayId → Option String
  spawnError : Option String
  rebuildSpawns : Bool
  clearWritten : Bool
  armRead : Option Bytes
  now : ℕ

structure Turn where
  runner : Runner
  outcome : ReloadOutcome
  coalesced : Bool
  actions : List RunnerAction
  deriving DecidableEq

def newLkgCandidate (read : Option Bytes) (lkgEnabled : Bool) (source : String) (now : ℕ) :
    Option LkgCandidate :=
  if lkgEnabled then read.map fun bytes => { bytes := bytes, since := now, source := source }
  else none

/-- `saturating_add(1)`. -/
def nextGeneration (id : GenerationId) : GenerationId :=
  ⟨if id.val = UInt64.ofNat (UInt64.size - 1) then id.val else id.val + 1⟩

namespace Runner
variable (r : Runner)

def reapActivityFollow : Runner := { r with activityFollow := none }

def spawnActivityFollow : Runner :=
  if r.generation.cfg.activityFollow && !r.generation.cfg.followed.isEmpty then
    { r with activityFollow := some r.generation.cfg.followed }
  else r

/-- `install_generation`, with the engine that was spawned. -/
def installGeneration (generation : Generation) : Runner :=
  { r with
    executorsTx := some generation.executors
    generationBarrierAckTimeout := generation.cfg.generationBarrierAckTimeout
    generation := generation
    ctlRoute := ⟨false, generation.engine, some r.generationId⟩
    eventsRoute := ⟨false, generation.engine, none⟩ }

/-- The runner up to the wait for the barrier. -/
def quiesced (cfg : Config) : Runner :=
  { r with
    generationBarrierAckTimeout := cfg.generationBarrierAckTimeout
    executorsTx := none
    ctlRoute := r.ctlRoute.pause
    eventsRoute := r.eventsRoute.pause
    quiescing := insert r.generationId r.quiescing }

def reconcileShared (cfg : Config) : Runner :=
  { r with coordination := r.coordination.map fun _ => cfg.sharedDisplays.toFinset }

/-- An operation did not end. `oldCtl` is the engine of before. -/
def restoreBusy (oldCtl : Option Engine) : Runner :=
  { r with
    executorsTx := some r.generation.executors
    ctlRoute := ⟨false, oldCtl, some r.generationId⟩
    eventsRoute := if r.generation.engine.isSome then ⟨false, r.generation.engine, none⟩
      else r.eventsRoute
    quiescing := r.quiescing.erase r.generationId }

def teardown : Runner := { r with generation := { r.generation with engine := none } }

/-- `rebuild_old`. A rebuild that fails shuts the daemon down. -/
def rebuildOld (pending : String) (snapshot : Option StateSnapshot) (spawns : Bool) :
    Runner × List RunnerAction :=
  if spawns then
    let generation := { r.generation with engine := some ⟨r.nextSerial, r.generationId⟩ }
    ({ r.installGeneration generation with nextSerial := r.nextSerial + 1 },
      [.spawn generation snapshot (some pending)])
  else ({ r with cancelled := true }, [])

/-- The verified wakes, up to one that fails. -/
def verifiedWakes (wakeError : DisplayId → Option String) :
    List DisplayId → List RunnerAction × Option (DisplayId × String)
  | [] => ([], none)
  | id :: ids =>
    match wakeError id with
    | some error => ([.wake id (some error)], some (id, error))
    | none =>
      let rest := verifiedWakes wakeError ids
      (.wake id none :: rest.1, rest.2)

def clearRollback (written : Bool) : Runner :=
  if r.rollbackActive then
    { r with rollbackStateClearPending := !written, rollbackActive := false }
  else r

/-- The accepted arm of `reload`, with the generation that was spawned. -/
def accept (generation : Generation) (requested : RuntimeRevision) (a : Attempt) : Runner :=
  let next := nextGeneration r.generationId
  let installed := { r.reapActivityFollow.installGeneration generation with
    appliedRevision := requested
    generationId := next
    nextSerial := r.nextSerial + 2 }
  let followed := installed.spawnActivityFollow.clearRollback a.clearWritten
  { followed with
    configTx := generation.cfg
    credsTx := generation.creds
    lkgDeferCount := 0
    lkgCandidate := newLkgCandidate a.armRead generation.cfg.lkgEnabled "reload" a.now }

/-- A rejection that leaves the running generation alone. -/
def reject (detail : String) (actions : List RunnerAction) : Turn :=
  { runner := r, outcome := .rejected detail, coalesced := false, actions := actions }

/-- From the spawn of the next generation on. -/
def swap (assembly : Generation) (requested : RuntimeRevision) (snapshot : Option StateSnapshot)
    (woken : List RunnerAction) (a : Attempt) : Turn :=
  match a.spawnError with
  | some error =>
    let detail := "rebuild from new config failed: " ++ error
    let rebuilt := r.rebuildOld detail snapshot a.rebuildSpawns
    rebuilt.1.reject detail (woken ++ rebuilt.2)
  | none =>
    let generation :=
      { assembly with engine := some ⟨r.nextSerial + 1, nextGeneration r.generationId⟩ }
    let ruled := generation.cfg.ruled
    let wakes := retainedDarkDisplays snapshot generation.executors.ids ruled ++
      stuckDisplays snapshot ruled
    { runner := r.accept generation requested a
      outcome := .reloaded
      coalesced := false
      actions := woken ++ [.spawn generation snapshot none] ++
        (if r.rollbackActive then [.setPendingReload none] else []) ++
        (wakes.filter generation.executors.ids.contains).map .defensiveWake }

/-- From the teardown of the old engine on. -/
def replace (oldCfg : Config) (assembly : Generation) (requested : RuntimeRevision)
    (snapshot : Option StateSnapshot) (a : Attempt) : Turn :=
  let ruled := assembly.cfg.ruled
  let dark := removedDarkDisplays snapshot assembly.executors.ids ++
    changedDispatchDarkDisplays snapshot oldCfg assembly.cfg ruled
  let woken := verifiedWakes a.wakeError (dark.filter r.generation.executors.ids.contains)
  match woken.2 with
  | some (id, error) =>
    let detail := "removed display '" ++ id.id ++ "' failed verified wake: " ++ error
    let rebuilt := r.teardown.rebuildOld detail snapshot a.rebuildSpawns
    rebuilt.1.reject detail (woken.1 ++ rebuilt.2)
  | none => r.teardown.swap assembly requested snapshot woken.1 a

/-- `reload`, with the configuration and the credentials that were loaded. -/
def reloadInto (cfg : Config) (creds : Credentials) (requested : RuntimeRevision) (a : Attempt) :
    Turn :=
  if r.coordination.isNone && !cfg.sharedDisplays.isEmpty then
    let detail := "E_CONFIG_INVALID: adding the first shared display requires daemon restart"
    r.reject detail [.setPendingReload (some detail)]
  else
    let snapshot := settledSnapshot cfg.ruled a.preliminary a.polls
    let quiesced := (r.reconcileShared cfg).quiesced cfg
    if !a.operationsQuiesce then
      (quiesced.restoreBusy r.ctlRoute.target).reject
        "E_OPERATION_BUSY: active hardware operation did not quiesce" []
    else
      match a.barrier with
      | some failure => { quiesced with cancelled := true }.reject failure.detail []
      | none =>
        let assembly : Generation := ⟨cfg, creds, ⟨r.nextSerial, cfg.ids⟩, none⟩
        quiesced.replace r.generation.cfg assembly requested snapshot a

/-- `reload`, with what the load and the assembly gave. -/
def reload (loaded : Except String (Config × Credentials)) (requested : RuntimeRevision)
    (a : Attempt) : Turn :=
  match loaded with
  | .error detail => r.reject detail [.setPendingReload (some detail)]
  | .ok (cfg, creds) =>
    match a.assembleError with
    | some detail => r.reject detail [.setPendingReload (some detail)]
    | none => r.reloadInto cfg creds requested a

/-- `execute_reload_batch`, but for its debounce and its waiters. -/
def executeReloadBatch (loader : Loader) (a : Attempt) : Turn :=
  let reaped := r.reapActivityFollow
  let loaded := loader.loadRuntime a.config a.creds
  if loaded.1 = reaped.appliedRevision then
    { runner := reaped, outcome := .reloaded, coalesced := true, actions := [] }
  else reaped.reload loaded.2 loaded.1 a

/-! ## The watchdog -/

end Runner

inductive PromoteVerdict where
  | wait
  | deferHealth
  | skipDirty
  | promote
  | promoteDespiteHealth
  deriving DecidableEq, Repr

def lkgHealthDeferCap : UInt32 := 3

/-- Of each display in the snapshot of a probe, whether each of its controllers is healthy. -/
abbrev ProbeSnapshot := List (List Bool)

def anyAllUnhealthy (snapshot : ProbeSnapshot) : Bool :=
  snapshot.any fun controllers => !controllers.isEmpty && controllers.all (!·)

def shouldPromote (since now window : ℕ) (snapshot : ProbeSnapshot) (deferCount : UInt32)
    (onDiskMatches : Bool) : PromoteVerdict :=
  if now - since < window then .wait
  else if anyAllUnhealthy snapshot && decide (deferCount < lkgHealthDeferCap) then .deferHealth
  else if !onDiskMatches then .skipDirty
  else if anyAllUnhealthy snapshot then .promoteDespiteHealth
  else .promote

/-- What a tick of the watchdog finds. A write is of the file and of the metadata. -/
structure WatchdogTick where
  now : ℕ
  probe : Option ProbeSnapshot
  freshBytes : Option Bytes
  fileWritten : Bool
  metaWritten : Bool
  clearWritten : Bool

namespace Runner
variable (r : Runner) (t : WatchdogTick)

def retryRollbackStateClear : Runner :=
  if r.rollbackStateClearPending && t.clearWritten then
    { r with rollbackStateClearPending := false }
  else r

def lkgTickAt (snapshot : ProbeSnapshot) : Runner × List RunnerAction :=
  match r.lkgCandidate with
  | none => (r, [])
  | some candidate =>
    match shouldPromote candidate.since t.now r.generation.cfg.stabilityWindow snapshot
        r.lkgDeferCount (decide (t.freshBytes = some candidate.bytes)) with
    | .wait | .skipDirty => (r, [])
    | .deferHealth => ({ r with lkgDeferCount := r.lkgDeferCount + 1 }, [])
    | .promote | .promoteDespiteHealth =>
      match t.freshBytes with
      | none => (r, [])
      | some bytes =>
        (if t.fileWritten && t.metaWritten then { r with lkgDeferCount := 0, lkgCandidate := none }
          else r,
          if t.fileWritten then [.wroteLkg bytes] else [])

def resetCandidateOnProbeFailure : Runner :=
  { r with lkgCandidate := r.lkgCandidate.map fun c => { c with since := t.now } }

def watchdogTickAt : Runner × List RunnerAction :=
  let r := r.retryRollbackStateClear t
  if r.ctlRoute.target.isNone then (r, [])
  else
    match t.probe with
    | some snapshot => r.lkgTickAt t snapshot
    | none => (r.resetCandidateOnProbeFailure t, [])

end Runner

/-! ## The daemon -/

/-- What a boot reads, each at its own time: the config as it is validated, as it is loaded, for its
revision and for the candidate. Of the credentials it is what the load and the revision find. -/
structure BootReads where
  validated : Bytes
  config : Bytes
  creds : Option Bytes
  revisionConfig : Bytes
  revisionCreds : Option Bytes
  armRead : Option Bytes
  rollback : Bool
  now : ℕ

def Loader.bootCreds (loader : Loader) (creds : Option Bytes) : Except String Credentials :=
  match creds with
  | none => .ok .default
  | some bytes => loader.loadCredentials bytes

/-- The runner that `start` makes, of a generation that is assembled and spawned. -/
def firstRunner (loader : Loader) (b : BootReads) (cfg : Config) (creds : Credentials) : Runner :=
  let engine : Engine := ⟨1, ⟨0⟩⟩
  let runner : Runner := {
    generation := ⟨cfg, creds, ⟨0, cfg.ids⟩, some engine⟩
    appliedRevision := loader.runtimeRevision b.revisionConfig b.revisionCreds
    generationId := ⟨0⟩
    ctlRoute := ⟨false, some engine, some ⟨0⟩⟩
    eventsRoute := ⟨false, some engine, none⟩
    executorsTx := some ⟨0, cfg.ids⟩
    quiescing := ∅
    generationBarrierAckTimeout := cfg.generationBarrierAckTimeout
    activityFollow := none
    coordination :=
      if cfg.sharedDisplays.isEmpty then none else some cfg.sharedDisplays.toFinset
    configTx := cfg
    credsTx := creds
    rollbackActive := b.rollback
    rollbackStateClearPending := false
    lkgCandidate :=
      if b.rollback then none else newLkgCandidate b.armRead cfg.lkgEnabled "boot" b.now
    lkgDeferCount := 0
    cancelled := false
    nextSerial := 2 }
  runner.spawnActivityFollow

/-- A boot that fails is `none`. -/
def bootRunner (loader : Loader) (b : BootReads) : Option Runner :=
  match loader.loadConfig b.config, loader.bootCreds b.creds with
  | .ok cfg, .ok creds => some (firstRunner loader b cfg creds)
  | _, _ => none

inductive RunnerInput where
  | batch (a : Attempt)
  | tick (t : WatchdogTick)

/-- The loop of the runner, until the root is cancelled. -/
def runLoop (loader : Loader) : Runs.System Runner RunnerInput RunnerAction where
  next r input :=
    if r.cancelled then (r, [])
    else
      match input with
      | .batch a =>
        let turn := r.executeReloadBatch loader a
        (turn.runner, turn.actions)
      | .tick t => r.watchdogTickAt t

end Dormant.Reload
