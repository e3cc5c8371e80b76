import Dormant.Rules.Types
import Dormant.Foundations.Runs
import Mathlib.Algebra.Group.Nat.Defs

/-!
# The rules engine

The handlers of `RulesEngine` in `rules.rs`, from the construction and the effect dispatch up
to the arms of the run loop. `fire_due_timers` pops one timer after another, so each pop is an
event of its own; the inputs that a generation barrier drains are events as any other.
-/

namespace Dormant
set_option autoImplicit false

/-- Map a wall-clock timestamp to a tick; one in the past is due now. -/
def mapTimestampToTick (env : Env) (stamp : ℕ) : ℕ := env.now + (stamp - env.wall)

def minRule : List RuleId → Option RuleId
  | [] => none
  | r :: rules =>
    match minRule rules with
    | none => some r
    | some least => if least.id < r.id then some least else some r

namespace RulesEngine

/-! ## Construction -/

def checkRuleDisplay (setup : Setup) (rule : RuleRuntimeCfg) (display : DisplayId) :
    Except String Unit :=
  if display ∉ setup.cfg.displays.map (·.display) then
    .error ("rule '" ++ rule.rule.id ++ "' references display '" ++ display.id ++
      "' with no DisplayRuntimeCfg")
  else if display ∉ setup.executors then
    .error ("rule '" ++ rule.rule.id ++ "' references display '" ++ display.id ++
      "' with no CommandSink")
  else .ok ()

/-- The machine of a display, told what the ownership gate says. A later entry for the same
display replaces an earlier one. -/
def newMachine (cfg : RulesEngineConfig) (owns : DisplayId → Bool) (now : ℕ)
    (display : DisplayId) : Option DisplayStateMachine :=
  (cfg.displays.reverse.find? (·.display == display)).map fun dcfg =>
    ((DisplayStateMachine.new dcfg.timings dcfg.ladder now).step
      (.ownershipChanged (owns display)) now).1

def new (setup : Setup) (owns : DisplayId → Bool) (now : ℕ) : Except String RulesEngine :=
  match setup.cfg.rules.forM fun rule => rule.displays.forM (checkRuleDisplay setup rule) with
  | .error detail => .error detail
  | .ok _ => .ok {
      cfg := setup.cfg
      zoneEngine := setup.zoneEngine
      machines := newMachine setup.cfg owns now
      executors := setup.executors
      renderSinks := setup.renderSinks
      lastOwned := fun display =>
        if display ∈ setup.cfg.displays.map (·.display) then some (owns display) else none
      ruleDisplays := fun r =>
        (setup.cfg.rules.reverse.find? (·.rule == r)).map (·.displays)
      ruleOrder := setup.ruleOrder
      zoneRules := fun zone => (setup.cfg.rules.filter (·.zone == zone)).map (·.rule)
      pausedScopes := fun _ => none
      inhibitorState := fun _ => InhibitorSet.default
      holds := fun sensor =>
        if setup.cfg.sensors.any fun scfg => scfg.sensor == sensor && scfg.holdTime.isSome then
          some { armedUntil := none, pendingAbsent := none }
        else none
      wakeAttempts := fun _ => none
      lastBlankFailed := fun _ => false
      sensorLastSeenVirtual := fun _ => none
      availabilityOnline := fun _ => none
      timers := []
      generation := setup.generation
      claimSuppression := fun _ => none
      inputWakeHolds := fun _ => none
      outbox := [] }

variable (env : Env) (e : RulesEngine)

/-! ## Effects -/

def send (o : Output) : RulesEngine := { e with outbox := e.outbox ++ [o] }

def pushTimer (tick : ℕ) (entry : TimerEntry) : RulesEngine :=
  { e with timers := (tick, entry) :: e.timers }

def setMachine (display : DisplayId) (machine : DisplayStateMachine) : RulesEngine :=
  { e with machines := Function.update e.machines display (some machine) }

def displaysOf (r : RuleId) : List DisplayId := (e.ruleDisplays r).getD []

def rulesOf (display : DisplayId) : List RuleId :=
  e.ruleOrder.filter fun r => display ∈ e.displaysOf r

def displayConfirmedPresence (display : DisplayId) : Option Bool :=
  let driving := e.cfg.rules.filter fun rule => display ∈ rule.displays
  if driving.isEmpty then none
  else some (driving.any fun rule => e.zoneEngine.hasConfirmedPresence rule.zone)

def emitPhaseTransition (display : DisplayId) (oldPhase newPhase : Phase) : RulesEngine :=
  match e.generation with
  | none => e
  | some generation =>
    e.send (.phaseChanged generation (minRule (e.rulesOf display)) display oldPhase newPhase)

def emitPauseChanged (display : DisplayId) (paused : Bool) (rule : Option RuleId) : RulesEngine :=
  e.send (.event (.pauseChanged display paused rule))

def processEffect (display : DisplayId) : Effect → RulesEngine
  | .issueBlank gen mode =>
    if display ∈ e.executors then e.send (.blank display gen mode) else e
  | .issueWake gen => if display ∈ e.executors then e.send (.wake display gen) else e
  | .scheduleTickAt tick => e.pushTimer tick (.displayTick display)
  | .scheduleStageTickAt gen tick => e.pushTimer tick (.displayStageTick display gen)
  | .showRender gen idx kind =>
    if display ∈ e.renderSinks then e.send (.showRender display gen idx kind)
    else e.send (.renderUnavailable display gen
      { controller := "render-none", error := "E_RENDER_UNAVAILABLE: no render backend" })
  | .teardownRender gen =>
    if display ∈ e.renderSinks then e.send (.teardownRender display gen) else e
  | .logTransition _ dest cause =>
    let confirmed :=
      if cause = "presence_detected" then some ((e.displayConfirmedPresence display).getD false)
      else none
    e.send (.event (.displayPhase display dest cause confirmed))

/-- Report a change of the pause, and forget its scope when it ended. -/
def notePause (display : DisplayId) (wasPaused isPaused : Bool) : RulesEngine :=
  if wasPaused = isPaused then e
  else
    let e := e.emitPauseChanged display isPaused (e.pausedScopes display).join
    if isPaused then e
    else { e with pausedScopes := Function.update e.pausedScopes display none }

def noteTransition (display : DisplayId) (oldPhase newPhase : Phase) : RulesEngine :=
  if oldPhase = newPhase then e else e.emitPhaseTransition display oldPhase newPhase

def stepMachine (display : DisplayId) (input : Input) (now : ℕ) : RulesEngine :=
  match e.machines display with
  | none => e
  | some machine =>
    let stepped := machine.step input now
    let e := (e.setMachine display stepped.1).noteTransition display machine.phase stepped.1.phase
    let e := e.notePause display machine.overlays.paused.isSome stepped.1.overlays.paused.isSome
    stepped.2.foldl (fun e effect => e.processEffect display effect) e

/-- A claim in flight suppresses the reaction to a loss of ownership. -/
def claimSuppressed (display : DisplayId) (now : ℕ) : Bool :=
  match e.claimSuppression display with
  | some deadline => decide (now < deadline)
  | none => false

def feedOwnership (display : DisplayId) (now : ℕ) : RulesEngine :=
  let owns := env.owns display
  if e.lastOwned display = some owns then e
  else if !owns && e.claimSuppressed display now then
    { e with lastOwned := Function.update e.lastOwned display (some true) }
  else
    let e := { e with lastOwned := Function.update e.lastOwned display (some owns) }
    e.stepMachine display (.ownershipChanged owns) now

def stepOne (display : DisplayId) (input : Input) : RulesEngine :=
  (e.feedOwnership env display env.now).stepMachine display input env.now

/-! ## Presence -/

def effectiveZonePresence (display : DisplayId) : Bool :=
  (e.cfg.rules.filter fun rule => display ∈ rule.displays).any fun rule =>
    (e.zoneEngine.isPresent rule.zone).getD true

/-- The shortest hold of the driving rules, when every driving zone is vacant. -/
def shortestHold (display : DisplayId) : List RuleRuntimeCfg → Option ℕ → Option ℕ
  | [], effective => effective
  | rule :: rules, effective =>
    if display ∈ rule.displays then
      if (e.zoneEngine.isPresent rule.zone).getD true then none
      else
        shortestHold display rules
          (some ((effective.map (min · rule.inputWakeHold)).getD rule.inputWakeHold))
    else shortestHold display rules effective

def effectiveInputWakeHold (display : DisplayId) : Option ℕ :=
  e.shortestHold display e.cfg.rules none

def setHoldFlag (display : DisplayId) (active : Bool) : RulesEngine :=
  match e.machines display with
  | none => e
  | some machine => e.setMachine display (machine.setInputWakeHoldActive active)

def clearInputWakeHold (display : DisplayId) : RulesEngine :=
  { e with inputWakeHolds := Function.update e.inputWakeHolds display none }.setHoldFlag
    display false

def fanToDisplay (display : DisplayId) : RulesEngine :=
  let present := e.effectiveZonePresence display
  let e := if present then e.clearInputWakeHold display else e
  (e.feedOwnership env display env.now).stepMachine display (.zonePresent present) env.now

def fanZoneChangeToDisplays (zone : ZoneId) : RulesEngine :=
  (e.zoneRules zone).foldl
    (fun e r => (e.displaysOf r).foldl (fun e display => e.fanToDisplay env display) e) e

/-- The hold filter: the event that goes on, or nothing when the hold swallows it. -/
def applyHoldFilter (ev : PresenceEvent) : RulesEngine × Option PresenceEvent :=
  match e.holds ev.sensorId with
  | none => (e, some ev)
  | some hold =>
    match ev.state with
    | .present =>
      match (e.cfg.sensors.find? (·.sensor == ev.sensorId)).bind (·.holdTime) with
      | none => (e, none)
      | some holdTime =>
        let deadline := env.now + holdTime
        let hold : HoldState := { armedUntil := some deadline, pendingAbsent := none }
        ({ e with holds := Function.update e.holds ev.sensorId (some hold) }.pushTimer deadline
          (.holdExpiry ev.sensorId), some ev)
    | .absent =>
      if hold.armedUntil.isSome then
        let hold : HoldState := { hold with pendingAbsent := some ev }
        ({ e with holds := Function.update e.holds ev.sensorId (some hold) }, none)
      else (e, some ev)
    | .unavailable =>
      -- the deadline stays, the deferred absence does not
      let hold : HoldState := { hold with pendingAbsent := none }
      ({ e with holds := Function.update e.holds ev.sensorId (some hold) }, some ev)

def applyPresence (ev : PresenceEvent) : RulesEngine :=
  let prior := (e.zoneEngine.sensorStates ev.sensorId).map Prod.fst
  let e := { e with
    sensorLastSeenVirtual := Function.update e.sensorLastSeenVirtual ev.sensorId (some env.now) }
  let e := if prior = some ev.state then e
    else e.send (.event (.sensorChanged ev.sensorId ev.state))
  let applied := e.zoneEngine.apply ev
  applied.2.foldl
    (fun e change => (e.send (.event (.zoneChanged change.zone change.present change.cause)))
      |>.fanZoneChangeToDisplays env change.zone)
    { e with zoneEngine := applied.1 }

def handlePresenceEvent (ev : PresenceEvent) : RulesEngine :=
  let e := if ev.state = .unavailable then
      { e with availabilityOnline := Function.update e.availabilityOnline ev.sensorId none }
    else e
  let filtered := e.applyHoldFilter env ev
  match filtered.2 with
  | none => filtered.1
  | some effective => filtered.1.applyPresence env effective

def handleSensorAvailability (ev : SensorAvailabilityEvent) : RulesEngine :=
  if ev.online then
    { e with availabilityOnline := Function.update e.availabilityOnline ev.sensor (some env.now) }
  else
    { e with availabilityOnline := Function.update e.availabilityOnline ev.sensor none }
      |>.handlePresenceEvent env
        { sensorId := ev.sensor, state := .unavailable, stamp := ev.stamp }

/-! ## Inhibitors and pauses -/

def setInhibitors (r : RuleId) (set : InhibitorSet) : RulesEngine :=
  { e with inhibitorState := Function.update e.inhibitorState r set }

def fanInhibitor (r : RuleId) (inhibited : Bool) : RulesEngine :=
  (e.displaysOf r).foldl (fun e display => e.stepOne env display (.inhibitorChanged inhibited)) e

def applyInhibitor (r : RuleId) (kind : InhibitorKind) (inhibited : Bool) : RulesEngine :=
  let set := e.inhibitorState r
  let kinds := Function.update set.kinds kind inhibited
  let newEffective := anyEngaged kinds
  let e := e.setInhibitors r { kinds := kinds, effective := newEffective }
  if newEffective = set.effective then e else e.fanInhibitor env r newEffective

def handleSetInhibited (rule : Option RuleId) (kind : InhibitorKind) (inhibited : Bool) :
    RulesEngine :=
  match rule with
  | some r => e.applyInhibitor env r kind inhibited
  | none => e.ruleOrder.foldl (fun e r => e.applyInhibitor env r kind inhibited) e

def targets : Option RuleId → List DisplayId
  | some r => e.displaysOf r
  | none => e.cfg.displays.map (·.display)

def pauseDisplay (rule : Option RuleId) (untilTick : Option ℕ) (display : DisplayId) :
    RulesEngine :=
  let e := if (e.machines display).isSome then
      { e with pausedScopes := Function.update e.pausedScopes display (some rule) }
    else e
  e.stepOne env display (.pause untilTick)

def handlePause (rule : Option RuleId) (untilStamp : Option ℕ) : RulesEngine :=
  let untilTick := untilStamp.map (mapTimestampToTick env)
  (e.targets rule).foldl (fun e display => e.pauseDisplay env rule untilTick display) e

def handleResume (rule : Option RuleId) : RulesEngine :=
  (e.targets rule).foldl (fun e display => e.stepOne env display .resume) e

/-! ## Operations -/

def handleEmergencyWake : RulesEngine :=
  e.executors.foldl (fun e display => e.send (.wakeOnce display)) (e.handlePause env none none)

def failedReport (display : DisplayId) (prePhase : String) (operationId : Option UInt64)
    (generation : Option GenerationId) (command error : String) : ExerciseReport where
  display := display
  prePhase := prePhase
  operationId := operationId
  generation := generation
  pausedRules := []
  steps := [{ command := command, blankMode := none, returnedOk := false,
              verdict := .failed, error := some error }]

/-- The operation an exercise runs under: the accepted one, or one acquired for it. -/
def acquireExercise (target : DisplayId) (accepted : Option AcceptedOperation) :
    Option AcceptedOperation :=
  let generation := (accepted.map (·.generation)).getD (e.generation.getD ⟨0⟩)
  let current := e.generation.getD generation
  (accepted.filter env.leaseAccepted).or (env.tryAcquire current (.exercise target))

def prePhase (target : DisplayId) : String :=
  ((e.machines target).map (·.phaseName)).getD "unknown"

def exerciseTask (target : DisplayId) (rules : List RuleId) (operation : AcceptedOperation) :
    ExerciseTask where
  display := target
  effectiveMode := (e.cfg.displays.find? (·.display == target)).map (·.blankMode)
  prePhase := e.prePhase target
  rulesToResume := rules
  operationId := operation.id
  generation := operation.generation
  wakeSettle := e.cfg.doctorWakeSettle

def handleExercise (target : DisplayId) (accepted : Option AcceptedOperation) : RulesEngine :=
  match e.acquireExercise env target accepted with
  | none =>
    e.send (.exerciseReply (failedReport target "rejected" (accepted.map (·.id))
      (accepted.map (·.generation)) "reject"
      "E_OPERATION_IN_PROGRESS: display exercise already active"))
  | some operation =>
    let rules := e.rulesOf target
    let e := rules.foldl (fun e r => e.handlePause env (some r) none) e
    if target ∈ e.executors then
      e.send (.exercise (e.exerciseTask target rules operation))
    else
      (rules.foldl (fun e r => e.handleResume env (some r)) e).send
        (.exerciseReply (failedReport target (e.prePhase target) (some operation.id)
          (some operation.generation) "no_executor" "E_DISPLAY_IO: no executor registered"))

/-! ## The arms of the run loop -/

def handleInputWake (display : DisplayId) : RulesEngine :=
  let e := match e.effectiveInputWakeHold display with
    | some hold =>
      if 0 < hold then
        let deadline := env.now + hold
        { e with inputWakeHolds := Function.update e.inputWakeHolds display (some deadline) }
          |>.pushTimer deadline (.inputWakeHoldExpiry display)
          |>.setHoldFlag display true
      else e
    | none => e
  e.stepOne env display .inputWake

def handleControl : ControlMsg → RulesEngine
  | .pause rule untilStamp => e.handlePause env rule untilStamp
  | .resume rule => e.handleResume env rule
  | .forceBlank display => e.stepOne env display .forceBlank
  | .forceWake display => e.stepOne env display .forceWake
  | .softBlank display => e.stepOne env display .softBlank
  | .setInhibited rule kind inhibited => e.handleSetInhibited env rule kind inhibited
  | .setClaimSuppression display deadline =>
    { e with claimSuppression := Function.update e.claimSuppression display deadline }
  | .inputWake display => e.handleInputWake env display
  | .ownershipPoll display => e.feedOwnership env display env.now
  | .publishDaemonEvent event => e.send (.event event)
  | .emergencyWake => e.handleEmergencyWake env
  | .emergencyWakeAccepted _ => e.handleEmergencyWake env
  | .exercise display => e.handleExercise env display none
  | .exerciseAccepted operation =>
    match operation.kind with
    | .exercise display => e.handleExercise env display (some operation)
    | .emergencyWake =>
      e.send (.exerciseReply { display := ⟨"unknown"⟩, prePhase := "unknown", operationId := none,
                               generation := none, pausedRules := [], steps := [] })
  | .sensorAvailability event => e.handleSensorAvailability env event
  | .queryPresenceConfirmed display => e.send (.presenceReply (e.displayConfirmedPresence display))
  | .passive => e

def handleInternalResult : InternalResult → RulesEngine
  | .blank display gen result =>
    let e := e.stepMachine display (.blankResult gen result) env.nowTick
    match result with
    | .error failure =>
      { e with lastBlankFailed := Function.update e.lastBlankFailed display true }.send
        (.event (.blankFailure display failure.controller failure.error))
    | .ok _ =>
      if e.lastBlankFailed display then
        { e with lastBlankFailed := Function.update e.lastBlankFailed display false }.send
          (.event (.blankRecovered display))
      else e
  | .wake display gen result =>
    let e := e.stepMachine display (.wakeResult gen result) env.nowTick
    match result with
    | .ok _ =>
      match e.wakeAttempts display with
      | none => e
      | some n =>
        let e := { e with wakeAttempts := Function.update e.wakeAttempts display none }
        if 0 < n then e.send (.event (.wakeRecovered display n)) else e
    | .error _ =>
      let n := (e.wakeAttempts display).getD 0
      let attempt := if n.toNat + 1 = 2 ^ 64 then n else n + 1
      { e with wakeAttempts := Function.update e.wakeAttempts display (some attempt) }.send
        (.event (.wakeRetry display attempt))
  | .render display gen result => e.stepMachine display (.renderResult gen result) env.nowTick
  | .exerciseResume rules _ generation =>
    if generation = e.generation.getD ⟨0⟩ then
      rules.foldl (fun e r => e.handleResume env (some r)) e
    else e

def fireHoldExpiry (sensor : SensorId) (now : ℕ) : RulesEngine :=
  match e.holds sensor with
  | none => e
  | some hold =>
    let e' (hold : HoldState) := { e with holds := Function.update e.holds sensor (some hold) }
    match hold.armedUntil with
    | none => e' { hold with pendingAbsent := none }
    | some armedUntil =>
      if now < armedUntil then e
      else
        let e := e' { armedUntil := none, pendingAbsent := none }
        match hold.pendingAbsent with
        | none => e
        | some ev => e.handlePresenceEvent env ev

def fireInputWakeHoldExpiry (display : DisplayId) (now : ℕ) : RulesEngine :=
  match e.inputWakeHolds display with
  | none => e
  | some deadline =>
    if now < deadline then e
    else
      let e := (e.clearInputWakeHold display).feedOwnership env display now
      if (e.effectiveInputWakeHold display).isSome then
        e.stepMachine display (.zonePresent false) now
      else e

def fireTimer (deadline : ℕ) : TimerEntry → RulesEngine
  | .displayTick display =>
    (e.feedOwnership env display deadline).stepMachine display .tick deadline
  | .displayStageTick display gen =>
    (e.feedOwnership env display deadline).stepMachine display (.stageTick gen) deadline
  | .holdExpiry sensor => e.fireHoldExpiry env sensor deadline
  | .inputWakeHoldExpiry display => e.fireInputWakeHoldExpiry env display deadline

def popTimer (t : Timer) : RulesEngine := { e with timers := e.timers.erase t }

def fireDueTimer : RulesEngine :=
  match earliest e.timers with
  | none => e
  | some (deadline, entry) =>
    if env.nowTick < deadline then e
    else (e.popTimer (deadline, entry)).fireTimer env deadline entry

def expireSensor (sensor : SensorId) (staleTimeout : ℕ) : RulesEngine :=
  match e.sensorLastSeenVirtual sensor with
  | none => e
  | some lastSeen =>
    if staleTimeout < env.now - lastSeen then
      e.handlePresenceEvent env { sensorId := sensor, state := .unavailable, stamp := env.wall }
    else e

/-- Sweep one sensor. An `online` assertion is a lease of the sensor's stale timeout. -/
def sweepSensor (sensor : SensorId) (staleTimeout : ℕ) : RulesEngine :=
  match e.zoneEngine.sensorStates sensor with
  | none => e
  | some (.unavailable, _) => e
  | some _ =>
    match e.availabilityOnline sensor with
    | none => e.expireSensor env sensor staleTimeout
    | some leaseStart =>
      if staleTimeout < env.now - leaseStart then
        { e with availabilityOnline := Function.update e.availabilityOnline sensor none }
          |>.expireSensor env sensor staleTimeout
      else e

def sweepStaleSensors : RulesEngine :=
  e.cfg.sensors.foldl (fun e scfg => e.sweepSensor env scfg.sensor scfg.staleTimeout) e

end RulesEngine

inductive Event where
  | presence (ev : PresenceEvent)
  | control (msg : ControlMsg)
  | result (res : InternalResult)
  | timer
  | sweep

def RulesEngine.handle (env : Env) (e : RulesEngine) : Event → RulesEngine
  | .presence ev => e.handlePresenceEvent env ev
  | .control msg => e.handleControl env msg
  | .result res => e.handleInternalResult env res
  | .timer => e.fireDueTimer env
  | .sweep => e.sweepStaleSensors env

/-- The run loop: one event at a time, each with what it reads of the world. -/
def engine : Runs.System RulesEngine (Env × Event) Output where
  next e i :=
    let handled := { e with outbox := [] }.handle i.1 i.2
    (handled, handled.outbox)

/-! ## A display that two rules share -/

/-- Two rules for one monitor. -/
def sharedSetup : Setup where
  cfg := {
    rules := [⟨⟨"desk"⟩, ⟨"desk"⟩, [⟨"monitor"⟩], 0⟩, ⟨⟨"sofa"⟩, ⟨"sofa"⟩, [⟨"monitor"⟩], 0⟩]
    displays := [⟨⟨"monitor"⟩, .powerOff, [⟨.controller .powerOff, none⟩], ⟨60, 0, 0, 0, 5⟩⟩]
    sensors := []
    doctorWakeSettle := 3 }
  zoneEngine := { sensorStates := fun _ => none, evalOrder := [], zonePresence := fun _ => none }
  executors := [⟨"monitor"⟩]
  renderSinks := []
  generation := none
  ruleOrder := [⟨"desk"⟩, ⟨"sofa"⟩]
  ruleOrder_perm := by decide

/-- An instant at which every display is owned and the registry hands out one operation. -/
def Env.plain (now : ℕ) : Env where
  now := now
  nowTick := now
  wall := 0
  owns _ := true
  leaseAccepted _ := false
  tryAcquire generation kind := some { id := 0, generation := generation, kind := kind }

end Dormant
