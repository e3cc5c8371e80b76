import Dormant.Rules.HoldLaw
import Dormant.Rules.SensorView

/-!
# What the engine keeps of a sensor

When a sensor was seen last and since when its `online` is on lease is written by its own events,
its availability and the sweep only. `step_next` says of each event of the engine which step it is
for the view of a sensor.
-/

namespace Dormant
set_option autoImplicit false

namespace RulesEngine
variable {e e' : RulesEngine} {sensor : SensorId}

/-! ## Who writes the sightings -/

/-- When each sensor was seen last, and since when its `online` is on lease. -/
def sightings (e : RulesEngine) : (SensorId → Option ℕ) × (SensorId → Option ℕ) :=
  (e.sensorLastSeenVirtual, e.availabilityOnline)

theorem sightings_foldl {α : Type} {f : RulesEngine → α → RulesEngine}
    (hf : ∀ e a, (f e a).sightings = e.sightings) (l : List α) (e : RulesEngine) :
    (l.foldl f e).sightings = e.sightings := by
  induction l generalizing e with
  | nil => rfl
  | cons a l ih => exact (ih (f e a)).trans (hf e a)

theorem sightings_stepMachine (e : RulesEngine) (display : DisplayId) (input : Input) (now : ℕ) :
    (e.stepMachine display input now).sightings = e.sightings := by
  cases hm : e.machines display with
  | none => rw [stepMachine_none e display now hm]
  | some machine =>
    obtain ⟨notes, scopes, -, hstep⟩ := stepMachine_eq hm input now
    rw [hstep]
    rfl

variable (env : Env)

theorem sightings_feedOwnership (e : RulesEngine) (display : DisplayId) (now : ℕ) :
    (e.feedOwnership env display now).sightings = e.sightings := by
  unfold feedOwnership
  dsimp only
  split
  · rfl
  · split
    · rfl
    · exact sightings_stepMachine _ display _ now

theorem sightings_stepOne (e : RulesEngine) (display : DisplayId) (input : Input) :
    (e.stepOne env display input).sightings = e.sightings :=
  (sightings_stepMachine _ display input env.now).trans
    (sightings_feedOwnership env e display env.now)

theorem sightings_handlePause (e : RulesEngine) (rule : Option RuleId) (untilStamp : Option ℕ) :
    (e.handlePause env rule untilStamp).sightings = e.sightings := by
  unfold handlePause
  apply sightings_foldl
  intro e display
  unfold pauseDisplay
  dsimp only
  rw [sightings_stepOne]
  split <;> rfl

theorem sightings_handleResume (e : RulesEngine) (rule : Option RuleId) :
    (e.handleResume env rule).sightings = e.sightings :=
  sightings_foldl (fun e display => sightings_stepOne env e display _) _ e

theorem sightings_handleEmergencyWake (e : RulesEngine) :
    (e.handleEmergencyWake env).sightings = e.sightings := by
  have hsent := sightings_foldl (f := fun e display => e.send (.wakeOnce display))
    (fun _ _ => rfl) e.executors (e.handlePause env none none)
  exact hsent.trans (sightings_handlePause env e none none)

theorem sightings_applyInhibitor (e : RulesEngine) (r : RuleId) (kind : InhibitorKind)
    (inhibited : Bool) : (e.applyInhibitor env r kind inhibited).sightings = e.sightings := by
  unfold applyInhibitor
  dsimp only
  split
  · rfl
  · exact sightings_foldl (fun e display => sightings_stepOne env e display _) _ _

theorem sightings_handleSetInhibited (e : RulesEngine) (rule : Option RuleId)
    (kind : InhibitorKind) (inhibited : Bool) :
    (e.handleSetInhibited env rule kind inhibited).sightings = e.sightings := by
  cases rule with
  | some r => exact sightings_applyInhibitor env e r kind inhibited
  | none => exact sightings_foldl (fun e r => sightings_applyInhibitor env e r kind inhibited) _ e

theorem sightings_handleExercise (e : RulesEngine) (target : DisplayId)
    (accepted : Option AcceptedOperation) :
    (e.handleExercise env target accepted).sightings = e.sightings := by
  have paused (e : RulesEngine) (rules : List RuleId) :
      (rules.foldl (fun e r => e.handlePause env (some r) none) e).sightings = e.sightings :=
    sightings_foldl (fun e r => sightings_handlePause env e (some r) none) rules e
  unfold handleExercise
  split
  · rfl
  · dsimp only
    split
    · exact paused e _
    · have hresumed := sightings_foldl (fun e r => sightings_handleResume env e (some r))
        (e.rulesOf target)
        ((e.rulesOf target).foldl (fun e r => e.handlePause env (some r) none) e)
      exact hresumed.trans (paused e _)

theorem sightings_clearInputWakeHold (e : RulesEngine) (display : DisplayId) :
    (e.clearInputWakeHold display).sightings = e.sightings := by
  unfold clearInputWakeHold setHoldFlag
  split <;> rfl

theorem sightings_fanToDisplay (e : RulesEngine) (display : DisplayId) :
    (e.fanToDisplay env display).sightings = e.sightings := by
  unfold fanToDisplay
  dsimp only
  rw [sightings_stepMachine, sightings_feedOwnership]
  split
  · exact sightings_clearInputWakeHold e display
  · rfl

theorem sightings_changes (e : RulesEngine) (changes : List ZoneChange) :
    (changes.foldl
      (fun e change => (e.send (.event (.zoneChanged change.zone change.present change.cause)))
        |>.fanZoneChangeToDisplays env change.zone) e).sightings = e.sightings := by
  apply sightings_foldl
  intro e change
  exact sightings_foldl
    (fun e _ => sightings_foldl (fun e display => sightings_fanToDisplay env e display) _ e) _ _

theorem sightings_handleInputWake (e : RulesEngine) (display : DisplayId) :
    (e.handleInputWake env display).sightings = e.sightings := by
  unfold handleInputWake
  dsimp only
  rw [sightings_stepOne]
  split
  · split
    · unfold setHoldFlag
      split <;> rfl
    · rfl
  · rfl

theorem sightings_fireInputWakeHoldExpiry (e : RulesEngine) (display : DisplayId) (now : ℕ) :
    (e.fireInputWakeHoldExpiry env display now).sightings = e.sightings := by
  have hfed : ((e.clearInputWakeHold display).feedOwnership env display now).sightings =
      e.sightings :=
    (sightings_feedOwnership env _ display now).trans (sightings_clearInputWakeHold e display)
  unfold fireInputWakeHoldExpiry
  split
  · rfl
  · split
    · rfl
    · dsimp only
      split
      · exact (sightings_stepMachine _ display _ now).trans hfed
      · exact hfed

theorem sightings_handleInternalResult (e : RulesEngine) (res : InternalResult) :
    (e.handleInternalResult env res).sightings = e.sightings := by
  cases res with
  | blank display gen result =>
    have hstep := sightings_stepMachine e display (.blankResult gen result) env.nowTick
    unfold handleInternalResult
    dsimp only
    split
    · exact hstep
    · split
      · exact hstep
      · exact hstep
  | wake display gen result =>
    have hstep := sightings_stepMachine e display (.wakeResult gen result) env.nowTick
    unfold handleInternalResult
    dsimp only
    split
    · split
      · exact hstep
      · split
        · exact hstep
        · exact hstep
    · exact hstep
  | render display gen result => exact sightings_stepMachine e display _ env.nowTick
  | exerciseResume rules op generation =>
    simp only [handleInternalResult]
    split
    · exact sightings_foldl (fun e r => sightings_handleResume env e (some r)) rules e
    · rfl

theorem sightings_handleControl (e : RulesEngine) {msg : ControlMsg}
    (h : ∀ event, msg ≠ .sensorAvailability event) :
    (e.handleControl env msg).sightings = e.sightings := by
  cases msg with
  | pause rule untilStamp => exact sightings_handlePause env e rule untilStamp
  | resume rule => exact sightings_handleResume env e rule
  | forceBlank display => exact sightings_stepOne env e display _
  | forceWake display => exact sightings_stepOne env e display _
  | softBlank display => exact sightings_stepOne env e display _
  | setInhibited rule kind inhibited =>
    exact sightings_handleSetInhibited env e rule kind inhibited
  | setClaimSuppression display deadline => rfl
  | inputWake display => exact sightings_handleInputWake env e display
  | ownershipPoll display => exact sightings_feedOwnership env e display env.now
  | publishDaemonEvent event => rfl
  | emergencyWake => exact sightings_handleEmergencyWake env e
  | emergencyWakeAccepted operation => exact sightings_handleEmergencyWake env e
  | exercise display => exact sightings_handleExercise env e display none
  | exerciseAccepted operation =>
    simp only [handleControl]
    split
    · exact sightings_handleExercise env e _ _
    · rfl
  | sensorAvailability event => exact absurd rfl (h event)
  | queryPresenceConfirmed display => rfl
  | passive => rfl

theorem sightings_applyPresence (e : RulesEngine) (ev : PresenceEvent) :
    (e.applyPresence env ev).sightings =
      (Function.update e.sensorLastSeenVirtual ev.sensorId (some env.now),
        e.availabilityOnline) := by
  rw [applyPresence_eq, sightings_changes]
  unfold registered sightings
  dsimp only
  split <;> rfl

theorem sightings_applyHoldFilter (e : RulesEngine) (ev : PresenceEvent) :
    (e.applyHoldFilter env ev).1.sightings = e.sightings := by
  cases h : e.holds ev.sensorId with
  | none => rw [applyHoldFilter_none env h]
  | some hold =>
    rw [applyHoldFilter_some env h]
    rfl

theorem sightings_handlePresenceEvent (e : RulesEngine) (ev : PresenceEvent) :
    (e.handlePresenceEvent env ev).sightings =
      (if (e.applyHoldFilter env ev).2.isSome then
          Function.update e.sensorLastSeenVirtual ev.sensorId (some env.now)
        else e.sensorLastSeenVirtual,
        if ev.state = .unavailable then Function.update e.availabilityOnline ev.sensorId none
        else e.availabilityOnline) := by
  have hfiltered : (e.filtered env ev).sightings = (e.sensorLastSeenVirtual,
      if ev.state = .unavailable then Function.update e.availabilityOnline ev.sensorId none
      else e.availabilityOnline) :=
    sightings_applyHoldFilter env _ ev
  have hseen := congrArg Prod.fst hfiltered
  have honline := congrArg Prod.snd hfiltered
  rw [handlePresenceEvent_eq]
  split
  · rw [sightings_applyPresence]
    have hsame : (e.filtered env ev).sensorLastSeenVirtual = e.sensorLastSeenVirtual := hseen
    rw [hsame]
    exact Prod.ext rfl honline
  · exact hfiltered

/-! ## The view of a sensor -/

def sensorView (e : RulesEngine) (sensor : SensorId) : SensorView where
  filtered := (e.holds sensor).isSome
  armed := e.armedUntil sensor
  waits := (e.holds sensor).bind (·.pendingAbsent)
  state := e.sensorState sensor
  seen := e.sensorLastSeenVirtual sensor
  online := e.availabilityOnline sensor
  timers := { deadline | (deadline, TimerEntry.holdExpiry sensor) ∈ e.timers }

theorem Unmoved.view (h : Unmoved sensor e e')
    (hseen : e'.sensorLastSeenVirtual sensor = e.sensorLastSeenVirtual sensor)
    (honline : e'.availabilityOnline sensor = e.availabilityOnline sensor) :
    e'.sensorView sensor = e.sensorView sensor := by
  unfold sensorView armedUntil
  rw [h.hold, h.sensorState, hseen, honline]
  simp only [h.timers]

theorem Unmoved.view_same (h : Unmoved sensor e e') (hs : e'.sightings = e.sightings) :
    e'.sensorView sensor = e.sensorView sensor := by
  have hseen : e'.sensorLastSeenVirtual = e.sensorLastSeenVirtual := congrArg Prod.fst hs
  have honline : e'.availabilityOnline = e.availabilityOnline := congrArg Prod.snd hs
  exact h.view (congrFun hseen sensor) (congrFun honline sensor)

theorem seen_handlePresenceEvent (sensor : SensorId) (e : RulesEngine) (ev : PresenceEvent) :
    (e.handlePresenceEvent env ev).sensorLastSeenVirtual sensor =
      if sensor = ev.sensorId ∧ (e.applyHoldFilter env ev).2.isSome then some env.now
      else e.sensorLastSeenVirtual sensor := by
  have hs := congrArg Prod.fst (sightings_handlePresenceEvent env e ev)
  have hseen : (e.handlePresenceEvent env ev).sensorLastSeenVirtual =
    if (e.applyHoldFilter env ev).2.isSome then
      Function.update e.sensorLastSeenVirtual ev.sensorId (some env.now)
    else e.sensorLastSeenVirtual := hs
  rw [hseen]
  cases (e.applyHoldFilter env ev).2.isSome <;> simp [Function.update_apply]

theorem online_handlePresenceEvent (sensor : SensorId) (e : RulesEngine) (ev : PresenceEvent) :
    (e.handlePresenceEvent env ev).availabilityOnline sensor =
      if sensor = ev.sensorId ∧ ev.state = .unavailable then none
      else e.availabilityOnline sensor := by
  have hs := congrArg Prod.snd (sightings_handlePresenceEvent env e ev)
  have honline : (e.handlePresenceEvent env ev).availabilityOnline =
    if ev.state = .unavailable then Function.update e.availabilityOnline ev.sensorId none
    else e.availabilityOnline := hs
  rw [honline]
  by_cases hu : ev.state = .unavailable <;> simp [hu, Function.update_apply]

theorem view_other {ev : PresenceEvent} (hne : ev.sensorId ≠ sensor) (e : RulesEngine) :
    (e.handlePresenceEvent env ev).sensorView sensor = e.sensorView sensor := by
  apply (unmoved_handlePresenceEvent env hne e).view
  · rw [seen_handlePresenceEvent, if_neg fun h => hne h.1.symm]
  · rw [online_handlePresenceEvent, if_neg fun h => hne h.1.symm]

/-- A sensor has a hold just when its configuration has a hold time, and keeps an event back only
while its hold is armed. -/
structure Filters (sensor : SensorId) (e : RulesEngine) : Prop where
  filtered : (e.holds sensor).isSome = (e.holdTime sensor).isSome
  waits : (e.sensorView sensor).waits ≠ none → (e.sensorView sensor).armed ≠ none

/-- An event of a sensor without a hold. -/
theorem view_unfiltered {ev : PresenceEvent} (h : e.holds ev.sensorId = none) :
    (e.handlePresenceEvent env ev).sensorView ev.sensorId =
      (e.sensorView ev.sensorId).take none env.now ev := by
  have hfilter := applyHoldFilter_none env h
  have hpassed : e.handlePresenceEvent env ev = (e.filtered env ev).applyPresence env ev := by
    rw [handlePresenceEvent_eq, hfilter]
    rfl
  have hsame : e.filtered env ev = { e with availabilityOnline :=
      if ev.state = .unavailable then Function.update e.availabilityOnline ev.sensorId none
      else e.availabilityOnline } := by
    unfold filtered
    rw [applyHoldFilter_none env (by exact h)]
  obtain ⟨-, hholds, hstate, htimers⟩ :=
    applyPresence_sensor env (e.filtered env ev) ev ev.sensorId
  rw [if_pos rfl] at hstate
  rw [← hpassed, hsame] at hholds hstate htimers
  have hnone : (e.handlePresenceEvent env ev).holds ev.sensorId = none := hholds.trans h
  have hseen := seen_handlePresenceEvent env ev.sensorId e ev
  have honline := online_handlePresenceEvent env ev.sensorId e ev
  rw [hfilter, if_pos ⟨rfl, rfl⟩] at hseen
  simp [sensorView, SensorView.take, sensorState, armedUntil, h, hnone, hstate, hseen, honline,
    htimers, Function.comp_def]

theorem view_handlePresenceEvent {ev : PresenceEvent} (h : Filters ev.sensorId e) :
    (e.handlePresenceEvent env ev).sensorView ev.sensorId =
      (e.sensorView ev.sensorId).receive (e.holdTime ev.sensorId) env.now ev := by
  cases hh : e.holds ev.sensorId with
  | none =>
    have htime : e.holdTime ev.sensorId = none := by simpa [hh] using h.filtered
    have harmed : e.armedUntil ev.sensorId = none := by simp [armedUntil, hh]
    rw [view_unfiltered env hh, htime]
    unfold SensorView.receive
    rw [if_neg]
    simp [sensorView, harmed]
  | some hold =>
    obtain ⟨holdTime, htime⟩ : ∃ holdTime, e.holdTime ev.sensorId = some holdTime := by
      rw [← Option.isSome_iff_exists, ← h.filtered, hh]
      rfl
    have hwas : e.armedUntil ev.sensorId = hold.armedUntil := by simp [armedUntil, hh]
    have hidle : hold.armedUntil = none → hold.pendingAbsent = none := by
      intro hnone
      by_contra hne
      have hw := h.waits
      simp only [sensorView, hwas, hh, Option.bind_some] at hw
      exact hw hne hnone
    have hreceive := SensorView.receive_filter env.now (v := e.sensorView ev.sensorId)
      (by simp [sensorView, hh]) hwas hidle holdTime ev
    have hrep := reported_handlePresenceEvent env hh
    have hpasses : (e.applyHoldFilter env ev).2.isSome =
        (hold.filter (e.holdTime ev.sensorId) env.now ev).passes := by
      rw [applyHoldFilter_some env hh]
      cases (hold.filter (e.holdTime ev.sensorId) env.now ev).passes <;> rfl
    have hseen := seen_handlePresenceEvent env ev.sensorId e ev
    have honline := online_handlePresenceEvent env ev.sensorId e ev
    rw [hpasses] at hseen
    rw [htime] at hrep hseen ⊢
    generalize hold.filter (some holdTime) env.now ev = f at *
    have hhold := hrep.hold
    have hstate := hrep.state
    have htimers := hrep.timers
    rw [hreceive]
    cases hpass : f.passes <;>
      simp [sensorView, sensorState, armedUntil, hhold, hstate, htimers, hseen, honline, hpass,
        Function.comp_def]

/-! ## A sweep -/

theorem view_sweepOther {swept : SensorId} (hne : swept ≠ sensor) (staleTimeout : ℕ)
    (e : RulesEngine) : (e.sweepSensor env swept staleTimeout).wiring = e.wiring ∧
      (e.sweepSensor env swept staleTimeout).holds sensor = e.holds sensor ∧
      (e.sweepSensor env swept staleTimeout).sensorView sensor = e.sensorView sensor := by
  have expired (e : RulesEngine) : (e.expireSensor env swept staleTimeout).wiring = e.wiring ∧
      (e.expireSensor env swept staleTimeout).holds sensor = e.holds sensor ∧
      (e.expireSensor env swept staleTimeout).sensorView sensor = e.sensorView sensor := by
    unfold expireSensor
    split
    · exact ⟨rfl, rfl, rfl⟩
    · split
      · have hother : (staleEvent env swept).sensorId ≠ sensor := hne
        have hun := unmoved_handlePresenceEvent env hother e
        exact ⟨hun.wiring, hun.hold, view_other env hother e⟩
      · exact ⟨rfl, rfl, rfl⟩
  unfold sweepSensor
  split
  · exact ⟨rfl, rfl, rfl⟩
  · exact ⟨rfl, rfl, rfl⟩
  · split
    · exact expired e
    · split
      · obtain ⟨hwiring, hholds, hview⟩ := expired
          { e with availabilityOnline := Function.update e.availabilityOnline swept none }
        refine ⟨hwiring, hholds, hview.trans ?_⟩
        simp [sensorView, sensorState, armedUntil, Function.update_of_ne (Ne.symm hne)]
      · exact ⟨rfl, rfl, rfl⟩

theorem view_expireSensor (h : Filters sensor e) (staleTimeout : ℕ) :
    ((∀ seen ∈ e.sensorLastSeenVirtual sensor, env.now ≤ seen + staleTimeout) ∧
        e.expireSensor env sensor staleTimeout = e) ∨
      ∃ seen, e.sensorLastSeenVirtual sensor = some seen ∧ seen + staleTimeout < env.now ∧
        (e.expireSensor env sensor staleTimeout).sensorView sensor =
          (e.sensorView sensor).take (e.holdTime sensor) env.now (staleEvent env sensor) := by
  unfold expireSensor
  split
  · rename_i hnone
    left
    simp [hnone]
  · rename_i seen hseen
    split
    · right
      have hfilters : Filters (staleEvent env sensor).sensorId e := h
      exact ⟨seen, hseen, by omega, view_handlePresenceEvent env hfilters⟩
    · left
      refine ⟨fun seen' hs => ?_, rfl⟩
      obtain rfl : seen = seen' := Option.some.inj (hseen.symm.trans hs)
      omega

/-- A sweep finds the sensor unavailable, on lease, fresh or stale. -/
theorem step_sweepSensor (h : Filters sensor e) (hknown : e.sensorState sensor ≠ none)
    (staleTimeout : ℕ) :
    SensorView.Step (e.holdTime sensor) staleTimeout env.now (e.sensorView sensor)
      (.swept (staleEvent env sensor))
      ((e.sweepSensor env sensor staleTimeout).sensorView sensor) := by
  unfold sweepSensor
  split
  · rename_i hnone
    exact absurd (by rw [sensorState, hnone, Option.map_none]) hknown
  · rename_i stamp hstate
    refine .spared _ (.inl ?_)
    show e.sensorState sensor = _
    rw [sensorState, hstate, Option.map_some]
  · rename_i state hne hstate
    have hstands : (e.sensorView sensor).state ≠ some .unavailable := by
      show e.sensorState sensor ≠ _
      rw [sensorState, hstate, Option.map_some]
      intro heq
      exact hne state.2 (Prod.ext (Option.some.inj heq) rfl)
    cases honline : e.availabilityOnline sensor with
    | none =>
      dsimp only
      rcases view_expireSensor env h staleTimeout with
        ⟨hfresh, hsame⟩ | ⟨seen, hseen, hstale, hview⟩
      · rw [hsame]
        exact .spared _ (.inr (.inr ⟨honline, hfresh⟩))
      · rw [hview]
        refine .stale _ rfl hstands ?_ seen hseen hstale
        simp [sensorView, honline]
    | some lease =>
      dsimp only
      split
      · rename_i hlapsed
        have hcleared : sensorView { e with
            availabilityOnline := Function.update e.availabilityOnline sensor none } sensor =
              { e.sensorView sensor with online := none } := by
          simp [sensorView, sensorState, armedUntil]
        have h' : Filters sensor { e with
            availabilityOnline := Function.update e.availabilityOnline sensor none } :=
          ⟨h.filtered, h.waits⟩
        rcases view_expireSensor env h' staleTimeout with
          ⟨hfresh, hsame⟩ | ⟨seen, hseen, hstale, hview⟩
        · rw [hsame, hcleared]
          exact .lapsed _ lease honline (by omega) hfresh
        · rw [hview, hcleared]
          have htaken : ({ e.sensorView sensor with online := none } : SensorView).take
              (e.holdTime sensor) env.now (staleEvent env sensor) =
                (e.sensorView sensor).take (e.holdTime sensor) env.now (staleEvent env sensor) := by
            simp [SensorView.take, staleEvent]
          have hlapsed' : ∀ lease ∈ (e.sensorView sensor).online,
              lease + staleTimeout < env.now := by
            intro lease' hl
            obtain rfl : lease = lease' := Option.some.inj (honline.symm.trans hl)
            omega
          have htime : RulesEngine.holdTime { e with
              availabilityOnline := Function.update e.availabilityOnline sensor none } sensor =
                e.holdTime sensor := rfl
          rw [htime, htaken]
          exact .stale _ rfl hstands hlapsed' seen hseen hstale
      · refine .spared _ (.inr (.inl ⟨lease, honline, ?_⟩))
        omega

/-- The sweep looks at a sensor once. -/
theorem step_sweepStaleSensors (h : Filters sensor e) (hknown : e.sensorState sensor ≠ none)
    {scfg : SensorRuntimeCfg} (hmem : scfg ∈ e.cfg.sensors) (hsensor : scfg.sensor = sensor)
    (hdistinct : (e.cfg.sensors.map (·.sensor)).Nodup) :
    SensorView.Step (e.holdTime sensor) scfg.staleTimeout env.now (e.sensorView sensor)
      (.swept (staleEvent env sensor)) ((e.sweepStaleSensors env).sensorView sensor) := by
  subst hsensor
  have others (sensors : List SensorRuntimeCfg)
      (hne : ∀ other ∈ sensors, other.sensor ≠ scfg.sensor) (e : RulesEngine) :
      let e' := sensors.foldl (fun e scfg => e.sweepSensor env scfg.sensor scfg.staleTimeout) e
      e'.wiring = e.wiring ∧ e'.holds scfg.sensor = e.holds scfg.sensor ∧
        e'.sensorView scfg.sensor = e.sensorView scfg.sensor := by
    induction sensors generalizing e with
    | nil => exact ⟨rfl, rfl, rfl⟩
    | cons other sensors ih =>
      obtain ⟨hwiring, hholds, hview⟩ :=
        view_sweepOther env (hne other List.mem_cons_self) other.staleTimeout e
      obtain ⟨hwiring', hholds', hview'⟩ := ih (fun o ho => hne o (List.mem_cons_of_mem _ ho))
        (e.sweepSensor env other.sensor other.staleTimeout)
      exact ⟨hwiring'.trans hwiring, hholds'.trans hholds, hview'.trans hview⟩
  obtain ⟨before, after, hsplit⟩ := List.append_of_mem hmem
  rw [hsplit, List.map_append, List.map_cons, List.nodup_append] at hdistinct
  obtain ⟨-, hafter, hapart⟩ := hdistinct
  have hbefore : ∀ other ∈ before, other.sensor ≠ scfg.sensor := fun other ho =>
    hapart other.sensor (List.mem_map_of_mem ho) scfg.sensor List.mem_cons_self
  have hafter' : ∀ other ∈ after, other.sensor ≠ scfg.sensor := by
    intro other ho heq
    exact (List.nodup_cons.mp hafter).1 (heq ▸ List.mem_map_of_mem ho)
  unfold sweepStaleSensors
  rw [hsplit, List.foldl_append, List.foldl_cons]
  obtain ⟨hwiring, hholds, hview⟩ := others before hbefore e
  generalize
    before.foldl (fun e scfg => e.sweepSensor env scfg.sensor scfg.staleTimeout) e = e₁ at *
  obtain ⟨-, -, hview'⟩ := others after hafter' (e₁.sweepSensor env scfg.sensor scfg.staleTimeout)
  rw [hview']
  have hcfg : e₁.cfg = e.cfg := congrArg Wiring.cfg hwiring
  have htime : e₁.holdTime scfg.sensor = e.holdTime scfg.sensor := by
    unfold holdTime
    rw [hcfg]
  have hfilters : Filters scfg.sensor e₁ := by
    refine ⟨?_, ?_⟩
    · rw [hholds, htime]
      exact h.filtered
    · rw [hview]
      exact h.waits
  have hstate : e₁.sensorState scfg.sensor ≠ none := by
    have hsame : e₁.sensorState scfg.sensor = e.sensorState scfg.sensor :=
      congrArg SensorView.state hview
    rw [hsame]
    exact hknown
  have hstep := step_sweepSensor env hfilters hstate scfg.staleTimeout
  rw [hview, htime] at hstep
  exact hstep

/-! ## A step of the engine -/

/-- What an event of the engine is to a sensor. -/
def occurrence (sensor : SensorId) (e : RulesEngine) (i : Env × Event) : Occurrence :=
  match i.2 with
  | .presence ev => if ev.sensorId = sensor then .event ev else .nothing
  | .control (.sensorAvailability ev) =>
    if ev.sensor = sensor then
      if ev.online then .online
      else .offline { sensorId := ev.sensor, state := .unavailable, stamp := ev.stamp }
    else .nothing
  | .sweep => .swept (staleEvent i.1 sensor)
  | .timer =>
    match e.dueTimer i with
    | some (deadline, .holdExpiry expired) =>
      if expired = sensor then .expired deadline else .nothing
    | _ => .nothing
  | _ => .nothing

variable {env}

theorem step_expired (hown : e.HoldsOwn) (h : Filters sensor e)
    (hwaits : ∀ ev ∈ (e.sensorView sensor).waits, ev.state = .absent) (staleTimeout : ℕ)
    {deadline : ℕ} (hdue : (deadline, TimerEntry.holdExpiry sensor) ∈ e.timers) :
    SensorView.Step (e.holdTime sensor) staleTimeout env.now (e.sensorView sensor)
      (.expired deadline) (((e.popHold sensor deadline).fireHoldExpiry env sensor
        deadline).sensorView sensor) := by
  obtain ⟨timers, htimers⟩ : ∃ timers : Set ℕ, timers =
    { d | (d, TimerEntry.holdExpiry sensor) ∈ e.timers.erase (deadline, .holdExpiry sensor) } :=
      ⟨_, rfl⟩
  have hpopped : (e.popHold sensor deadline).sensorView sensor =
      { e.sensorView sensor with timers := timers } := by
    rw [htimers]
    rfl
  have hless : timers ⊆ (e.sensorView sensor).timers := by
    rw [htimers]
    exact fun d hd => List.mem_of_mem_erase hd
  have hkept : ∀ d ∈ (e.sensorView sensor).timers, d ≠ deadline → d ∈ timers := by
    intro d hd hne
    rw [htimers]
    exact (List.mem_erase_of_ne (by simpa using hne)).mpr hd
  cases hh : e.holds sensor with
  | none =>
    have harmed : (e.sensorView sensor).armed = none := by simp [sensorView, armedUntil, hh]
    have hidle : (e.popHold sensor deadline).fireHoldExpiry env sensor deadline =
        e.popHold sensor deadline := by
      unfold fireHoldExpiry
      rw [show (e.popHold sensor deadline).holds sensor = none from hh]
    rw [hidle, hpopped]
    exact .leftover deadline _ rfl hless hkept (by simp [harmed])
  | some hold =>
    have hwas : (e.sensorView sensor).armed = hold.armedUntil := by
      simp [sensorView, armedUntil, hh]
    have hpending : (e.sensorView sensor).waits = hold.pendingAbsent := by simp [sensorView, hh]
    have hdisarmed : ((e.popHold sensor deadline).setHold sensor HoldState.disarmed).sensorView
        sensor = { (e.sensorView sensor).disarm with timers := timers } := by
      rw [htimers]
      simp [sensorView, SensorView.disarm, setHold, armedUntil, HoldState.disarmed, hh, popHold,
        popTimer, sensorState]
    have hcases := expired_fireHoldExpiry (e := e.popHold sensor deadline) hh env deadline
    generalize (e.popHold sensor deadline).fireHoldExpiry env sensor deadline = e' at hcases
    cases hcases with
    | unarmed harmed =>
      have hnone : (e.sensorView sensor).armed = none := hwas.trans harmed
      have hempty : (e.sensorView sensor).waits = none := by
        by_contra hne
        exact h.waits hne hnone
      rw [hdisarmed]
      refine .leftover deadline _ ?_ hless hkept (by simp [hnone])
      unfold SensorView.disarm
      rw [← hnone, ← hempty]
    | early harmed hd =>
      rw [hpopped]
      refine .leftover deadline _ rfl hless hkept fun armed hmem => ?_
      obtain rfl := Option.some.inj (harmed.symm.trans (hwas.symm.trans hmem))
      exact hd
    | ended harmed hd hp =>
      rw [hdisarmed]
      exact .ended deadline _ timers hless (hwas.trans harmed) hd (hpending.trans hp)
    | released harmed hd hp =>
      rename_i armed ev
      obtain rfl : ev.sensorId = sensor := hown sensor hold ev hh hp
      have habsent := hwaits ev (hpending.trans hp)
      have hfilters : Filters ev.sensorId
          ((e.popHold ev.sensorId deadline).setHold ev.sensorId HoldState.disarmed) := by
        refine ⟨?_, ?_⟩
        · have hsome := h.filtered
          have hset : ((e.popHold ev.sensorId deadline).setHold ev.sensorId
              HoldState.disarmed).holds ev.sensorId = some HoldState.disarmed :=
            Function.update_self _ _ _
          rw [hh] at hsome
          rw [hset]
          exact hsome
        · rw [hdisarmed]
          exact fun hne => absurd rfl hne
      rw [view_handlePresenceEvent env hfilters, hdisarmed]
      have hreceive : ({ (e.sensorView ev.sensorId).disarm with timers := timers }).receive
          (e.holdTime ev.sensorId) env.now ev =
            ({ (e.sensorView ev.sensorId).disarm with timers := timers }).take
              (e.holdTime ev.sensorId) env.now ev := by
        simp [SensorView.receive, SensorView.disarm]
      have htime : ((e.popHold ev.sensorId deadline).setHold ev.sensorId
          HoldState.disarmed).holdTime ev.sensorId = e.holdTime ev.sensorId := rfl
      rw [htime, hreceive]
      exact .released deadline armed ev timers hless (hwas.trans harmed) hd (hpending.trans hp) hdue

theorem view_expiredOther (hown : e.HoldsOwn) {expired : SensorId} (hne : expired ≠ sensor)
    (deadline : ℕ) :
    (e.fireHoldExpiry env expired deadline).sensorView sensor = e.sensorView sensor := by
  have written (hold : HoldState) : RulesEngine.sensorView { e with
      holds := Function.update e.holds expired (some hold) } sensor = e.sensorView sensor := by
    simp [sensorView, sensorState, armedUntil, Function.update_of_ne (Ne.symm hne)]
  unfold fireHoldExpiry
  split
  · rfl
  · rename_i hold hhold
    dsimp only
    split
    · exact written _
    · split
      · rfl
      · split
        · exact written _
        · rename_i ev hev
          have hother : ev.sensorId ≠ sensor := by
            rw [hown expired hold ev hhold hev]
            exact hne
          exact (view_other env hother _).trans (written _)

theorem view_fireTimer (hown : e.HoldsOwn) {entry : TimerEntry} (hne : entry ≠ .holdExpiry sensor)
    (deadline : ℕ) : (e.fireTimer env deadline entry).sensorView sensor = e.sensorView sensor := by
  cases entry with
  | displayTick display =>
    have hun : Unmoved sensor e (e.fireTimer env deadline (.displayTick display)) :=
      unmoved_chores (chores_displayTick e env display deadline)
    apply hun.view_same
    exact (sightings_stepMachine _ display _ deadline).trans
      (sightings_feedOwnership env e display deadline)
  | displayStageTick display gen =>
    have hfed : Unmoved sensor e (e.feedOwnership env display deadline) :=
      unmoved_chores (chores_feedOwnership e env display deadline)
    apply (hfed.trans (unmoved_stepMachine _ display _ deadline)).view_same
    exact (sightings_stepMachine _ display _ deadline).trans
      (sightings_feedOwnership env e display deadline)
  | inputWakeHoldExpiry display =>
    apply (unmoved_fireInputWakeHoldExpiry env e display deadline).view_same
    exact sightings_fireInputWakeHoldExpiry env e display deadline
  | holdExpiry expired => exact view_expiredOther hown (by simpa using hne) deadline

theorem step_timer (hown : e.HoldsOwn) (h : Filters sensor e)
    (hwaits : ∀ ev ∈ (e.sensorView sensor).waits, ev.state = .absent) (staleTimeout : ℕ) :
    SensorView.Step (e.holdTime sensor) staleTimeout env.now (e.sensorView sensor)
      (e.occurrence sensor (env, .timer)) ((engine.next e (env, .timer)).1.sensorView sensor) := by
  have hnext : (engine.next e (env, .timer)).1 = fireDueTimer env { e with outbox := [] } := rfl
  rw [hnext]
  cases hdue : e.dueTimer (env, .timer) with
  | none =>
    have hidle : fireDueTimer env { e with outbox := [] } = { e with outbox := [] } :=
      fireDueTimer_idle hdue
    have ho : e.occurrence sensor (env, .timer) = .nothing := by simp [occurrence, hdue]
    rw [hidle, ho]
    exact .idle
  | some t =>
    obtain ⟨deadline, entry⟩ := t
    have hfired : fireDueTimer env { e with outbox := [] } =
        ({ e with outbox := [] }.popTimer (deadline, entry)).fireTimer env deadline entry :=
      fireDueTimer_due hdue
    rw [hfired]
    by_cases hs : entry = .holdExpiry sensor
    · subst hs
      have ho : e.occurrence sensor (env, .timer) = .expired deadline := by simp [occurrence, hdue]
      rw [ho]
      exact step_expired hown h hwaits staleTimeout (dueTimer_mem hdue).1
    · have ho : e.occurrence sensor (env, .timer) = .nothing := by
        cases entry with
        | holdExpiry expired =>
          have hne : expired ≠ sensor := by simpa using hs
          simp [occurrence, hdue, hne]
        | _ => simp [occurrence, hdue]
      have hpopped : Unmoved sensor { e with outbox := [] }
          ({ e with outbox := [] }.popTimer (deadline, entry)) := unmoved_popTimer hs _
      rw [ho, view_fireTimer (by exact hown) hs, hpopped.view rfl rfl]
      exact .idle

theorem step_next (hown : e.HoldsOwn) (h : Filters sensor e) (hknown : e.sensorState sensor ≠ none)
    (hwaits : ∀ ev ∈ (e.sensorView sensor).waits, ev.state = .absent) {scfg : SensorRuntimeCfg}
    (hmem : scfg ∈ e.cfg.sensors) (hsensor : scfg.sensor = sensor)
    (hdistinct : (e.cfg.sensors.map (·.sensor)).Nodup) (i : Env × Event) :
    SensorView.Step (e.holdTime sensor) scfg.staleTimeout i.1.now (e.sensorView sensor)
      (e.occurrence sensor i) ((engine.next e i).1.sensorView sensor) := by
  obtain ⟨env, event⟩ := i
  have hfilters : Filters sensor { e with outbox := [] } := ⟨h.filtered, h.waits⟩
  cases event with
  | presence ev =>
    simp only [occurrence]
    by_cases hs : ev.sensorId = sensor
    · subst hs
      have hview := view_handlePresenceEvent env hfilters
      rw [if_pos rfl]
      show SensorView.Step _ _ _ _ _
        ((handlePresenceEvent env { e with outbox := [] } ev).sensorView ev.sensorId)
      rw [hview]
      exact .event ev
    · rw [if_neg hs]
      show SensorView.Step _ _ _ _ _
        ((handlePresenceEvent env { e with outbox := [] } ev).sensorView sensor)
      rw [view_other env hs]
      exact .idle
  | result res =>
    have hview : (engine.next e (env, .result res)).1.sensorView sensor = e.sensorView sensor :=
      (unmoved_handleInternalResult env { e with outbox := [] } res).view_same
        (sightings_handleInternalResult env _ res)
    rw [hview]
    exact .idle
  | sweep => exact step_sweepStaleSensors env hfilters hknown hmem hsensor hdistinct
  | timer => exact step_timer hown h hwaits scfg.staleTimeout
  | control msg =>
    have quiet (hmsg : ∀ event, msg ≠ .sensorAvailability event)
        (hun : Unmoved sensor { e with outbox := [] }
          (handleControl env { e with outbox := [] } msg))
        (ho : e.occurrence sensor (env, .control msg) = .nothing) :
        SensorView.Step (e.holdTime sensor) scfg.staleTimeout env.now (e.sensorView sensor)
          (e.occurrence sensor (env, .control msg))
          ((engine.next e (env, .control msg)).1.sensorView sensor) := by
      have hview : (engine.next e (env, .control msg)).1.sensorView sensor = e.sensorView sensor :=
        hun.view_same (sightings_handleControl env _ hmsg)
      rw [ho, hview]
      exact .idle
    cases hc : msg.isChore with
    | true =>
      refine quiet ?_ (unmoved_chores (chores_handleControl _ env hc)) ?_
      · rintro event rfl
        cases hc
      · cases msg with
        | sensorAvailability ev => cases hc
        | _ => rfl
    | false =>
      cases msg with
      | inputWake display => exact quiet (by simp) (unmoved_handleInputWake env _ display) rfl
      | publishDaemonEvent event => exact quiet (by simp) ⟨rfl, rfl, rfl, fun _ => Iff.rfl⟩ rfl
      | sensorAvailability ev =>
        show SensorView.Step _ _ _ _ _ ((handleSensorAvailability env { e with outbox := [] }
          ev).sensorView sensor)
        simp only [occurrence, handleSensorAvailability]
        have hother (hne : ev.sensor ≠ sensor) (online : Option ℕ) : sensorView
            { e with
              outbox := []
              availabilityOnline := Function.update e.availabilityOnline ev.sensor online }
            sensor = e.sensorView sensor := by
          simp [sensorView, sensorState, armedUntil, Function.update_of_ne (Ne.symm hne)]
        have hown' (online : Option ℕ) : sensorView
            { e with
              outbox := []
              availabilityOnline := Function.update e.availabilityOnline ev.sensor online }
            ev.sensor = { e.sensorView ev.sensor with online := online } := by
          simp [sensorView, sensorState, armedUntil]
        cases honline : ev.online with
        | true =>
          simp only [if_true]
          by_cases hs : ev.sensor = sensor
          · subst hs
            rw [if_pos rfl, hown']
            exact .online
          · rw [if_neg hs, hother hs]
            exact .idle
        | false =>
          simp only [Bool.false_eq_true, if_false]
          by_cases hs : ev.sensor = sensor
          · subst hs
            rw [if_pos rfl]
            have hcleared : Filters ev.sensor
                { e with
                  outbox := []
                  availabilityOnline := Function.update e.availabilityOnline ev.sensor none } :=
              ⟨h.filtered, h.waits⟩
            let offline : PresenceEvent :=
              { sensorId := ev.sensor, state := .unavailable, stamp := ev.stamp }
            have hcleared' : Filters offline.sensorId _ := hcleared
            have hview := view_handlePresenceEvent env hcleared'
            have htaken : ({ e.sensorView ev.sensor with online := none } : SensorView).receive
                (e.holdTime ev.sensor) env.now offline =
                  (e.sensorView ev.sensor).take (e.holdTime ev.sensor) env.now offline := by
              simp [SensorView.receive, SensorView.take, offline]
            have htime : RulesEngine.holdTime
                { e with
                  outbox := []
                  availabilityOnline := Function.update e.availabilityOnline ev.sensor none }
                ev.sensor = e.holdTime ev.sensor := rfl
            dsimp only [offline] at hview htaken
            rw [hview, hown', htime, htaken]
            exact .offline _ rfl
          · rw [if_neg hs, view_other env (by exact hs), hother hs]
            exact .idle
      | _ => cases hc

end RulesEngine
end Dormant
