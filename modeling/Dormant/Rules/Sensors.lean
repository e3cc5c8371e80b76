import Dormant.Rules.Presence

/-!
# What the handlers do with one sensor

The engine keeps a sensor's hold and its timers, and the zone engine its state. Only an event of
the sensor, a sweep that finds it stale and the expiry of its hold move any of them. `Reported`
says what an event does, `Unmoved` what everything else does.
-/

namespace Dormant
set_option autoImplicit false

theorem ZoneEngine.apply_sensorStates (z : ZoneEngine) (ev : PresenceEvent) (sensor : SensorId) :
    (z.apply ev).1.sensorStates sensor =
      if sensor = ev.sensorId then (z.sensorStates sensor).map fun _ => (ev.state, ev.stamp)
      else z.sensorStates sensor := by
  unfold ZoneEngine.apply
  split
  · rename_i hunknown
    rw [Option.isNone_iff_eq_none] at hunknown
    split
    · rename_i hs
      rw [hs, hunknown, Option.map_none]
    · rfl
  · rename_i hknown
    dsimp only
    split
    · rename_i hs
      subst hs
      obtain ⟨known, hk⟩ := Option.ne_none_iff_exists'.mp (by simpa using hknown)
      rw [Function.update_self, hk, Option.map_some]
    · rename_i hs
      exact Function.update_of_ne hs _ _

namespace RulesEngine
variable {e e' : RulesEngine} {sensor : SensorId} {now : ℕ}

/-- The sensor's hold, its state and its timers stay. -/
structure Unmoved (sensor : SensorId) (e e' : RulesEngine) : Prop where
  wiring : e'.wiring = e.wiring
  hold : e'.holds sensor = e.holds sensor
  state : e'.zoneEngine.sensorStates sensor = e.zoneEngine.sensorStates sensor
  timers : ∀ deadline, (deadline, TimerEntry.holdExpiry sensor) ∈ e'.timers ↔
    (deadline, TimerEntry.holdExpiry sensor) ∈ e.timers

theorem Unmoved.refl (e : RulesEngine) : Unmoved sensor e e := ⟨rfl, rfl, rfl, fun _ => Iff.rfl⟩

theorem Unmoved.trans {e'' : RulesEngine} (h : Unmoved sensor e e') (h' : Unmoved sensor e' e'') :
    Unmoved sensor e e'' :=
  ⟨h'.wiring.trans h.wiring, h'.hold.trans h.hold, h'.state.trans h.state,
    fun deadline => (h'.timers deadline).trans (h.timers deadline)⟩

theorem Unmoved.foldl {α : Type} {f : RulesEngine → α → RulesEngine}
    (hf : ∀ e a, Unmoved sensor e (f e a)) (l : List α) (e : RulesEngine) :
    Unmoved sensor e (l.foldl f e) := by
  induction l generalizing e with
  | nil => exact .refl e
  | cons a l ih => exact (hf e a).trans (ih (f e a))

theorem Unmoved.of_sensing (hwiring : e'.wiring = e.wiring) (hsensing : e'.sensing = e.sensing)
    (htimers : ∀ deadline, (deadline, TimerEntry.holdExpiry sensor) ∈ e'.timers ↔
      (deadline, TimerEntry.holdExpiry sensor) ∈ e.timers) : Unmoved sensor e e' :=
  ⟨hwiring, congrArg (fun s : Sensing => s.holds sensor) hsensing,
    congrArg (fun s : Sensing => s.zoneEngine.sensorStates sensor) hsensing, htimers⟩

/-! ## What moves no sensor -/

theorem holdExpiry_stepMachine (e : RulesEngine) (display : DisplayId) (input : Input) (now : ℕ)
    (deadline : ℕ) :
    (deadline, TimerEntry.holdExpiry sensor) ∈ (e.stepMachine display input now).timers ↔
      (deadline, TimerEntry.holdExpiry sensor) ∈ e.timers := by
  cases hm : e.machines display with
  | none => rw [stepMachine_none e display now hm]
  | some machine =>
    obtain ⟨notes, scopes, -, hstep⟩ := stepMachine_eq hm input now
    rw [hstep, List.mem_append, or_iff_right_of_imp]
    intro hmem
    rw [List.mem_reverse, List.mem_filterMap] at hmem
    obtain ⟨effect, -, heffect⟩ := hmem
    cases effect <;> simp [timerOf] at heffect

theorem unmoved_stepMachine (e : RulesEngine) (display : DisplayId) (input : Input) (now : ℕ) :
    Unmoved sensor e (e.stepMachine display input now) := by
  obtain ⟨hwiring, hsensing⟩ := stepMachine_frame e display input now
  exact .of_sensing hwiring hsensing (holdExpiry_stepMachine e display input now)

theorem unmoved_chores (h : Chores now e e') : Unmoved sensor e e' := by
  apply h.keeps (P := fun e' => Unmoved sensor e e') ?_ (.refl e)
  intro e₁ e₂ hchore hu
  cases hchore with
  | book => exact hu.trans (.of_sensing rfl rfl fun _ => Iff.rfl)
  | send => exact hu.trans (.of_sensing rfl rfl fun _ => Iff.rfl)
  | tell display h => exact hu.trans (unmoved_stepMachine e₁ display _ now)

theorem unmoved_setHoldFlag (e : RulesEngine) (display : DisplayId) (active : Bool) :
    Unmoved sensor e (e.setHoldFlag display active) := by
  obtain ⟨hwiring, hsensing⟩ := setHoldFlag_frame (e := e) display active
  refine .of_sensing hwiring hsensing fun deadline => ?_
  unfold setHoldFlag
  split <;> exact Iff.rfl

theorem unmoved_clearInputWakeHold (e : RulesEngine) (display : DisplayId) :
    Unmoved sensor e (e.clearInputWakeHold display) := by
  have hcleared : Unmoved sensor e
      { e with inputWakeHolds := Function.update e.inputWakeHolds display none } :=
    ⟨rfl, rfl, rfl, fun _ => Iff.rfl⟩
  exact hcleared.trans (unmoved_setHoldFlag _ display false)

variable (env : Env)

theorem unmoved_fanToDisplay (e : RulesEngine) (display : DisplayId) :
    Unmoved sensor e (e.fanToDisplay env display) := by
  have told (e : RulesEngine) (present : Bool) : Unmoved sensor e
      ((e.feedOwnership env display env.now).stepMachine display (.zonePresent present) env.now) :=
    (unmoved_chores (chores_feedOwnership e env display env.now)).trans
      (unmoved_stepMachine _ display _ env.now)
  unfold fanToDisplay
  dsimp only
  split
  · exact (unmoved_clearInputWakeHold e display).trans (told _ _)
  · exact told e _

theorem unmoved_fanZoneChangeToDisplays (e : RulesEngine) (zone : ZoneId) :
    Unmoved sensor e (e.fanZoneChangeToDisplays env zone) :=
  .foldl (fun e _ => .foldl (fun e display => unmoved_fanToDisplay env e display) _ e) _ e

theorem unmoved_handleInputWake (e : RulesEngine) (display : DisplayId) :
    Unmoved sensor e (e.handleInputWake env display) := by
  have asked (e : RulesEngine) : Unmoved sensor e (e.stepOne env display .inputWake) :=
    unmoved_chores (chores_stepOne e env display rfl)
  unfold handleInputWake
  dsimp only
  split
  · split
    · refine Unmoved.trans ?_ (asked _)
      refine Unmoved.trans ?_ (unmoved_setHoldFlag _ display true)
      exact ⟨rfl, rfl, rfl, fun deadline => by simp [pushTimer]⟩
    · exact asked e
  · exact asked e

theorem unmoved_fireInputWakeHoldExpiry (e : RulesEngine) (display : DisplayId) (now : ℕ) :
    Unmoved sensor e (e.fireInputWakeHoldExpiry env display now) := by
  have hfed : Unmoved sensor e ((e.clearInputWakeHold display).feedOwnership env display now) :=
    (unmoved_clearInputWakeHold e display).trans
      (unmoved_chores (chores_feedOwnership _ env display now))
  unfold fireInputWakeHoldExpiry
  split
  · exact .refl e
  · split
    · exact .refl e
    · dsimp only
      split
      · exact hfed.trans (unmoved_stepMachine _ display _ now)
      · exact hfed

theorem unmoved_handleInternalResult (e : RulesEngine) (res : InternalResult) :
    Unmoved sensor e (e.handleInternalResult env res) := by
  obtain ⟨now, e', hchores, attempts, failed, outbox, heq⟩ := handleInternalResult_eq env e res
  rw [heq]
  exact (unmoved_chores hchores).trans ⟨rfl, rfl, rfl, fun _ => Iff.rfl⟩

/-! ## An event -/

theorem unmoved_changes (e : RulesEngine) (changes : List ZoneChange) :
    Unmoved sensor e (changes.foldl
      (fun e change => (e.send (.event (.zoneChanged change.zone change.present change.cause)))
        |>.fanZoneChangeToDisplays env change.zone) e) := by
  apply Unmoved.foldl
  intro e change
  exact (unmoved_chores (chores_send e env.now rfl)).trans
    (unmoved_fanZoneChangeToDisplays env _ change.zone)

/-- An event that is applied moves the state of its sensor and nothing else of any sensor. -/
theorem applyPresence_sensor (e : RulesEngine) (ev : PresenceEvent) (sensor : SensorId) :
    (e.applyPresence env ev).wiring = e.wiring ∧
      (e.applyPresence env ev).holds sensor = e.holds sensor ∧
      (e.applyPresence env ev).zoneEngine.sensorStates sensor =
        (if sensor = ev.sensorId then
          (e.zoneEngine.sensorStates sensor).map fun _ => (ev.state, ev.stamp)
        else e.zoneEngine.sensorStates sensor) ∧
      ∀ deadline, (deadline, TimerEntry.holdExpiry sensor) ∈ (e.applyPresence env ev).timers ↔
        (deadline, TimerEntry.holdExpiry sensor) ∈ e.timers := by
  obtain ⟨hwiring, -, htimers, hsensing⟩ := registered_frame env e ev
  have hfanned : Unmoved sensor (e.registered env ev) _ :=
    unmoved_changes env (e.registered env ev) (e.zoneEngine.apply ev).2
  rw [applyPresence_eq, ← e.zoneEngine.apply_sensorStates ev sensor]
  refine ⟨hfanned.wiring.trans hwiring, hfanned.hold.trans ?_, hfanned.state.trans ?_,
    fun deadline => (hfanned.timers deadline).trans (by rw [htimers])⟩
  · exact congrArg (fun s : Sensing => s.holds sensor) hsensing
  · exact congrArg (fun s : Sensing => s.zoneEngine.sensorStates sensor) hsensing

/-- An event goes through the hold of its sensor, and on to the zone engine if it passes. -/
structure Reported (e e' : RulesEngine) (ev : PresenceEvent) (f : Filtered) : Prop where
  wiring : e'.wiring = e.wiring
  hold : e'.holds ev.sensorId = some f.hold
  state : e'.zoneEngine.sensorStates ev.sensorId =
    if f.passes then (e.zoneEngine.sensorStates ev.sensorId).map fun _ => (ev.state, ev.stamp)
    else e.zoneEngine.sensorStates ev.sensorId
  timers : ∀ deadline, (deadline, TimerEntry.holdExpiry ev.sensorId) ∈ e'.timers ↔
    f.deadline = some deadline ∨ (deadline, TimerEntry.holdExpiry ev.sensorId) ∈ e.timers

theorem Unmoved.reported {e'' : RulesEngine} {ev : PresenceEvent} {f : Filtered}
    (h : Unmoved ev.sensorId e e') (h' : Reported e' e'' ev f) : Reported e e'' ev f := by
  refine ⟨h'.wiring.trans h.wiring, h'.hold, ?_, fun deadline => ?_⟩
  · rw [h'.state, h.state]
  · rw [h'.timers, h.timers]

theorem Reported.unmoved {e'' : RulesEngine} {ev : PresenceEvent} {f : Filtered}
    (h : Reported e e' ev f) (h' : Unmoved ev.sensorId e' e'') : Reported e e'' ev f := by
  refine ⟨h'.wiring.trans h.wiring, h'.hold.trans h.hold, h'.state.trans h.state, fun deadline => ?_⟩
  rw [h'.timers, h.timers]

theorem reported_handlePresenceEvent {ev : PresenceEvent} {hold : HoldState}
    (h : e.holds ev.sensorId = some hold) :
    Reported e (e.handlePresenceEvent env ev) ev
      (hold.filter (e.holdTime ev.sensorId) env.now ev) := by
  have hfilter := applyHoldFilter_some env h
  have hfiltered (online : SensorId → Option ℕ) := applyHoldFilter_some env
    (e := { e with availabilityOnline := online }) h
  rw [handlePresenceEvent_eq, hfilter]
  unfold filtered
  rw [hfiltered]
  dsimp only
  generalize hf : hold.filter (e.holdTime ev.sensorId) env.now ev = f
  have hsame (online : SensorId → Option ℕ) :
      hold.filter (holdTime { e with availabilityOnline := online } ev.sensorId) env.now ev = f :=
    hf
  rw [hsame]
  have htimer (deadline : ℕ) : (deadline, TimerEntry.holdExpiry ev.sensorId) ∈
      (f.deadline.map (·, TimerEntry.holdExpiry ev.sensorId)).toList ++ e.timers ↔
        f.deadline = some deadline ∨ (deadline, TimerEntry.holdExpiry ev.sensorId) ∈ e.timers := by
    rw [List.mem_append]
    cases f.deadline <;> simp [eq_comm]
  cases hpass : f.passes with
  | true =>
    obtain ⟨hwiring, hholds, hstate, htimers⟩ := applyPresence_sensor env
      { e with
        availabilityOnline := if ev.state = .unavailable then
          Function.update e.availabilityOnline ev.sensorId none else e.availabilityOnline
        holds := Function.update e.holds ev.sensorId (some f.hold)
        timers := (f.deadline.map (·, TimerEntry.holdExpiry ev.sensorId)).toList ++ e.timers } ev
        ev.sensorId
    rw [if_pos rfl] at hstate
    refine ⟨hwiring, hholds.trans (Function.update_self _ _ _), ?_, fun deadline => ?_⟩
    · rw [hpass]
      exact hstate
    · exact (htimers deadline).trans (htimer deadline)
  | false =>
    refine ⟨rfl, Function.update_self _ _ _, ?_, htimer⟩
    rw [hpass]
    rfl

theorem unmoved_applyHoldFilter {ev : PresenceEvent} (hne : ev.sensorId ≠ sensor)
    (e : RulesEngine) : Unmoved sensor e (e.applyHoldFilter env ev).1 := by
  cases h : e.holds ev.sensorId with
  | none =>
    rw [applyHoldFilter_none env h]
    exact .refl e
  | some hold =>
    rw [applyHoldFilter_some env h]
    refine ⟨rfl, Function.update_of_ne (Ne.symm hne) _ _, rfl, fun deadline => ?_⟩
    dsimp only
    rw [List.mem_append, or_iff_right_of_imp]
    intro hmem
    cases hd : (hold.filter (e.holdTime ev.sensorId) env.now ev).deadline with
    | none => simp [hd] at hmem
    | some armed =>
      simp only [hd, Option.map_some, Option.toList_some, List.mem_singleton, Prod.mk.injEq,
        TimerEntry.holdExpiry.injEq] at hmem
      exact absurd hmem.2.symm hne

theorem unmoved_handlePresenceEvent {ev : PresenceEvent} (hne : ev.sensorId ≠ sensor)
    (e : RulesEngine) : Unmoved sensor e (e.handlePresenceEvent env ev) := by
  have hfiltered : Unmoved sensor e (e.filtered env ev) := by
    unfold filtered
    refine Unmoved.trans ?_ (unmoved_applyHoldFilter env hne _)
    exact ⟨rfl, rfl, rfl, fun _ => Iff.rfl⟩
  rw [handlePresenceEvent_eq]
  split
  · obtain ⟨hwiring, hholds, hstate, htimers⟩ := applyPresence_sensor env (e.filtered env ev) ev sensor
    rw [if_neg (Ne.symm hne)] at hstate
    exact hfiltered.trans ⟨hwiring, hholds, hstate, htimers⟩
  · exact hfiltered

/-! ## A sweep -/

/-- The event that a sweep synthesises for a stale sensor. -/
def staleEvent (env : Env) (sensor : SensorId) : PresenceEvent :=
  { sensorId := sensor, state := .unavailable, stamp := env.wall }

/-- The state that the zone engine has of a sensor. -/
def sensorState (e : RulesEngine) (sensor : SensorId) : Option SensorState :=
  (e.zoneEngine.sensorStates sensor).map Prod.fst

/-- A sweep leaves a sensor alone, or finds it stale and makes it unavailable. -/
def Swept (env : Env) (sensor : SensorId) (hold : HoldState) (e e' : RulesEngine) : Prop :=
  Unmoved sensor e e' ∨
    (∃ state, e.sensorState sensor = some state ∧ state ≠ .unavailable) ∧
      Reported e e' (staleEvent env sensor)
        (hold.filter (e.holdTime sensor) env.now (staleEvent env sensor))

theorem Unmoved.sensorState (h : Unmoved sensor e e') :
    e'.sensorState sensor = e.sensorState sensor := by
  unfold RulesEngine.sensorState
  rw [h.state]

theorem Unmoved.holdTime (h : Unmoved sensor e e') : e'.holdTime = e.holdTime := by
  have hcfg : e'.cfg = e.cfg := congrArg Wiring.cfg h.wiring
  unfold RulesEngine.holdTime
  rw [hcfg]

theorem Unmoved.swept {e'' : RulesEngine} {hold : HoldState} (h : Unmoved sensor e e')
    (h' : Swept env sensor hold e' e'') : Swept env sensor hold e e'' := by
  rcases h' with hun | ⟨hstands, hrep⟩
  · exact .inl (h.trans hun)
  · right
    rw [h.sensorState] at hstands
    rw [h.holdTime] at hrep
    exact ⟨hstands, h.reported hrep⟩

/-- A sensor that is unavailable already is left alone. -/
theorem unmoved_sweepSensor (h : e.sensorState sensor = some .unavailable) (swept : SensorId)
    (staleTimeout : ℕ) : Unmoved sensor e (e.sweepSensor env swept staleTimeout) := by
  have hother (hne : swept ≠ sensor) (e : RulesEngine) :
      Unmoved sensor e (e.expireSensor env swept staleTimeout) := by
    unfold expireSensor
    split
    · exact .refl e
    · split
      · exact unmoved_handlePresenceEvent env (by exact hne) e
      · exact .refl e
  unfold sweepSensor
  split
  · exact .refl e
  · exact .refl e
  · rename_i state hstate hknown
    have hne : swept ≠ sensor := by
      rintro rfl
      unfold sensorState at h
      rw [hknown, Option.map_some, Option.some.injEq] at h
      exact hstate _ (Prod.ext h rfl)
    split
    · exact hother hne e
    · split
      · refine Unmoved.trans ?_ (hother hne _)
        exact ⟨rfl, rfl, rfl, fun _ => Iff.rfl⟩
      · exact .refl e

theorem swept_sweepSensor {hold : HoldState} (h : e.holds sensor = some hold) (swept : SensorId)
    (staleTimeout : ℕ) : Swept env sensor hold e (e.sweepSensor env swept staleTimeout) := by
  have expired (e : RulesEngine) (h : e.holds sensor = some hold)
      (hstate : ∃ state, e.sensorState swept = some state ∧ state ≠ .unavailable) :
      Swept env sensor hold e (e.expireSensor env swept staleTimeout) := by
    unfold expireSensor
    split
    · exact .inl (.refl e)
    · split
      · by_cases hs : swept = sensor
        · subst hs
          exact .inr ⟨hstate, reported_handlePresenceEvent env h⟩
        · exact .inl (unmoved_handlePresenceEvent env (by exact hs) e)
      · exact .inl (.refl e)
  unfold sweepSensor
  split
  · exact .inl (.refl e)
  · exact .inl (.refl e)
  · rename_i state hstate hknown
    have hstands : ∃ state, e.sensorState swept = some state ∧ state ≠ .unavailable := by
      obtain ⟨state, stamp⟩ := state
      refine ⟨state, by rw [sensorState, hknown, Option.map_some], ?_⟩
      rintro rfl
      exact hstate stamp rfl
    split
    · exact expired e h hstands
    · split
      · have hlease : Unmoved sensor e { e with
            availabilityOnline := Function.update e.availabilityOnline swept none } :=
          ⟨rfl, rfl, rfl, fun _ => Iff.rfl⟩
        exact hlease.swept env (expired _ h hstands)
      · exact .inl (.refl e)

theorem swept_sweepStaleSensors {hold : HoldState} (h : e.holds sensor = some hold) :
    Swept env sensor hold e (e.sweepStaleSensors env) := by
  unfold sweepStaleSensors
  generalize e.cfg.sensors = sensors
  induction sensors generalizing e with
  | nil => exact .inl (.refl e)
  | cons scfg sensors ih =>
    rw [List.foldl_cons]
    rcases swept_sweepSensor env h scfg.sensor scfg.staleTimeout with hun | ⟨hstands, hrep⟩
    · exact hun.swept env (ih (hun.hold.trans h))
    · -- the sensor is unavailable from here on
      right
      refine ⟨hstands, hrep.unmoved ?_⟩
      have hunavailable : (e.sweepSensor env scfg.sensor scfg.staleTimeout).sensorState sensor =
          some .unavailable := by
        obtain ⟨state, hstate, -⟩ := hstands
        obtain ⟨known, hknown, -⟩ := Option.map_eq_some_iff.mp hstate
        have hsensor := hrep.state
        have hpass : (hold.filter (e.holdTime sensor) env.now (staleEvent env sensor)).passes =
          true := rfl
        rw [hpass, if_pos rfl] at hsensor
        unfold sensorState
        have hcase : (e.sweepSensor env scfg.sensor scfg.staleTimeout).zoneEngine.sensorStates
            sensor = (e.zoneEngine.sensorStates sensor).map fun _ =>
              (SensorState.unavailable, env.wall) := hsensor
        rw [hcase, hknown]
        rfl
      generalize e.sweepSensor env scfg.sensor scfg.staleTimeout = e₁ at hunavailable
      clear ih hrep
      induction sensors generalizing e₁ with
      | nil => exact .refl e₁
      | cons scfg sensors ih =>
        have hstep := unmoved_sweepSensor env hunavailable scfg.sensor scfg.staleTimeout
        exact hstep.trans (ih _ (hstep.sensorState.trans hunavailable))

/-! ## The expiry of a hold -/

/-- A hold keeps back events of its own sensor only. -/
def HoldsOwn (e : RulesEngine) : Prop :=
  ∀ sensor hold ev, e.holds sensor = some hold → hold.pendingAbsent = some ev →
    ev.sensorId = sensor

theorem HoldsOwn.unmoved (h : e.HoldsOwn) (hun : ∀ sensor, Unmoved sensor e e') : e'.HoldsOwn := by
  intro sensor hold ev hs hp
  rw [(hun sensor).hold] at hs
  exact h sensor hold ev hs hp

theorem HoldState.filter_pending {hold : HoldState} {holdTime : Option ℕ} {now : ℕ}
    {ev pending : PresenceEvent}
    (h : (hold.filter holdTime now ev).hold.pendingAbsent = some pending) :
    pending = ev ∨ hold.pendingAbsent = some pending := by
  unfold HoldState.filter at h
  split at h
  · split at h
    · exact .inr h
    · cases h
  · split at h
    · exact .inl (Option.some.inj h).symm
    · exact .inr h
  · cases h

theorem holdsOwn_handlePresenceEvent (h : e.HoldsOwn) (ev : PresenceEvent) :
    (e.handlePresenceEvent env ev).HoldsOwn := by
  have hfiltered : (e.filtered env ev).HoldsOwn := by
    unfold filtered
    cases hev : e.holds ev.sensorId with
    | none =>
      rw [applyHoldFilter_none env (by exact hev)]
      exact h
    | some held =>
      rw [applyHoldFilter_some env (by exact hev)]
      intro sensor hold pending hs hp
      dsimp only at hs
      by_cases hsensor : sensor = ev.sensorId
      · subst hsensor
        rw [Function.update_self, Option.some.injEq] at hs
        subst hs
        rcases HoldState.filter_pending hp with rfl | hold'
        · rfl
        · exact h _ held pending hev hold'
      · rw [Function.update_of_ne hsensor] at hs
        exact h sensor hold pending hs hp
  rw [handlePresenceEvent_eq]
  split
  · intro sensor hold pending hs hp
    rw [(applyPresence_sensor env (e.filtered env ev) ev sensor).2.1] at hs
    exact hfiltered sensor hold pending hs hp
  · exact hfiltered

theorem holdsOwn_sweepStaleSensors (h : e.HoldsOwn) : (e.sweepStaleSensors env).HoldsOwn := by
  have expired {e : RulesEngine} (h : e.HoldsOwn) (sensor : SensorId) (staleTimeout : ℕ) :
      (e.expireSensor env sensor staleTimeout).HoldsOwn := by
    unfold expireSensor
    split
    · exact h
    · split
      · exact holdsOwn_handlePresenceEvent env h _
      · exact h
  unfold sweepStaleSensors
  generalize e.cfg.sensors = sensors
  induction sensors generalizing e with
  | nil => exact h
  | cons scfg sensors ih =>
    apply ih
    dsimp only
    unfold sweepSensor
    split
    · exact h
    · exact h
    · split
      · exact expired h _ _
      · split
        · exact expired (by exact h) _ _
        · exact h

theorem holdsOwn_fireHoldExpiry (h : e.HoldsOwn) (sensor : SensorId) (deadline : ℕ) :
    (e.fireHoldExpiry env sensor deadline).HoldsOwn := by
  have emptied (armedUntil : Option ℕ) : HoldsOwn { e with
      holds := Function.update e.holds sensor
        (some { armedUntil := armedUntil, pendingAbsent := none }) } := by
    intro s hold pending hs hp
    dsimp only at hs
    by_cases hsensor : s = sensor
    · subst hsensor
      rw [Function.update_self, Option.some.injEq] at hs
      subst hs
      cases hp
    · rw [Function.update_of_ne hsensor] at hs
      exact h s hold pending hs hp
  unfold fireHoldExpiry
  split
  · exact h
  · dsimp only
    split
    · exact emptied _
    · split
      · exact h
      · split
        · exact emptied _
        · exact holdsOwn_handlePresenceEvent env (emptied _) _

theorem unmoved_fireHoldExpiry (h : e.HoldsOwn) {expired : SensorId} (hne : expired ≠ sensor)
    (deadline : ℕ) : Unmoved sensor e (e.fireHoldExpiry env expired deadline) := by
  have written (hold : HoldState) : Unmoved sensor e
      { e with holds := Function.update e.holds expired (some hold) } :=
    ⟨rfl, Function.update_of_ne (Ne.symm hne) _ _, rfl, fun _ => Iff.rfl⟩
  unfold fireHoldExpiry
  split
  · exact .refl e
  · rename_i hold hhold
    dsimp only
    split
    · exact written _
    · split
      · exact .refl e
      · split
        · exact written _
        · rename_i ev hev
          apply (written _).trans
          apply unmoved_handlePresenceEvent
          rw [h expired hold ev hhold hev]
          exact hne

/-! ## The events -/

/-- The event of a sensor that an event of the engine brings, raw or synthesised by the sweep. -/
def reported (sensor : SensorId) (e : RulesEngine) (i : Env × Event) : Option PresenceEvent :=
  match i.2 with
  | .presence ev => if ev.sensorId = sensor then some ev else none
  | .control (.sensorAvailability ev) =>
    if ev.sensor = sensor ∧ ev.online = false then
      some { sensorId := ev.sensor, state := .unavailable, stamp := ev.stamp }
    else none
  | .sweep =>
    if e.sensorState sensor ≠ some .unavailable ∧
        (engine.next e i).1.sensorState sensor = some .unavailable then
      some (staleEvent i.1 sensor)
    else none
  | _ => none

/-- What an event of the engine does to a sensor with a hold. -/
inductive Turn (sensor : SensorId) (hold : HoldState) (e : RulesEngine) (i : Env × Event)
    (e' : RulesEngine) : Prop
  | unmoved (h : Unmoved sensor e e') (hreported : e.reported sensor i = none)
      (hdue : ∀ deadline, e.dueTimer i ≠ some (deadline, .holdExpiry sensor))
  | reported {ev : PresenceEvent} (hsensor : ev.sensorId = sensor)
      (h : Reported e e' ev (hold.filter (e.holdTime ev.sensorId) i.1.now ev))
      (hreported : e.reported sensor i = some ev)
  | expired {deadline : ℕ} (hdue : e.dueTimer i = some (deadline, .holdExpiry sensor))
      (h : e' = ({ e with outbox := [] }.popTimer (deadline, .holdExpiry sensor)).fireHoldExpiry
        i.1 sensor deadline)

theorem unmoved_popTimer {t : Timer} (h : t.2 ≠ .holdExpiry sensor) (e : RulesEngine) :
    Unmoved sensor e (e.popTimer t) := by
  refine ⟨rfl, rfl, rfl, fun deadline => ?_⟩
  apply List.mem_erase_of_ne
  rintro rfl
  exact h rfl

theorem holdsOwn_handle (h : e.HoldsOwn) (event : Event) : (e.handle env event).HoldsOwn := by
  cases event with
  | presence ev => exact holdsOwn_handlePresenceEvent env h ev
  | result res => exact h.unmoved fun _ => unmoved_handleInternalResult env e res
  | sweep => exact holdsOwn_sweepStaleSensors env h
  | control msg =>
    cases hc : msg.isChore with
    | true => exact h.unmoved fun _ => unmoved_chores (chores_handleControl e env hc)
    | false =>
      cases msg with
      | inputWake display => exact h.unmoved fun _ => unmoved_handleInputWake env e display
      | publishDaemonEvent event => exact h
      | sensorAvailability ev =>
        simp only [handle, handleControl, handleSensorAvailability]
        split
        · exact h
        · exact holdsOwn_handlePresenceEvent env (by exact h) _
      | _ => cases hc
  | timer =>
    show (e.fireDueTimer env).HoldsOwn
    unfold fireDueTimer
    split
    · exact h
    · rename_i deadline entry _
      have hpop : (e.popTimer (deadline, entry)).HoldsOwn := h
      split
      · exact h
      · cases entry with
        | displayTick display =>
          exact hpop.unmoved fun _ => unmoved_chores (chores_displayTick _ env display deadline)
        | displayStageTick display gen =>
          exact hpop.unmoved fun _ => unmoved_chores ((chores_feedOwnership _ env display
            deadline).trans (chores_tell _ display deadline rfl))
        | holdExpiry sensor => exact holdsOwn_fireHoldExpiry env hpop sensor deadline
        | inputWakeHoldExpiry display =>
          exact hpop.unmoved fun _ => unmoved_fireInputWakeHoldExpiry env _ display deadline

/-- An event of the engine that pops no hold timer of the sensor, with its report if it has one. -/
theorem turn_handle {hold : HoldState} (hown : e.HoldsOwn) (h : e.holds sensor = some hold)
    (i : Env × Event) : Turn sensor hold e i (engine.next e i).1 := by
  obtain ⟨env, event⟩ := i
  have hclear : Unmoved sensor e { e with outbox := [] } := ⟨rfl, rfl, rfl, fun _ => Iff.rfl⟩
  have hnotimer (hevent : event ≠ .timer) (deadline : ℕ) :
      e.dueTimer (env, event) ≠ some (deadline, .holdExpiry sensor) := by
    cases event with
    | timer => exact absurd rfl hevent
    | _ => simp [dueTimer]
  have report (ev : PresenceEvent) (e₁ : RulesEngine) (hstart : Unmoved sensor e e₁)
      (hr : e.reported sensor (env, event) = if ev.sensorId = sensor then some ev else none)
      (hnext : (engine.next e (env, event)).1 = e₁.handlePresenceEvent env ev)
      (hevent : event ≠ .timer) : Turn sensor hold e (env, event) (engine.next e (env, event)).1 := by
    rw [hnext]
    by_cases hs : ev.sensorId = sensor
    · subst hs
      rw [if_pos rfl] at hr
      have hrep := reported_handlePresenceEvent env (hstart.hold.trans h)
      rw [hstart.holdTime] at hrep
      exact .reported rfl (hstart.reported hrep) hr
    · rw [if_neg hs] at hr
      exact .unmoved (hstart.trans (unmoved_handlePresenceEvent env hs e₁)) hr (hnotimer hevent)
  cases event with
  | presence ev => exact report ev { e with outbox := [] } hclear rfl rfl (by simp)
  | result res =>
    exact .unmoved (hclear.trans (unmoved_handleInternalResult env _ res)) rfl (hnotimer (by simp))
  | control msg =>
    have unmoved (hun : Unmoved sensor { e with outbox := [] }
        (handleControl env { e with outbox := [] } msg))
        (hr : e.reported sensor (env, .control msg) = none) :
        Turn sensor hold e (env, .control msg) (engine.next e (env, .control msg)).1 :=
      .unmoved (hclear.trans hun) hr (hnotimer (by simp))
    cases hc : msg.isChore with
    | true =>
      refine unmoved (unmoved_chores (chores_handleControl _ env hc)) ?_
      cases msg with
      | sensorAvailability ev => cases hc
      | _ => rfl
    | false =>
      cases msg with
      | inputWake display => exact unmoved (unmoved_handleInputWake env _ display) rfl
      | publishDaemonEvent event => exact unmoved ⟨rfl, rfl, rfl, fun _ => Iff.rfl⟩ rfl
      | sensorAvailability ev =>
        cases honline : ev.online with
        | true =>
          refine unmoved ?_ (by simp [reported, honline])
          simp only [handleControl, handleSensorAvailability, honline, if_true]
          exact ⟨rfl, rfl, rfl, fun _ => Iff.rfl⟩
        | false =>
          refine report { sensorId := ev.sensor, state := .unavailable, stamp := ev.stamp }
            { e with
              outbox := []
              availabilityOnline := Function.update e.availabilityOnline ev.sensor none }
            ⟨rfl, rfl, rfl, fun _ => Iff.rfl⟩ (by simp [reported, honline]) ?_ (by simp)
          simp [engine, handle, handleControl, handleSensorAvailability, honline]
      | _ => cases hc
  | sweep =>
    have hnext : (engine.next e (env, .sweep)).1 = sweepStaleSensors env { e with outbox := [] } :=
      rfl
    rcases hclear.swept env (swept_sweepStaleSensors env (e := { e with outbox := [] }) h) with
      hun | ⟨⟨state, hstate, hne⟩, hrep⟩
    · refine .unmoved hun ?_ (hnotimer (by simp))
      have hsame := hun.sensorState
      simp only [reported, hnext, hsame]
      rw [if_neg fun hboth => hboth.1 hboth.2]
    · refine .reported (by rfl) hrep ?_
      obtain ⟨known, hknown, -⟩ := Option.map_eq_some_iff.mp hstate
      have hafter : (engine.next e (env, .sweep)).1.sensorState sensor = some .unavailable := by
        have hmarked := hrep.state
        have hpass : (hold.filter (e.holdTime sensor) env.now (staleEvent env sensor)).passes =
          true := rfl
        rw [hpass, if_pos rfl] at hmarked
        have hcase : (sweepStaleSensors env { e with outbox := [] }).zoneEngine.sensorStates sensor =
          (e.zoneEngine.sensorStates sensor).map fun _ => (SensorState.unavailable, env.wall) :=
            hmarked
        rw [hnext, sensorState, hcase, hknown]
        rfl
      simp only [reported]
      rw [if_pos ⟨by rw [hstate]; simpa using hne, hafter⟩]
  | timer =>
    have hnext : (engine.next e (env, .timer)).1 = fireDueTimer env { e with outbox := [] } := rfl
    cases hdue : e.dueTimer (env, .timer) with
    | none =>
      have hidle : fireDueTimer env { e with outbox := [] } = { e with outbox := [] } :=
        fireDueTimer_idle hdue
      rw [hnext, hidle]
      exact .unmoved hclear rfl (by simp [hdue])
    | some t =>
      have hfired : fireDueTimer env { e with outbox := [] } =
          ({ e with outbox := [] }.popTimer t).fireTimer env t.1 t.2 := fireDueTimer_due hdue
      rw [hnext, hfired]
      obtain ⟨deadline, entry⟩ := t
      have unmoved (hne : entry ≠ .holdExpiry sensor)
          (hun : Unmoved sensor ({ e with outbox := [] }.popTimer (deadline, entry))
            (({ e with outbox := [] }.popTimer (deadline, entry)).fireTimer env deadline entry)) :
          Turn sensor hold e (env, .timer)
            (({ e with outbox := [] }.popTimer (deadline, entry)).fireTimer env deadline entry) := by
        refine .unmoved ((hclear.trans (unmoved_popTimer hne _)).trans hun) rfl ?_
        intro deadline' heq
        rw [hdue] at heq
        exact hne (congrArg Prod.snd (Option.some.inj heq))
      cases entry with
      | displayTick display =>
        exact unmoved (by simp) (unmoved_chores (chores_displayTick _ env display deadline))
      | displayStageTick display gen =>
        exact unmoved (by simp) (unmoved_chores ((chores_feedOwnership _ env display
          deadline).trans (chores_tell _ display deadline rfl)))
      | inputWakeHoldExpiry display =>
        exact unmoved (by simp) (unmoved_fireInputWakeHoldExpiry env _ display deadline)
      | holdExpiry expired =>
        by_cases hs : expired = sensor
        · subst hs
          exact .expired hdue rfl
        · exact unmoved (by simpa using hs)
            (unmoved_fireHoldExpiry env (by exact hown) hs deadline)

end RulesEngine
end Dormant
