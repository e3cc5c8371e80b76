import Dormant.Rules.Levels

/-!
# The zone level of a display

A machine is told of presence when a zone that drives its display flips, and never asks. So it
knows nothing until the first flip, however many sensors have reported, and what it knows from
then on is the effective presence. `completesSilently` names the report that leaves a display
with all of its sensors heard and its machine told nothing.
-/

namespace Dormant
set_option autoImplicit false

/-- The sensors of a zone, those of the zones nested in it included. -/
inductive ZoneEngine.SensorOf (z : ZoneEngine) : ZoneId → SensorId → Prop
  | direct {spec : ZoneSpec} {sensor : SensorId} (hspec : spec ∈ z.evalOrder)
      (hmember : .sensor sensor ∈ spec.members) : SensorOf z spec.id sensor
  | nested {spec : ZoneSpec} {zone : ZoneId} {sensor : SensorId} (hspec : spec ∈ z.evalOrder)
      (hmember : .zone zone ∈ spec.members) (h : SensorOf z zone sensor) :
      SensorOf z spec.id sensor

theorem ZoneEngine.SensorOf.congr {z z' : ZoneEngine} (h : z'.evalOrder = z.evalOrder)
    {zone : ZoneId} {sensor : SensorId} (hs : z.SensorOf zone sensor) : z'.SensorOf zone sensor := by
  induction hs with
  | direct hspec hmember => exact .direct (h ▸ hspec) hmember
  | nested hspec hmember _ ih => exact .nested (h ▸ hspec) hmember ih

namespace RulesEngine

/-- The sensor has delivered an event that went on to the zone engine. -/
def heard (e : RulesEngine) (sensor : SensorId) : Prop :=
  (e.sensorLastSeenVirtual sensor).isSome = true

def sensorFor (e : RulesEngine) (display : DisplayId) (sensor : SensorId) : Prop :=
  ∃ zone, e.drivenBy display zone ∧ e.zoneEngine.SensorOf zone sensor

structure TracksZones (e : RulesEngine) : Prop where
  known : ∀ display level, e.driven display → e.level display = some level →
    level = none ∨ level = some (e.effectiveZonePresence display)
  told : ∀ display level, e.driven display → e.level display = some level →
    (∀ sensor, e.sensorFor display sensor → e.heard sensor) →
      level = some (e.effectiveZonePresence display)

/-- With this event every sensor of a display is heard, its machine has not been told of a
level, and the event flips no zone that drives it. -/
def silent (e : RulesEngine) (ev : PresenceEvent) : Prop :=
  ∃ display, e.driven display ∧ e.level display = some none ∧
    (∀ sensor, e.sensorFor display sensor → e.heard sensor ∨ sensor = ev.sensorId) ∧
    ∀ change ∈ (e.zoneEngine.apply ev).2, ¬ e.drivenBy display change.zone

/-- The report of a sensor that an event takes past the hold filter. -/
def delivered (e : RulesEngine) (env : Env) : Event → Option PresenceEvent
  | .presence ev => (e.applyHoldFilter env ev).2
  | .control (.sensorAvailability ev) =>
    if ev.online then none
    else (e.applyHoldFilter env
      { sensorId := ev.sensor, state := .unavailable, stamp := ev.stamp }).2
  | _ => none

def completesSilently (e : RulesEngine) (i : Env × Event) : Prop :=
  ∃ ev ∈ e.delivered i.1 i.2, e.silent ev

/-! ## What the levels depend on -/

variable {e e' : RulesEngine} {display : DisplayId}

theorem sensorFor_congr (h : e'.wiring = e.wiring)
    (hz : e'.zoneEngine.evalOrder = e.zoneEngine.evalOrder) (display : DisplayId)
    (sensor : SensorId) : e'.sensorFor display sensor ↔ e.sensorFor display sensor := by
  constructor
  · rintro ⟨zone, hd, hs⟩
    exact ⟨zone, (drivenBy_congr h display zone).mp hd, hs.congr hz.symm⟩
  · rintro ⟨zone, hd, hs⟩
    exact ⟨zone, (drivenBy_congr h display zone).mpr hd, hs.congr hz⟩

theorem Told.tracks (h : Told e e') (ht : e.TracksZones) : e'.TracksZones := by
  have heffective (display : DisplayId) :
      e'.effectiveZonePresence display = e.effectiveZonePresence display :=
    effectiveZonePresence_congr h.wiring fun zone _ => by rw [h.zoneEngine]
  have hheard (sensor : SensorId) : e'.heard sensor ↔ e.heard sensor := by
    unfold heard
    rw [h.lastSeen]
  refine ⟨fun display level hd hl => ?_, fun display level hd hl hall => ?_⟩
  · rw [heffective]
    have hd' := (driven_congr h.wiring display).mp hd
    rcases h.level display with hsame | htold
    · exact ht.known display level hd' (hsame ▸ hl)
    · rw [htold, Option.map_eq_some_iff] at hl
      obtain ⟨-, -, hlevel⟩ := hl
      exact .inr hlevel.symm
  · rw [heffective]
    have hd' := (driven_congr h.wiring display).mp hd
    rcases h.level display with hsame | htold
    · apply ht.told display level hd' (hsame ▸ hl)
      intro sensor hs
      exact (hheard sensor).mp (hall sensor
        ((sensorFor_congr h.wiring (by rw [h.zoneEngine]) display sensor).mpr hs))
    · rw [htold, Option.map_eq_some_iff] at hl
      obtain ⟨-, -, hlevel⟩ := hl
      exact hlevel.symm

/-! ## The events that apply a report -/

variable (env : Env)

theorem heard_applied {ev : PresenceEvent} {now : ℕ} (h : Applied e e' ev now)
    (sensor : SensorId) : e'.heard sensor ↔ e.heard sensor ∨ sensor = ev.sensorId := by
  unfold heard
  rw [h.lastSeen]
  by_cases hs : sensor = ev.sensorId
  · simp [hs]
  · simp [hs]

theorem sensorFor_applied {ev : PresenceEvent} {now : ℕ} (h : Applied e e' ev now)
    (display : DisplayId) (sensor : SensorId) :
    e'.sensorFor display sensor ↔ e.sensorFor display sensor := by
  apply sensorFor_congr h.wiring
  rw [h.zoneEngine]
  exact e.zoneEngine.apply_evalOrder ev

/-- An applied report keeps every level right unless it is silent. -/
theorem tracks_applied_iff {ev : PresenceEvent} {now : ℕ} (h : Applied e e' ev now)
    (ht : e.TracksZones) : e'.TracksZones ↔ ¬ e.silent ev := by
  constructor
  · rintro ht' ⟨display, hdriven, hlevel, hall, hquiet⟩
    obtain ⟨hsame, -⟩ := h.kept display hquiet
    have htold := ht'.told display none ((driven_congr h.wiring display).mpr hdriven)
      (hsame.trans hlevel) (fun sensor hs => (heard_applied h sensor).mpr
        (hall sensor ((sensorFor_applied h display sensor).mp hs)))
    cases htold
  · intro hsilent
    refine ⟨fun display level hd hl => ?_, fun display level hd hl hall => ?_⟩
    · have hd' := (driven_congr h.wiring display).mp hd
      by_cases hflip : ∃ change ∈ (e.zoneEngine.apply ev).2, e.drivenBy display change.zone
      · rw [h.told display hflip, Option.map_eq_some_iff] at hl
        obtain ⟨-, -, hlevel⟩ := hl
        exact .inr hlevel.symm
      · push Not at hflip
        obtain ⟨hsame, heffective⟩ := h.kept display hflip
        rw [heffective]
        exact ht.known display level hd' (hsame ▸ hl)
    · have hd' := (driven_congr h.wiring display).mp hd
      by_cases hflip : ∃ change ∈ (e.zoneEngine.apply ev).2, e.drivenBy display change.zone
      · rw [h.told display hflip, Option.map_eq_some_iff] at hl
        obtain ⟨-, -, hlevel⟩ := hl
        exact hlevel.symm
      · push Not at hflip
        obtain ⟨hsame, heffective⟩ := h.kept display hflip
        rw [heffective]
        rcases ht.known display level hd' (hsame ▸ hl) with rfl | hlevel
        · refine absurd ⟨display, hd', hsame ▸ hl, fun sensor hs => ?_, hflip⟩ hsilent
          exact (heard_applied h sensor).mp
            (hall sensor ((sensorFor_applied h display sensor).mpr hs))
        · exact hlevel

/-- A report of a sensor that was heard before is never silent. -/
theorem not_silent_of_heard (ht : e.TracksZones) {ev : PresenceEvent} (h : e.heard ev.sensorId) :
    ¬ e.silent ev := by
  rintro ⟨display, hdriven, hlevel, hall, -⟩
  have htold := ht.told display none hdriven hlevel fun sensor hs => by
    rcases hall sensor hs with hheard | rfl
    · exact hheard
    · exact h
  cases htold

/-! ## The hold filter -/

/-- A hold is armed by a present report, and keeps back reports of its own sensor only. -/
def HoldsHeard (e : RulesEngine) : Prop :=
  ∀ sensor hold, e.holds sensor = some hold →
    (hold.armedUntil.isSome = true → e.heard sensor) ∧
    ∀ ev ∈ hold.pendingAbsent, ev.sensorId = sensor ∧ e.heard sensor

theorem HoldsHeard.congr (h : e.HoldsHeard) (hholds : e'.holds = e.holds)
    (hseen : e'.sensorLastSeenVirtual = e.sensorLastSeenVirtual) : e'.HoldsHeard := by
  unfold HoldsHeard heard
  rw [hholds, hseen]
  exact h

theorem HoldsHeard.of_sensing (h : e.HoldsHeard) (hs : e'.sensing = e.sensing) : e'.HoldsHeard :=
  h.congr (congrArg Sensing.holds hs) (congrArg Sensing.sensorLastSeenVirtual hs)

theorem HoldState.filter_heard {hold : HoldState} {sensor : SensorId} {P : Prop}
    (h : (hold.armedUntil.isSome = true → P) ∧ ∀ ev ∈ hold.pendingAbsent, ev.sensorId = sensor ∧ P)
    (holdTime : Option ℕ) (now : ℕ) {ev : PresenceEvent} (hs : ev.sensorId = sensor)
    (hpass : (hold.filter holdTime now ev).passes = true → P) :
    ((hold.filter holdTime now ev).hold.armedUntil.isSome = true → P) ∧
      ∀ ev' ∈ (hold.filter holdTime now ev).hold.pendingAbsent, ev'.sensorId = sensor ∧ P := by
  unfold HoldState.filter at hpass ⊢
  cases hstate : ev.state with
  | present =>
    simp only [hstate] at hpass ⊢
    cases holdTime with
    | none => exact h
    | some holdTime => exact ⟨fun _ => hpass rfl, by simp⟩
  | absent =>
    simp only [hstate] at hpass ⊢
    split
    · rename_i harmed
      exact ⟨h.1, by simpa using ⟨hs, h.1 harmed⟩⟩
    · exact h
  | unavailable =>
    simp only [hstate] at hpass ⊢
    exact ⟨fun _ => hpass trivial, by simp⟩

/-- What the engine's handlers rely on: the rule index, and the holds. -/
structure Ready (e : RulesEngine) : Prop where
  wired : e.Wired
  holds : e.HoldsHeard

/-! ## One presence event -/

theorem silent_congr (h : e'.tracking = e.tracking) (ev : PresenceEvent) :
    e'.silent ev ↔ e.silent ev := by
  simp only [tracking, Tracking.mk.injEq] at h
  obtain ⟨hwiring, hzone, hseen, hlevel⟩ := h
  have hsensors := sensorFor_congr hwiring (by rw [hzone])
  simp only [silent, heard, hlevel, hzone, hseen, driven_congr hwiring, hsensors,
    drivenBy_congr hwiring]

/-- The holds are right again once the event that the filter lets pass is heard. -/
theorem holdsHeard_filtered (h : e.HoldsHeard) {ev : PresenceEvent}
    (hholds : e'.holds = (e.filtered env ev).holds)
    (hheard : ∀ sensor, e.heard sensor ∨
      sensor = ev.sensorId ∧ (e.applyHoldFilter env ev).2.isSome = true → e'.heard sensor) :
    e'.HoldsHeard := by
  intro sensor hold hs
  rw [hholds] at hs
  cases hev : e.holds ev.sensorId with
  | none =>
    rw [filtered, applyHoldFilter_none env (by exact hev)] at hs
    obtain ⟨harmed, hpending⟩ := h sensor hold hs
    exact ⟨fun ha => hheard sensor (.inl (harmed ha)), fun ev' hp =>
      ⟨(hpending ev' hp).1, hheard sensor (.inl (hpending ev' hp).2)⟩⟩
  | some held =>
    rw [applyHoldFilter_some env hev] at hheard
    rw [filtered, applyHoldFilter_some env (by exact hev)] at hs
    dsimp only at hs hheard
    by_cases hsensor : sensor = ev.sensorId
    · subst hsensor
      rw [Function.update_self, Option.some.injEq] at hs
      subst hs
      obtain ⟨harmed, hpending⟩ := h _ held hev
      have hheld : (held.armedUntil.isSome = true → e'.heard ev.sensorId) ∧
          ∀ ev' ∈ held.pendingAbsent, ev'.sensorId = ev.sensorId ∧ e'.heard ev.sensorId :=
        ⟨fun ha => hheard _ (.inl (harmed ha)), fun ev' hp =>
          ⟨(hpending ev' hp).1, hheard _ (.inl (hpending ev' hp).2)⟩⟩
      apply HoldState.filter_heard hheld _ env.now rfl
      intro hpass
      apply hheard ev.sensorId
      right
      exact ⟨rfl, by rw [if_pos (by exact hpass)]; rfl⟩
    · rw [Function.update_of_ne hsensor] at hs
      obtain ⟨harmed, hpending⟩ := h sensor hold hs
      exact ⟨fun ha => hheard sensor (.inl (harmed ha)), fun ev' hp =>
        ⟨(hpending ev' hp).1, hheard sensor (.inl (hpending ev' hp).2)⟩⟩

theorem applied_handlePresenceEvent (h : e.Ready) {ev : PresenceEvent}
    (hpass : (e.applyHoldFilter env ev).2.isSome = true) :
    Applied (e.filtered env ev) (e.handlePresenceEvent env ev) ev env.now := by
  have hwiring := congrArg Tracking.wiring (filtered_tracking env e ev)
  rw [handlePresenceEvent_eq, if_pos hpass]
  exact applied_applyPresence env (h.wired.congr hwiring) ev

theorem ready_handlePresenceEvent (h : e.Ready) (ev : PresenceEvent) :
    (e.handlePresenceEvent env ev).Ready := by
  refine ⟨h.wired.congr (deeds_wiring (deeds_handlePresenceEvent e env ev)), ?_⟩
  have hsame (sensor : SensorId) : (e.filtered env ev).heard sensor ↔ e.heard sensor := by
    have hseen := congrArg (fun t : Tracking => (t.lastSeen sensor).isSome = true)
      (filtered_tracking env e ev)
    exact iff_of_eq hseen
  by_cases hpass : (e.applyHoldFilter env ev).2.isSome = true
  · have happlied := applied_handlePresenceEvent env h hpass
    apply holdsHeard_filtered env h.holds happlied.holds
    rintro sensor (hheard | ⟨rfl, -⟩)
    · exact (heard_applied happlied sensor).mpr (.inl ((hsame sensor).mpr hheard))
    · exact (heard_applied happlied ev.sensorId).mpr (.inr rfl)
  · rw [handlePresenceEvent_eq, if_neg hpass]
    apply holdsHeard_filtered env h.holds rfl
    rintro sensor (hheard | ⟨-, habsurd⟩)
    · exact (hsame sensor).mpr hheard
    · exact absurd habsurd hpass

theorem tracks_handlePresenceEvent_iff (h : e.Ready) (ht : e.TracksZones) (ev : PresenceEvent) :
    (e.handlePresenceEvent env ev).TracksZones ↔
      ∀ ev' ∈ (e.applyHoldFilter env ev).2, ¬ e.silent ev' := by
  have htracks : (e.filtered env ev).TracksZones :=
    (Told.of_tracking (filtered_tracking env e ev)).tracks ht
  cases hpass : (e.applyHoldFilter env ev).2 with
  | none =>
    rw [handlePresenceEvent_eq, hpass]
    simpa using htracks
  | some ev' =>
    obtain rfl := applyHoldFilter_passed env e ev ev' hpass
    rw [tracks_applied_iff (applied_handlePresenceEvent env h (by rw [hpass]; rfl)) htracks,
      silent_congr (filtered_tracking env e ev')]
    simp

theorem tracks_handlePresenceEvent_heard (h : e.Ready) (ht : e.TracksZones) {ev : PresenceEvent}
    (hheard : e.heard ev.sensorId) : (e.handlePresenceEvent env ev).TracksZones := by
  rw [tracks_handlePresenceEvent_iff env h ht]
  intro ev' hev
  obtain rfl := applyHoldFilter_passed env e ev ev' hev
  exact not_silent_of_heard ht hheard

/-! ## The events that deliver no report -/

/-- A handler that keeps what the engine relies on, and every level right. -/
structure Safe (e e' : RulesEngine) : Prop where
  ready : e.Ready → e'.Ready
  tracks : e.Ready → e.TracksZones → e'.TracksZones

theorem Safe.refl (e : RulesEngine) : Safe e e := ⟨id, fun _ => id⟩

theorem Safe.trans {e'' : RulesEngine} (h : Safe e e') (h' : Safe e' e'') : Safe e e'' :=
  ⟨fun hr => h'.ready (h.ready hr), fun hr ht => h'.tracks (h.ready hr) (h.tracks hr ht)⟩

theorem Safe.of_tracking (ht : e'.tracking = e.tracking) (hh : e.HoldsHeard → e'.HoldsHeard) :
    Safe e e' where
  ready hr := ⟨hr.wired.congr (congrArg Tracking.wiring ht), hh hr.holds⟩
  tracks _ := (Told.of_tracking ht).tracks

theorem safe_chores {now : ℕ} (h : Chores now e e') : Safe e e' :=
  .of_tracking (tracking_chores h) fun hh => hh.of_sensing (chores_frame h).2

theorem safe_online (e : RulesEngine) (online : SensorId → Option ℕ) :
    Safe e { e with availabilityOnline := online } :=
  .of_tracking rfl fun h => h

theorem safe_handlePresenceEvent {ev : PresenceEvent} (hheard : e.heard ev.sensorId) :
    Safe e (e.handlePresenceEvent env ev) :=
  ⟨fun hr => ready_handlePresenceEvent env hr ev,
    fun hr ht => tracks_handlePresenceEvent_heard env hr ht hheard⟩

theorem safe_expireSensor (e : RulesEngine) (sensor : SensorId) (staleTimeout : ℕ) :
    Safe e (e.expireSensor env sensor staleTimeout) := by
  unfold expireSensor
  split
  · exact .refl e
  · rename_i lastSeen hseen
    split
    · apply safe_handlePresenceEvent
      unfold heard
      rw [hseen]
      rfl
    · exact .refl e

theorem safe_sweepStaleSensors (e : RulesEngine) : Safe e (e.sweepStaleSensors env) := by
  have hloop (sensors : List SensorRuntimeCfg) (e : RulesEngine) : Safe e
      (sensors.foldl (fun e scfg => e.sweepSensor env scfg.sensor scfg.staleTimeout) e) := by
    induction sensors generalizing e with
    | nil => exact .refl e
    | cons scfg sensors ih =>
      refine Safe.trans ?_ (ih _)
      dsimp only
      unfold sweepSensor
      split
      · exact .refl e
      · exact .refl e
      · split
        · exact safe_expireSensor env e _ _
        · split
          · exact (safe_online e _).trans
              (safe_expireSensor env _ _ _)
          · exact .refl e
  exact hloop e.cfg.sensors e

theorem holdsHeard_disarmed (h : e.HoldsHeard) (sensor : SensorId) {hold : HoldState}
    (harmed : hold.armedUntil = none) (hpending : hold.pendingAbsent = none) :
    ({ e with holds := Function.update e.holds sensor (some hold) } : RulesEngine).HoldsHeard := by
  intro s hold' hs
  by_cases heq : s = sensor
  · subst heq
    simp only [Function.update_self, Option.some.injEq] at hs
    subst hs
    simp [harmed, hpending]
  · simp only [Function.update_of_ne heq] at hs
    exact h s hold' hs

theorem safe_fireHoldExpiry (e : RulesEngine) (sensor : SensorId) (deadline : ℕ) :
    Safe e (e.fireHoldExpiry env sensor deadline) := by
  unfold fireHoldExpiry
  split
  · exact .refl e
  · rename_i hold hhold
    dsimp only
    split
    · rename_i harmed
      exact .of_tracking rfl fun h => holdsHeard_disarmed h sensor harmed rfl
    · split
      · exact .refl e
      · have hset : Safe e { e with
            holds := Function.update e.holds sensor (some ⟨none, none⟩) } :=
          .of_tracking rfl fun h => holdsHeard_disarmed h sensor rfl rfl
        split
        · exact hset
        · rename_i ev hpending
          -- an event that was held back is of a sensor that was heard
          have hheard (hr : e.Ready) : e.heard ev.sensorId := by
            obtain ⟨hsensor, hheard⟩ := (hr.holds sensor hold hhold).2 ev hpending
            exact hsensor ▸ hheard
          refine ⟨fun hr => ?_, fun hr ht => ?_⟩
          · exact (hset.trans (safe_handlePresenceEvent env (hheard hr))).ready hr
          · exact (hset.trans (safe_handlePresenceEvent env (hheard hr))).tracks hr ht

theorem fireInputWakeHoldExpiry_holds (e : RulesEngine) (display : DisplayId) (now : ℕ) :
    (e.fireInputWakeHoldExpiry env display now).holds = e.holds ∧
      (e.fireInputWakeHoldExpiry env display now).sensorLastSeenVirtual =
        e.sensorLastSeenVirtual := by
  unfold fireInputWakeHoldExpiry
  split
  · exact ⟨rfl, rfl⟩
  · split
    · exact ⟨rfl, rfl⟩
    · dsimp only
      have hclear := (clearInputWakeHold_frame e display).2
      have hfed := (feedOwnership_frame env (e.clearInputWakeHold display) display now).2
      have hsensing := hfed.trans hclear
      split
      · have hstep := (stepMachine_frame
          ((e.clearInputWakeHold display).feedOwnership env display now) display
          (.zonePresent false) now).2.trans hsensing
        exact ⟨congrArg Sensing.holds hstep, congrArg Sensing.sensorLastSeenVirtual hstep⟩
      · exact ⟨congrArg Sensing.holds hsensing, congrArg Sensing.sensorLastSeenVirtual hsensing⟩

theorem safe_fireInputWakeHoldExpiry (e : RulesEngine) (display : DisplayId) (now : ℕ) :
    Safe e (e.fireInputWakeHoldExpiry env display now) := by
  have htold := told_fireInputWakeHoldExpiry env e display now
  obtain ⟨hholds, hseen⟩ := fireInputWakeHoldExpiry_holds env e display now
  exact ⟨fun hr => ⟨hr.wired.congr htold.wiring, hr.holds.congr hholds hseen⟩,
    fun _ => htold.tracks⟩

theorem safe_fireDueTimer (e : RulesEngine) : Safe e (e.fireDueTimer env) := by
  unfold fireDueTimer
  split
  · exact .refl e
  · rename_i deadline entry _
    split
    · exact .refl e
    · have hpop : Safe e (e.popTimer (deadline, entry)) := .of_tracking rfl fun h => h
      apply hpop.trans
      cases entry with
      | displayTick display => exact safe_chores (chores_displayTick _ env display deadline)
      | displayStageTick display gen =>
        exact safe_chores ((chores_feedOwnership _ env display deadline).trans
          (chores_tell _ display deadline rfl))
      | holdExpiry sensor => exact safe_fireHoldExpiry env _ sensor deadline
      | inputWakeHoldExpiry display => exact safe_fireInputWakeHoldExpiry env _ display deadline

theorem safe_handleInputWake (e : RulesEngine) (display : DisplayId) :
    Safe e (e.handleInputWake env display) := by
  unfold handleInputWake
  dsimp only
  have hasked (e : RulesEngine) : Safe e (e.stepOne env display .inputWake) :=
    safe_chores (chores_stepOne e env display rfl)
  split
  · split
    · rename_i hold _ _
      refine Safe.trans (.of_tracking ?_ fun h => ?_) (hasked _)
      · exact tracking_setHoldFlag _ display true
      · have hframe := (setHoldFlag_frame (e := ({ e with
          inputWakeHolds := Function.update e.inputWakeHolds display (some (env.now + hold)) } :
            RulesEngine).pushTimer (env.now + hold) (.inputWakeHoldExpiry display))
          display true).2
        exact h.congr (congrArg Sensing.holds hframe)
          (congrArg Sensing.sensorLastSeenVirtual hframe)
    · exact hasked e
  · exact hasked e

theorem safe_handleInternalResult (e : RulesEngine) (res : InternalResult) :
    Safe e (e.handleInternalResult env res) :=
  .of_tracking (tracking_handleInternalResult env e res)
    fun h => h.of_sensing (handleInternalResult_frame env e res).2

/-! ## Runs -/

theorem safe_chore (e : RulesEngine) {msg : ControlMsg} (h : msg.isChore = true) :
    Safe e (e.handle env (.control msg)) := by
  have hchores := chores_handleControl e env h
  exact safe_chores hchores

/-- An event keeps every level right unless the report that it delivers is silent. -/
theorem tracks_handle_iff (hr : e.Ready) (ht : e.TracksZones) (event : Event) :
    (e.handle env event).TracksZones ↔ ∀ ev ∈ e.delivered env event, ¬ e.silent ev := by
  have hsafe {e' : RulesEngine} (h : Safe e e') (hnone : e.delivered env event = none) :
      e'.TracksZones ↔ ∀ ev ∈ e.delivered env event, ¬ e.silent ev := by
    rw [hnone]
    exact iff_of_true (h.tracks hr ht) (by simp)
  cases event with
  | presence ev => exact tracks_handlePresenceEvent_iff env hr ht ev
  | result res => exact hsafe (safe_handleInternalResult env e res) rfl
  | timer => exact hsafe (safe_fireDueTimer env e) rfl
  | sweep => exact hsafe (safe_sweepStaleSensors env e) rfl
  | control msg =>
    cases msg with
    | sensorAvailability ev =>
      simp only [handle, handleControl, handleSensorAvailability, delivered]
      cases ev.online with
      | true =>
        simp only [if_true]
        exact iff_of_true ((safe_online e _).tracks hr ht) (by simp)
      | false =>
        simp only [Bool.false_eq_true, if_false]
        have hbook : Safe e { e with
            availabilityOnline := Function.update e.availabilityOnline ev.sensor none } :=
          safe_online e _
        rw [tracks_handlePresenceEvent_iff env (hbook.ready hr) (hbook.tracks hr ht),
          applyHoldFilter_online]
        exact forall₂_congr fun ev _ => not_congr (silent_congr rfl ev)
    | inputWake display => exact hsafe (safe_handleInputWake env e display) rfl
    | publishDaemonEvent event => exact hsafe (.of_tracking rfl fun h => h) rfl
    | _ => exact hsafe (safe_chore env e rfl) rfl

theorem ready_handle (hr : e.Ready) (event : Event) : (e.handle env event).Ready := by
  cases event with
  | presence ev => exact ready_handlePresenceEvent env hr ev
  | result res => exact (safe_handleInternalResult env e res).ready hr
  | timer => exact (safe_fireDueTimer env e).ready hr
  | sweep => exact (safe_sweepStaleSensors env e).ready hr
  | control msg =>
    cases msg with
    | sensorAvailability ev =>
      simp only [handle, handleControl, handleSensorAvailability]
      have hbook (online : SensorId → Option ℕ) :
          Safe e { e with availabilityOnline := online } :=
        safe_online e online
      split
      · exact (hbook _).ready hr
      · exact ready_handlePresenceEvent env ((hbook _).ready hr) _
    | inputWake display => exact (safe_handleInputWake env e display).ready hr
    | publishDaemonEvent event => exact ⟨hr.wired, hr.holds⟩
    | _ => exact (safe_chore env e rfl).ready hr

theorem tracks_next_iff (e : RulesEngine) (i : Env × Event) (hr : e.Ready)
    (ht : e.TracksZones) : (engine.next e i).1.TracksZones ↔ ¬ e.completesSilently i := by
  have hcleared : ({ e with outbox := [] } : RulesEngine).Ready := ⟨hr.wired, hr.holds⟩
  have hsame : ({ e with outbox := [] } : RulesEngine).tracking = e.tracking := rfl
  have htracks : ({ e with outbox := [] } : RulesEngine).TracksZones :=
    (Told.of_tracking hsame).tracks ht
  have hstep := tracks_handle_iff i.1 hcleared htracks i.2
  have hdelivered : ({ e with outbox := [] } : RulesEngine).delivered i.1 i.2 =
      e.delivered i.1 i.2 := by
    have hfilter (ev : PresenceEvent) :
        (({ e with outbox := [] } : RulesEngine).applyHoldFilter i.1 ev).2 =
          (e.applyHoldFilter i.1 ev).2 := by
      cases h : e.holds ev.sensorId with
      | none => rw [applyHoldFilter_none i.1 h, applyHoldFilter_none i.1 (by exact h)]
      | some hold =>
        rw [applyHoldFilter_some i.1 h, applyHoldFilter_some i.1 (by exact h)]
        rfl
    unfold delivered
    simp only [hfilter]
  rw [hdelivered] at hstep
  refine Iff.trans hstep ?_
  unfold completesSilently
  push Not
  exact forall₂_congr fun ev _ => not_congr (silent_congr rfl ev)

theorem ready_new {setup : Setup} {owns : DisplayId → Bool} {start : ℕ}
    (hrules : (setup.cfg.rules.map (·.rule)).Nodup) (h : new setup owns start = .ok e) :
    e.Ready := by
  refine ⟨wired_new hrules h, ?_⟩
  unfold new at h
  split at h
  · cases h
  · obtain rfl := Except.ok.inj h
    intro sensor hold hs
    dsimp only at hs
    split at hs
    · cases hs
      simp
    · cases hs

theorem tracks_new_iff {setup : Setup} {owns : DisplayId → Bool} {start : ℕ}
    (h : new setup owns start = .ok e) :
    e.TracksZones ↔ ∀ display, e.driven display → ∃ sensor, e.sensorFor display sensor := by
  obtain ⟨-, hmachines, -⟩ := new_ok h
  have hnone (display : DisplayId) (known : Option Bool) (hl : e.level display = some known) :
      known = none := by
    simp only [level, hmachines, newMachine, Option.map_map] at hl
    obtain ⟨dcfg, -, rfl⟩ := Option.map_eq_some_iff.mp hl
    simp only [Function.comp_apply]
    rw [DisplayStateMachine.step_zonePresent]
    rfl
  have hunheard (sensor : SensorId) : ¬ e.heard sensor := by
    unfold new at h
    split at h
    · cases h
    · obtain rfl := Except.ok.inj h
      simp [heard]
  constructor
  · intro ht display hd
    by_contra hno
    push Not at hno
    obtain ⟨machine, hm⟩ := Option.isSome_iff_exists.mp (machine_new h hd)
    have hl : e.level display = some machine.zonePresent := by rw [level, hm, Option.map_some]
    have htold := ht.told display machine.zonePresent hd hl fun sensor hs => absurd hs (hno sensor)
    rw [hnone display machine.zonePresent hl] at htold
    cases htold
  · intro hsensors
    refine ⟨fun display known _ hl => .inl (hnone display known hl), ?_⟩
    intro display known hd hl hall
    obtain ⟨sensor, hs⟩ := hsensors display hd
    exact absurd (hall sensor hs) (hunheard sensor)

/-- In every run of an engine with distinct rules each machine's level is unknown or right, and
right once all sensors of its zones were heard, if and only if every driven display has a
sensor and no event of the run completes the reports of a display silently. -/
theorem tracks_zones_iff (setup : Setup) (owns : DisplayId → Bool) (start : ℕ)
    (hrules : (setup.cfg.rules.map (·.rule)).Nodup) {e : RulesEngine}
    (h : new setup owns start = .ok e) (events : List (Env × Event)) :
    engine.Throughout TracksZones e events ↔
      (∀ display, e.driven display → ∃ sensor, e.sensorFor display sensor) ∧
        engine.Steps (fun e i => ¬ e.completesSilently i) e events := by
  have hready := ready_new hrules h
  have hall (ht : e.TracksZones) := Runs.System.throughout_iff_steps (M := engine) Ready
    (fun _ _ => True) (fun e i hr _ => ready_handle i.1 (e := { e with outbox := [] })
      ⟨hr.wired, hr.holds⟩ i.2)
    (fun e i hr _ ht => tracks_next_iff e i hr ht)
    (Runs.System.Steps.of_forall (fun _ _ => trivial) e events) hready ht
  constructor
  · intro hthroughout
    have ht := hthroughout.head
    exact ⟨(tracks_new_iff h).mp ht, (hall ht).mp hthroughout⟩
  · rintro ⟨hsensors, hsteps⟩
    exact (hall ((tracks_new_iff h).mpr hsensors)).mpr hsteps

/-! ## A room that is empty from the start -/

theorem emptyRoom_sensors {e : RulesEngine} (h : new emptyRoom (fun _ => true) 0 = .ok e) :
    ∀ display, e.driven display → ∃ sensor, e.sensorFor display sensor := by
  obtain rfl := Except.ok.inj h
  intro display hd
  obtain ⟨zone, rule, hrule, rfl, hin⟩ := hd
  obtain rfl := List.mem_singleton.mp hrule
  have hdirect : emptyRoom.zoneEngine.SensorOf deskZone.id ⟨"mmwave"⟩ :=
    .direct List.mem_cons_self List.mem_cons_self
  exact ⟨⟨"mmwave"⟩, ⟨"desk"⟩, ⟨_, hrule, rfl, hin⟩, hdirect⟩

theorem sensor_emptyRoom {zone : ZoneId} {sensor : SensorId}
    (h : emptyRoom.zoneEngine.SensorOf zone sensor) : sensor = ⟨"mmwave"⟩ := by
  cases h with
  | direct hspec hmember =>
    obtain rfl := List.mem_singleton.mp hspec
    exact ZoneMember.sensor.inj (List.mem_singleton.mp hmember)
  | nested hspec hmember _ =>
    obtain rfl := List.mem_singleton.mp hspec
    cases List.mem_singleton.mp hmember

/-- Somebody enters: the zone flips, and the level is right throughout. -/
theorem tracks_zones_iff_entered : ∃ e, new emptyRoom (fun _ => true) 0 = .ok e ∧
    engine.Throughout TracksZones e
      [(Env.plain 1, .presence ⟨⟨"mmwave"⟩, .present, 1⟩)] := by
  obtain ⟨e, he⟩ : ∃ e, new emptyRoom (fun _ => true) 0 = .ok e := ⟨_, rfl⟩
  refine ⟨e, he, ?_⟩
  rw [tracks_zones_iff emptyRoom (fun _ => true) 0 (by decide) he]
  refine ⟨emptyRoom_sensors he, ?_, trivial⟩
  rintro ⟨ev, hev, display, ⟨zone, rule, hrule, rfl, hin⟩, -, -, hquiet⟩
  obtain rfl := Except.ok.inj he
  obtain rfl := List.mem_singleton.mp hrule
  obtain rfl : ⟨⟨"mmwave"⟩, .present, 1⟩ = ev := Option.some.inj hev
  exact hquiet ⟨⟨"desk"⟩, true, ⟨"mmwave"⟩⟩ (by decide) ⟨_, hrule, rfl, hin⟩

/-- The only sensor reports that nobody is there. The room is known to be vacant, and the
machine is not told. -/
theorem vacant_room_untold : ∃ e, new emptyRoom (fun _ => true) 0 = .ok e ∧
    let e' := engine.run e [(Env.plain 1, .presence ⟨⟨"mmwave"⟩, .absent, 1⟩)]
    e'.level ⟨"monitor"⟩ = some none ∧ e'.effectiveZonePresence ⟨"monitor"⟩ = false ∧
      ¬ e'.TracksZones := by
  refine ⟨_, rfl, by decide, by decide, fun ht => ?_⟩
  have htold := ht.told ⟨"monitor"⟩ none ⟨⟨"desk"⟩, _, List.mem_singleton.mpr rfl, rfl, by decide⟩
    (by decide)
  have hall := htold fun sensor hs => by
    obtain ⟨zone, -, hs⟩ := hs
    obtain rfl := sensor_emptyRoom (hs.congr (by rfl))
    unfold heard
    decide
  cases hall

end RulesEngine
end Dormant
