import Dormant.Rules.Presence
import Dormant.StateMachine.Vacancy

/-!
# Input-wake holds

An input that wakes a display over vacant zones holds it awake for a while. The flag of the
machine, the deadline in the engine's table and the timer in the heap are written together:
`Booked` says that they agree, and `Vacant` that the zones of a held display are vacant. A
fan-out establishes both for its display; everything else keeps them.
-/

namespace Dormant
set_option autoImplicit false

namespace RulesEngine
variable {e e' : RulesEngine} {d display : DisplayId} {now : ℕ}

def holdFlag (e : RulesEngine) (display : DisplayId) : Option Bool :=
  (e.machines display).map (·.inputWakeHoldActive)

/-- A machine that is Active over vacant zones has its flag set. -/
def Graced (e : RulesEngine) (display : DisplayId) : Prop :=
  ∀ machine, e.machines display = some machine → machine.VacancyOk

/-- The flag, the deadline and the timer of a display's hold agree. -/
structure Booked (e : RulesEngine) (display : DisplayId) : Prop where
  manned : e.driven display → (e.holdFlag display).isSome
  flag : e.holdFlag display = some true ↔ (e.inputWakeHolds display).isSome
  timer : ∀ deadline, e.inputWakeHolds display = some deadline →
    (deadline, TimerEntry.inputWakeHoldExpiry display) ∈ e.timers
  driven : (e.inputWakeHolds display).isSome → e.driven display
  graced : e.Graced display

/-- No hold is on. What the machine knows of its zones may be older than that. -/
structure Released (e : RulesEngine) (display : DisplayId) : Prop where
  manned : e.driven display → (e.holdFlag display).isSome
  flag : e.holdFlag display ≠ some true
  deadline : e.inputWakeHolds display = none

/-- Every zone that drives a held display is vacant. -/
def Vacant (e : RulesEngine) (display : DisplayId) : Prop :=
  (e.inputWakeHolds display).isSome →
    ∀ zone, e.drivenBy display zone → e.zoneEngine.isPresent zone = some false

/-! ## One step of a machine -/

theorem holdFlag_stepMachine (e : RulesEngine) (display : DisplayId) (input : Input) (now : ℕ) :
    (e.stepMachine display input now).holdFlag = e.holdFlag := by
  cases hm : e.machines display with
  | none => rw [stepMachine_none e display now hm]
  | some machine =>
    obtain ⟨notes, scopes, -, hstep⟩ := stepMachine_eq hm input now
    have hkept : (machine.step input now).1.inputWakeHoldActive = machine.inputWakeHoldActive := by
      have h := congrArg Setting.inputWakeHoldActive (machine.step_setting input now)
      have hafter : (machine.setting.after input now).inputWakeHoldActive =
          machine.inputWakeHoldActive := by cases input <;> rfl
      split at h
      · exact h
      · exact h.trans hafter
    rw [hstep]
    funext d
    unfold holdFlag
    by_cases hd : d = display
    · subst hd
      simp only [Function.update_self, hm, Option.map_some, hkept]
    · simp only [Function.update_of_ne hd]

theorem timer_stepMachine {t : Timer} (h : t ∈ e.timers) (display : DisplayId) (input : Input)
    (now : ℕ) : t ∈ (e.stepMachine display input now).timers := by
  cases hm : e.machines display with
  | none =>
    rw [stepMachine_none e display now hm]
    exact h
  | some machine =>
    obtain ⟨notes, scopes, -, hstep⟩ := stepMachine_eq hm input now
    rw [hstep]
    exact List.mem_append_right _ h

theorem machine_stepMachine {input : Input} {stepped : DisplayStateMachine}
    (h : (e.stepMachine display input now).machines d = some stepped) :
    e.machines d = some stepped ∧ d ≠ display ∨
      ∃ machine, e.machines d = some machine ∧ stepped = (machine.step input now).1 ∧
        d = display := by
  cases hm : e.machines display with
  | none =>
    rw [stepMachine_none e display now hm] at h
    left
    refine ⟨h, ?_⟩
    rintro rfl
    rw [hm] at h
    cases h
  | some machine =>
    obtain ⟨notes, scopes, -, hstep⟩ := stepMachine_eq hm input now
    rw [hstep] at h
    by_cases hd : d = display
    · subst hd
      simp only [Function.update_self] at h
      exact .inr ⟨machine, hm, (Option.some.inj h).symm, rfl⟩
    · simp only [Function.update_of_ne hd] at h
      exact .inl ⟨h, hd⟩

theorem Graced.stepMachine (h : e.Graced d) (display : DisplayId) (input : Input) (now : ℕ) :
    (e.stepMachine display input now).Graced d := by
  intro stepped hs
  rcases machine_stepMachine hs with ⟨hm, -⟩ | ⟨machine, hm, rfl, -⟩
  · exact h stepped hm
  · exact (h machine hm).step input now

theorem inputWakeHolds_stepMachine (e : RulesEngine) (display : DisplayId) (input : Input)
    (now : ℕ) : (e.stepMachine display input now).inputWakeHolds = e.inputWakeHolds :=
  congrArg Sensing.inputWakeHolds (stepMachine_frame e display input now).2

theorem Booked.stepMachine (h : e.Booked d) (display : DisplayId) (input : Input) (now : ℕ) :
    (e.stepMachine display input now).Booked d := by
  have hdriven := driven_congr (stepMachine_frame e display input now).1 d
  constructor
  · rw [hdriven, holdFlag_stepMachine]
    exact h.manned
  · rw [holdFlag_stepMachine, inputWakeHolds_stepMachine]
    exact h.flag
  · rw [inputWakeHolds_stepMachine]
    intro deadline hd
    exact timer_stepMachine (h.timer deadline hd) display input now
  · rw [hdriven, inputWakeHolds_stepMachine]
    exact h.driven
  · exact h.graced.stepMachine display input now

theorem Released.stepMachine (h : e.Released d) (display : DisplayId) (input : Input) (now : ℕ) :
    (e.stepMachine display input now).Released d := by
  constructor
  · rw [driven_congr (stepMachine_frame e display input now).1 d, holdFlag_stepMachine]
    exact h.manned
  · rw [holdFlag_stepMachine]
    exact h.flag
  · rw [inputWakeHolds_stepMachine]
    exact h.deadline

/-- The news of the zones brings the machine of a released display up to date. -/
theorem Released.seen (h : e.Released d) (present : Bool) (now : ℕ) :
    (e.stepMachine d (.zonePresent present) now).Booked d := by
  have hr := h.stepMachine d (.zonePresent present) now
  refine ⟨hr.manned, ?_, ?_, ?_, ?_⟩
  · rw [hr.deadline]
    simpa using hr.flag
  · rw [hr.deadline]
    intro deadline hd
    cases hd
  · rw [hr.deadline]
    intro hd
    cases hd
  · intro stepped hs
    rcases machine_stepMachine hs with ⟨-, hne⟩ | ⟨machine, -, rfl, -⟩
    · exact absurd rfl hne
    · exact DisplayStateMachine.vacancyOk_seen machine present now

/-- What is left of a hold's invariant when the wiring, the zones and the table stay. -/
theorem Vacant.congr (h : e.Vacant d) (hwiring : e'.wiring = e.wiring)
    (hsensing : e'.sensing = e.sensing) : e'.Vacant d := by
  have hholds : e'.inputWakeHolds = e.inputWakeHolds := congrArg Sensing.inputWakeHolds hsensing
  have hzones : e'.zoneEngine = e.zoneEngine := congrArg Sensing.zoneEngine hsensing
  unfold Vacant
  rw [hholds, hzones]
  intro hd zone hdriven
  exact h hd zone ((drivenBy_congr hwiring d zone).mp hdriven)

/-- Booking that reads the same machine, table entry and wiring, and no fewer timers. -/
theorem Booked.congr (h : e.Booked d) (hwiring : e'.wiring = e.wiring)
    (hmachine : e'.machines d = e.machines d)
    (hhold : e'.inputWakeHolds d = e.inputWakeHolds d)
    (htimers : ∀ deadline, e.inputWakeHolds d = some deadline →
      (deadline, TimerEntry.inputWakeHoldExpiry d) ∈ e.timers →
        (deadline, TimerEntry.inputWakeHoldExpiry d) ∈ e'.timers) : e'.Booked d := by
  have hflag : e'.holdFlag d = e.holdFlag d := by
    unfold holdFlag
    rw [hmachine]
  constructor
  · rw [driven_congr hwiring, hflag]
    exact h.manned
  · rw [hflag, hhold]
    exact h.flag
  · rw [hhold]
    intro deadline hd
    exact htimers deadline hd (h.timer deadline hd)
  · rw [driven_congr hwiring, hhold]
    exact h.driven
  · unfold Graced
    rw [hmachine]
    exact h.graced

/-! ## What passes a display by -/

/-- The display's hold stays in order, as far as it was. -/
structure Spares (d : DisplayId) (e e' : RulesEngine) : Prop where
  booked : e.Booked d → e'.Booked d
  vacant : e.Vacant d → e'.Vacant d

theorem Spares.refl (d : DisplayId) (e : RulesEngine) : Spares d e e := ⟨id, id⟩

theorem Spares.trans {e'' : RulesEngine} (h : Spares d e e') (h' : Spares d e' e'') :
    Spares d e e'' :=
  ⟨h'.booked ∘ h.booked, h'.vacant ∘ h.vacant⟩

theorem spares_chores (h : Chores now e e') (d : DisplayId) : Spares d e e' := by
  constructor
  · apply h.keeps (P := fun e' => e.Booked d → e'.Booked d) ?_ id
    intro e₁ e₂ hchore hbooked he
    cases hchore with
    | book => exact (hbooked he).congr rfl rfl rfl fun _ _ ht => ht
    | send => exact (hbooked he).congr rfl rfl rfl fun _ _ ht => ht
    | tell display h => exact (hbooked he).stepMachine display _ now
  · intro hvacant
    obtain ⟨hwiring, hsensing⟩ := chores_frame h
    exact hvacant.congr hwiring hsensing

theorem released_chores (h : Chores now e e') (he : e.Released d) : e'.Released d := by
  apply h.keeps (P := fun e' => e'.Released d) ?_ he
  intro e₁ e₂ hchore hr
  cases hchore with
  | book => exact ⟨hr.manned, hr.flag, hr.deadline⟩
  | send => exact ⟨hr.manned, hr.flag, hr.deadline⟩
  | tell display h => exact hr.stepMachine display _ now

/-! ## The end of a hold -/

theorem holdFlag_setHoldFlag (e : RulesEngine) (display : DisplayId) (active : Bool) :
    (e.setHoldFlag display active).holdFlag display =
      (e.holdFlag display).map fun _ => active := by
  unfold setHoldFlag
  split
  · rename_i hm
    simp only [holdFlag, hm, Option.map_none]
  · rename_i machine hm
    simp only [holdFlag, setMachine, Function.update_self, hm, Option.map_some]
    rfl

theorem machines_setHoldFlag (e : RulesEngine) (active : Bool) (hd : d ≠ display) :
    (e.setHoldFlag display active).machines d = e.machines d := by
  unfold setHoldFlag
  split
  · rfl
  · exact Function.update_of_ne hd _ _

theorem timers_setHoldFlag (e : RulesEngine) (display : DisplayId) (active : Bool) :
    (e.setHoldFlag display active).timers = e.timers := by
  unfold setHoldFlag
  split
  · rfl
  · rfl

theorem spares_clearInputWakeHold (e : RulesEngine) (hd : d ≠ display) :
    Spares d e (e.clearInputWakeHold display) := by
  obtain ⟨hwiring, hsensing⟩ := clearInputWakeHold_frame e display
  have hholds : (e.clearInputWakeHold display).inputWakeHolds d = e.inputWakeHolds d := by
    have h := congrArg (fun s : Sensing => s.inputWakeHolds d) hsensing
    exact h.trans (Function.update_of_ne hd _ _)
  have hzones := congrArg Sensing.zoneEngine hsensing
  constructor
  · intro he
    refine he.congr hwiring (machines_setHoldFlag _ false hd) hholds fun deadline _ ht => ?_
    unfold clearInputWakeHold
    rw [timers_setHoldFlag]
    exact ht
  · intro he hheld zone hdriven
    rw [hholds] at hheld
    have hvacant := he hheld zone ((drivenBy_congr hwiring d zone).mp hdriven)
    exact (congrArg (fun z : ZoneEngine => z.isPresent zone) hzones).trans hvacant

theorem released_clearInputWakeHold (hmanned : e.driven d → (e.holdFlag d).isSome) :
    (e.clearInputWakeHold d).Released d := by
  obtain ⟨hwiring, hsensing⟩ := clearInputWakeHold_frame e d
  have hflag : (e.clearInputWakeHold d).holdFlag d = (e.holdFlag d).map fun _ => false :=
    holdFlag_setHoldFlag _ d false
  constructor
  · rw [driven_congr hwiring, hflag, Option.isSome_map]
    exact hmanned
  · rw [hflag]
    simp
  · have h := congrArg (fun s : Sensing => s.inputWakeHolds d) hsensing
    exact h.trans (Function.update_self _ _ _)

/-! ## A fan-out -/

variable (env : Env)

theorem vacant_of_absent (h : e.effectiveZonePresence d = false) : e.Vacant d := by
  intro _ zone hdriven
  have hno : ¬ e.effectiveZonePresence d = true := by simp [h]
  rw [effectiveZonePresence_iff] at hno
  push Not at hno
  have hzone := hno zone hdriven
  cases hp : e.zoneEngine.isPresent zone with
  | none => simp [hp] at hzone
  | some present => simpa [hp] using hzone

/-- A fan-out puts the hold of its display in order with the zones. -/
theorem fanToDisplay_hit (he : e.Booked d) :
    (e.fanToDisplay env d).Booked d ∧ (e.fanToDisplay env d).Vacant d := by
  unfold fanToDisplay
  dsimp only
  split
  · have hr := released_chores (chores_feedOwnership _ env d env.now)
      (released_clearInputWakeHold he.manned)
    refine ⟨hr.seen _ env.now, ?_⟩
    intro hheld
    rw [(hr.stepMachine d _ env.now).deadline] at hheld
    cases hheld
  · rename_i habsent
    have hfed := spares_chores (chores_feedOwnership e env d env.now) d
    have hvacant := hfed.vacant (vacant_of_absent (Bool.eq_false_iff.mpr habsent))
    obtain ⟨hwiring, hsensing⟩ :=
      stepMachine_frame (e.feedOwnership env d env.now) d
        (.zonePresent (e.effectiveZonePresence d)) env.now
    exact ⟨(hfed.booked he).stepMachine d _ env.now, hvacant.congr hwiring hsensing⟩

theorem fanToDisplay_miss (e : RulesEngine) (hd : d ≠ display) :
    Spares d e (e.fanToDisplay env display) := by
  have told (e' : RulesEngine) (present : Bool) : Spares d e'
      ((e'.feedOwnership env display env.now).stepMachine display (.zonePresent present)
        env.now) := by
    apply (spares_chores (chores_feedOwnership e' env display env.now) d).trans
    obtain ⟨hwiring, hsensing⟩ :=
      stepMachine_frame (e'.feedOwnership env display env.now) display (.zonePresent present) env.now
    exact ⟨fun h => h.stepMachine display _ env.now, fun h => h.congr hwiring hsensing⟩
  unfold fanToDisplay
  dsimp only
  split
  · exact (spares_clearInputWakeHold e hd).trans (told _ _)
  · exact told _ _

def holding : Visits.Manner DisplayId RulesEngine where
  Hit d e e' := e.Booked d → e'.Booked d ∧ e'.Vacant d
  Miss d e e' := Spares d e e'
  refl := Spares.refl
  trans := Spares.trans
  hit_after h h' he := h' (h.booked he)
  hit_before h h' he := ⟨h'.booked (h he).1, h'.vacant (h he).2⟩
  hit_again h h' he := h' (h he).1

theorem reaches_holding (base : RulesEngine) :
    Visits.Reaches holding (fun e => e.wiring = base.wiring)
      (fun e display => e.fanToDisplay env display) (fun a d => d = a) where
  keeps e a he := (fanToDisplay_frame env e a).1.trans he
  hit e a d _ hd := by
    subst hd
    exact fanToDisplay_hit env
  miss e a d _ hd := fanToDisplay_miss env e hd

/-! ## A presence event -/

/-- The hold of a display is in order. -/
structure HoldOk (e : RulesEngine) (display : DisplayId) : Prop where
  booked : e.Booked display
  vacant : e.Vacant display

theorem Spares.ok (h : Spares d e e') (he : e.HoldOk d) : e'.HoldOk d :=
  ⟨h.booked he.booked, h.vacant he.vacant⟩

theorem ok_applyPresence (hw : e.Wired) (he : e.HoldOk d) (ev : PresenceEvent) :
    (e.applyPresence env ev).HoldOk d := by
  obtain ⟨hwiring, hmachines, htimers, hsensing⟩ := registered_frame env e ev
  have hbooked : (e.registered env ev).Booked d := by
    refine he.booked.congr hwiring (congrFun hmachines d)
      (congrArg (fun s : Sensing => s.inputWakeHolds d) hsensing) fun deadline _ ht => ?_
    rw [htimers]
    exact ht
  have hloop := (reaches_changes env (e.registered env ev) (fun _ he => he)
    (reaches_holding env (e.registered env ev)) (fun _ _ he => he)
    (fun e o d _ => ⟨fun h => h.congr rfl rfl rfl fun _ _ ht => ht,
      fun h => h.congr rfl rfl⟩)).foldl
  rw [applyPresence_eq]
  by_cases hreached : ∃ change ∈ (e.zoneEngine.apply ev).2,
      (e.registered env ev).reached change.zone d
  · obtain ⟨hb, hv⟩ := hloop.hit (e.registered env ev) (e.zoneEngine.apply ev).2 d rfl hreached
      hbooked
    exact ⟨hb, hv⟩
  · apply (hloop.miss (e.registered env ev) (e.zoneEngine.apply ev).2 d rfl hreached).ok
    refine ⟨hbooked, fun hheld zone hdriven => ?_⟩
    have hdriven' := (drivenBy_congr hwiring d zone).mp hdriven
    have hkept := e.zoneEngine.apply_kept ev zone (by
      rintro change hc rfl
      exact hreached ⟨change, hc, (reached_congr hwiring _ d).mpr ((hw _ d).mpr hdriven')⟩)
    have hzone := congrArg (fun s : Sensing => s.zoneEngine.isPresent zone) hsensing
    have hholds := congrArg (fun s : Sensing => s.inputWakeHolds d) hsensing
    rw [show (e.registered env ev).inputWakeHolds d = e.inputWakeHolds d from hholds] at hheld
    exact (hzone.trans hkept).trans (he.vacant hheld zone hdriven')

/-! ## The handlers -/

/-- The invariant of a run: every display's hold is in order. -/
structure HoldsOk (e : RulesEngine) : Prop where
  wired : e.Wired
  ok : ∀ display, e.HoldOk display

theorem HoldsOk.spared (he : e.HoldsOk) (hwiring : e'.wiring = e.wiring)
    (h : ∀ d, Spares d e e') : e'.HoldsOk :=
  ⟨he.wired.congr hwiring, fun d => (h d).ok (he.ok d)⟩

theorem HoldsOk.chores (he : e.HoldsOk) (h : Chores now e e') : e'.HoldsOk :=
  he.spared (chores_frame h).1 (spares_chores h)

/-- The holds are in order whatever else the engine remembers. -/
theorem HoldsOk.congr (he : e.HoldsOk) (hwiring : e'.wiring = e.wiring)
    (hmachines : e'.machines = e.machines) (hholds : e'.inputWakeHolds = e.inputWakeHolds)
    (hzones : e'.zoneEngine = e.zoneEngine) (htimers : ∀ t ∈ e.timers, t ∈ e'.timers) :
    e'.HoldsOk := by
  refine he.spared hwiring fun d => ⟨fun hb => ?_, fun hv hheld zone hdriven => ?_⟩
  · exact hb.congr hwiring (congrFun hmachines d) (congrFun hholds d) fun _ _ ht => htimers _ ht
  · rw [hholds] at hheld
    rw [hzones]
    exact hv hheld zone ((drivenBy_congr hwiring d zone).mp hdriven)

theorem holdsOk_filtered (he : e.HoldsOk) (ev : PresenceEvent) : (e.filtered env ev).HoldsOk := by
  unfold filtered
  generalize (if ev.state = .unavailable then
    Function.update e.availabilityOnline ev.sensorId none else e.availabilityOnline) = online
  cases h : e.holds ev.sensorId with
  | none =>
    rw [applyHoldFilter_none env (by exact h)]
    exact he.congr rfl rfl rfl rfl fun _ ht => ht
  | some hold =>
    rw [applyHoldFilter_some env (by exact h)]
    exact he.congr rfl rfl rfl rfl fun _ ht => List.mem_append_right _ ht

theorem holdsOk_handlePresenceEvent (he : e.HoldsOk) (ev : PresenceEvent) :
    (e.handlePresenceEvent env ev).HoldsOk := by
  have hf := holdsOk_filtered env he ev
  rw [handlePresenceEvent_eq]
  split
  · refine ⟨hf.wired.congr (deeds_wiring (deeds_applyPresence _ env ev)), fun d => ?_⟩
    exact ok_applyPresence env hf.wired (hf.ok d) ev
  · exact hf

theorem holdsOk_handleSensorAvailability (he : e.HoldsOk) (ev : SensorAvailabilityEvent) :
    (e.handleSensorAvailability env ev).HoldsOk := by
  unfold handleSensorAvailability
  split
  · exact he.congr rfl rfl rfl rfl fun _ ht => ht
  · apply holdsOk_handlePresenceEvent
    exact he.congr rfl rfl rfl rfl fun _ ht => ht

theorem holdsOk_sweepSensor (he : e.HoldsOk) (sensor : SensorId) (staleTimeout : ℕ) :
    (e.sweepSensor env sensor staleTimeout).HoldsOk := by
  have expired {e : RulesEngine} (he : e.HoldsOk) :
      (e.expireSensor env sensor staleTimeout).HoldsOk := by
    unfold expireSensor
    split
    · exact he
    · split
      · exact holdsOk_handlePresenceEvent env he _
      · exact he
  unfold sweepSensor
  split
  · exact he
  · exact he
  · split
    · exact expired he
    · split
      · apply expired
        exact he.congr rfl rfl rfl rfl fun _ ht => ht
      · exact he

theorem holdsOk_sweepStaleSensors (he : e.HoldsOk) : (e.sweepStaleSensors env).HoldsOk := by
  unfold sweepStaleSensors
  generalize e.cfg.sensors = sensors
  induction sensors generalizing e with
  | nil => exact he
  | cons scfg sensors ih =>
    apply ih
    exact holdsOk_sweepSensor env he scfg.sensor scfg.staleTimeout

/-- The engine with a new deadline in its table and its timer in the heap. -/
def booking (e : RulesEngine) (display : DisplayId) (deadline : ℕ) : RulesEngine :=
  { e with
    inputWakeHolds := Function.update e.inputWakeHolds display (some deadline)
    timers := (deadline, .inputWakeHoldExpiry display) :: e.timers }

theorem holdsOk_booking (he : e.HoldsOk) (hdriven : e.driven display)
    (hvacant : ∀ zone, e.drivenBy display zone → e.zoneEngine.isPresent zone = some false)
    (deadline : ℕ) : ((e.booking display deadline).setHoldFlag display true).HoldsOk := by
  obtain ⟨hwiring, hsensing⟩ := setHoldFlag_frame (e := e.booking display deadline) display true
  have hholds (d : DisplayId) := congrArg (fun s : Sensing => s.inputWakeHolds d) hsensing
  have hzones : ((e.booking display deadline).setHoldFlag display true).zoneEngine =
      e.zoneEngine := congrArg Sensing.zoneEngine hsensing
  have htimers := timers_setHoldFlag (e.booking display deadline) display true
  have hflag := holdFlag_setHoldFlag (e.booking display deadline) display true
  have hmachines (d : DisplayId) (hd : d ≠ display) :=
    machines_setHoldFlag (e.booking display deadline) true hd
  generalize hbooked : (e.booking display deadline).setHoldFlag display true = e'
  rw [hbooked] at hwiring hholds hzones htimers hflag hmachines
  refine ⟨he.wired.congr hwiring, fun d => ?_⟩
  by_cases hd : d = display
  · subst hd
    have hheld : e'.inputWakeHolds d = some deadline :=
      (hholds d).trans (Function.update_self _ _ _)
    have hdriven' : e'.driven d := (driven_congr hwiring d).mpr hdriven
    obtain ⟨flag, hflagged⟩ := Option.isSome_iff_exists.mp ((he.ok d).booked.manned hdriven)
    have hset : e'.holdFlag d = some true := by
      rw [hflag, show (e.booking d deadline).holdFlag d = some flag from hflagged]
      rfl
    refine ⟨⟨fun _ => by simp [hset], by simp [hset, hheld], ?_, fun _ => hdriven', ?_⟩, ?_⟩
    · intro deadline' hd'
      obtain rfl := Option.some.inj (hheld.symm.trans hd')
      rw [htimers]
      exact List.mem_cons_self
    · intro machine hm _ _
      rw [holdFlag, hm] at hset
      exact Option.some.inj hset
    · intro _ zone hz
      rw [hzones]
      exact hvacant zone ((drivenBy_congr hwiring d zone).mp hz)
  · have hheld : e'.inputWakeHolds d = e.inputWakeHolds d :=
      (hholds d).trans (Function.update_of_ne hd _ _)
    refine ⟨(he.ok d).booked.congr hwiring (hmachines d hd) hheld fun deadline' _ ht => ?_, ?_⟩
    · rw [htimers]
      exact List.mem_cons_of_mem _ ht
    · intro hheld' zone hz
      rw [hheld] at hheld'
      rw [hzones]
      exact (he.ok d).vacant hheld' zone ((drivenBy_congr hwiring d zone).mp hz)

theorem holdsOk_handleInputWake (he : e.HoldsOk) (display : DisplayId) :
    (e.handleInputWake env display).HoldsOk := by
  unfold handleInputWake
  dsimp only
  have asked {e : RulesEngine} (he : e.HoldsOk) : (e.stepOne env display .inputWake).HoldsOk :=
    he.chores (chores_stepOne e env display rfl)
  split
  · rename_i hold heffective
    obtain ⟨hdriven, hvacant⟩ := (effectiveInputWakeHold_isSome e display).mp
      (by simp [heffective])
    split
    · exact asked (holdsOk_booking he hdriven hvacant (env.now + hold))
    · exact asked he
  · exact asked he

theorem holdsOk_handleControl (he : e.HoldsOk) (msg : ControlMsg) :
    (e.handleControl env msg).HoldsOk := by
  cases hc : msg.isChore with
  | true => exact he.chores (chores_handleControl e env hc)
  | false =>
    cases msg with
    | inputWake display => exact holdsOk_handleInputWake env he display
    | sensorAvailability ev => exact holdsOk_handleSensorAvailability env he ev
    | publishDaemonEvent event => exact he.congr rfl rfl rfl rfl fun _ ht => ht
    | _ => cases hc

theorem holdsOk_handleInternalResult (he : e.HoldsOk) (res : InternalResult) :
    (e.handleInternalResult env res).HoldsOk := by
  obtain ⟨now, e', hchores, attempts, failed, outbox, heq⟩ := handleInternalResult_eq env e res
  rw [heq]
  exact (he.chores hchores).congr rfl rfl rfl rfl fun _ ht => ht

/-! ## The timers -/

theorem holdsOk_fireHoldExpiry (he : e.HoldsOk) (sensor : SensorId) (deadline : ℕ) :
    (e.fireHoldExpiry env sensor deadline).HoldsOk := by
  have written (holds : SensorId → Option HoldState) : ({ e with holds := holds }).HoldsOk :=
    he.congr rfl rfl rfl rfl fun _ ht => ht
  unfold fireHoldExpiry
  split
  · exact he
  · dsimp only
    split
    · exact written _
    · split
      · exact he
      · split
        · exact written _
        · exact holdsOk_handlePresenceEvent env (written _) _

/-- A timer that is no hold's own leaves the holds in order when it is popped. -/
theorem holdsOk_popTimer (he : e.HoldsOk) {t : Timer}
    (ht : ∀ d deadline, e.inputWakeHolds d = some deadline →
      t ≠ (deadline, .inputWakeHoldExpiry d)) : (e.popTimer t).HoldsOk := by
  refine ⟨he.wired.congr rfl, fun d => ⟨?_, (he.ok d).vacant.congr rfl rfl⟩⟩
  refine (he.ok d).booked.congr rfl rfl rfl fun deadline hd hmem => ?_
  exact (List.mem_erase_of_ne (ht d deadline hd).symm).mpr hmem

/-- When the timer of a hold is popped, the hold ends and its display is told of the zones. -/
theorem holdsOk_expired (he : e.HoldsOk) {deadline heldTo : ℕ}
    (hheld : e.inputWakeHolds display = some heldTo) (hdue : ¬ deadline < heldTo) :
    ((e.popTimer (deadline, .inputWakeHoldExpiry display)).fireInputWakeHoldExpiry env display
      deadline).HoldsOk := by
  have hisSome : (e.inputWakeHolds display).isSome := by simp [hheld]
  have hdriven := (he.ok display).booked.driven hisSome
  have hvacant := (he.ok display).vacant hisSome
  have hmanned := (he.ok display).booked.manned
  generalize hpopped : e.popTimer (deadline, .inputWakeHoldExpiry display) = e₁
  have hspared (d : DisplayId) (hd : d ≠ display) : Spares d e e₁ := by
    rw [← hpopped]
    refine ⟨fun hb => hb.congr rfl rfl rfl fun deadline' _ hmem => ?_, fun hv => hv.congr rfl rfl⟩
    refine (List.mem_erase_of_ne ?_).mpr hmem
    intro heq
    exact hd (TimerEntry.inputWakeHoldExpiry.inj (congrArg Prod.snd heq))
  have hheld₁ : e₁.inputWakeHolds display = some heldTo := by
    rw [← hpopped]
    exact hheld
  have hwiring₁ : e₁.wiring = e.wiring := by rw [← hpopped]; rfl
  have hzones₁ : e₁.zoneEngine = e.zoneEngine := by rw [← hpopped]; rfl
  have hreleased : (e₁.clearInputWakeHold display).Released display := by
    apply released_clearInputWakeHold
    rw [← hpopped]
    exact hmanned
  obtain ⟨hwiring₂, hsensing₂⟩ := clearInputWakeHold_frame e₁ display
  have hfed := chores_feedOwnership (e₁.clearInputWakeHold display) env display deadline
  obtain ⟨hwiring₃, hsensing₃⟩ := chores_frame hfed
  unfold fireInputWakeHoldExpiry
  rw [hheld₁]
  dsimp only
  rw [if_neg hdue]
  have hrest (d : DisplayId) (hd : d ≠ display) := ((hspared d hd).trans
    (spares_clearInputWakeHold e₁ hd)).trans (spares_chores hfed d)
  have hoff := released_chores hfed hreleased
  generalize (e₁.clearInputWakeHold display).feedOwnership env display deadline = e₃
    at hwiring₃ hsensing₃ hrest hoff
  have hwiring : e₃.wiring = e.wiring := (hwiring₃.trans hwiring₂).trans hwiring₁
  have hzones : e₃.zoneEngine = e.zoneEngine :=
    (congrArg Sensing.zoneEngine (hsensing₃.trans hsensing₂)).trans hzones₁
  -- every driving zone is still vacant, so the machine is told
  have heffective : (e₃.effectiveInputWakeHold display).isSome := by
    rw [effectiveInputWakeHold_isSome]
    refine ⟨(driven_congr hwiring display).mpr hdriven, fun zone hz => ?_⟩
    rw [hzones]
    exact hvacant zone ((drivenBy_congr hwiring display zone).mp hz)
  rw [if_pos heffective]
  have hstep := stepMachine_frame e₃ display (.zonePresent false) deadline
  refine ⟨he.wired.congr (hstep.1.trans hwiring), fun d => ?_⟩
  by_cases hd : d = display
  · subst hd
    refine ⟨hoff.seen false deadline, fun hheld' => ?_⟩
    rw [(hoff.stepMachine d _ deadline).deadline] at hheld'
    cases hheld'
  · have hok := (hrest d hd).ok (he.ok d)
    exact ⟨hok.booked.stepMachine display _ deadline, hok.vacant.congr hstep.1 hstep.2⟩

theorem holdsOk_fireInputWakeHoldExpiry (he : e.HoldsOk) (deadline : ℕ) :
    ((e.popTimer (deadline, .inputWakeHoldExpiry display)).fireInputWakeHoldExpiry env display
      deadline).HoldsOk := by
  have stale (hlater : ∀ heldTo, e.inputWakeHolds display = some heldTo → deadline < heldTo) :
      (e.popTimer (deadline, .inputWakeHoldExpiry display)).HoldsOk := by
    apply holdsOk_popTimer he
    rintro d heldTo hd heq
    obtain ⟨rfl, rfl⟩ : deadline = heldTo ∧ display = d := by simpa using heq
    exact absurd (hlater deadline hd) (lt_irrefl deadline)
  cases hheld : e.inputWakeHolds display with
  | none =>
    have hpop := stale (by simp [hheld])
    unfold fireInputWakeHoldExpiry
    rw [show (e.popTimer _).inputWakeHolds display = none from hheld]
    exact hpop
  | some heldTo =>
    by_cases hlater : deadline < heldTo
    · -- the hold was renewed: its own timer comes later
      have hpop := stale (by simpa [hheld] using hlater)
      unfold fireInputWakeHoldExpiry
      rw [show (e.popTimer _).inputWakeHolds display = some heldTo from hheld]
      dsimp only
      rw [if_pos hlater]
      exact hpop
    · exact holdsOk_expired env he hheld hlater

theorem holdsOk_fireDueTimer (he : e.HoldsOk) : (e.fireDueTimer env).HoldsOk := by
  unfold fireDueTimer
  split
  · exact he
  · rename_i deadline entry _
    split
    · exact he
    · have hpop (h : ∀ d, entry ≠ .inputWakeHoldExpiry d) :
          (e.popTimer (deadline, entry)).HoldsOk :=
        holdsOk_popTimer he fun d _ _ heq => h d (congrArg Prod.snd heq)
      cases entry with
      | displayTick display =>
        exact (hpop (by simp)).chores (chores_displayTick _ env display deadline)
      | displayStageTick display gen =>
        exact (hpop (by simp)).chores ((chores_feedOwnership _ env display deadline).trans
          (chores_tell _ display deadline rfl))
      | holdExpiry sensor => exact holdsOk_fireHoldExpiry env (hpop (by simp)) sensor deadline
      | inputWakeHoldExpiry display => exact holdsOk_fireInputWakeHoldExpiry env he deadline

theorem holdsOk_handle (he : e.HoldsOk) (event : Event) : (e.handle env event).HoldsOk := by
  cases event with
  | presence ev => exact holdsOk_handlePresenceEvent env he ev
  | control msg => exact holdsOk_handleControl env he msg
  | result res => exact holdsOk_handleInternalResult env he res
  | timer => exact holdsOk_fireDueTimer env he
  | sweep => exact holdsOk_sweepStaleSensors env he

theorem holdsOk_next (he : e.HoldsOk) (i : Env × Event) : (engine.next e i).1.HoldsOk := by
  apply holdsOk_handle i.1
  exact he.congr rfl rfl rfl rfl fun _ ht => ht

/-! ## Every run -/

theorem holdsOk_new {setup : Setup} {owns : DisplayId → Bool} {start : ℕ}
    (hrules : (setup.cfg.rules.map (·.rule)).Nodup) (h : new setup owns start = .ok e) :
    e.HoldsOk := by
  obtain ⟨-, hmachines, -⟩ := new_ok h
  have hholds (d : DisplayId) : e.inputWakeHolds d = none := by
    unfold new at h
    split at h
    · cases h
    · obtain rfl := Except.ok.inj h
      rfl
  have hstarted (d : DisplayId) (machine : DisplayStateMachine) (hm : e.machines d = some machine) :
      machine.inputWakeHoldActive = false ∧ machine.zonePresent = none := by
    rw [hmachines] at hm
    obtain ⟨dcfg, -, rfl⟩ := Option.map_eq_some_iff.mp hm
    have hset := DisplayStateMachine.step_setting
      (DisplayStateMachine.new dcfg.timings dcfg.ladder start) (.ownershipChanged (owns d)) start
    have hno : (DisplayStateMachine.new dcfg.timings dcfg.ladder start).wakeAccepted
        (.ownershipChanged (owns d)) = false := rfl
    rw [hno] at hset
    exact ⟨congrArg Setting.inputWakeHoldActive hset, congrArg Setting.zonePresent hset⟩
  refine ⟨wired_new hrules h, fun d => ⟨⟨fun hd => ?_, ?_, ?_, ?_, ?_⟩, ?_⟩⟩
  · rw [holdFlag, Option.isSome_map]
    exact machine_new h hd
  · rw [hholds]
    simp only [holdFlag, Option.map_eq_some_iff, Option.isSome_none, Bool.false_eq_true, iff_false]
    rintro ⟨machine, hm, hset⟩
    rw [(hstarted d machine hm).1] at hset
    cases hset
  · rw [hholds]
    simp
  · rw [hholds]
    simp
  · intro machine hm _ hz
    rw [(hstarted d machine hm).2] at hz
    cases hz
  · intro hheld
    rw [hholds] at hheld
    cases hheld

/-- The flag of a display's machine, its deadline and its timer agree; a held display's zones
are vacant; and a machine is Active over vacant zones for the time of a hold only. -/
structure InputWakeHeld (e : RulesEngine) (display : DisplayId) : Prop where
  flag : (e.machines display).map (·.inputWakeHoldActive) = some true ↔
    (e.inputWakeHolds display).isSome
  timer : ∀ deadline, e.inputWakeHolds display = some deadline →
    (deadline, TimerEntry.inputWakeHoldExpiry display) ∈ e.timers
  vacant : (e.inputWakeHolds display).isSome →
    ∀ zone, e.drivenBy display zone → e.zoneEngine.isPresent zone = some false
  active : ∀ machine, e.machines display = some machine → machine.phase = .active →
    machine.zonePresent = some false → machine.inputWakeHoldActive = true
  bounded : ∀ machine, e.machines display = some machine → machine.phase = .active →
    machine.zonePresent = some false → ∃ deadline, e.inputWakeHolds display = some deadline ∧
      (deadline, TimerEntry.inputWakeHoldExpiry display) ∈ e.timers

theorem HoldOk.held (he : e.HoldOk d) : e.InputWakeHeld d := by
  obtain ⟨hbooked, hvacant⟩ := he
  refine ⟨hbooked.flag, hbooked.timer, hvacant, hbooked.graced, fun machine hm hp hz => ?_⟩
  have hset : e.holdFlag d = some true := by
    rw [holdFlag, hm, Option.map_some, hbooked.graced machine hm hp hz]
  obtain ⟨deadline, hd⟩ := Option.isSome_iff_exists.mp (hbooked.flag.mp hset)
  exact ⟨deadline, hd, hbooked.timer deadline hd⟩

/-- In every run of an engine with distinct rules, every display's input-wake hold is bounded by
its timer and consistent with the zones. -/
theorem input_wake_held (setup : Setup) (owns : DisplayId → Bool) (start : ℕ)
    (hrules : (setup.cfg.rules.map (·.rule)).Nodup) {e : RulesEngine}
    (h : new setup owns start = .ok e) (events : List (Env × Event)) (display : DisplayId) :
    (engine.run e events).InputWakeHeld display := by
  have hstep (e : RulesEngine) (i : Env × Event) (he : e.HoldsOk) :
      (engine.next e i).1.HoldsOk := holdsOk_next he i
  have hinv := Runs.System.invariant hstep (holdsOk_new hrules h) events
  exact (hinv.ok display).held

/-- The room of one sensor, with a hold for somebody who is not seen by it. -/
def keyboardRoom : Setup :=
  { emptyRoom with
    cfg := { emptyRoom.cfg with rules := [⟨⟨"desk"⟩, ⟨"desk"⟩, [⟨"monitor"⟩], 900⟩] }
    ruleOrder_perm := by decide }

theorem input_wake_held_keyboard :
    ∃ e, new keyboardRoom (fun _ => true) 0 = .ok e ∧
      let e' := engine.run e [(Env.plain 5, .control (.inputWake ⟨"monitor"⟩))]
      e'.inputWakeHolds ⟨"monitor"⟩ = some 905 ∧ e'.InputWakeHeld ⟨"monitor"⟩ :=
  ⟨_, rfl, by decide, input_wake_held keyboardRoom (fun _ => true) 0 (by decide) rfl _ _⟩

end RulesEngine
end Dormant
