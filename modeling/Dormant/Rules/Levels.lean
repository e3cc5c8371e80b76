import Dormant.Rules.Presence

/-!
# What the machines know of their zones

The zone level of a machine is what it was told last. Only a fan-out and the expiry of an
input-wake hold tell it anything, and both tell it the effective presence. `Told` and `Applied`
say so of the handlers.
-/

namespace Dormant
set_option autoImplicit false

/-- What a machine knows of its zones after an input. -/
def Input.levelAfter (input : Input) (level : Option Bool) : Option Bool :=
  match input with
  | .zonePresent present => some present
  | _ => level

namespace RulesEngine

/-- What the machine of a display knows of its zones, if there is a machine. -/
def level (e : RulesEngine) (display : DisplayId) : Option (Option Bool) :=
  (e.machines display).map (·.zonePresent)

structure Tracking where
  wiring : Wiring
  zoneEngine : ZoneEngine
  lastSeen : SensorId → Option ℕ
  level : DisplayId → Option (Option Bool)

def tracking (e : RulesEngine) : Tracking :=
  { wiring := e.wiring, zoneEngine := e.zoneEngine, lastSeen := e.sensorLastSeenVirtual,
    level := e.level }

variable {e e' : RulesEngine} {display : DisplayId}

/-- The zones and the sensors stay, and a machine is told the effective presence or nothing. -/
structure Told (e e' : RulesEngine) : Prop where
  wiring : e'.wiring = e.wiring
  zoneEngine : e'.zoneEngine = e.zoneEngine
  lastSeen : e'.sensorLastSeenVirtual = e.sensorLastSeenVirtual
  level : ∀ display, e'.level display = e.level display ∨
    e'.level display = (e.level display).map fun _ => some (e.effectiveZonePresence display)

theorem Told.of_tracking (h : e'.tracking = e.tracking) : Told e e' := by
  simp only [tracking, Tracking.mk.injEq] at h
  exact ⟨h.1, h.2.1, h.2.2.1, fun display => .inl (congrFun h.2.2.2 display)⟩

/-! ## One step of a machine -/

theorem level_stepMachine (e : RulesEngine) (display : DisplayId) (input : Input) (now : ℕ)
    (d : DisplayId) : (e.stepMachine display input now).level d =
      if d = display then (e.level d).map input.levelAfter else e.level d := by
  cases hm : e.machines display with
  | none =>
    rw [stepMachine_none e display now hm]
    split
    · rename_i hd
      subst hd
      simp [level, hm]
    · rfl
  | some machine =>
    obtain ⟨notes, scopes, -, hstep⟩ := stepMachine_eq hm input now
    rw [hstep]
    unfold level
    split
    · rename_i hd
      subst hd
      simp only [Function.update_self, hm, Option.map_some]
      rw [DisplayStateMachine.step_zonePresent]
      cases input <;> rfl
    · rename_i hd
      simp only [Function.update_of_ne hd]

theorem level_tell (e : RulesEngine) (display : DisplayId) {input : Input}
    (h : input.isPresence = false) (now : ℕ) : (e.stepMachine display input now).level = e.level := by
  funext d
  rw [level_stepMachine]
  split
  · have hsame : input.levelAfter = id := by
      cases input with
      | zonePresent present => cases h
      | _ => rfl
    rw [hsame, Option.map_id_apply]
  · rfl

theorem level_setHoldFlag (e : RulesEngine) (display : DisplayId) (active : Bool) :
    (e.setHoldFlag display active).level = e.level := by
  unfold setHoldFlag
  split
  · rfl
  · rename_i machine hm
    funext d
    unfold level setMachine
    by_cases hd : d = display
    · subst hd
      simp only [Function.update_self, hm, Option.map_some]
      rfl
    · simp only [Function.update_of_ne hd]

theorem tracking_tell (e : RulesEngine) (display : DisplayId) {input : Input}
    (h : input.isPresence = false) (now : ℕ) :
    (e.stepMachine display input now).tracking = e.tracking := by
  obtain ⟨hwiring, hsensing⟩ := stepMachine_frame e display input now
  have hzone := congrArg Sensing.zoneEngine hsensing
  have hseen := congrArg Sensing.sensorLastSeenVirtual hsensing
  simp only [sensing] at hzone hseen
  simp only [tracking, hwiring, hzone, hseen, level_tell e display h now]

theorem tracking_chores {now : ℕ} (h : Chores now e e') : e'.tracking = e.tracking := by
  apply h.keeps (P := fun e' => e'.tracking = e.tracking) ?_ rfl
  intro e₁ e₂ hchore hsame
  cases hchore with
  | book => exact hsame
  | send => exact hsame
  | tell display h => exact (tracking_tell e₁ display h now).trans hsame

theorem tracking_setHoldFlag (e : RulesEngine) (display : DisplayId) (active : Bool) :
    (e.setHoldFlag display active).tracking = e.tracking := by
  have hlevel := level_setHoldFlag e display active
  unfold setHoldFlag at hlevel ⊢
  split
  · rfl
  · rename_i machine hm
    rw [hm] at hlevel
    simp only [tracking, hlevel]
    rfl

/-! ## The events that apply no report -/

variable (env : Env)

theorem tracking_clearInputWakeHold (e : RulesEngine) (display : DisplayId) :
    (e.clearInputWakeHold display).tracking = e.tracking :=
  tracking_setHoldFlag _ display false

theorem told_fireInputWakeHoldExpiry (e : RulesEngine) (display : DisplayId) (now : ℕ) :
    Told e (e.fireInputWakeHoldExpiry env display now) := by
  unfold fireInputWakeHoldExpiry
  split
  · exact .of_tracking rfl
  · split
    · exact .of_tracking rfl
    · dsimp only
      have hfed : ((e.clearInputWakeHold display).feedOwnership env display now).tracking =
          e.tracking :=
        (tracking_chores (chores_feedOwnership _ env display now)).trans
          (tracking_clearInputWakeHold e display)
      generalize (e.clearInputWakeHold display).feedOwnership env display now = e' at hfed
      have htold := Told.of_tracking hfed
      split
      · rename_i hvacant
        have hstep := stepMachine_frame e' display (.zonePresent false) now
        refine ⟨hstep.1.trans htold.wiring,
          (congrArg Sensing.zoneEngine hstep.2).trans htold.zoneEngine,
          (congrArg Sensing.sensorLastSeenVirtual hstep.2).trans htold.lastSeen, fun d => ?_⟩
        rw [level_stepMachine]
        have hlevel : e'.level d = e.level d := congrArg (fun t : Tracking => t.level d) hfed
        split
        · rename_i hd
          subst hd
          right
          rw [hlevel]
          -- the hold was in effect, so every driving zone is vacant
          have hfalse : e.effectiveZonePresence d = false := by
            have hall := ((effectiveInputWakeHold_isSome e' d).mp hvacant).2
            rw [Bool.eq_false_iff, ne_eq, effectiveZonePresence_iff]
            rintro ⟨zone, hd, hp⟩
            have hzone := hall zone ((drivenBy_congr htold.wiring d zone).mpr hd)
            rw [htold.zoneEngine] at hzone
            rw [hzone] at hp
            cases hp
          rw [hfalse]
          rfl
        · left
          exact hlevel
      · exact htold

theorem tracking_handleInternalResult (e : RulesEngine) (res : InternalResult) :
    (e.handleInternalResult env res).tracking = e.tracking := by
  obtain ⟨now, e', hchores, attempts, failed, outbox, heq⟩ := handleInternalResult_eq env e res
  have hsame := tracking_chores hchores
  rw [heq]
  exact hsame

/-! ## The events that apply a report -/

/-- A display that is fanned out to is told the effective presence. -/
def telling : Visits.Manner DisplayId RulesEngine where
  Hit d e e' := e'.effectiveZonePresence d = e.effectiveZonePresence d ∧
    e'.level d = (e.level d).map fun _ => some (e.effectiveZonePresence d)
  Miss d e e' := e'.effectiveZonePresence d = e.effectiveZonePresence d ∧ e'.level d = e.level d
  refl _ _ := ⟨rfl, rfl⟩
  trans h h' := ⟨h'.1.trans h.1, h'.2.trans h.2⟩
  hit_after h h' := ⟨h'.1.trans h.1, by rw [h'.2, h.1, h.2]⟩
  hit_before h h' := ⟨h'.1.trans h.1, h'.2.trans h.2⟩
  hit_again h h' := ⟨h'.1.trans h.1, by rw [h'.2, h.1, h.2, Option.map_map]; rfl⟩

theorem level_fanToDisplay (e : RulesEngine) (display d : DisplayId) :
    (e.fanToDisplay env display).level d =
      if d = display then (e.level d).map fun _ => some (e.effectiveZonePresence d)
      else e.level d := by
  unfold fanToDisplay
  dsimp only
  have told (e' : RulesEngine) (present : Bool) (hlevel : e'.level = e.level) :
      ((e'.feedOwnership env display env.now).stepMachine display (.zonePresent present)
        env.now).level d =
          if d = display then (e.level d).map fun _ => some present else e.level d := by
    have hfed := congrArg Tracking.level
      (tracking_chores (chores_feedOwnership e' env display env.now))
    simp only [tracking] at hfed
    rw [level_stepMachine, hfed, hlevel]
    rfl
  have hclear := congrArg Tracking.level (tracking_clearInputWakeHold e display)
  have hsplit : (if e.effectiveZonePresence display = true then e.clearInputWakeHold display
      else e).level = e.level := by
    split
    · exact hclear
    · rfl
  rw [told _ _ hsplit]
  split
  · rename_i hd
    rw [hd]
  · rfl

/-- The wiring, the zones and the sensors, which the fan-out leaves alone. -/
def fixed (base e : RulesEngine) : Prop :=
  e.wiring = base.wiring ∧ e.zoneEngine = base.zoneEngine ∧
    e.sensorLastSeenVirtual = base.sensorLastSeenVirtual ∧ e.holds = base.holds

theorem reaches_telling (base : RulesEngine) :
    Visits.Reaches telling base.fixed (fun e display => e.fanToDisplay env display)
      (fun a d => d = a) := by
  have hframe (e : RulesEngine) (a : DisplayId) : e.fixed (e.fanToDisplay env a) := by
    obtain ⟨hwiring, hsensing⟩ := fanToDisplay_frame env e a
    exact ⟨hwiring, congrArg Sensing.zoneEngine hsensing,
      congrArg Sensing.sensorLastSeenVirtual hsensing, congrArg Sensing.holds hsensing⟩
  have heffective (e : RulesEngine) (a d : DisplayId) :
      (e.fanToDisplay env a).effectiveZonePresence d = e.effectiveZonePresence d := by
    obtain ⟨hwiring, hzone, -⟩ := hframe e a
    apply effectiveZonePresence_congr hwiring
    intro zone _
    rw [hzone]
  refine ⟨fun e a he => ?_, fun e a d _ hd => ?_, fun e a d _ hd => ?_⟩
  · obtain ⟨hwiring, hzone, hseen, hholds⟩ := hframe e a
    exact ⟨hwiring.trans he.1, hzone.trans he.2.1, hseen.trans he.2.2.1, hholds.trans he.2.2.2⟩
  · exact ⟨heffective e a d, by rw [level_fanToDisplay, if_pos hd]⟩
  · exact ⟨heffective e a d, by rw [level_fanToDisplay, if_neg hd]⟩

/-- What an applied report does to the levels. -/
structure Applied (e e' : RulesEngine) (ev : PresenceEvent) (now : ℕ) : Prop where
  wiring : e'.wiring = e.wiring
  zoneEngine : e'.zoneEngine = (e.zoneEngine.apply ev).1
  lastSeen : e'.sensorLastSeenVirtual =
    Function.update e.sensorLastSeenVirtual ev.sensorId (some now)
  holds : e'.holds = e.holds
  told : ∀ display, (∃ change ∈ (e.zoneEngine.apply ev).2, e.drivenBy display change.zone) →
    e'.level display = (e.level display).map fun _ => some (e'.effectiveZonePresence display)
  kept : ∀ display, (∀ change ∈ (e.zoneEngine.apply ev).2, ¬ e.drivenBy display change.zone) →
    e'.level display = e.level display ∧
      e'.effectiveZonePresence display = e.effectiveZonePresence display

theorem applied_applyPresence (hw : e.Wired) (ev : PresenceEvent) :
    Applied e (e.applyPresence env ev) ev env.now := by
  obtain ⟨hwiring, hmachines, -, hsensing⟩ := registered_frame env e ev
  have hzone := congrArg Sensing.zoneEngine hsensing
  have hseen := congrArg Sensing.sensorLastSeenVirtual hsensing
  have hlevel : (e.registered env ev).level = e.level := by
    unfold level
    rw [hmachines]
  have hloop := (reaches_changes env (e.registered env ev) (fun _ he => he.1)
    (reaches_telling env (e.registered env ev)) (fun _ _ he => he)
    (fun _ _ _ _ => ⟨rfl, rfl⟩)).foldl
  have hreached (display : DisplayId) :
      (∃ change ∈ (e.zoneEngine.apply ev).2, (e.registered env ev).reached change.zone display) ↔
        ∃ change ∈ (e.zoneEngine.apply ev).2, e.drivenBy display change.zone := by
    simp only [reached_congr hwiring, hw _ display]
  have hfixed := hloop.keeps (e.registered env ev) (e.zoneEngine.apply ev).2
    ⟨rfl, rfl, rfl, rfl⟩
  rw [applyPresence_eq]
  refine ⟨hfixed.1.trans hwiring, hfixed.2.1.trans hzone, hfixed.2.2.1.trans hseen,
    hfixed.2.2.2.trans (congrArg Sensing.holds hsensing), fun display hd => ?_,
    fun display hd => ?_⟩
  · have hhit := hloop.hit (e.registered env ev) (e.zoneEngine.apply ev).2 display
      ⟨rfl, rfl, rfl, rfl⟩ ((hreached display).mpr hd)
    rw [hhit.2, hhit.1, hlevel]
  · have hmiss := hloop.miss (e.registered env ev) (e.zoneEngine.apply ev).2 display
      ⟨rfl, rfl, rfl, rfl⟩ (fun h => by
        obtain ⟨change, hc, hdriven⟩ := (hreached display).mp h
        exact hd change hc hdriven)
    refine ⟨by rw [hmiss.2, hlevel], hmiss.1.trans ?_⟩
    apply effectiveZonePresence_congr hwiring
    intro zone hdriven
    have hkept := e.zoneEngine.apply_kept ev zone (by
      rintro change hc rfl
      exact hd change hc hdriven)
    rw [← hkept]
    exact congrArg (fun z : ZoneEngine => z.isPresent zone) hzone

theorem applyHoldFilter_tracking (e : RulesEngine) (ev : PresenceEvent) :
    (e.applyHoldFilter env ev).1.tracking = e.tracking := by
  cases h : e.holds ev.sensorId with
  | none => rw [applyHoldFilter_none env h]
  | some hold =>
    rw [applyHoldFilter_some env h]
    rfl

theorem filtered_tracking (e : RulesEngine) (ev : PresenceEvent) :
    (e.filtered env ev).tracking = e.tracking :=
  applyHoldFilter_tracking env _ ev

end RulesEngine
end Dormant
