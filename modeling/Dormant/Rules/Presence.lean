import Dormant.Foundations.Places
import Dormant.Foundations.Visits
import Dormant.Rules.Chores

/-!
# What a presence event reaches

A presence event that is applied re-resolves the zones, and each zone that flips is fanned out
to the displays of its rules. `reaches_changes` takes what one fan-out does to its display to
the whole event: the displays that a flipped zone drives are told, and the others notice
nothing.
-/

namespace Dormant
set_option autoImplicit false

/-! ## The zone engine -/

namespace ZoneEngine

theorem reresolve_kept (cause : SensorId) (states : SensorId → Option (SensorState × ℕ))
    (specs : List ZoneSpec) (acc : (ZoneId → Option Bool) × List ZoneChange) (zone : ZoneId)
    (h : ∀ change ∈ (specs.foldl (reresolve cause states) acc).2, change.zone ≠ zone) :
    (specs.foldl (reresolve cause states) acc).1 zone = acc.1 zone ∧
      ∀ change ∈ acc.2, change ∈ (specs.foldl (reresolve cause states) acc).2 := by
  induction specs generalizing acc with
  | nil => exact ⟨rfl, fun _ hc => hc⟩
  | cons spec specs ih =>
    rw [List.foldl_cons] at h ⊢
    obtain ⟨hzone, hmem⟩ := ih (reresolve cause states acc spec) h
    rw [hzone]
    unfold reresolve at hmem ⊢
    dsimp only at hmem ⊢
    split
    · rename_i hsame
      rw [if_pos hsame] at hmem
      exact ⟨rfl, hmem⟩
    · rename_i hflip
      rw [if_neg hflip] at hmem
      refine ⟨?_, fun change hc => hmem change (List.mem_append_left _ hc)⟩
      have hne : zone ≠ spec.id := by
        intro heq
        refine h ⟨spec.id, resolveZone spec states acc.1, cause⟩ ?_ heq.symm
        unfold reresolve
        dsimp only
        rw [if_neg hflip]
        exact hmem _ (by simp)
      exact Function.update_of_ne hne _ _

/-- A zone that an event does not flip keeps its presence. -/
theorem apply_kept (z : ZoneEngine) (ev : PresenceEvent) (zone : ZoneId)
    (h : ∀ change ∈ (z.apply ev).2, change.zone ≠ zone) :
    (z.apply ev).1.isPresent zone = z.isPresent zone := by
  unfold apply at h ⊢
  split
  · rfl
  · rename_i hknown
    rw [if_neg hknown] at h
    exact (reresolve_kept _ _ _ _ zone h).1

theorem apply_evalOrder (z : ZoneEngine) (ev : PresenceEvent) :
    (z.apply ev).1.evalOrder = z.evalOrder := by
  unfold apply
  split
  · rfl
  · rfl

end ZoneEngine

/-- What the hold of a sensor does with one of its events: the hold that is left, the deadline
that is armed, and whether the event passes. -/
structure Filtered where
  hold : HoldState
  deadline : Option ℕ
  passes : Bool

def HoldState.filter (hold : HoldState) (holdTime : Option ℕ) (now : ℕ) (ev : PresenceEvent) :
    Filtered :=
  match ev.state with
  | .present =>
    match holdTime with
    | none => { hold := hold, deadline := none, passes := false }
    | some holdTime =>
      { hold := { armedUntil := some (now + holdTime), pendingAbsent := none },
        deadline := some (now + holdTime), passes := true }
  | .absent =>
    if hold.armedUntil.isSome then
      { hold := { hold with pendingAbsent := some ev }, deadline := none, passes := false }
    else { hold := hold, deadline := none, passes := true }
  | .unavailable =>
    { hold := { hold with pendingAbsent := none }, deadline := none, passes := true }

namespace RulesEngine
variable {e e' : RulesEngine}

/-! ## The displays of a zone -/

def drivenBy (e : RulesEngine) (display : DisplayId) (zone : ZoneId) : Prop :=
  ∃ rule ∈ e.cfg.rules, rule.zone = zone ∧ display ∈ rule.displays

def driven (e : RulesEngine) (display : DisplayId) : Prop := ∃ zone, e.drivenBy display zone

/-- The rule index leads from a zone to a display. -/
def reached (e : RulesEngine) (zone : ZoneId) (display : DisplayId) : Prop :=
  ∃ r ∈ e.zoneRules zone, display ∈ e.displaysOf r

/-- The rule index agrees with the rules. -/
def Wired (e : RulesEngine) : Prop :=
  ∀ zone display, e.reached zone display ↔ e.drivenBy display zone

theorem drivenBy_congr (h : e'.wiring = e.wiring) (display : DisplayId) (zone : ZoneId) :
    e'.drivenBy display zone ↔ e.drivenBy display zone := by
  have hcfg : e'.cfg = e.cfg := congrArg Wiring.cfg h
  unfold drivenBy
  rw [hcfg]

theorem driven_congr (h : e'.wiring = e.wiring) (display : DisplayId) :
    e'.driven display ↔ e.driven display :=
  exists_congr fun zone => drivenBy_congr h display zone

theorem reached_congr (h : e'.wiring = e.wiring) (zone : ZoneId) (display : DisplayId) :
    e'.reached zone display ↔ e.reached zone display := by
  have hzones : e'.zoneRules = e.zoneRules := congrArg Wiring.zoneRules h
  have hrules : e'.ruleDisplays = e.ruleDisplays := congrArg Wiring.ruleDisplays h
  unfold reached displaysOf
  rw [hzones, hrules]

theorem Wired.congr (hw : e.Wired) (h : e'.wiring = e.wiring) : e'.Wired := by
  intro zone display
  rw [reached_congr h, drivenBy_congr h]
  exact hw zone display

theorem wired_new {setup : Setup} {owns : DisplayId → Bool} {start : ℕ}
    (hrules : (setup.cfg.rules.map (·.rule)).Nodup) (h : new setup owns start = .ok e) :
    e.Wired := by
  unfold new at h
  split at h
  · cases h
  · obtain rfl := Except.ok.inj h
    intro zone display
    have hfind (rule : RuleRuntimeCfg) (hmem : rule ∈ setup.cfg.rules) :
        setup.cfg.rules.reverse.find? (·.rule == rule.rule) = some rule := by
      apply Entries.find?_of_nodup
      · rw [List.map_reverse]
        exact List.nodup_reverse.mpr hrules
      · exact List.mem_reverse.mpr hmem
    simp only [reached, displaysOf, drivenBy, List.mem_map, List.mem_filter, beq_iff_eq]
    constructor
    · rintro ⟨r, ⟨rule, ⟨hmem, hzone⟩, rfl⟩, hd⟩
      rw [hfind rule hmem] at hd
      exact ⟨rule, hmem, hzone, hd⟩
    · rintro ⟨rule, hmem, hzone, hd⟩
      refine ⟨rule.rule, ⟨rule, ⟨hmem, hzone⟩, rfl⟩, ?_⟩
      rw [hfind rule hmem]
      exact hd

theorem machine_new {setup : Setup} {owns : DisplayId → Bool} {start : ℕ}
    (h : new setup owns start = .ok e) {display : DisplayId} (hd : e.driven display) :
    (e.machines display).isSome := by
  obtain ⟨hcfg, hmachines, -, -, -, hchecked⟩ := new_ok h
  obtain ⟨zone, rule, hrule, -, hin⟩ := hd
  have hcheck := hchecked rule (hcfg ▸ hrule) display hin
  unfold checkRuleDisplay at hcheck
  split at hcheck
  · cases hcheck
  · rename_i hmem
    rw [not_not, List.mem_map] at hmem
    obtain ⟨dcfg, hdcfg, hdisplay⟩ := hmem
    rw [hmachines, newMachine, Option.isSome_map, List.find?_isSome]
    exact ⟨dcfg, List.mem_reverse.mpr hdcfg, by simp [hdisplay]⟩

/-! ## Effective presence -/

theorem effectiveZonePresence_iff (e : RulesEngine) (display : DisplayId) :
    e.effectiveZonePresence display = true ↔
      ∃ zone, e.drivenBy display zone ∧ (e.zoneEngine.isPresent zone).getD true = true := by
  simp only [effectiveZonePresence, List.any_eq_true, List.mem_filter, decide_eq_true_eq, drivenBy]
  constructor
  · rintro ⟨rule, ⟨hmem, hd⟩, hp⟩
    exact ⟨rule.zone, ⟨rule, hmem, rfl, hd⟩, hp⟩
  · rintro ⟨zone, ⟨rule, hmem, rfl, hd⟩, hp⟩
    exact ⟨rule, ⟨hmem, hd⟩, hp⟩

theorem effectiveZonePresence_congr (hw : e'.wiring = e.wiring) {display : DisplayId}
    (h : ∀ zone, e.drivenBy display zone →
      e'.zoneEngine.isPresent zone = e.zoneEngine.isPresent zone) :
    e'.effectiveZonePresence display = e.effectiveZonePresence display := by
  rw [Bool.eq_iff_iff, effectiveZonePresence_iff, effectiveZonePresence_iff]
  constructor
  · rintro ⟨zone, hd, hp⟩
    have hd' := (drivenBy_congr hw display zone).mp hd
    exact ⟨zone, hd', h zone hd' ▸ hp⟩
  · rintro ⟨zone, hd, hp⟩
    refine ⟨zone, (drivenBy_congr hw display zone).mpr hd, ?_⟩
    rw [h zone hd]
    exact hp

/-- An input-wake hold is in effect of a display that is driven, by vacant zones only. -/
theorem effectiveInputWakeHold_isSome (e : RulesEngine) (display : DisplayId) :
    (e.effectiveInputWakeHold display).isSome ↔ (∃ zone, e.drivenBy display zone) ∧
      ∀ zone, e.drivenBy display zone → e.zoneEngine.isPresent zone = some false := by
  have loop (rules : List RuleRuntimeCfg) (effective : Option ℕ) :
      (e.shortestHold display rules effective).isSome ↔
        (effective.isSome ∨ ∃ rule ∈ rules, display ∈ rule.displays) ∧
          ∀ rule ∈ rules, display ∈ rule.displays →
            e.zoneEngine.isPresent rule.zone = some false := by
    induction rules generalizing effective with
    | nil => simp [shortestHold]
    | cons rule rules ih =>
      unfold shortestHold
      by_cases hd : display ∈ rule.displays
      · rw [if_pos hd]
        cases hp : e.zoneEngine.isPresent rule.zone with
        | none => simp [hp, hd]
        | some present =>
          cases present with
          | true => simp [hp, hd]
          | false => simp [hp, hd, ih]
      · rw [if_neg hd, ih]
        simp [hd]
  unfold effectiveInputWakeHold
  rw [loop]
  simp only [Option.isSome_none, Bool.false_eq_true, false_or, drivenBy]
  constructor
  · rintro ⟨⟨rule, hmem, hd⟩, hvacant⟩
    refine ⟨⟨rule.zone, rule, hmem, rfl, hd⟩, ?_⟩
    rintro zone ⟨rule', hmem', rfl, hd'⟩
    exact hvacant rule' hmem' hd'
  · rintro ⟨⟨zone, rule, hmem, -, hd⟩, hvacant⟩
    exact ⟨⟨rule, hmem, hd⟩, fun rule' hmem' hd' => hvacant rule'.zone ⟨rule', hmem', rfl, hd'⟩⟩

/-! ## The hold filter -/

variable (env : Env)

def holdTime (e : RulesEngine) (sensor : SensorId) : Option ℕ :=
  (e.cfg.sensors.find? (·.sensor == sensor)).bind (·.holdTime)

theorem applyHoldFilter_none {ev : PresenceEvent} (h : e.holds ev.sensorId = none) :
    e.applyHoldFilter env ev = (e, some ev) := by
  simp only [applyHoldFilter, h]

/-- The filter touches the hold of its sensor and the timers, and nothing else. -/
theorem applyHoldFilter_some {ev : PresenceEvent} {hold : HoldState}
    (h : e.holds ev.sensorId = some hold) :
    e.applyHoldFilter env ev =
      ({ e with
          holds := Function.update e.holds ev.sensorId
            (some (hold.filter (e.holdTime ev.sensorId) env.now ev).hold)
          timers := ((hold.filter (e.holdTime ev.sensorId) env.now ev).deadline.map
            (·, TimerEntry.holdExpiry ev.sensorId)).toList ++ e.timers },
        if (hold.filter (e.holdTime ev.sensorId) env.now ev).passes then some ev else none) := by
  have hsame : Function.update e.holds ev.sensorId (some hold) = e.holds := by
    rw [← h]
    exact Function.update_eq_self _ _
  obtain ⟨sensor, state, stamp⟩ := ev
  cases state with
  | present =>
    cases ht : e.holdTime sensor with
    | none =>
      have hfind : (e.cfg.sensors.find? (·.sensor == sensor)).bind (·.holdTime) = none := ht
      simp [applyHoldFilter, h, HoldState.filter, hfind, hsame]
    | some holdTime =>
      have hfind : (e.cfg.sensors.find? (·.sensor == sensor)).bind (·.holdTime) =
        some holdTime := ht
      simp [applyHoldFilter, h, HoldState.filter, hfind, pushTimer]
  | absent =>
    simp only [applyHoldFilter, h, HoldState.filter]
    split
    · rfl
    · simp [hsame]
  | unavailable => simp [applyHoldFilter, h, HoldState.filter]

theorem applyHoldFilter_passed (e : RulesEngine) (ev : PresenceEvent) :
    ∀ ev' ∈ (e.applyHoldFilter env ev).2, ev' = ev := by
  intro ev' hev
  cases h : e.holds ev.sensorId with
  | none =>
    rw [applyHoldFilter_none env h] at hev
    exact (Option.some.inj hev).symm
  | some hold =>
    rw [applyHoldFilter_some env h] at hev
    dsimp only at hev
    split at hev
    · exact (Option.some.inj hev).symm
    · cases hev

theorem applyHoldFilter_online (e : RulesEngine) (online : SensorId → Option ℕ)
    (ev : PresenceEvent) :
    (({ e with availabilityOnline := online } : RulesEngine).applyHoldFilter env ev).2 =
      (e.applyHoldFilter env ev).2 := by
  cases h : e.holds ev.sensorId with
  | none => rw [applyHoldFilter_none env h, applyHoldFilter_none env (by exact h)]
  | some hold =>
    rw [applyHoldFilter_some env h, applyHoldFilter_some env (by exact h)]
    rfl

/-- The engine as it is when the hold filter has seen an event. -/
def filtered (e : RulesEngine) (ev : PresenceEvent) : RulesEngine :=
  (({ e with availabilityOnline :=
      if ev.state = .unavailable then Function.update e.availabilityOnline ev.sensorId none
      else e.availabilityOnline } : RulesEngine).applyHoldFilter env ev).1

theorem handlePresenceEvent_eq (e : RulesEngine) (ev : PresenceEvent) :
    e.handlePresenceEvent env ev =
      if (e.applyHoldFilter env ev).2.isSome then (e.filtered env ev).applyPresence env ev
      else e.filtered env ev := by
  have hmarked : (if ev.state = .unavailable then
      { e with availabilityOnline := Function.update e.availabilityOnline ev.sensorId none }
      else e) = ({ e with availabilityOnline :=
        if ev.state = .unavailable then Function.update e.availabilityOnline ev.sensorId none
        else e.availabilityOnline } : RulesEngine) := by
    split
    · rfl
    · rfl
  unfold handlePresenceEvent filtered
  dsimp only
  rw [hmarked]
  cases h : e.holds ev.sensorId with
  | none =>
    rw [applyHoldFilter_none env h, applyHoldFilter_none env (by exact h)]
    rfl
  | some hold =>
    rw [applyHoldFilter_some env h, applyHoldFilter_some env (by exact h)]
    dsimp only
    have hfilter : (hold.filter (holdTime { e with availabilityOnline :=
        if ev.state = .unavailable then Function.update e.availabilityOnline ev.sensorId none
        else e.availabilityOnline } ev.sensorId) env.now ev) =
          hold.filter (e.holdTime ev.sensorId) env.now ev := rfl
    rw [hfilter]
    cases (hold.filter (e.holdTime ev.sensorId) env.now ev).passes <;> rfl

/-! ## The fan-out -/

theorem feedOwnership_frame (e : RulesEngine) (display : DisplayId) (now : ℕ) :
    (e.feedOwnership env display now).wiring = e.wiring ∧
      (e.feedOwnership env display now).sensing = e.sensing :=
  chores_frame (chores_feedOwnership e env display now)

theorem clearInputWakeHold_frame (e : RulesEngine) (display : DisplayId) :
    (e.clearInputWakeHold display).wiring = e.wiring ∧
      (e.clearInputWakeHold display).sensing = { e.sensing with
        inputWakeHolds := Function.update e.inputWakeHolds display none } := by
  unfold clearInputWakeHold setHoldFlag
  split
  · exact ⟨rfl, rfl⟩
  · exact ⟨rfl, rfl⟩

/-- The fan-out leaves the zones and the sensors as they are. -/
theorem fanToDisplay_frame (e : RulesEngine) (display : DisplayId) :
    (e.fanToDisplay env display).wiring = e.wiring ∧
      (e.fanToDisplay env display).sensing = { e.sensing with
        inputWakeHolds := if e.effectiveZonePresence display = true then
          Function.update e.inputWakeHolds display none else e.inputWakeHolds } := by
  unfold fanToDisplay
  dsimp only
  have told (e' : RulesEngine) (present : Bool) :
      ((e'.feedOwnership env display env.now).stepMachine display (.zonePresent present)
          env.now).wiring = e'.wiring ∧
        ((e'.feedOwnership env display env.now).stepMachine display (.zonePresent present)
          env.now).sensing = e'.sensing := by
    have hstep := stepMachine_frame (e'.feedOwnership env display env.now) display
      (.zonePresent present) env.now
    have hfed := feedOwnership_frame env e' display env.now
    exact ⟨hstep.1.trans hfed.1, hstep.2.trans hfed.2⟩
  split
  · have hclear := clearInputWakeHold_frame e display
    exact ⟨(told _ _).1.trans hclear.1, (told _ _).2.trans hclear.2⟩
  · exact told e _

section Fan
open Visits
variable {m : Manner DisplayId RulesEngine} {K : RulesEngine → Prop}

/-- From one fan-out to the fan-out of every zone that flipped. -/
theorem reaches_changes (base : RulesEngine) (hK : ∀ e, K e → e.wiring = base.wiring)
    (hfan : Reaches m K (fun e display => e.fanToDisplay env display) (fun a d => d = a))
    (hsend : ∀ e o, K e → K (e.send o)) (hmiss : ∀ e o d, K e → m.Miss d e (e.send o)) :
    Reaches m K
      (fun e (change : ZoneChange) =>
        (e.send (.event (.zoneChanged change.zone change.present change.cause)))
          |>.fanZoneChangeToDisplays env change.zone)
      (fun change d => base.reached change.zone d) := by
  have hrule : Reaches m K
      (fun e r => (e.displaysOf r).foldl (fun e display => e.fanToDisplay env display) e)
      (fun r d => d ∈ base.displaysOf r) := by
    apply (hfan.foldl.comap base.displaysOf).congr
    · intro e r he
      have hindex : e.displaysOf r = base.displaysOf r :=
        congrArg (fun w : Wiring => (w.ruleDisplays r).getD []) (hK e he)
      rw [hindex]
    · intro r d
      simp
  have hzone : Reaches m K (fun e zone => e.fanZoneChangeToDisplays env zone)
      (fun zone d => base.reached zone d) := by
    apply (hrule.foldl.comap base.zoneRules).congr
    · intro e zone he
      have hindex : e.zoneRules zone = base.zoneRules zone :=
        congrArg (fun w : Wiring => w.zoneRules zone) (hK e he)
      unfold fanZoneChangeToDisplays
      rw [hindex]
    · intro zone d
      exact Iff.rfl
  exact (hzone.comap ZoneChange.zone).after (fun e change he => hsend e _ he)
    (fun e change d he => hmiss e _ d he)

end Fan

/-- An event is registered before the zones that it flips are fanned out. -/
def registered (e : RulesEngine) (ev : PresenceEvent) : RulesEngine :=
  let prior := (e.zoneEngine.sensorStates ev.sensorId).map Prod.fst
  { (if prior = some ev.state then e else e.send (.event (.sensorChanged ev.sensorId ev.state))) with
    sensorLastSeenVirtual := Function.update e.sensorLastSeenVirtual ev.sensorId (some env.now)
    zoneEngine := (e.zoneEngine.apply ev).1 }

theorem applyPresence_eq (e : RulesEngine) (ev : PresenceEvent) :
    e.applyPresence env ev = (e.zoneEngine.apply ev).2.foldl
      (fun e change => (e.send (.event (.zoneChanged change.zone change.present change.cause)))
        |>.fanZoneChangeToDisplays env change.zone) (e.registered env ev) := by
  unfold applyPresence registered
  dsimp only
  split
  · rfl
  · rfl

/-- Everything but the zones, the sensors and the outbox stays when an event is registered. -/
theorem registered_frame (e : RulesEngine) (ev : PresenceEvent) :
    (e.registered env ev).wiring = e.wiring ∧
      (e.registered env ev).machines = e.machines ∧
      (e.registered env ev).timers = e.timers ∧
      (e.registered env ev).sensing = { e.sensing with
        zoneEngine := (e.zoneEngine.apply ev).1
        sensorLastSeenVirtual :=
          Function.update e.sensorLastSeenVirtual ev.sensorId (some env.now) } := by
  unfold registered
  dsimp only
  split
  · exact ⟨rfl, rfl, rfl, rfl⟩
  · exact ⟨rfl, rfl, rfl, rfl⟩

/-! ## A room with one sensor -/

/-- A zone of one sensor, which counts as absent while it is unavailable. -/
def deskZone : ZoneSpec where
  id := ⟨"desk"⟩
  mode := .any
  members := [.sensor ⟨"mmwave"⟩]
  weights _ := none
  unavailablePolicy := .absent

def emptyRoom : Setup where
  cfg := {
    rules := [⟨⟨"desk"⟩, ⟨"desk"⟩, [⟨"monitor"⟩], 0⟩]
    displays := [⟨⟨"monitor"⟩, .powerOff, [⟨.controller .powerOff, none⟩], ⟨60, 0, 0, 0, 5⟩⟩]
    sensors := [⟨⟨"mmwave"⟩, none, 300⟩]
    doctorWakeSettle := 3 }
  zoneEngine := ZoneEngine.initial [deskZone] [⟨"mmwave"⟩] 0
  executors := [⟨"monitor"⟩]
  renderSinks := []
  generation := none
  ruleOrder := [⟨"desk"⟩]
  ruleOrder_perm := by decide

end RulesEngine
end Dormant
