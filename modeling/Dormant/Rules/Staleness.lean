import Dormant.Foundations.Places
import Dormant.Rules.Sightings

/-!
# Stale sensors

A sweep makes a sensor unavailable when nothing of it was applied for longer than its timeout and
no `online` of it is on lease. Along a run that comes to silence: of the sensor's own events, held
ones included, and of its `online`s.
-/

namespace Dormant
set_option autoImplicit false

namespace RulesEngine
variable {e : RulesEngine}

/-! ## Runs -/

def noteSensor (sensor : SensorId) (l : SensorLog) (e : RulesEngine) (i : Env × Event)
    (_ : RulesEngine × List Output) : SensorLog :=
  l.note i.1.now (e.occurrence sensor i)

def sensorWatch (sensor : SensorId) : Runs.System (SensorLog × RulesEngine) (Env × Event) Output :=
  engine.observed (noteSensor sensor)

instance decidableSweep (event : Event) : Decidable (event = .sweep) :=
  match event with
  | .sweep => isTrue rfl
  | .presence _ => isFalse (by simp)
  | .control _ => isFalse (by simp)
  | .result _ => isFalse (by simp)
  | .timer => isFalse (by simp)

/-- The clock does not run backwards, a hold timer of the sensor fires before later sweeps, and
at most `late` after its deadline. -/
def onSchedule (sensor : SensorId) (late : ℕ) (x : SensorLog × RulesEngine) (i : Env × Event) :
    Prop :=
  x.1.clock ≤ i.1.now ∧
    (∀ t ∈ x.2.dueTimer i, t.2 = .holdExpiry sensor → i.1.now ≤ t.1 + late) ∧
    (i.2 = .sweep → ∀ t ∈ x.2.timers, t.2 = .holdExpiry sensor → i.1.now ≤ t.1)

instance (sensor : SensorId) (late : ℕ) (x : SensorLog × RulesEngine) (i : Env × Event) :
    Decidable (onSchedule sensor late x i) :=
  @instDecidableAnd _ _ _ (@instDecidableAnd _ _ (Option.decidableForallMem _) inferInstance)

/-- The view of the sensor is what the log says, along a run that starts in `e`. -/
structure Watched (e : RulesEngine) (scfg : SensorRuntimeCfg) (late : ℕ)
    (x : SensorLog × RulesEngine) : Prop where
  wiring : x.2.wiring = e.wiring
  own : x.2.HoldsOwn
  tracked : SensorView.Tracked (e.holdTime scfg.sensor) scfg.staleTimeout late x.1
    (x.2.sensorView scfg.sensor)

section Law
variable {scfg : SensorRuntimeCfg} {late : ℕ} {x : SensorLog × RulesEngine} {i : Env × Event}

theorem Watched.step (h : Watched e scfg late x) (hmem : scfg ∈ e.cfg.sensors)
    (hdistinct : (e.cfg.sensors.map (·.sensor)).Nodup) (i : Env × Event) :
    SensorView.Step (e.holdTime scfg.sensor) scfg.staleTimeout i.1.now
      (x.2.sensorView scfg.sensor) (x.2.occurrence scfg.sensor i)
      ((engine.next x.2 i).1.sensorView scfg.sensor) := by
  have hcfg : x.2.cfg = e.cfg := congrArg Wiring.cfg h.wiring
  have htime : x.2.holdTime scfg.sensor = e.holdTime scfg.sensor := by
    unfold holdTime
    rw [hcfg]
  have hfilters : Filters scfg.sensor x.2 := by
    refine ⟨?_, fun hne => ?_⟩
    · rw [htime]
      exact h.tracked.filtered
    · obtain ⟨ev, hev⟩ := Option.ne_none_iff_exists'.mp hne
      exact (h.tracked.waits ev hev).2
  rw [← hcfg] at hmem hdistinct
  rw [← htime]
  exact step_next h.own hfilters h.tracked.known (fun ev hev => (h.tracked.waits ev hev).1) hmem
    rfl hdistinct i

theorem watched_next (hmem : scfg ∈ e.cfg.sensors)
    (hdistinct : (e.cfg.sensors.map (·.sensor)).Nodup) (h : Watched e scfg late x)
    (hi : onSchedule scfg.sensor late x i) :
    Watched e scfg late ((sensorWatch scfg.sensor).next x i).1 := by
  obtain ⟨hclock, hlate, -⟩ := hi
  refine ⟨(wiring_next x.2 i).trans h.wiring, ?_, ?_⟩
  · exact holdsOwn_handle i.1 (e := { x.2 with outbox := [] }) (by exact h.own) i.2
  · refine SensorView.tracked_step h.tracked hclock ?_ (h.step hmem hdistinct i)
    intro deadline ho
    unfold occurrence at ho
    split at ho
    · split at ho <;> cases ho
    · split at ho
      · split at ho <;> cases ho
      · cases ho
    · cases ho
    · split at ho
      · rename_i due expired hdue
        split at ho
        · rename_i hs
          obtain rfl : due = deadline := by simpa using ho
          exact hlate _ hdue (by rw [hs])
        · cases ho
      · cases ho
    · cases ho

theorem cfg_new {setup : Setup} {owns : DisplayId → Bool} {start : ℕ}
    (h : new setup owns start = .ok e) : e.cfg = setup.cfg := by
  unfold new at h
  split at h
  · cases h
  · obtain rfl := Except.ok.inj h
    rfl

/-- The hold time of a sensor is that of its own entry. -/
theorem holdTime_of_nodup {setup : Setup} {owns : DisplayId → Bool} {start : ℕ}
    (h : new setup owns start = .ok e) (hmem : scfg ∈ setup.cfg.sensors)
    (hdistinct : (setup.cfg.sensors.map (·.sensor)).Nodup) :
    e.holdTime scfg.sensor = scfg.holdTime := by
  have hcfg : e.cfg = setup.cfg := cfg_new h
  have hfind : setup.cfg.sensors.find? (·.sensor == scfg.sensor) = some scfg :=
    Entries.find?_of_nodup hdistinct hmem
  unfold holdTime
  rw [hcfg, hfind, Option.bind_some]

theorem watched_new {setup : Setup} {owns : DisplayId → Bool} {start : ℕ}
    (h : new setup owns start = .ok e) (hmem : scfg ∈ setup.cfg.sensors)
    (hdistinct : (setup.cfg.sensors.map (·.sensor)).Nodup)
    (hunavailable : (setup.zoneEngine.sensorStates scfg.sensor).map Prod.fst = some .unavailable)
    (late : ℕ) : Watched e scfg late (SensorLog.empty, e) := by
  have htime := holdTime_of_nodup h hmem hdistinct
  -- no other entry gives the sensor a hold
  have hany : (setup.cfg.sensors.any fun other =>
      other.sensor == scfg.sensor && other.holdTime.isSome) = scfg.holdTime.isSome := by
    rw [Bool.eq_iff_iff, List.any_eq_true]
    constructor
    · rintro ⟨other, ho, hboth⟩
      rw [Bool.and_eq_true, beq_iff_eq] at hboth
      rw [← List.inj_on_of_nodup_map hdistinct ho hmem hboth.1]
      exact hboth.2
    · intro hsome
      exact ⟨scfg, hmem, by simp [hsome]⟩
  unfold new at h
  split at h
  · cases h
  · have he := Except.ok.inj h
    have hholds : e.holds scfg.sensor =
        if scfg.holdTime.isSome then some HoldState.disarmed else none := by
      rw [← hany, ← he]
      rfl
    have hstate : e.sensorState scfg.sensor = some .unavailable := by
      rw [← hunavailable, ← he]
      rfl
    have hview : e.sensorView scfg.sensor =
        { filtered := scfg.holdTime.isSome, armed := none, waits := none
          state := some .unavailable, seen := none, online := none, timers := ∅ } := by
      unfold sensorView armedUntil
      rw [hholds, hstate, ← he]
      cases scfg.holdTime <;> simp [HoldState.disarmed]
    refine ⟨rfl, ?_, ?_⟩
    · intro sensor hold ev hs hp
      dsimp only at hs
      rw [← he] at hs
      dsimp only at hs
      split at hs
      · obtain rfl := Option.some.inj hs
        cases hp
      · cases hs
    · rw [htime, hview]
      constructor <;> simp [SensorLog.empty]

/-- In every run whose clock does not go back and whose hold timers fire before later sweeps, at
most `late` after their deadlines: a sweep makes a sensor unavailable only when nothing was heard
of it within its timeout, and leaves it unavailable when nothing was heard of it for longer than
its timeout and its hold. -/
theorem staleness_exact (setup : Setup) (owns : DisplayId → Bool) (start : ℕ)
    (h : new setup owns start = .ok e) (scfg : SensorRuntimeCfg) (late : ℕ)
    (hmem : scfg ∈ setup.cfg.sensors)
    (hdistinct : (setup.cfg.sensors.map (·.sensor)).Nodup)
    (hhold : scfg.holdTime.getD 0 ≤ scfg.staleTimeout)
    (hunavailable : (setup.zoneEngine.sensorStates scfg.sensor).map Prod.fst = some .unavailable)
    (events : List (Env × Event))
    (hschedule : (sensorWatch scfg.sensor).Steps (onSchedule scfg.sensor late)
      (SensorLog.empty, e) events) :
    (sensorWatch scfg.sensor).Steps (fun x i => i.2 = .sweep →
      (x.2.sensorState scfg.sensor ≠ some .unavailable →
        (engine.next x.2 i).1.sensorState scfg.sensor = some .unavailable →
          (∀ event ∈ x.1.lastEvent, event + scfg.staleTimeout < i.1.now) ∧
            ∀ online ∈ x.1.lastOnline, online + scfg.staleTimeout < i.1.now) ∧
      ((∀ event ∈ x.1.lastEvent,
          event + scfg.staleTimeout + scfg.holdTime.getD 0 + late < i.1.now) →
        (∀ online ∈ x.1.lastOnline, online + scfg.staleTimeout < i.1.now) →
          (engine.next x.2 i).1.sensorState scfg.sensor = some .unavailable))
      (SensorLog.empty, e) events := by
  have hcfg : e.cfg = setup.cfg := cfg_new h
  have htime := holdTime_of_nodup h hmem hdistinct
  have hnew := watched_new h hmem hdistinct hunavailable late
  rw [← hcfg] at hmem hdistinct
  refine hschedule.derive (Watched e scfg late)
    (fun x i hx hi => watched_next hmem hdistinct hx hi) ?_ hnew
  rintro x ⟨env, event⟩ hx ⟨hclock, -, hfired⟩ rfl
  have hstep := hx.step hmem hdistinct (env, .sweep)
  constructor
  · intro hbefore hafter
    refine SensorView.Tracked.silent hx.tracked hclock (by rwa [htime]) ?_ hstep hbefore hafter
    intro d hd
    exact hfired rfl (d, .holdExpiry scfg.sensor) hd rfl
  · intro hevent honline
    refine SensorView.Tracked.swept hx.tracked hstep ?_ honline
    rw [htime]
    exact hevent

end Law

/-! ## A hold timer that fires late -/

/-- Somebody leaves, the hold runs out in time, and the sensor falls silent. -/
def fallenSilent : List (Env × Event) :=
  [(Env.plain 1, .presence ⟨⟨"mmwave"⟩, .present, 1⟩),
    (Env.plain 11, .presence ⟨⟨"mmwave"⟩, .absent, 11⟩), (Env.plain 31, .timer),
    (Env.plain 342, .sweep)]

theorem staleness_exact_silent : ∃ e, new heldRoom (fun _ => true) 0 = .ok e ∧
    (sensorWatch ⟨"mmwave"⟩).Steps (fun x i => i.2 = .sweep →
      (x.2.sensorState ⟨"mmwave"⟩ ≠ some .unavailable →
        (engine.next x.2 i).1.sensorState ⟨"mmwave"⟩ = some .unavailable →
          (∀ event ∈ x.1.lastEvent, event + 300 < i.1.now) ∧
            ∀ online ∈ x.1.lastOnline, online + 300 < i.1.now) ∧
      ((∀ event ∈ x.1.lastEvent, event + 300 + 30 + 0 < i.1.now) →
        (∀ online ∈ x.1.lastOnline, online + 300 < i.1.now) →
          (engine.next x.2 i).1.sensorState ⟨"mmwave"⟩ = some .unavailable))
      (SensorLog.empty, e) fallenSilent :=
  ⟨_, rfl, staleness_exact heldRoom (fun _ => true) 0 rfl ⟨⟨"mmwave"⟩, some 30, 300⟩ 0
    List.mem_cons_self (by decide) (by decide) (by rfl) fallenSilent (by decide +kernel)⟩

/-- The hold timer fires before the sweep, but long after its deadline. The absence that it lets
go counts as seen then, so the sensor stays available for longer than its timeout and its hold. -/
theorem late_hold_timer : ∃ e, new heldRoom (fun _ => true) 0 = .ok e ∧
    let events : List (Env × Event) := [(Env.plain 1, .presence ⟨⟨"mmwave"⟩, .present, 1⟩),
      (Env.plain 11, .presence ⟨⟨"mmwave"⟩, .absent, 11⟩), (Env.plain 200, .timer),
      (Env.plain 342, .sweep)]
    let x := (sensorWatch ⟨"mmwave"⟩).run (SensorLog.empty, e) events
    (sensorWatch ⟨"mmwave"⟩).Steps (onSchedule ⟨"mmwave"⟩ 169) (SensorLog.empty, e) events ∧
      x.1.lastEvent = some 11 ∧ 11 + 300 + 30 < x.1.clock ∧ x.1.lastOnline = none ∧
      x.2.sensorState ⟨"mmwave"⟩ = some .absent :=
  ⟨_, rfl, by decide +kernel, by decide +kernel, by decide +kernel, by decide +kernel,
    by decide +kernel⟩

end RulesEngine
end Dormant
