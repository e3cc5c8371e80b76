import Dormant.Rules.Sensors

/-!
# The law of the hold filter

A hold delays the absence of its sensor. `HoldLaw` says what that comes to along a run: no
absence is applied before the hold time is over, the zone engine has the latest event whenever
no hold is armed, and an absence that is kept back is applied once, unless a later event of the
sensor takes its place.
-/

namespace Dormant
set_option autoImplicit false

/-- What is remembered of a sensor along a run: the instant of the last event of any kind, that
of its last Present, the state its last event reported, the absence that was kept back with
nothing in its place since, and the events that went on to the zone engine. -/
structure HoldLog where
  clock : ℕ
  lastPresent : Option ℕ
  latest : Option SensorState
  waiting : Option PresenceEvent
  applied : List PresenceEvent

def HoldLog.empty : HoldLog :=
  { clock := 0, lastPresent := none, latest := none, waiting := none, applied := [] }

namespace RulesEngine

/-- The absence that a popped hold timer lets go. -/
def released (sensor : SensorId) (e : RulesEngine) (i : Env × Event) : Option PresenceEvent :=
  match e.dueTimer i with
  | some (deadline, .holdExpiry expired) =>
    if expired = sensor then
      (e.holds sensor).bind fun hold =>
        if hold.armedUntil.any fun armedUntil => decide (armedUntil ≤ deadline) then
          hold.pendingAbsent
        else none
    else none
  | _ => none

/-- The event of a sensor that an event of the engine hands on to the zone engine. -/
def handedOn (sensor : SensorId) (e : RulesEngine) (i : Env × Event) : Option PresenceEvent :=
  match e.reported sensor i with
  | some ev => (e.applyHoldFilter i.1 ev).2
  | none => e.released sensor i

def noteHold (sensor : SensorId) (l : HoldLog) (e : RulesEngine) (i : Env × Event)
    (_ : RulesEngine × List Output) : HoldLog where
  clock := i.1.now
  lastPresent :=
    if (e.reported sensor i).map (·.state) = some .present then some i.1.now else l.lastPresent
  latest := ((e.reported sensor i).map (·.state)).or l.latest
  waiting := if e.handedOn sensor i = none then (e.reported sensor i).or l.waiting else none
  applied := l.applied ++ (e.handedOn sensor i).toList

def holdWatch (sensor : SensorId) : Runs.System (HoldLog × RulesEngine) (Env × Event) Output :=
  engine.observed (noteHold sensor)

/-- The clock does not run backwards, and the tick that the timers see was read before. -/
def onTime (x : HoldLog × RulesEngine) (i : Env × Event) : Prop :=
  x.1.clock ≤ i.1.now ∧ i.1.nowTick ≤ i.1.now

instance (x : HoldLog × RulesEngine) (i : Env × Event) : Decidable (onTime x i) :=
  inferInstanceAs (Decidable (_ ∧ _))

def armedUntil (e : RulesEngine) (sensor : SensorId) : Option ℕ :=
  (e.holds sensor).bind (·.armedUntil)

/-- The absence that a sensor reports is kept back by its hold. -/
def keptBack (sensor : SensorId) (ev : PresenceEvent) (e : RulesEngine) (i : Env × Event) : Prop :=
  e.reported sensor i = some ev ∧ ev.state = .absent ∧ e.handedOn sensor i = none

structure HoldLaw (sensor : SensorId) (holdTime : ℕ) (e : RulesEngine)
    (events : List (Env × Event)) : Prop where
  /-- What was handed on last is what the zone engine has. -/
  applied : (holdWatch sensor).Throughout (fun x => ∀ ev ∈ x.1.applied.getLast?,
    x.2.zoneEngine.sensorStates sensor = some (ev.state, ev.stamp)) (HoldLog.empty, e) events
  late : (holdWatch sensor).Steps (fun x i => ∀ ev ∈ x.2.handedOn sensor i,
    ev.state = .absent → ∀ seen ∈ x.1.lastPresent, seen + holdTime ≤ i.1.now)
      (HoldLog.empty, e) events
  settled : (holdWatch sensor).Throughout (fun x => x.2.armedUntil sensor = none →
    ∀ state ∈ x.1.latest, x.2.sensorState sensor = some state) (HoldLog.empty, e) events
  timed : (holdWatch sensor).Throughout (fun x => ∀ deadline ∈ x.2.armedUntil sensor,
    (deadline, TimerEntry.holdExpiry sensor) ∈ x.2.timers) (HoldLog.empty, e) events
  /-- Without a report, only the absence that waits is handed on. -/
  waiting : (holdWatch sensor).Steps (fun x i => x.2.reported sensor i = none →
    ∀ ev ∈ x.2.handedOn sensor i, x.1.waiting = some ev) (HoldLog.empty, e) events
  /-- An absence that is kept back is handed on once when the hold ends, if nothing of the
  sensor comes in between. -/
  once : ∀ before i after ev, events = before ++ i :: after →
    keptBack sensor ev ((holdWatch sensor).run (HoldLog.empty, e) before).2 i →
    (holdWatch sensor).Steps (fun x j => x.2.reported sensor j = none)
      ((holdWatch sensor).run (HoldLog.empty, e) (before ++ [i])) after →
    ((holdWatch sensor).run (HoldLog.empty, e) events).1.applied =
      ((holdWatch sensor).run (HoldLog.empty, e) before).1.applied ++
        if ((holdWatch sensor).run (HoldLog.empty, e) events).2.armedUntil sensor = none then [ev]
        else []
  /-- The timer of an earlier arm changes nothing. -/
  leftover : (holdWatch sensor).Steps (fun x i => ∀ deadline,
    x.2.dueTimer i = some (deadline, .holdExpiry sensor) →
    x.2.armedUntil sensor ≠ some deadline →
      (engine.next x.2 i).1 =
        { x.2.popTimer (deadline, .holdExpiry sensor) with outbox := [] }) (HoldLog.empty, e) events

/-! ## The invariant -/

variable {sensor : SensorId} {holdTime : ℕ} {e e' : RulesEngine}

/-- What the log says of a hold. -/
structure HoldOf (holdTime : ℕ) (l : HoldLog) (state : Option SensorState) (pending : ℕ → Prop)
    (hold : HoldState) : Prop where
  armed : ∀ deadline ∈ hold.armedUntil, pending deadline ∧
    ∃ seen ∈ l.lastPresent, deadline = seen + holdTime
  idle : hold.armedUntil = none → hold.pendingAbsent = none ∧
    ∀ seen ∈ l.lastPresent, seen + holdTime ≤ l.clock
  waiting : l.waiting = hold.pendingAbsent
  kept : ∀ ev ∈ hold.pendingAbsent, ev.state = .absent ∧ l.latest = some .absent
  settled : hold.pendingAbsent = none → ∀ latest ∈ l.latest, state = some latest

structure Holding (sensor : SensorId) (holdTime : ℕ) (x : HoldLog × RulesEngine) : Prop where
  cfg : x.2.holdTime sensor = some holdTime
  known : (x.2.zoneEngine.sensorStates sensor).isSome
  own : x.2.HoldsOwn
  past : ∀ seen ∈ x.1.lastPresent, seen ≤ x.1.clock
  deadlines : ∀ deadline, (deadline, TimerEntry.holdExpiry sensor) ∈ x.2.timers →
    ∃ seen ∈ x.1.lastPresent, deadline ≤ seen + holdTime
  last : ∀ ev ∈ x.1.applied.getLast?,
    x.2.zoneEngine.sensorStates sensor = some (ev.state, ev.stamp)
  hold : ∃ hold, x.2.holds sensor = some hold ∧
    HoldOf holdTime x.1 (x.2.sensorState sensor)
      (fun deadline => (deadline, TimerEntry.holdExpiry sensor) ∈ x.2.timers) hold

theorem released_none {i : Env × Event}
    (h : ∀ deadline, e.dueTimer i ≠ some (deadline, .holdExpiry sensor)) :
    e.released sensor i = none := by
  unfold released
  split
  · rename_i deadline expired hdue
    rw [if_neg]
    rintro rfl
    exact h deadline hdue
  · rfl

/-- Time passes, and nothing happens to the sensor. -/
theorem HoldOf.later {l l' : HoldLog} {state : Option SensorState} {pending pending' : ℕ → Prop}
    {hold : HoldState} (h : HoldOf holdTime l state pending hold) (hclock : l.clock ≤ l'.clock)
    (hpresent : l'.lastPresent = l.lastPresent) (hlatest : l'.latest = l.latest)
    (hwaiting : l'.waiting = l.waiting)
    (hpending : ∀ deadline ∈ hold.armedUntil, pending deadline → pending' deadline) :
    HoldOf holdTime l' state pending' hold := by
  constructor
  · intro deadline harmed
    obtain ⟨hp, hseen⟩ := h.armed deadline harmed
    rw [hpresent]
    exact ⟨hpending deadline harmed hp, hseen⟩
  · intro hidle
    obtain ⟨hnone, hpast⟩ := h.idle hidle
    rw [hpresent]
    exact ⟨hnone, fun seen hs => (hpast seen hs).trans hclock⟩
  · exact hwaiting.trans h.waiting
  · rw [hlatest]
    exact h.kept
  · rw [hlatest]
    exact h.settled

/-- An event goes through the hold. -/
theorem HoldOf.reported {l l' : HoldLog} {state : Option SensorState} {pending : ℕ → Prop}
    {hold : HoldState} (h : HoldOf holdTime l state pending hold) (ev : PresenceEvent) {now : ℕ}
    (hclock : l.clock ≤ now) (hnow : l'.clock = now)
    (hpresent : l'.lastPresent = if ev.state = .present then some now else l.lastPresent)
    (hlatest : l'.latest = some ev.state)
    (hwaiting : l'.waiting =
      if (hold.filter (some holdTime) now ev).passes then none else some ev) :
    HoldOf holdTime l'
      (if (hold.filter (some holdTime) now ev).passes then some ev.state else state)
      (fun deadline => (hold.filter (some holdTime) now ev).deadline = some deadline ∨
        pending deadline)
      (hold.filter (some holdTime) now ev).hold := by
  have hidle (hs : ev.state ≠ .present) (hnone : hold.armedUntil = none) :
      ∀ seen ∈ l'.lastPresent, seen + holdTime ≤ l'.clock := by
    rw [hpresent, if_neg hs, hnow]
    exact fun seen hseen => ((h.idle hnone).2 seen hseen).trans hclock
  have harmed (hs : ev.state ≠ .present) : ∀ deadline ∈ hold.armedUntil, pending deadline ∧
      ∃ seen ∈ l'.lastPresent, deadline = seen + holdTime := by
    rw [hpresent, if_neg hs]
    exact h.armed
  unfold HoldState.filter at hwaiting ⊢
  cases hs : ev.state with
  | present =>
    simp only [hs, if_true] at hpresent hlatest hwaiting ⊢
    refine ⟨?_, by simp, hwaiting, by simp, by simp [hlatest]⟩
    intro deadline hd
    obtain rfl : now + holdTime = deadline := by simpa using hd
    exact ⟨.inl rfl, now, by rw [hpresent]; rfl, rfl⟩
  | absent =>
    have hne : ev.state ≠ .present := by simp [hs]
    simp only [hs] at hlatest hwaiting ⊢
    cases ha : hold.armedUntil with
    | none =>
      simp only [ha, Option.isSome_none, Bool.false_eq_true, if_false, if_true] at hwaiting ⊢
      refine ⟨by simp [ha], fun _ => ⟨(h.idle ha).1, hidle hne ha⟩,
        hwaiting.trans (h.idle ha).1.symm, fun pending hp => ?_, by simp [hlatest]⟩
      rw [(h.idle ha).1] at hp
      cases hp
    | some deadline =>
      simp only [ha, Option.isSome_some, if_true, Bool.false_eq_true, if_false] at hwaiting ⊢
      refine ⟨fun deadline' hd => ?_, by simp, hwaiting, ?_, by simp⟩
      · obtain ⟨hp, hseen⟩ := harmed hne deadline' (by rwa [ha])
        exact ⟨.inr hp, hseen⟩
      · intro pending hp
        obtain rfl : ev = pending := by simpa using hp
        exact ⟨hs, hlatest⟩
  | unavailable =>
    have hne : ev.state ≠ .present := by simp [hs]
    simp only [hs, if_true] at hlatest hwaiting ⊢
    refine ⟨fun deadline hd => ?_, fun ha => ⟨rfl, hidle hne ha⟩, hwaiting, by simp,
      by simp [hlatest]⟩
    obtain ⟨hp, hseen⟩ := harmed hne deadline hd
    exact ⟨.inr hp, hseen⟩

def setHold (e : RulesEngine) (sensor : SensorId) (hold : HoldState) : RulesEngine :=
  { e with holds := Function.update e.holds sensor (some hold) }

def HoldState.disarmed : HoldState := { armedUntil := none, pendingAbsent := none }

/-- The hold ends, and lets go of what it kept back. -/
theorem HoldOf.ended {l l' : HoldLog} {state state' : Option SensorState}
    {pending pending' : ℕ → Prop} {hold : HoldState} (h : HoldOf holdTime l state pending hold)
    {deadline : ℕ} (harmed : hold.armedUntil = some deadline) (hover : deadline ≤ l'.clock)
    (hpresent : l'.lastPresent = l.lastPresent) (hlatest : l'.latest = l.latest)
    (hwaiting : l'.waiting = none)
    (hstate : ∀ latest ∈ l.latest, state' = some latest) :
    HoldOf holdTime l' state' pending' HoldState.disarmed := by
  refine ⟨by simp [HoldState.disarmed], fun _ => ⟨rfl, fun seen hseen => ?_⟩, hwaiting,
    by simp [HoldState.disarmed], fun _ => ?_⟩
  · rw [hpresent] at hseen
    obtain ⟨-, seen', hseen', rfl⟩ := h.armed deadline harmed
    obtain rfl : seen = seen' := Option.some.inj (hseen.symm.trans hseen')
    exact hover
  · rw [hlatest]
    exact hstate

/-- What the expiry of a hold does, when its timer was popped at a deadline. -/
inductive Expired (sensor : SensorId) (hold : HoldState) (deadline : ℕ) (env : Env)
    (e : RulesEngine) : RulesEngine → Prop
  | unarmed (h : hold.armedUntil = none) :
      Expired sensor hold deadline env e (e.setHold sensor HoldState.disarmed)
  | early {armedUntil : ℕ} (h : hold.armedUntil = some armedUntil) (hd : deadline < armedUntil) :
      Expired sensor hold deadline env e e
  | ended {armedUntil : ℕ} (h : hold.armedUntil = some armedUntil) (hd : armedUntil ≤ deadline)
      (hp : hold.pendingAbsent = none) :
      Expired sensor hold deadline env e (e.setHold sensor HoldState.disarmed)
  | released {armedUntil : ℕ} {ev : PresenceEvent} (h : hold.armedUntil = some armedUntil)
      (hd : armedUntil ≤ deadline) (hp : hold.pendingAbsent = some ev) :
      Expired sensor hold deadline env e
        ((e.setHold sensor HoldState.disarmed).handlePresenceEvent env ev)

theorem expired_fireHoldExpiry {hold : HoldState} (h : e.holds sensor = some hold) (env : Env)
    (deadline : ℕ) :
    Expired sensor hold deadline env e (e.fireHoldExpiry env sensor deadline) := by
  unfold fireHoldExpiry
  rw [h]
  dsimp only
  cases ha : hold.armedUntil with
  | none => exact .unarmed ha
  | some armedUntil =>
    dsimp only
    split
    · rename_i hd
      exact .early ha hd
    · rename_i hd
      cases hp : hold.pendingAbsent with
      | none => exact .ended ha (Nat.not_lt.mp hd) hp
      | some ev => exact .released ha (Nat.not_lt.mp hd) hp

theorem released_due {i : Env × Event} {deadline : ℕ} {hold : HoldState}
    (hdue : e.dueTimer i = some (deadline, .holdExpiry sensor))
    (h : e.holds sensor = some hold) : e.released sensor i =
      if hold.armedUntil.any fun armedUntil => decide (armedUntil ≤ deadline) then
        hold.pendingAbsent
      else none := by
  unfold released
  rw [hdue]
  dsimp only
  rw [if_pos rfl, h, Option.bind_some]

theorem reported_due {i : Env × Event} {t : Timer} (hdue : e.dueTimer i = some t) :
    e.reported sensor i = none := by
  obtain ⟨env, event⟩ := i
  cases event with
  | timer => rfl
  | _ => cases hdue

/-! ## A step -/

variable {l : HoldLog} {i : Env × Event} {r : RulesEngine × List Output}

theorem noteHold_quiet (hreported : e.reported sensor i = none)
    (hhanded : e.handedOn sensor i = none) :
    noteHold sensor l e i r = { l with clock := i.1.now } := by
  simp [noteHold, hreported, hhanded]

theorem noteHold_released {ev : PresenceEvent} (hreported : e.reported sensor i = none)
    (hhanded : e.handedOn sensor i = some ev) : noteHold sensor l e i r =
      { l with clock := i.1.now, waiting := none, applied := l.applied ++ [ev] } := by
  simp [noteHold, hreported, hhanded]

theorem handedOn_quiet (hreported : e.reported sensor i = none) :
    e.handedOn sensor i = e.released sensor i := by
  unfold handedOn
  rw [hreported]

theorem handedOn_reported {ev : PresenceEvent} {hold : HoldState}
    (hreported : e.reported sensor i = some ev) (h : e.holds ev.sensorId = some hold) :
    e.handedOn sensor i =
      if (hold.filter (e.holdTime ev.sensorId) i.1.now ev).passes then some ev else none := by
  unfold handedOn
  rw [hreported]
  dsimp only
  rw [applyHoldFilter_some i.1 h]

/-- Nothing is handed on, and the sensor's state stays: only its hold has to be looked at. -/
theorem Holding.quiet (h : Holding sensor holdTime (l, e)) (htime : l.clock ≤ i.1.now)
    (hreported : e.reported sensor i = none) (hhanded : e.handedOn sensor i = none)
    (hwiring : e'.wiring = e.wiring)
    (hstate : e'.zoneEngine.sensorStates sensor = e.zoneEngine.sensorStates sensor)
    (hown : e'.HoldsOwn)
    (htimers : ∀ deadline, (deadline, TimerEntry.holdExpiry sensor) ∈ e'.timers →
      (deadline, TimerEntry.holdExpiry sensor) ∈ e.timers)
    (hhold : ∃ hold, e'.holds sensor = some hold ∧
      HoldOf holdTime { l with clock := i.1.now } (e.sensorState sensor)
        (fun deadline => (deadline, TimerEntry.holdExpiry sensor) ∈ e'.timers) hold) :
    Holding sensor holdTime (noteHold sensor l e i r, e') := by
  rw [noteHold_quiet hreported hhanded]
  have hcfg : e'.cfg = e.cfg := congrArg Wiring.cfg hwiring
  have hsame : e'.sensorState sensor = e.sensorState sensor := by
    unfold RulesEngine.sensorState
    rw [hstate]
  refine ⟨?_, ?_, hown, fun seen hseen => (h.past seen hseen).trans htime,
    fun deadline hmem => h.deadlines deadline (htimers deadline hmem), ?_, ?_⟩
  · dsimp only
    unfold RulesEngine.holdTime
    rw [hcfg]
    exact h.cfg
  · rw [hstate]
    exact h.known
  · rw [hstate]
    exact h.last
  · rw [hsame]
    exact hhold

theorem Holding.unmoved (h : Holding sensor holdTime (l, e)) (htime : l.clock ≤ i.1.now)
    (hun : Unmoved sensor e e') (hown : e'.HoldsOwn) (hreported : e.reported sensor i = none)
    (hdue : ∀ deadline, e.dueTimer i ≠ some (deadline, .holdExpiry sensor)) :
    Holding sensor holdTime (noteHold sensor l e i r, e') := by
  obtain ⟨hold, hh, hof⟩ := h.hold
  have hhanded : e.handedOn sensor i = none :=
    (handedOn_quiet hreported).trans (released_none hdue)
  refine h.quiet htime hreported hhanded hun.wiring hun.state hown
    (fun deadline => (hun.timers deadline).mp) ⟨hold, hun.hold.trans hh, ?_⟩
  exact hof.later htime rfl rfl rfl fun deadline _ => (hun.timers deadline).mpr

theorem Holding.reported (h : Holding sensor holdTime (l, e)) (htime : l.clock ≤ i.1.now)
    {hold : HoldState} (hh : e.holds sensor = some hold) {ev : PresenceEvent}
    (hsensor : ev.sensorId = sensor) (hown : e'.HoldsOwn)
    (hrep : Reported e e' ev (hold.filter (e.holdTime ev.sensorId) i.1.now ev))
    (hreported : e.reported sensor i = some ev) :
    Holding sensor holdTime (noteHold sensor l e i r, e') := by
  subst hsensor
  have hhanded := handedOn_reported hreported hh
  have htime' : e.holdTime ev.sensorId = some holdTime := h.cfg
  have hcfg : e'.cfg = e.cfg := congrArg Wiring.cfg hrep.wiring
  have hof : HoldOf holdTime l (e.sensorState ev.sensorId)
      (fun deadline => (deadline, TimerEntry.holdExpiry ev.sensorId) ∈ e.timers) hold := by
    obtain ⟨hold', hh', hof⟩ := h.hold
    obtain rfl : hold = hold' := Option.some.inj (hh.symm.trans hh')
    exact hof
  obtain ⟨known, hknown⟩ := Option.isSome_iff_exists.mp h.known
  dsimp only at hknown
  rw [htime'] at hrep hhanded
  have hpresent : (noteHold ev.sensorId l e i r).lastPresent =
      if ev.state = .present then some i.1.now else l.lastPresent := by
    simp [noteHold, hreported]
  have hwaiting : (noteHold ev.sensorId l e i r).waiting =
      if (hold.filter (some holdTime) i.1.now ev).passes then none else some ev := by
    simp only [noteHold, hreported, hhanded]
    split <;> simp
  have happlied : (noteHold ev.sensorId l e i r).applied =
      if (hold.filter (some holdTime) i.1.now ev).passes then l.applied ++ [ev]
      else l.applied := by
    simp only [noteHold, hhanded]
    split <;> simp
  have hstate := hrep.state
  have hsensorState : e'.sensorState ev.sensorId =
      if (hold.filter (some holdTime) i.1.now ev).passes then some ev.state
      else e.sensorState ev.sensorId := by
    unfold RulesEngine.sensorState
    rw [hstate]
    split
    · rw [hknown, Option.map_some, Option.map_some]
    · rfl
  refine ⟨?_, ?_, hown, ?_, ?_, ?_, ?_⟩
  · dsimp only
    unfold RulesEngine.holdTime
    rw [hcfg]
    exact h.cfg
  · dsimp only
    rw [hstate]
    split
    · rw [hknown]
      rfl
    · exact h.known
  · intro seen hseen
    dsimp only at hseen ⊢
    rw [hpresent] at hseen
    split at hseen
    · exact (Option.some.inj hseen).ge
    · exact (h.past seen hseen).trans htime
  · intro deadline hmem
    dsimp only at hmem ⊢
    rw [hpresent]
    rcases (hrep.timers deadline).mp hmem with harmed | hmem
    · -- only a Present arms the hold
      unfold HoldState.filter at harmed
      split at harmed
      · rename_i hs
        obtain rfl := Option.some.inj harmed
        rw [if_pos hs]
        exact ⟨_, rfl, le_refl _⟩
      · split at harmed <;> cases harmed
      · cases harmed
    · obtain ⟨seen, hseen, hle⟩ := h.deadlines deadline hmem
      split
      · exact ⟨_, rfl, hle.trans (Nat.add_le_add_right ((h.past seen hseen).trans htime) _)⟩
      · exact ⟨seen, hseen, hle⟩
  · intro last hlast
    dsimp only at hlast ⊢
    rw [happlied] at hlast
    rw [hstate]
    split at hlast
    · rename_i hpass
      rw [List.getLast?_concat] at hlast
      obtain rfl := Option.some.inj hlast
      rw [if_pos hpass, hknown, Option.map_some]
    · rename_i hpass
      rw [if_neg hpass]
      exact h.last last hlast
  · refine ⟨_, hrep.hold, ?_⟩
    dsimp only
    rw [hsensorState]
    have hclock : (noteHold ev.sensorId l e i r).clock = i.1.now := rfl
    have hnext := hof.reported ev htime hclock hpresent
      (by simp [noteHold, hreported]) hwaiting
    refine hnext.later (le_refl _) rfl rfl rfl fun deadline _ hp => ?_
    exact (hrep.timers deadline).mpr hp

/-- The timer of the sensor's hold was popped: what is left of the timers. -/
theorem popped_mem {deadline other : ℕ}
    (h : (other, TimerEntry.holdExpiry sensor) ∈ (e.popTimer (deadline, .holdExpiry sensor)).timers) :
    (other, TimerEntry.holdExpiry sensor) ∈ e.timers :=
  List.mem_of_mem_erase h

theorem HoldState.filter_disarmed {holdTime : Option ℕ} {now : ℕ} {ev : PresenceEvent}
    (h : ev.state = .absent) : HoldState.disarmed.filter holdTime now ev =
      { hold := HoldState.disarmed, deadline := none, passes := true } := by
  simp [HoldState.filter, h, HoldState.disarmed]

/-- The state in which the expiry of a hold starts. -/
def popHold (e : RulesEngine) (sensor : SensorId) (deadline : ℕ) : RulesEngine :=
  { e with outbox := [] }.popTimer (deadline, .holdExpiry sensor)

theorem Holding.expired (h : Holding sensor holdTime (l, e)) (htime : l.clock ≤ i.1.now)
    (htick : i.1.nowTick ≤ i.1.now) {deadline : ℕ}
    (hdue : e.dueTimer i = some (deadline, .holdExpiry sensor))
    (hown : ((e.popHold sensor deadline).fireHoldExpiry i.1 sensor deadline).HoldsOwn) :
    Holding sensor holdTime (noteHold sensor l e i r,
      (e.popHold sensor deadline).fireHoldExpiry i.1 sensor deadline) := by
  obtain ⟨hold, hh, hof⟩ := h.hold
  have hreported : e.reported sensor i = none := reported_due hdue
  have hhanded := (handedOn_quiet hreported).trans (released_due hdue hh)
  have hover : deadline ≤ i.1.now := (dueTimer_mem hdue).2.trans htick
  have hpopped : (e.popHold sensor deadline).holds sensor = some hold := hh
  have hmem (other : ℕ) (hmem : (other, TimerEntry.holdExpiry sensor) ∈
      (e.popHold sensor deadline).timers) : (other, TimerEntry.holdExpiry sensor) ∈ e.timers :=
    popped_mem hmem
  have hset : ((e.popHold sensor deadline).setHold sensor HoldState.disarmed).holds sensor =
      some HoldState.disarmed := Function.update_self _ _ _
  generalize hfire : (e.popHold sensor deadline).fireHoldExpiry i.1 sensor deadline = e' at hown
  have hcases := expired_fireHoldExpiry hpopped i.1 deadline
  rw [hfire] at hcases
  cases hcases with
  | unarmed harmed =>
    rw [harmed] at hhanded
    refine h.quiet htime hreported hhanded rfl rfl hown hmem ⟨HoldState.disarmed, hset, ?_⟩
    obtain ⟨hnone, hpast⟩ := hof.idle harmed
    refine ⟨by simp [HoldState.disarmed], fun _ => ⟨rfl, fun seen hs => (hpast seen hs).trans htime⟩,
      hof.waiting.trans hnone, by simp [HoldState.disarmed], fun _ => hof.settled hnone⟩
  | early harmed hd =>
    rw [harmed, Option.any_some, decide_eq_false (Nat.not_le.mpr hd)] at hhanded
    refine h.quiet htime hreported hhanded rfl rfl hown hmem ⟨hold, hpopped, ?_⟩
    refine hof.later htime rfl rfl rfl fun other hother hp => ?_
    rw [harmed, Option.mem_some_iff] at hother
    refine (List.mem_erase_of_ne ?_).mpr hp
    rintro ⟨⟩
    exact absurd hother (Nat.ne_of_gt hd)
  | ended harmed hd hp =>
    rw [hp] at hhanded
    refine h.quiet htime hreported (hhanded.trans (ite_self _)) rfl rfl hown hmem
      ⟨HoldState.disarmed, hset, ?_⟩
    exact hof.ended harmed (hd.trans hover) rfl rfl (hof.waiting.trans hp) (hof.settled hp)
  | released harmed hd hp =>
    rename_i armedUntil ev
    rw [harmed, Option.any_some, decide_eq_true hd, if_pos rfl, hp] at hhanded
    obtain ⟨habsent, hlatest⟩ := hof.kept ev hp
    obtain rfl : ev.sensorId = sensor := h.own sensor hold ev hh hp
    have hrep := reported_handlePresenceEvent i.1 hset
    rw [HoldState.filter_disarmed habsent] at hrep
    obtain ⟨known, hknown⟩ := Option.isSome_iff_exists.mp h.known
    have hstate := hrep.state
    rw [if_pos rfl] at hstate
    have hsame : ((e.popHold ev.sensorId deadline).setHold ev.sensorId
        HoldState.disarmed).zoneEngine.sensorStates ev.sensorId = some known := hknown
    rw [hsame, Option.map_some] at hstate
    rw [noteHold_released hreported hhanded]
    have hcfg := congrArg Wiring.cfg hrep.wiring
    refine ⟨?_, ?_, hown, fun seen hseen => (h.past seen hseen).trans htime, ?_, ?_, ?_⟩
    · dsimp only
      unfold RulesEngine.holdTime
      have hcfg' : ((((e.popHold ev.sensorId deadline).setHold ev.sensorId
        HoldState.disarmed).handlePresenceEvent i.1 ev).cfg) = e.cfg := hcfg
      rw [hcfg']
      exact h.cfg
    · rw [hstate]
      rfl
    · intro other hother
      rcases (hrep.timers other).mp hother with hnone | hother
      · cases hnone
      · exact h.deadlines other (hmem other hother)
    · intro last hlast
      dsimp only at hlast
      rw [List.getLast?_concat] at hlast
      obtain rfl := Option.some.inj hlast
      exact hstate
    · refine ⟨HoldState.disarmed, hrep.hold, ?_⟩
      refine hof.ended harmed (hd.trans hover) rfl rfl rfl fun latest hl => ?_
      dsimp only
      unfold sensorState
      rw [hstate, Option.map_some, habsent]
      exact hlatest.symm.trans hl

theorem holding_next {x : HoldLog × RulesEngine} (h : Holding sensor holdTime x)
    (htime : onTime x i) : Holding sensor holdTime ((holdWatch sensor).next x i).1 := by
  obtain ⟨l, e⟩ := x
  obtain ⟨hold, hh, -⟩ := h.hold
  have hown : (engine.next e i).1.HoldsOwn :=
    holdsOwn_handle i.1 (e := { e with outbox := [] }) (by exact h.own) i.2
  have hturn := turn_handle h.own hh i
  show Holding sensor holdTime (noteHold sensor l e i (engine.next e i), (engine.next e i).1)
  cases hturn with
  | unmoved hun hreported hdue => exact h.unmoved htime.1 hun hown hreported hdue
  | reported hsensor hrep hreported => exact h.reported htime.1 hh hsensor hown hrep hreported
  | expired hdue hfired =>
    rw [hfired] at hown ⊢
    exact h.expired htime.1 htime.2 hdue hown

/-! ## What a step hands on -/

theorem Holding.armedUntil_none {x : HoldLog × RulesEngine} (h : Holding sensor holdTime x)
    (hnone : x.2.armedUntil sensor = none) : x.1.waiting = none ∧
      ∀ state ∈ x.1.latest, x.2.sensorState sensor = some state := by
  obtain ⟨hold, hh, hof⟩ := h.hold
  unfold armedUntil at hnone
  rw [hh, Option.bind_some] at hnone
  have hpending := (hof.idle hnone).1
  exact ⟨hof.waiting.trans hpending, hof.settled hpending⟩

theorem armedUntil_fireHoldExpiry {hold : HoldState} (hh : e.holds sensor = some hold)
    (hkept : ∀ ev ∈ hold.pendingAbsent, ev.sensorId = sensor ∧ ev.state = .absent) (env : Env)
    (deadline : ℕ) : (e.fireHoldExpiry env sensor deadline).armedUntil sensor =
      hold.armedUntil.filter fun armedUntil => decide (deadline < armedUntil) := by
  have hset : (e.setHold sensor HoldState.disarmed).holds sensor = some HoldState.disarmed :=
    Function.update_self _ _ _
  have hcases := expired_fireHoldExpiry hh env deadline
  generalize e.fireHoldExpiry env sensor deadline = e' at hcases ⊢
  unfold armedUntil
  cases hcases with
  | unarmed harmed => rw [hset, harmed]; rfl
  | early harmed hd => simp [hh, harmed, Option.filter, hd]
  | ended harmed hd =>
    rw [hset, harmed]
    simp [HoldState.disarmed, Option.filter, hd]
  | released harmed hd hp =>
    obtain ⟨rfl, habsent⟩ := hkept _ hp
    have hhold := (reported_handlePresenceEvent env hset).hold
    rw [HoldState.filter_disarmed habsent] at hhold
    rw [hhold, harmed]
    simp [HoldState.disarmed, Option.filter, hd]

/-- A step without a report hands nothing on, or what waits; then the hold has ended. -/
theorem Holding.silent {x : HoldLog × RulesEngine} (h : Holding sensor holdTime x)
    (hreported : x.2.reported sensor i = none) :
    (x.2.handedOn sensor i = none ∧
        (x.2.armedUntil sensor = none → (engine.next x.2 i).1.armedUntil sensor = none)) ∨
      ∃ ev, x.2.handedOn sensor i = some ev ∧ x.1.waiting = some ev ∧
        (engine.next x.2 i).1.armedUntil sensor = none := by
  obtain ⟨l, e⟩ := x
  obtain ⟨hold, hh, hof⟩ := h.hold
  dsimp only at hreported ⊢
  have hquiet := handedOn_quiet hreported
  have hturn := turn_handle h.own hh i
  generalize (engine.next e i).1 = e' at hturn ⊢
  cases hturn with
  | unmoved hun _ hdue =>
    left
    refine ⟨hquiet.trans (released_none hdue), fun hnone => ?_⟩
    unfold armedUntil
    rw [hun.hold]
    exact hnone
  | reported _ _ hsome =>
    rw [hsome] at hreported
    cases hreported
  | expired hdue hfired =>
    rename_i deadline
    have hkept (ev : PresenceEvent) (hp : ev ∈ hold.pendingAbsent) :
        ev.sensorId = sensor ∧ ev.state = .absent :=
      ⟨h.own sensor hold ev hh hp, (hof.kept ev hp).1⟩
    have hpopped : (e.popHold sensor deadline).holds sensor = some hold := hh
    have hafter := armedUntil_fireHoldExpiry hpopped hkept i.1 deadline
    rw [hfired]
    have harmed : e.armedUntil sensor = hold.armedUntil := by
      unfold armedUntil
      rw [hh, Option.bind_some]
    rw [released_due hdue hh] at hquiet
    have hafter' : (({ e with outbox := [] }.popTimer
      (deadline, .holdExpiry sensor)).fireHoldExpiry i.1 sensor deadline).armedUntil sensor =
        hold.armedUntil.filter fun armedUntil => decide (deadline < armedUntil) := hafter
    rw [hafter', harmed]
    cases ha : hold.armedUntil with
    | none =>
      rw [ha] at hquiet
      exact .inl ⟨hquiet, fun _ => rfl⟩
    | some armedUntil =>
      rw [ha, Option.any_some] at hquiet
      by_cases hd : armedUntil ≤ deadline
      · rw [decide_eq_true hd, if_pos rfl] at hquiet
        have hnone : (some armedUntil).filter (fun armedUntil => decide (deadline < armedUntil)) =
            none := by simp [Option.filter, hd]
        cases hp : hold.pendingAbsent with
        | none => exact .inl ⟨hquiet.trans hp, fun _ => hnone⟩
        | some ev => exact .inr ⟨ev, hquiet.trans hp, hof.waiting.trans hp, hnone⟩
      · rw [decide_eq_false hd, if_neg Bool.false_ne_true] at hquiet
        exact .inl ⟨hquiet, by simp⟩

theorem late_step {x : HoldLog × RulesEngine} (h : Holding sensor holdTime x)
    (htime : onTime x i) : ∀ ev ∈ x.2.handedOn sensor i, ev.state = .absent →
      ∀ seen ∈ x.1.lastPresent, seen + holdTime ≤ i.1.now := by
  obtain ⟨l, e⟩ := x
  obtain ⟨hold, hh, hof⟩ := h.hold
  intro ev hev habsent seen hseen
  dsimp only at hev hseen
  cases turn_handle h.own hh i with
  | unmoved _ hreported hdue =>
    rw [handedOn_quiet hreported, released_none hdue] at hev
    cases hev
  | reported hsensor _ hreported =>
    subst hsensor
    rw [handedOn_reported hreported hh] at hev
    split at hev
    · rename_i hpass
      obtain rfl := Option.some.inj hev
      -- an absence passes when no hold is armed
      have hidle : hold.armedUntil = none := by
        simpa [HoldState.filter, habsent, apply_ite Filtered.passes] using hpass
      exact ((hof.idle hidle).2 seen hseen).trans htime.1
    · cases hev
  | expired hdue _ =>
    rw [handedOn_quiet (reported_due hdue), released_due hdue hh] at hev
    split at hev
    · rename_i hany
      rw [Option.any_eq_true] at hany
      obtain ⟨armedUntil, harmed, hle⟩ := hany
      obtain ⟨-, seen', hseen', rfl⟩ := hof.armed armedUntil harmed
      obtain rfl : seen = seen' := Option.some.inj (hseen.symm.trans hseen')
      exact (of_decide_eq_true hle).trans ((dueTimer_mem hdue).2.trans htime.2)
    · cases hev

theorem leftover_step {x : HoldLog × RulesEngine} (h : Holding sensor holdTime x) {deadline : ℕ}
    (hdue : x.2.dueTimer i = some (deadline, .holdExpiry sensor))
    (hne : x.2.armedUntil sensor ≠ some deadline) :
    (engine.next x.2 i).1 =
      { x.2.popTimer (deadline, .holdExpiry sensor) with outbox := [] } := by
  obtain ⟨l, e⟩ := x
  obtain ⟨hold, hh, hof⟩ := h.hold
  dsimp only at hdue hne ⊢
  have harmedUntil : e.armedUntil sensor = hold.armedUntil := by
    unfold armedUntil
    rw [hh, Option.bind_some]
  have hturn := turn_handle h.own hh i
  generalize (engine.next e i).1 = e' at hturn ⊢
  have hdone (armedUntil : ℕ) (harmed : hold.armedUntil = some armedUntil)
      (hd : armedUntil ≤ deadline) : False := by
    obtain ⟨-, seen, hseen, rfl⟩ := hof.armed armedUntil harmed
    obtain ⟨seen', hseen', hle⟩ := h.deadlines deadline (dueTimer_mem hdue).1
    obtain rfl : seen = seen' := Option.some.inj (hseen.symm.trans hseen')
    exact hne (harmedUntil.trans (harmed.trans (congrArg some (le_antisymm hd hle))))
  cases hturn with
  | unmoved _ _ hnone => exact absurd hdue (hnone deadline)
  | reported _ _ hsome =>
    rw [reported_due hdue] at hsome
    cases hsome
  | expired hdue' hfired =>
    rw [hdue, Option.some.injEq, Prod.mk.injEq] at hdue'
    obtain ⟨rfl, -⟩ := hdue'
    rw [hfired]
    have hpopped : (e.popHold sensor deadline).holds sensor = some hold := hh
    have hcases := expired_fireHoldExpiry hpopped i.1 deadline
    change (e.popHold sensor deadline).fireHoldExpiry i.1 sensor deadline = e.popHold sensor deadline
    generalize (e.popHold sensor deadline).fireHoldExpiry i.1 sensor deadline = e'' at hcases ⊢
    cases hcases with
    | unarmed harmed =>
      -- the hold is written as it was
      obtain rfl : hold = HoldState.disarmed := by
        obtain ⟨armedUntil, pending⟩ := hold
        dsimp only at harmed
        subst harmed
        obtain rfl : pending = none := (hof.idle rfl).1
        rfl
      have hsame : Function.update (e.popHold sensor deadline).holds sensor
          (some HoldState.disarmed) = (e.popHold sensor deadline).holds := by
        rw [← hpopped]
        exact Function.update_eq_self _ _
      unfold setHold
      rw [hsame]
    | early harmed hd => rfl
    | ended harmed hd => exact (hdone _ harmed hd).elim
    | released harmed hd => exact (hdone _ harmed hd).elim

/-! ## The law -/

theorem holding_new {setup : Setup} {owns : DisplayId → Bool} {start : ℕ}
    (h : new setup owns start = .ok e) (hcfg : e.holdTime sensor = some holdTime)
    (hknown : (setup.zoneEngine.sensorStates sensor).isSome) :
    Holding sensor holdTime (HoldLog.empty, e) := by
  unfold new at h
  split at h
  · cases h
  · obtain rfl := Except.ok.inj h
    refine ⟨hcfg, hknown, ?_, by simp [HoldLog.empty], by simp, by simp [HoldLog.empty],
      HoldState.disarmed, ?_, ?_⟩
    · intro s hold ev hs hp
      dsimp only at hs
      split at hs
      · obtain rfl := Option.some.inj hs
        cases hp
      · cases hs
    · obtain ⟨scfg, hfind, htime⟩ := Option.bind_eq_some_iff.mp hcfg
      dsimp only
      rw [if_pos]
      · rfl
      · rw [List.any_eq_true]
        have hsensor := List.find?_some hfind
        exact ⟨scfg, List.mem_of_find?_eq_some hfind, by simp [beq_iff_eq.mp hsensor, htime]⟩
    · constructor <;> simp [HoldState.disarmed, HoldLog.empty]

/-- What has become of an absence that was kept back, while nothing of its sensor came. -/
def Awaited (sensor : SensorId) (ev : PresenceEvent) (applied : List PresenceEvent)
    (x : HoldLog × RulesEngine) : Prop :=
  (x.1.waiting = some ev ∧ x.1.applied = applied) ∨
    x.1.waiting = none ∧ x.2.armedUntil sensor = none ∧ x.1.applied = applied ++ [ev]

theorem awaited_next {x : HoldLog × RulesEngine} {ev : PresenceEvent}
    {applied : List PresenceEvent} (h : Holding sensor holdTime x)
    (hreported : x.2.reported sensor i = none) (hx : Awaited sensor ev applied x) :
    Awaited sensor ev applied ((holdWatch sensor).next x i).1 := by
  obtain ⟨l, e⟩ := x
  show Awaited sensor ev applied (noteHold sensor l e i (engine.next e i), (engine.next e i).1)
  rcases h.silent hreported with ⟨hhanded, hidle⟩ | ⟨ev', hhanded, hwaiting, hended⟩
  · rw [noteHold_quiet hreported hhanded]
    rcases hx with hx | ⟨hwaiting, harmed, happlied⟩
    · exact .inl hx
    · exact .inr ⟨hwaiting, hidle harmed, happlied⟩
  · rw [noteHold_released hreported hhanded]
    rcases hx with ⟨hwaiting', happlied⟩ | ⟨hnone, -⟩
    · obtain rfl : ev = ev' := Option.some.inj (hwaiting'.symm.trans hwaiting)
      exact .inr ⟨rfl, hended, congrArg (· ++ [ev]) happlied⟩
    · exact absurd (hnone.symm.trans hwaiting) (by simp)

theorem Awaited.applied {x : HoldLog × RulesEngine} {ev : PresenceEvent}
    {applied : List PresenceEvent} (h : Holding sensor holdTime x)
    (hx : Awaited sensor ev applied x) :
    x.1.applied = applied ++ if x.2.armedUntil sensor = none then [ev] else [] := by
  rcases hx with ⟨hwaiting, happlied⟩ | ⟨-, harmed, happlied⟩
  · rw [if_neg, happlied, List.append_nil]
    intro hnone
    rw [(h.armedUntil_none hnone).1] at hwaiting
    cases hwaiting
  · rw [if_pos harmed, happlied]

/-- In every run of a filtered sensor whose clock does not go back, its hold keeps the law. -/
theorem hold_filter_law (setup : Setup) (owns : DisplayId → Bool) (start : ℕ) {sensor : SensorId}
    {holdTime : ℕ} {e : RulesEngine} (h : new setup owns start = .ok e)
    (hcfg : e.holdTime sensor = some holdTime)
    (hknown : (setup.zoneEngine.sensorStates sensor).isSome) (events : List (Env × Event))
    (htimes : (holdWatch sensor).Steps onTime (HoldLog.empty, e) events) :
    HoldLaw sensor holdTime e events := by
  have hnew := holding_new h hcfg hknown
  have hstep (x : HoldLog × RulesEngine) (i : Env × Event) (hx : Holding sensor holdTime x)
      (ht : onTime x i) : Holding sensor holdTime ((holdWatch sensor).next x i).1 :=
    holding_next hx ht
  refine ⟨?_, ?_, ?_, ?_, ?_, ?_, ?_⟩
  · exact htimes.throughout _ hstep (fun x hx => hx.last) hnew
  · exact htimes.derive _ hstep (fun x i hx ht => late_step hx ht) hnew
  · exact htimes.throughout _ hstep (fun x hx hnone => (hx.armedUntil_none hnone).2) hnew
  · refine htimes.throughout _ hstep (fun x hx deadline harmed => ?_) hnew
    obtain ⟨hold, hh, hof⟩ := hx.hold
    unfold armedUntil at harmed
    rw [hh, Option.bind_some] at harmed
    exact (hof.armed deadline harmed).1
  · refine htimes.derive _ hstep (fun x i hx _ hreported ev hev => ?_) hnew
    rcases hx.silent hreported with ⟨hnone, -⟩ | ⟨ev', hhanded, hwaiting, -⟩
    · rw [hnone] at hev
      cases hev
    · rw [hhanded] at hev
      exact hwaiting.trans hev
  · rintro before i after ev rfl ⟨hreported, habsent, hkept⟩ hquiet
    rw [Runs.System.steps_append] at htimes
    obtain ⟨hbefore, htime, hafter⟩ := htimes
    have hx := hbefore.invariant hstep hnew
    rw [Runs.System.run_append] at hquiet ⊢
    generalize (holdWatch sensor).run (HoldLog.empty, e) before = x at *
    have hy := hstep x i hx htime
    have hstart : Awaited sensor ev x.1.applied ((holdWatch sensor).next x i).1 := by
      left
      simp [holdWatch, Runs.System.observed, noteHold, hkept, hreported]
    have hwait (x' : HoldLog × RulesEngine) (j : Env × Event)
        (hx' : Holding sensor holdTime x' ∧ Awaited sensor ev x.1.applied x')
        (hj : onTime x' j ∧ x'.2.reported sensor j = none) :
        Holding sensor holdTime ((holdWatch sensor).next x' j).1 ∧
          Awaited sensor ev x.1.applied ((holdWatch sensor).next x' j).1 :=
      ⟨hstep x' j hx'.1 hj.1, awaited_next hx'.1 hj.2 hx'.2⟩
    have hboth := (hafter.and hquiet).invariant hwait ⟨hy, hstart⟩
    exact hboth.2.applied hboth.1
  · exact htimes.derive _ hstep
      (fun x i hx _ deadline hdue hne => leftover_step hx hdue hne) hnew

/-! ## A room whose sensor is held -/

def heldRoom : Setup :=
  { emptyRoom with
    cfg := { emptyRoom.cfg with sensors := [⟨⟨"mmwave"⟩, some 30, 300⟩] }
    ruleOrder_perm := by decide }

/-- Somebody is seen and leaves, and the hold runs out. -/
def leaving : List (Env × Event) :=
  [(Env.plain 1, .presence ⟨⟨"mmwave"⟩, .present, 1⟩),
    (Env.plain 11, .presence ⟨⟨"mmwave"⟩, .absent, 11⟩), (Env.plain 31, .timer)]

theorem hold_filter_law_leaving : ∃ e, new heldRoom (fun _ => true) 0 = .ok e ∧
    HoldLaw ⟨"mmwave"⟩ 30 e leaving :=
  ⟨_, rfl, hold_filter_law heldRoom (fun _ => true) 0 rfl rfl rfl leaving (by decide)⟩

/-- A second absence takes the place of the one that is kept back, which is then never applied,
although nobody was seen since and the sensor stayed available. -/
theorem held_absence_replaced : ∃ e, new heldRoom (fun _ => true) 0 = .ok e ∧
    let first : PresenceEvent := ⟨⟨"mmwave"⟩, .absent, 11⟩
    let second : PresenceEvent := ⟨⟨"mmwave"⟩, .absent, 12⟩
    let seen := engine.run e [(Env.plain 1, .presence ⟨⟨"mmwave"⟩, .present, 1⟩)]
    let x := (holdWatch ⟨"mmwave"⟩).run (HoldLog.empty, e)
      [(Env.plain 1, .presence ⟨⟨"mmwave"⟩, .present, 1⟩), (Env.plain 11, .presence first),
        (Env.plain 12, .presence second), (Env.plain 31, .timer)]
    keptBack ⟨"mmwave"⟩ first seen (Env.plain 11, .presence first) ∧
      x.2.armedUntil ⟨"mmwave"⟩ = none ∧ x.1.waiting = none ∧ first ∉ x.1.applied :=
  ⟨_, rfl, ⟨by decide, rfl, by decide⟩, by decide, by decide, by decide⟩

end RulesEngine
end Dormant
