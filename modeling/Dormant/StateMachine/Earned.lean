import Dormant.StateMachine.GraceCountdown

/-!
# An automatic blank is earned

`watched` runs a machine beside a record of what an onlooker saw: the last zone level, the
last accepted wake, and the time the display spent without an overlay since Grace was last
entered. The countdown of the machine covers the grace period with that time, so the tick
that leaves Grace for the ladder finds the whole period spent.
-/

namespace Dormant
set_option autoImplicit false

/-- What an onlooker of the run has seen. -/
structure Sighting where
  clock : ℕ
  zone : Option Bool
  woken : Option ℕ
  unfrozen : ℕ
  deriving DecidableEq, Repr

def Sighting.start (start : ℕ) : Sighting :=
  { clock := start, zone := none, woken := none, unfrozen := 0 }

namespace DisplayStateMachine
variable {s : DisplayStateMachine}

def sight (g : Sighting) (s : DisplayStateMachine) (f : Feed)
    (r : DisplayStateMachine × List Effect) : Sighting :=
  match f with
  | .hold _ => g
  | .input input now =>
    { clock := now
      zone := match input with
        | .zonePresent present => some present
        | _ => g.zone
      woken := if s.wakeAccepted input then some now else g.woken
      unfrozen := if entersGrace r.2 then 0 else g.unfrozen + s.unheldTime g.clock now }

def watched : Runs.System (Sighting × DisplayStateMachine) Feed Effect := machine.observed sight

def inLadder (s : DisplayStateMachine) : Bool :=
  match s.phase with
  | .blanking | .blanked | .renderPending _ _ | .staged _ _ => true
  | .active | .grace _ | .waking => false

/-- What is due before a tick may start the ladder. -/
structure BlankEarned (timings : SmTimings) (start : ℕ) (g : Sighting) (s : DisplayStateMachine)
    (now : ℕ) : Prop where
  zone : g.zone = some false
  owned : s.owned = true
  unpaused : s.overlays.paused = none
  uninhibited : s.overlays.inhibited = false
  holdoff : timings.startupHoldoff ≤ now - start
  woken : ∀ woke, g.woken = some woke → timings.minWakeTime ≤ now - woke
  grace : timings.gracePeriod ≤ g.unfrozen + s.unheldTime g.clock now

def earnedStep (timings : SmTimings) (start : ℕ) (x : Sighting × DisplayStateMachine) :
    Feed → Prop
  | .input .tick now => x.2.inGrace = true → (x.2.step .tick now).1.inLadder = true →
      BlankEarned timings start x.1 x.2 now
  | _ => True

/-! ## The invariant -/

/-- The onlooker and the machine agree, and the countdown covers the grace period. -/
structure Accounted (timings : SmTimings) (start : ℕ) (x : Sighting × DisplayStateMachine) :
    Prop where
  frozen : x.2.FrozenOk
  vacant : x.2.GraceVacant
  zone : x.1.zone = x.2.zonePresent
  woken : x.1.woken = x.2.lastWake
  built : x.2.timings = timings
  started : x.2.startedAt = start
  covers : ∀ c, x.2.countdown = some c → c.Covers timings.gracePeriod x.1.unfrozen x.1.clock

theorem accounted_new (timings : SmTimings) (ladder : List LadderStage) (start : ℕ) :
    Accounted timings start (Sighting.start start, new timings ladder start) :=
  ⟨frozenOk_new timings ladder start, nofun, rfl, rfl, rfl, rfl, nofun⟩

theorem unheldTime_eq_counted (hs : s.FrozenOk) {c : Countdown} (hc : s.countdown = some c)
    (clock now : ℕ) : s.unheldTime clock now = c.counted clock now := by
  cases c with
  | running deadline =>
    obtain ⟨hp, hf⟩ := countdown_running_iff.mp hc
    have hheld := hs.not_held (by simp [inGrace, hp]) hf
    simp [unheldTime, hheld, Countdown.counted]
  | frozen remaining =>
    obtain ⟨hg, hf⟩ := countdown_frozen_iff.mp hc
    have hheld := (hs.mp (by simp [hf])).2
    simp [unheldTime, hheld, Countdown.counted]

theorem covers_step {timings : SmTimings} {start : ℕ} {g : Sighting}
    (h : Accounted timings start (g, s)) (input : Input) (now : ℕ) {c : Countdown}
    (hc : (s.step input now).1.countdown = some c) :
    c.Covers timings.gracePeriod (sight g s (.input input now) (s.step input now)).unfrozen now := by
  -- what the step finds: the countdown from before, with the time since counted in
  have hpass (c' : Countdown) (hc' : s.countdown = some c') :
      c'.Covers timings.gracePeriod (g.unfrozen + s.unheldTime g.clock now) now := by
    rw [unheldTime_eq_counted h.frozen hc']
    exact (h.covers c' hc').pass now
  cases step_grace h.frozen input now with
  | fresh hf =>
    cases hf with
    | stopped hout => simp [countdown_none_iff.mpr hout] at hc
    | started hlog _ hnew _ =>
      rw [hnew, step_timings, h.built] at hc
      simp only [sight, hlog, if_true]
      split at hc
      · obtain rfl := Option.some.inj hc
        exact Countdown.covers_frozen _ now
      · obtain rfl := Option.some.inj hc
        exact Countdown.covers_running _ now
  | kept hlog _ hsame =>
    simp only [sight, hlog, Bool.false_eq_true, if_false]
    exact hpass c (hsame ▸ hc)
  | froze c' hlog hs hnew =>
    obtain rfl : c'.freeze now = c := by simpa [hnew] using hc
    simp only [sight, hlog, Bool.false_eq_true, if_false]
    exact (hpass c' hs).freeze
  | thawed remaining hlog hs hnew =>
    obtain rfl : Countdown.running (now + remaining) = c := by simpa [hnew] using hc
    simp only [sight, hlog, Bool.false_eq_true, if_false]
    exact (hpass _ hs).thaw

theorem accounted_next {timings : SmTimings} {start : ℕ} (x : Sighting × DisplayStateMachine)
    (f : Feed) (h : Accounted timings start x) (hstrand : ¬ x.2.strands f) :
    Accounted timings start (watched.next x f).1 := by
  obtain ⟨g, s⟩ := x
  cases f with
  | hold active => exact ⟨h.frozen, h.vacant, h.zone, h.woken, h.built, h.started, h.covers⟩
  | input input now =>
    refine ⟨(frozenOk_step_iff h.frozen input now).mpr hstrand,
      graceVacant_step h.frozen h.vacant input now, ?_, ?_, (step_timings s input now).trans h.built,
      (step_startedAt s input now).trans h.started, fun c hc => covers_step h input now hc⟩
    · show _ = (s.step input now).1.zonePresent
      rw [step_zonePresent]
      cases input <;> first | rfl | exact h.zone
    · show (if s.wakeAccepted input then some now else g.woken) = (s.step input now).1.lastWake
      rw [step_lastWake]
      split
      · rfl
      · exact h.woken

/-! ## The tick that starts the ladder -/

/-- A tick that leaves Grace for the ladder finds the countdown run out, the gates open and
the display owned. -/
theorem graceTick_inLadder (hs : s.FrozenOk) {untilTick now : ℕ} (hp : s.phase = .grace untilTick)
    (h : (s.step .tick now).1.inLadder = true) :
    s.graceFrozenRemaining = none ∧ untilTick ≤ now ∧ s.blankBlocked now = false ∧
      s.owned = true := by
  have hg : s.inGrace = true := by simp [inGrace, hp]
  have hin (t : DisplayStateMachine) (ht : t.inGrace = true) : t.inLadder = false := by
    cases hp' : t.phase <;> simp_all [inGrace, inLadder]
  have hstep : s.step .tick now = s.graceTick untilTick now := by simp [step, hp, stepGrace]
  rw [hstep] at h
  cases hf : s.graceFrozenRemaining with
  | some remaining =>
    rw [graceTick_frozen hf] at h
    have hout := hin (s.maybeAutoResume now).1 (by
      unfold maybeAutoResume unfreezeGrace
      repeat' split
      all_goals simp_all [inGrace])
    simp [hout] at h
  | none =>
    have hheld := hs.not_held hg hf
    rw [graceTick_live hf hheld] at h
    split_ifs at h with h1 h2 h3
    · simp [hin s hg] at h
    · simp [hin s hg] at h
    · simp [hin s hg] at h
    · exact ⟨rfl, Nat.le_of_not_lt h1, by simpa using h2, by simpa using h3⟩

theorem blankBlocked_eq_false_iff (now : ℕ) : s.blankBlocked now = false ↔
    s.timings.startupHoldoff ≤ now - s.startedAt ∧
      ∀ woke, s.lastWake = some woke → s.timings.minWakeTime ≤ now - woke := by
  unfold blankBlocked
  cases s.lastWake <;> simp

theorem Accounted.earned {timings : SmTimings} {start : ℕ} {x : Sighting × DisplayStateMachine}
    (h : Accounted timings start x) {f : Feed} (hf : f.inOrder x.1.clock) :
    earnedStep timings start x f := by
  obtain ⟨g, s⟩ := x
  unfold earnedStep
  split
  · rename_i now
    intro hg hin
    obtain ⟨untilTick, hp⟩ := exists_grace hg
    obtain ⟨hlive, hup, hopen, howned⟩ := graceTick_inLadder h.frozen hp hin
    have hheld := h.frozen.not_held hg hlive
    obtain ⟨hi, hpause⟩ : s.overlays.inhibited = false ∧ s.overlays.paused = none := by
      simpa [held] using hheld
    obtain ⟨hhold, hwake⟩ := (blankBlocked_eq_false_iff now).mp hopen
    have hc := countdown_running_iff.mpr ⟨hp, hlive⟩
    have hcov := (h.covers _ hc).pass now
    rw [← unheldTime_eq_counted h.frozen hc] at hcov
    refine ⟨h.zone.trans (h.vacant hg), howned, hpause, hi, ?_, ?_, hcov.expired hup⟩
    · rw [← h.built, ← h.started]
      exact hhold
    · intro woke hwoke
      rw [← h.built]
      exact hwake woke (h.woken ▸ hwoke)
  · trivial

/-- In every run with instants in order that strands no frozen countdown, each tick that takes
the machine from Grace into the ladder is earned. -/
theorem blank_earned (timings : SmTimings) (ladder : List LadderStage) (start : ℕ)
    (feeds : List Feed)
    (h : watched.Steps (fun x f => f.inOrder x.1.clock ∧ ¬ x.2.strands f)
      (Sighting.start start, new timings ladder start) feeds) :
    watched.Steps (earnedStep timings start) (Sighting.start start, new timings ladder start)
      feeds :=
  h.derive (Accounted timings start) (fun x f hx hf => accounted_next x f hx hf.2)
    (fun _ _ hx hf => hx.earned hf.1)
    (accounted_new timings ladder start)

theorem blank_earned_paused :
    let timings : SmTimings := { gracePeriod := 60, minBlankTime := 0, minWakeTime := 20,
                                 startupHoldoff := 15, wakeRetryInterval := 5 }
    let x₀ := (Sighting.start 0, new timings [⟨.controller .powerOff, none⟩] 0)
    let feeds : List Feed := [.input (.zonePresent false) 10, .input (.pause (some 30)) 20,
      .input .tick 30, .input .tick 80]
    watched.Steps (earnedStep timings 0) x₀ feeds ∧ (watched.run x₀ feeds).2.phase = .blanking :=
  ⟨blank_earned _ _ _ _ (by decide), by decide⟩

/-- Past a stranded countdown, the end of a timed pause during Blanking leads into Grace with
the zone present, and the next tick starts the ladder over a person. -/
theorem blank_unearned :
    let timings : SmTimings := { gracePeriod := 60, minBlankTime := 0, minWakeTime := 0,
                                 startupHoldoff := 0, wakeRetryInterval := 5 }
    let x₀ := (Sighting.start 0,
      new timings [⟨.renderBlack, some 30⟩, ⟨.controller .powerOff, none⟩] 0)
    let feeds : List Feed := [.input (.zonePresent false) 1, .input .softBlank 2,
      .input (.pause (some 100)) 4, .input (.ownershipChanged true) 5, .input .forceBlank 6,
      .input (.zonePresent true) 7, .input .tick 100, .input .tick 160]
    watched.Steps (fun x f => f.inOrder x.1.clock) x₀ feeds ∧
      ¬ watched.Steps (earnedStep timings 0) x₀ feeds := by
  intro timings x₀ feeds
  refine ⟨by decide, fun h => ?_⟩
  have hlast := h.2.2.2.2.2.2.2.1 (by decide) (by decide)
  exact absurd hlast.zone (by decide)

end DisplayStateMachine
end Dormant
