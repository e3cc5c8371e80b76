import Dormant.Foundations.Countdown
import Dormant.StateMachine.FrozenGrace

/-!
# Grace as a countdown

The phase `Grace { until }` and `grace_frozen_remaining` together are a `Countdown`. While the
freeze invariant holds, a step starts a countdown, keeps it, freezes it, thaws it or stops
it: `GraceMove` lists these with what they emit, and `step_grace` says there is no other.
-/

namespace Dormant
set_option autoImplicit false

def entersGrace (effects : List Effect) : Bool :=
  effects.any fun e =>
    match e with
    | .logTransition _ dest _ => dest == "grace"
    | _ => false

theorem entersGrace_append (a b : List Effect) :
    entersGrace (a ++ b) = (entersGrace a || entersGrace b) :=
  List.any_append

theorem mem_ticks {effects : List Effect} {t : ℕ} :
    t ∈ ticks effects ↔ .scheduleTickAt t ∈ effects := by
  simp only [ticks, List.mem_filterMap]
  constructor
  · rintro ⟨e, he, ht⟩
    cases e <;> simp_all [Effect.tick?]
  · exact fun h => ⟨_, h, rfl⟩

namespace DisplayStateMachine
variable {s t : DisplayStateMachine} {now : ℕ} {r : DisplayStateMachine × List Effect}

def countdown (s : DisplayStateMachine) : Option Countdown :=
  match s.phase with
  | .grace untilTick =>
    match s.graceFrozenRemaining with
    | some remaining => some (.frozen remaining)
    | none => some (.running untilTick)
  | _ => none

theorem countdown_none_iff : s.countdown = none ↔ s.inGrace = false := by
  cases hp : s.phase <;> simp only [countdown, inGrace, hp]
  cases s.graceFrozenRemaining <;> simp

theorem countdown_running_iff {deadline : ℕ} : s.countdown = some (.running deadline) ↔
    s.phase = .grace deadline ∧ s.graceFrozenRemaining = none := by
  cases hp : s.phase <;> simp only [countdown, hp]
  case grace untilTick => cases hf : s.graceFrozenRemaining <;> simp
  all_goals simp

theorem countdown_frozen_iff {remaining : ℕ} : s.countdown = some (.frozen remaining) ↔
    s.inGrace = true ∧ s.graceFrozenRemaining = some remaining := by
  cases hp : s.phase <;> simp only [countdown, inGrace, hp]
  case grace untilTick => cases hf : s.graceFrozenRemaining <;> simp
  all_goals simp

/-- A step that leaves no countdown, or a new one over the whole grace period. -/
inductive Fresh (now : ℕ) (r : DisplayStateMachine × List Effect) : Prop
  | stopped (h : r.1.inGrace = false)
  | started (hlog : entersGrace r.2 = true) (hzone : r.1.zonePresent = some false)
      (h : r.1.countdown = some (if r.1.held then .frozen r.1.timings.gracePeriod
        else .running (now + r.1.timings.gracePeriod)))
      (htick : r.1.held = false → now + r.1.timings.gracePeriod ∈ ticks r.2)

/-- What a step can do to the countdown. -/
inductive GraceMove (s : DisplayStateMachine) (input : Input) (now : ℕ)
    (r : DisplayStateMachine × List Effect) : Prop
  | fresh (h : Fresh now r)
  | kept (hlog : entersGrace r.2 = false) (hg : s.inGrace = true)
      (h : r.1.countdown = s.countdown) (hzone : input ≠ .zonePresent true)
      (hdue : input = .tick → ∀ deadline, s.countdown = some (.running deadline) →
        deadline ≤ now → s.owned = true → ∃ t ∈ ticks r.2, deadline ≤ t)
      (hgain : input = .ownershipChanged true → s.zonePresent = some false →
        ∀ deadline, s.countdown = some (.running deadline) → deadline ∈ ticks r.2)
  | froze (c : Countdown) (hlog : entersGrace r.2 = false) (hs : s.countdown = some c)
      (h : r.1.countdown = some (c.freeze now)) (hzone : input ≠ .zonePresent true)
      (htick : input ≠ .tick)
  | thawed (remaining : ℕ) (hlog : entersGrace r.2 = false)
      (hs : s.countdown = some (.frozen remaining))
      (h : r.1.countdown = some (.running (now + remaining)))
      (hzone : input ≠ .zonePresent true) (htick : now + remaining ∈ ticks r.2)

/-! ## Fresh countdowns -/

theorem Fresh.append (h : Fresh now r) (pre : List Effect) : Fresh now (r.1, pre ++ r.2) := by
  cases h with
  | stopped h => exact .stopped h
  | started hlog hzone h htick =>
    refine .started ?_ hzone h fun hh => ?_
    · simp only [entersGrace_append, hlog, Bool.or_true]
    · rw [mem_ticks]
      exact List.mem_append_right _ (mem_ticks.mp (htick hh))

theorem Fresh.cons (h : Fresh now r) (e : Effect) : Fresh now (r.1, e :: r.2) := h.append [e]

theorem fresh_enterGrace (hz : t.zonePresent = some false) (now : ℕ) (cause : String) :
    Fresh now (t.enterGrace now cause) := by
  unfold enterGrace
  dsimp only
  split
  · rename_i h
    refine .started rfl hz (congrArg some (if_pos h).symm) fun hh => ?_
    exact absurd h (Bool.eq_false_iff.mp hh)
  · rename_i h
    refine .started rfl hz (congrArg some (if_neg h).symm) fun _ => ?_
    simp [mem_ticks]

theorem fresh_enterActive (t : DisplayStateMachine) (now : ℕ) (cause : String) :
    Fresh now (t.enterActive now cause) := by
  unfold enterActive
  dsimp only
  split
  · rename_i h
    exact (fresh_enterGrace (by exact h.1) now "deferred_zone_clear").cons _
  · exact .stopped rfl

theorem fresh_teardownRender (t : DisplayStateMachine) (now : ℕ) (cause : String) :
    Fresh now (t.teardownRender now cause) :=
  (fresh_enterActive t now cause).cons _

theorem fresh_enterLadderStage (t : DisplayStateMachine) (idx : ℕ) (now : ℕ) (cause : String) :
    Fresh now (t.enterLadderStage idx now cause) := by
  unfold enterLadderStage
  split
  · exact fresh_enterActive t now cause
  · dsimp only
    split <;> exact .stopped rfl

theorem fresh_advanceStage (t : DisplayStateMachine) (now : ℕ) (cause : String) :
    Fresh now (t.advanceStage now cause) := by
  unfold advanceStage
  split
  · exact fresh_enterActive t now cause
  · exact fresh_enterLadderStage t _ now cause

theorem fresh_advanceToNextController (t : DisplayStateMachine) (now : ℕ) (cause : String) :
    Fresh now (t.advanceToNextController now cause) := by
  unfold advanceToNextController
  split
  · exact fresh_enterLadderStage t _ now cause
  · exact fresh_teardownRender t now cause

theorem fresh_blankAnswered (s : DisplayStateMachine) (result : Except CmdFailure Unit)
    (now : ℕ) : Fresh now (s.blankAnswered result now) := by
  unfold blankAnswered
  cases result with
  | ok u =>
    dsimp only
    split
    · exact .stopped rfl
    · refine .stopped ?_
      simp [inGrace]
  | error failure =>
    dsimp only
    split
    · rename_i hz
      exact fresh_enterGrace (by exact hz) now "blank_failed_regrace"
    · exact fresh_enterActive _ now "blank_failed"

/-! ## A tick in Grace -/

theorem graceTick_frozen {remaining : ℕ} (hf : s.graceFrozenRemaining = some remaining)
    (untilTick now : ℕ) : s.graceTick untilTick now = s.maybeAutoResume now := by
  unfold graceTick
  cases ha : (s.maybeAutoResume now).1.graceFrozenRemaining <;> simp [hf, ha]

theorem graceTick_live (hf : s.graceFrozenRemaining = none) (hh : s.held = false)
    (untilTick now : ℕ) : s.graceTick untilTick now =
      if now < untilTick then (s, [])
      else if s.blankBlocked now = true then (s, [.scheduleTickAt (s.rescheduleAt now)])
      else if s.owned = false then (s, [])
      else s.enterLadderStage 0 now "grace_expired" := by
  have hh' : s.overlays.inhibited = false ∧ s.overlays.paused = none := by
    simpa [held] using hh
  have ha : s.maybeAutoResume now = (s, []) := by
    refine maybeAutoResume_not_due s now ?_
    rintro ⟨deadline, hp, -⟩
    simp [hh'.2] at hp
  unfold graceTick
  simp [ha, hf, hh']

/-- A blocked expiry is put off, never brought forward. -/
theorem le_rescheduleAt (s : DisplayStateMachine) (now : ℕ) : now ≤ s.rescheduleAt now := by
  unfold rescheduleAt
  cases s.lastWake with
  | none =>
    dsimp only
    split_ifs <;> omega
  | some woke =>
    dsimp only
    split_ifs <;> omega

theorem graceMove_maybeAutoResume (hg : s.inGrace = true) {remaining : ℕ}
    (hf : s.graceFrozenRemaining = some remaining) (now : ℕ) :
    GraceMove s .tick now (s.maybeAutoResume now) := by
  have hs := countdown_frozen_iff.mpr ⟨hg, hf⟩
  by_cases hd : s.pauseDue now
  · rw [maybeAutoResume_due s now hd]
    unfold unfreezeGrace
    simp only [clearPause, hf]
    split
    · refine .kept rfl hg ?_ (by simp) ?_ (by simp)
      · exact (countdown_frozen_iff.mpr ⟨by exact hg, rfl⟩).trans hs.symm
      · intro _ deadline hr
        simp [hs] at hr
    · refine .thawed remaining rfl hs rfl (by simp) ?_
      simp [mem_ticks]
  · rw [maybeAutoResume_not_due s now hd]
    refine .kept rfl hg rfl (by simp) ?_ (by simp)
    intro _ deadline hr
    simp [hs] at hr

theorem graceMove_graceTick (hs : s.GraceOk) {untilTick : ℕ} (hp : s.phase = .grace untilTick)
    (now : ℕ) : GraceMove s .tick now (s.graceTick untilTick now) := by
  have hg : s.inGrace = true := by simp [inGrace, hp]
  cases hf : s.graceFrozenRemaining with
  | some remaining =>
    rw [graceTick_frozen hf]
    exact graceMove_maybeAutoResume hg hf now
  | none =>
    have hh : s.held = false := by simpa [hf] using hs hg
    have hc := countdown_running_iff.mpr ⟨hp, hf⟩
    rw [graceTick_live hf hh]
    split_ifs with h1 h2 h3
    · refine .kept rfl hg rfl (by simp) ?_ (by simp)
      intro _ deadline hr hd
      obtain rfl : untilTick = deadline := by simpa [hc] using hr
      omega
    · refine .kept rfl hg rfl (by simp) ?_ (by simp)
      intro _ deadline hr hd _
      exact ⟨s.rescheduleAt now, by simp [mem_ticks], Nat.le_trans hd (le_rescheduleAt s now)⟩
    · refine .kept rfl hg rfl (by simp) ?_ (by simp)
      intro _ deadline _ _ ho
      simp [h3] at ho
    · exact .fresh (fresh_enterLadderStage s 0 now _)

/-! ## Every step -/

theorem entersGrace_noteEffects (input : Input) : entersGrace (noteEffects input) = false := by
  unfold noteEffects
  split <;> rfl

/-- What any step does to the countdown of a machine in order. -/
theorem step_grace (hs : s.FrozenOk) (input : Input) (now : ℕ) :
    GraceMove s input now (s.step input now) := by
  obtain ⟨hgrace, hcalm⟩ := frozenOk_iff.mp hs
  have hm := step_move s input now
  generalize s.step input now = r at hm
  have hnote : (s.note input).countdown = s.countdown := by simp [countdown]
  have stop {q : DisplayStateMachine × List Effect} (h : q.1.inGrace = false) :
      GraceMove s input now q := .fresh (.stopped h)
  cases hm with
  | quiet h =>
    cases hg : s.inGrace with
    | false => exact stop (by simp [hg])
    | true =>
      obtain ⟨untilTick, hp⟩ := exists_grace hg
      simp only [quiet, hp] at h
      refine .kept (entersGrace_noteEffects input) hg hnote ?_ ?_ ?_
      · rintro rfl
        simp [quietGrace] at h
      · rintro rfl
        simp [quietGrace] at h
      · rintro rfl hz
        simp [quietGrace, hz] at h
  | ticked hg =>
    rcases maybeAutoResume_unfrozen (hcalm hg) now with he | he <;> rw [he] <;> exact stop hg
  | graceTicked untilTick h => exact graceMove_graceTick hgrace h now
  | vacated => exact .fresh (fresh_enterGrace rfl now _)
  | froze untilTick h hinput =>
    have hg : s.inGrace = true := by simp [inGrace, h]
    obtain ⟨c, hc⟩ := Option.ne_none_iff_exists'.mp
      (countdown_none_iff.not.mpr (by simp [hg] : ¬ s.inGrace = false))
    refine .froze c (entersGrace_noteEffects input) hc ?_ ?_ ?_
    · cases hf : s.graceFrozenRemaining with
      | none =>
        obtain rfl : c = .running untilTick := by
          simpa [hc] using countdown_running_iff.mpr ⟨h, hf⟩
        simp [freezeGrace, hf, countdown, h, Countdown.freeze]
      | some remaining =>
        obtain rfl : c = .frozen remaining := by
          simpa [hc] using countdown_frozen_iff.mpr ⟨hg, hf⟩
        simp [freezeGrace, hf, countdown, h, Countdown.freeze]
    · rcases hinput with rfl | ⟨⟨u, rfl⟩, -⟩ <;> simp
    · rcases hinput with rfl | ⟨⟨u, rfl⟩, -⟩ <;> simp
  | @repaused u hg =>
    exact .kept (entersGrace_noteEffects (.pause u)) hg hnote (by simp) (by simp) (by simp)
  | thawed hg hinput =>
    have hzone : input ≠ .zonePresent true := by rcases hinput with rfl | rfl <;> simp
    have htick : input ≠ .tick := by rcases hinput with rfl | rfl <;> simp
    have hgain : input ≠ .ownershipChanged true := by rcases hinput with rfl | rfl <;> simp
    have keep : GraceMove s input now (s.note input, []) :=
      .kept rfl hg hnote hzone (fun h => absurd h htick) fun h => absurd h hgain
    unfold unfreezeGrace
    split
    · exact keep
    · rename_i remaining hf
      split
      · exact keep
      · refine .thawed remaining rfl (countdown_frozen_iff.mpr ⟨hg, by simpa using hf⟩) rfl hzone ?_
        simp [mem_ticks]
  | regained untilTick h hz =>
    have hg : s.inGrace = true := by simp [inGrace, h]
    refine .kept rfl hg hnote (by simp) (by simp) fun _ _ deadline hc => ?_
    obtain ⟨rfl⟩ : untilTick = deadline := by simpa [h] using (countdown_running_iff.mp hc).1
    simp [mem_ticks]
  | activated cause => exact .fresh (fresh_enterActive _ now cause)
  | forceBlanked => exact stop rfl
  | softBlanked => exact .fresh (fresh_enterLadderStage _ 0 now _)
  | deferred h => exact stop (by simp [inGrace, h])
  | blankAnswered result => exact .fresh (fresh_blankAnswered s result now)
  | woken => exact stop rfl
  | rewoken => exact stop rfl
  | retried => exact stop rfl
  | awoken => exact .fresh (fresh_enterActive _ now _)
  | torn cause => exact .fresh (fresh_teardownRender _ now cause)
  | tornAwake => exact stop rfl
  | renderForceBlanked => exact stop rfl
  | renderSoftBlanked => exact .fresh ((fresh_enterLadderStage _ 0 now _).append [_, _])
  | rendered idx => exact stop (by simp [inGrace])
  | renderFailed => exact .fresh (fresh_advanceToNextController s now _)
  | advanced => exact .fresh (fresh_advanceStage s now _)
  | captured h => exact stop (by simp [inGrace, captureDwell, h])
  | rearmed h =>
    obtain ⟨gen, deadline, he⟩ := (s.note input).rearmStageTick_frame now
    exact stop (by simp [he, inGrace, h])

/-- In Grace the zone was last seen absent. -/
def GraceVacant (s : DisplayStateMachine) : Prop := s.inGrace = true → s.zonePresent = some false

theorem graceVacant_step (hs : s.FrozenOk) (hv : s.GraceVacant) (input : Input) (now : ℕ) :
    (s.step input now).1.GraceVacant := by
  intro hg
  have hzone (hin : s.inGrace = true) (hne : input ≠ .zonePresent true) :
      (s.step input now).1.zonePresent = some false := by
    rw [step_zonePresent]
    cases input with
    | zonePresent present => cases present <;> simp_all [Setting.after]
    | _ => exact hv hin
  cases step_grace hs input now with
  | fresh h =>
    cases h with
    | stopped h => simp [h] at hg
    | started _ hz => exact hz
  | kept _ hin _ hne => exact hzone hin hne
  | froze c _ hc _ hne =>
    refine hzone ?_ hne
    by_contra hin
    simp [countdown_none_iff.mpr (by simpa using hin)] at hc
  | thawed _ _ hc _ hne => exact hzone (countdown_frozen_iff.mp hc).1 hne

end DisplayStateMachine
end Dormant
