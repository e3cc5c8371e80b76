import Dormant.Foundations.Countdown
import Dormant.StateMachine.StageDwell
import Mathlib.Algebra.Group.Nat.Defs

/-!
# The dwell of a rung is not cut short

`dwelt` runs a machine beside a record of the time it has rested on its rung without an
overlay. The scheduled deadline and the captured dwell together are a `Countdown` over the
dwell, and the record covers it, except where an arm of the source starts a new countdown
from nothing or lets one run under an overlay. `cutsDwell` names these arms.
-/

namespace Dormant
set_option autoImplicit false

theorem stageTicks_append (a b : List Effect) :
    stageTicks (a ++ b) = stageTicks a ++ stageTicks b :=
  List.filterMap_append

theorem stageTicks_cons {e : Effect} (he : e.stageTick? = none) (effects : List Effect) :
    stageTicks (e :: effects) = stageTicks effects :=
  List.filterMap_cons_none he

namespace DisplayStateMachine
variable {s t : DisplayStateMachine} {r : DisplayStateMachine × List Effect}

/-! ## The stage generation -/

/-- No stage tick is armed, or one is, under the next generation. -/
inductive Armed (s : DisplayStateMachine) (r : DisplayStateMachine × List Effect) : Prop
  | unarmed (ht : stageTicks r.2 = [])
      (hg : r.1.stageGen = s.stageGen ∨ r.1.stageGen = s.stageGen + 1)
  | armed (tick : ℕ) (ht : stageTicks r.2 = [(r.1.stageGen, tick)])
      (hg : r.1.stageGen = s.stageGen + 1)

theorem Armed.before (h : t.stageGen = s.stageGen) (hr : Armed t r) : Armed s r := by
  cases hr with
  | unarmed ht hg => exact .unarmed ht (h ▸ hg)
  | armed tick ht hg => exact .armed tick ht (h ▸ hg)

theorem Armed.append (hr : Armed s r) (pre : List Effect) (hpre : stageTicks pre = []) :
    Armed s (r.1, pre ++ r.2) := by
  have hc : stageTicks (pre ++ r.2) = stageTicks r.2 := by
    rw [stageTicks_append, hpre, List.nil_append]
  cases hr with
  | unarmed ht hg => exact .unarmed (hc.trans ht) hg
  | armed tick ht hg => exact .armed tick (hc.trans ht) hg

theorem Armed.cons (hr : Armed s r) {e : Effect} (he : e.stageTick? = none) :
    Armed s (r.1, e :: r.2) :=
  hr.append [e] (stageTicks_cons he [])

theorem unarmed_enterGrace (s : DisplayStateMachine) (now : ℕ) (cause : String) :
    stageTicks (s.enterGrace now cause).2 = [] ∧
      (s.enterGrace now cause).1.stageGen = s.stageGen := by
  unfold enterGrace
  dsimp only
  split <;> exact ⟨rfl, rfl⟩

theorem unarmed_enterActive (s : DisplayStateMachine) (now : ℕ) (cause : String) :
    stageTicks (s.enterActive now cause).2 = [] ∧
      (s.enterActive now cause).1.stageGen = s.stageGen := by
  unfold enterActive
  dsimp only
  split
  · exact unarmed_enterGrace _ now _
  · exact ⟨rfl, rfl⟩

theorem armed_enterActive (s : DisplayStateMachine) (now : ℕ) (cause : String) :
    Armed s (s.enterActive now cause) :=
  .unarmed (unarmed_enterActive s now cause).1 (.inl (unarmed_enterActive s now cause).2)

theorem armed_teardownRender (s : DisplayStateMachine) (now : ℕ) (cause : String) :
    Armed s (s.teardownRender now cause) :=
  (armed_enterActive s now cause).cons rfl

theorem armed_issueBlank (s : DisplayStateMachine) {pre : List Effect} (h : stageTicks pre = []) :
    Armed s (s.issueBlank pre) :=
  .unarmed (by rw [issueBlank, stageTicks_append, h]; rfl) (.inl rfl)

theorem armed_issueWake (s : DisplayStateMachine) {pre : List Effect} (h : stageTicks pre = [])
    (now : ℕ) : Armed s (s.issueWake pre now) :=
  .unarmed (by rw [issueWake, stageTicks_append, h]; rfl) (.inl rfl)

theorem armed_enterLadderStage (s : DisplayStateMachine) (idx now : ℕ) (cause : String) :
    Armed s (s.enterLadderStage idx now cause) := by
  unfold enterLadderStage
  split
  · exact armed_enterActive s now cause
  · have hpre (b : Bool) (gen : UInt64) :
        stageTicks (if b then [Effect.teardownRender gen] else []) = [] := by cases b <;> rfl
    dsimp only
    split
    · refine .unarmed ?_ (.inr rfl)
      simp only [issueBlankForMode, stageTicks_append, hpre]
      rfl
    · refine .unarmed ?_ (.inr rfl)
      simp only [stageTicks_append, hpre]
      rfl

theorem armed_advanceStage (s : DisplayStateMachine) (now : ℕ) (cause : String) :
    Armed s (s.advanceStage now cause) := by
  unfold advanceStage
  split
  · exact armed_enterActive s now cause
  · exact armed_enterLadderStage s _ now cause

theorem armed_advanceToNextController (s : DisplayStateMachine) (now : ℕ) (cause : String) :
    Armed s (s.advanceToNextController now cause) := by
  unfold advanceToNextController
  split
  · exact armed_enterLadderStage s _ now cause
  · exact armed_teardownRender s now cause

theorem armed_scheduleStageTick (s : DisplayStateMachine) (now : ℕ) :
    Armed s (s.scheduleStageTick now) := by
  unfold scheduleStageTick
  split
  · exact .unarmed rfl (.inl rfl)
  · split
    · exact .unarmed rfl (.inl rfl)
    · exact .armed _ rfl rfl

theorem armed_rearmStageTick (s : DisplayStateMachine) (now : ℕ) :
    Armed s (s.rearmStageTick now) := by
  unfold rearmStageTick
  dsimp only
  split
  · exact .unarmed rfl (.inl rfl)
  · split
    · exact .unarmed rfl (.inl rfl)
    · exact .armed _ rfl rfl

theorem unarmed_unfreezeGrace (s : DisplayStateMachine) (now : ℕ) :
    stageTicks (s.unfreezeGrace now).2 = [] ∧ (s.unfreezeGrace now).1.stageGen = s.stageGen := by
  unfold unfreezeGrace
  repeat' split
  all_goals exact ⟨rfl, rfl⟩

theorem unarmed_maybeAutoResume (s : DisplayStateMachine) (now : ℕ) :
    stageTicks (s.maybeAutoResume now).2 = [] ∧
      (s.maybeAutoResume now).1.stageGen = s.stageGen := by
  by_cases hd : s.pauseDue now
  · rw [maybeAutoResume_due s now hd]
    exact unarmed_unfreezeGrace s.clearPause now
  · rw [maybeAutoResume_not_due s now hd]
    exact ⟨rfl, rfl⟩

theorem armed_graceTick (s : DisplayStateMachine) (untilTick now : ℕ) :
    Armed s (s.graceTick untilTick now) := by
  obtain ⟨ht, hg⟩ := unarmed_maybeAutoResume s now
  have hf : ((s.maybeAutoResume now).1.freezeGrace untilTick now).stageGen = s.stageGen := by
    unfold freezeGrace
    split <;> exact hg
  unfold graceTick
  dsimp only
  split_ifs
  · exact .unarmed ht (.inl hg)
  · exact .unarmed ht (.inl hg)
  · exact .unarmed ht (.inl hf)
  · exact .unarmed ht (.inl hg)
  · exact .unarmed (by rw [stageTicks_append, ht]; rfl) (.inl hg)
  · exact .unarmed ht (.inl hg)
  · exact ((armed_enterLadderStage _ 0 now _).append _ ht).before hg

theorem armed_blankAnswered (s : DisplayStateMachine) (result : Except CmdFailure Unit) (now : ℕ) :
    Armed s (s.blankAnswered result now) := by
  unfold blankAnswered
  cases result with
  | ok u =>
    dsimp only
    split
    · exact Armed.before (by rfl) (armed_issueWake _ (by rfl) now)
    · exact Armed.before (by rfl) (Armed.cons (armed_scheduleStageTick _ now) (by rfl))
  | error failure =>
    dsimp only
    split
    · exact .unarmed (unarmed_enterGrace _ now _).1 (.inl (unarmed_enterGrace _ now _).2)
    · exact Armed.before (by rfl) (armed_enterActive _ now _)

theorem stageTicks_noteEffects (input : Input) : stageTicks (noteEffects input) = [] := by
  unfold noteEffects
  split <;> rfl

theorem step_armed (s : DisplayStateMachine) (input : Input) (now : ℕ) :
    Armed s (s.step input now) := by
  have hm := step_move s input now
  generalize s.step input now = r at hm
  have hnote := note_stageGen s input
  cases hm with
  | quiet => exact .unarmed (stageTicks_noteEffects input) (.inl hnote)
  | ticked =>
    exact .unarmed (unarmed_maybeAutoResume s now).1 (.inl (unarmed_maybeAutoResume s now).2)
  | graceTicked untilTick => exact armed_graceTick s untilTick now
  | vacated =>
    exact .unarmed (unarmed_enterGrace _ now _).1 (.inl (unarmed_enterGrace _ now _).2)
  | froze untilTick =>
    refine .unarmed (stageTicks_noteEffects input) (.inl ?_)
    unfold freezeGrace
    split <;> exact hnote
  | repaused => exact .unarmed (stageTicks_noteEffects _) (.inl rfl)
  | thawed =>
    obtain ⟨ht, hg⟩ := unarmed_unfreezeGrace (s.note input) now
    exact .unarmed ht (.inl (hg.trans hnote))
  | regained => exact .unarmed rfl (.inl rfl)
  | activated cause => exact (armed_enterActive _ now cause).before hnote
  | forceBlanked => split <;> exact Armed.before (by rfl) (armed_issueBlank _ (by rfl))
  | softBlanked => split <;> exact Armed.before (by rfl) (armed_enterLadderStage _ 0 now _)
  | deferred => exact .unarmed rfl (.inl hnote)
  | blankAnswered result => exact armed_blankAnswered s result now
  | woken => exact Armed.before hnote (armed_issueWake _ (by rfl) now)
  | rewoken pre h hinput =>
    refine armed_issueWake s ?_ now
    rcases hinput with ⟨-, rfl⟩ | ⟨-, rfl⟩ | ⟨-, rfl⟩ <;> rfl
  | retried =>
    obtain ⟨ht, hg⟩ := unarmed_maybeAutoResume s now
    have hw : Armed (s.maybeAutoResume now).1 ((s.maybeAutoResume now).1.issueWake [] now) :=
      armed_issueWake _ rfl now
    have hlog : Effect.stageTick? (.logTransition "waking" "waking" "wake_retry_scheduled") = none :=
      rfl
    exact ((hw.cons hlog).append _ ht).before hg
  | awoken => exact Armed.before (by rfl) (armed_enterActive _ now _)
  | torn cause => exact (armed_teardownRender _ now cause).before hnote
  | tornAwake source =>
    obtain ⟨ht, hg⟩ := unarmed_enterActive (s.note (.ownershipChanged true)) now
      "ownership_acquired"
    exact Armed.before (hg.trans hnote) (Armed.append (armed_issueWake _ (by rfl) now) _ ht)
  | renderForceBlanked =>
    have hb : Armed s ({ s with currentStage := none }.issueBlank []) :=
      Armed.before (by rfl) (armed_issueBlank _ (by rfl))
    exact hb.append [_, _] rfl
  | renderSoftBlanked =>
    have hl : Armed s ({ s with currentStage := none }.enterLadderStage 0 now "soft_blank") :=
      Armed.before (by rfl) (armed_enterLadderStage _ 0 now _)
    exact hl.append [_, _] rfl
  | rendered =>
    exact Armed.before (by rfl) (Armed.cons (armed_scheduleStageTick _ now) (by rfl))
  | renderFailed => exact armed_advanceToNextController s now _
  | advanced => exact armed_advanceStage s now _
  | captured => exact .unarmed (stageTicks_noteEffects input) (.inl hnote)
  | rearmed => exact (armed_rearmStageTick _ now).before hnote

/-! ## The arms that cut a dwell short -/

/-- Blanked records an overlay and captures nothing. -/
def holdsBlanked (s : DisplayStateMachine) (input : Input) : Prop :=
  s.phase = .blanked ∧ s.stageDwellFrozenRemaining = none ∧
    ((∃ u, input = .pause u) ∨ input = .inhibitorChanged true)

/-- Staged arms the tick again from nothing: no dwell was captured, and its tick is ahead. -/
def rearmsUncaptured (s : DisplayStateMachine) (input : Input) (now : ℕ) : Prop :=
  s.onStage = true ∧ s.stageDwellFrozenRemaining = none ∧
    (input = .resume ∧ s.overlays.inhibited = false ∨ input = .inhibitorChanged false) ∧
    ∃ deadline, s.scheduledStageDeadline = some deadline ∧ now < deadline

/-- Staged arms the tick again under a pause. -/
def rearmsPaused (s : DisplayStateMachine) (input : Input) : Prop :=
  s.onStage = true ∧ input = .inhibitorChanged false ∧ s.overlays.paused.isSome = true

/-- A rung is reached under an overlay that captures nothing, or in Staged with a dwell
captured on an earlier rung. -/
def restsHeld (s : DisplayStateMachine) (input : Input) : Prop :=
  (s.phase = .blanking ∧ s.pendingWake = false ∧ s.stageDwellFrozenRemaining = none ∧
      s.held = true ∧ ∃ gen, input = .blankResult gen (.ok ()) ∧ s.lastBlankGen = some gen) ∨
    (s.held = true ∨ s.stageDwellFrozenRemaining.isSome = true) ∧
      ∃ idx gen, s.phase = .renderPending idx gen ∧ input = .renderResult gen (.ok ())

/-- The arms, on a rung with a dwell. -/
def cutsDwell (s : DisplayStateMachine) (input : Input) (now : ℕ) : Prop :=
  s.currentDwell.isSome = true ∧
    (s.holdsBlanked input ∨ s.rearmsUncaptured input now ∨ s.rearmsPaused input ∨
      s.restsHeld input)

/-! ## The record -/

structure RestLog where
  clock : ℕ
  spent : ℕ
  emitted : List (UInt64 × ℕ)

def restLog (g : RestLog) (s : DisplayStateMachine) (f : Feed)
    (r : DisplayStateMachine × List Effect) : RestLog :=
  match f with
  | .hold _ => g
  | .input _ now =>
    { clock := now
      spent := if r.1.atRest && !s.atRest then 0 else g.spent + s.unheldTime g.clock now
      emitted := g.emitted ++ stageTicks r.2 }

def dwelt : Runs.System (RestLog × DisplayStateMachine) Feed Effect := machine.observed restLog

/-- Instants in order, and stage ticks that were scheduled and are not early. -/
def dwellFeed (g : RestLog) (f : Feed) : Prop :=
  f.inOrder g.clock ∧
    match f with
    | .input (.stageTick gen) now => ∃ tick, (gen, tick) ∈ g.emitted ∧ tick ≤ now
    | _ => True

/-- The step cuts a dwell, or is taken with the stage generation about to wrap. -/
def cutsFeed (s : DisplayStateMachine) : Feed → Prop
  | .input input now => s.cutsDwell input now ∨ s.stageGen.toNat + 1 = 2 ^ 64
  | .hold _ => False

/-- A stage tick that advances the ladder out of a rung finds its dwell spent. -/
def servedStep (x : RestLog × DisplayStateMachine) : Feed → Prop
  | .input (.stageTick gen) now =>
    ∀ dwell, x.2.atRest = true → x.2.currentDwell = some dwell →
      (x.2.step (.stageTick gen) now).1.currentStage ≠ x.2.currentStage →
        dwell ≤ x.1.spent + x.2.unheldTime x.1.clock now
  | _ => True

/-! ## The invariant -/

/-- The countdown of a rung: its captured dwell, or its deadline. -/
structure Rested (g : RestLog) (s : DisplayStateMachine) (dwell deadline : ℕ) : Prop where
  scheduled : s.scheduledStageDeadline = some deadline
  tick : ∀ tick, (s.stageGen, tick) ∈ g.emitted → tick = deadline
  running : s.stageDwellFrozenRemaining = none →
    s.held = false ∧ Countdown.Covers dwell g.spent g.clock (.running deadline)
  frozen : s.onStage = true → ∀ remaining, s.stageDwellFrozenRemaining = some remaining →
    Countdown.Covers dwell g.spent g.clock (.frozen remaining)

structure Dwelling (x : RestLog × DisplayStateMachine) : Prop where
  gens : ∀ p ∈ x.1.emitted, p.1.toNat ≤ x.2.stageGen.toNat
  rested : ∀ dwell, x.2.atRest = true → x.2.currentDwell = some dwell →
    ∃ deadline, Rested x.1 x.2 dwell deadline

theorem Rested.pass {g : RestLog} {dwell deadline : ℕ} (h : Rested g s dwell deadline) (now : ℕ) :
    (s.stageDwellFrozenRemaining = none →
      Countdown.Covers dwell (g.spent + s.unheldTime g.clock now) now (.running deadline)) ∧
    (s.onStage = true → ∀ remaining, s.stageDwellFrozenRemaining = some remaining →
      Countdown.Covers dwell (g.spent + s.unheldTime g.clock now) now (.frozen remaining)) := by
  constructor
  · intro hf
    obtain ⟨hheld, hc⟩ := h.running hf
    have hp := hc.pass now
    simpa [unheldTime, hheld, Countdown.counted] using hp
  · intro hs remaining hf
    have hp := h.frozen hs remaining hf
    simp only [Countdown.Covers, Countdown.left] at hp ⊢
    omega

theorem toNat_next (hwrap : s.stageGen.toNat + 1 ≠ 2 ^ 64) :
    (s.stageGen + 1).toNat = s.stageGen.toNat + 1 := by
  have hlt := s.stageGen.toNat_lt
  rw [UInt64.toNat_add]
  simp only [UInt64.toNat_one]
  omega

theorem gens_step {g : RestLog} (h : ∀ p ∈ g.emitted, p.1.toNat ≤ s.stageGen.toNat)
    (hwrap : s.stageGen.toNat + 1 ≠ 2 ^ 64) (input : Input) (now : ℕ) :
    ∀ p ∈ g.emitted ++ stageTicks (s.step input now).2,
      p.1.toNat ≤ (s.step input now).1.stageGen.toNat := by
  have hnext := toNat_next hwrap
  have ha := step_armed s input now
  generalize s.step input now = r at ha
  intro p hp
  cases ha with
  | unarmed ht hg =>
    rw [ht, List.append_nil] at hp
    have := h p hp
    rcases hg with hg | hg <;> rw [hg] <;> omega
  | armed tick ht hg =>
    rw [ht] at hp
    rcases List.mem_append.mp hp with hp | hp
    · have := h p hp
      rw [hg]
      omega
    · obtain rfl := List.mem_singleton.mp hp
      exact Nat.le_refl _

theorem tick_of_next {g : RestLog} (h : ∀ p ∈ g.emitted, p.1.toNat ≤ s.stageGen.toNat)
    (hwrap : s.stageGen.toNat + 1 ≠ 2 ^ 64) {deadline tick : ℕ}
    (ht : (s.stageGen + 1, tick) ∈ g.emitted ++ [(s.stageGen + 1, deadline)]) :
    tick = deadline := by
  rcases List.mem_append.mp ht with ht | ht
  · have hle := h _ ht
    rw [toNat_next hwrap] at hle
    omega
  · exact (Prod.mk.inj (List.mem_singleton.mp ht)).2

/-! ## One step -/

theorem dwelling_off {g : RestLog} (h : ∀ p ∈ g.emitted, p.1.toNat ≤ s.stageGen.toNat)
    (hoff : s.atRest = false) : Dwelling (g, s) where
  gens := h
  rested dwell hrest := by
    have hr : s.atRest = true := hrest
    simp [hoff] at hr

/-- A rung that is reached with nothing captured and no overlay, or in Blanked. -/
theorem rested_scheduled (s t : DisplayStateMachine) {g : RestLog}
    (h : ∀ p ∈ g.emitted, p.1.toNat ≤ t.stageGen.toNat) (hwrap : t.stageGen.toNat + 1 ≠ 2 ^ 64)
    (hs : s.atRest = false) (ht : t.atRest = true) {dwell : ℕ} (hd : t.currentDwell = some dwell)
    (input : Input) (now : ℕ) {e : Effect} (he : e.stageTick? = none)
    (hheld : t.stageDwellFrozenRemaining = none → t.held = false)
    (hstage : t.onStage = true → t.stageDwellFrozenRemaining = none) :
    Rested (restLog g s (.input input now)
        ((t.scheduleStageTick now).1, e :: (t.scheduleStageTick now).2))
      (t.scheduleStageTick now).1 dwell (now + dwell) := by
  rw [scheduleStageTick_dwell hd]
  have hlog : restLog g s (.input input now)
      ({ t with stageGen := t.stageGen + 1, scheduledStageDeadline := some (now + dwell) },
        e :: [.scheduleStageTickAt (t.stageGen + 1) (now + dwell)]) =
      { clock := now, spent := 0, emitted := g.emitted ++ [(t.stageGen + 1, now + dwell)] } := by
    have ht' : ({ t with
        stageGen := t.stageGen + 1
        scheduledStageDeadline := some (now + dwell) } : DisplayStateMachine).atRest = true := ht
    simp only [restLog, hs, ht', Bool.not_false, Bool.and_self, if_true, stageTicks_cons he]
    rfl
  rw [hlog]
  exact {
    scheduled := rfl
    tick := fun _ ht => tick_of_next h hwrap ht
    running := fun hf => ⟨hheld hf, Countdown.covers_running dwell now⟩
    frozen := fun hst _ hf => nomatch (hstage hst).symm.trans hf }

theorem Rested.kept {g : RestLog} {dwell deadline now : ℕ} (h : Rested g s dwell deadline)
    (hgen : t.stageGen = s.stageGen)
    (hdeadline : t.scheduledStageDeadline = s.scheduledStageDeadline)
    (hfrozen : t.stageDwellFrozenRemaining = s.stageDwellFrozenRemaining)
    (hstage : t.onStage = s.onStage)
    (hheld : s.stageDwellFrozenRemaining = none → t.held = false) :
    Rested { clock := now, spent := g.spent + s.unheldTime g.clock now, emitted := g.emitted }
      t dwell deadline where
  scheduled := hdeadline.trans h.scheduled
  tick tick ht := h.tick tick (hgen ▸ ht)
  running hf := ⟨hheld (hfrozen ▸ hf), (h.pass now).1 (hfrozen ▸ hf)⟩
  frozen hs remaining hf := (h.pass now).2 (hstage ▸ hs) remaining (hfrozen ▸ hf)

theorem Rested.captured {g : RestLog} {dwell deadline now : ℕ} (h : Rested g s dwell deadline)
    (hs : s.onStage = true) (hgen : t.stageGen = s.stageGen)
    (hdeadline : t.scheduledStageDeadline = s.scheduledStageDeadline)
    (hfrozen : t.stageDwellFrozenRemaining = s.stageDwellFrozenRemaining) :
    Rested { clock := now, spent := g.spent + s.unheldTime g.clock now, emitted := g.emitted }
      (t.captureDwell now) dwell deadline where
  scheduled := hdeadline.trans h.scheduled
  tick tick ht := h.tick tick (hgen ▸ ht)
  running hf := by simp [captureDwell] at hf
  frozen _ remaining hf := by
    simp only [captureDwell, hfrozen, hdeadline, h.scheduled] at hf
    cases hr : s.stageDwellFrozenRemaining with
    | none =>
      obtain rfl : deadline - now = remaining := by simpa [hr] using hf
      exact ((h.pass now).1 hr).freeze
    | some r =>
      obtain rfl : r = remaining := by simpa [hr] using hf
      exact (h.pass now).2 hs r hr

theorem Rested.rearmed {g : RestLog} {dwell deadline : ℕ} (h : Rested g s dwell deadline)
    (hgens : ∀ p ∈ g.emitted, p.1.toNat ≤ s.stageGen.toNat)
    (hwrap : s.stageGen.toNat + 1 ≠ 2 ^ 64) (hs : s.onStage = true) (hsr : s.atRest = true)
    (hgen : t.stageGen = s.stageGen)
    (hfrozen : t.stageDwellFrozenRemaining = s.stageDwellFrozenRemaining)
    (hd : t.currentDwell = some dwell) (input : Input) (now : ℕ) (hheld : t.held = false)
    (hdue : s.stageDwellFrozenRemaining = none → deadline ≤ now) :
    Rested (restLog g s (.input input now) (t.rearmStageTick now)) (t.rearmStageTick now).1 dwell
      (now + min (t.stageDwellFrozenRemaining.getD 0) dwell) := by
  rw [rearmStageTick_dwell hd]
  generalize hat : now + min (t.stageDwellFrozenRemaining.getD 0) dwell = deadline'
  have hlog : restLog g s (.input input now)
      ({ t with stageDwellFrozenRemaining := none, stageGen := t.stageGen + 1,
                scheduledStageDeadline := some deadline' },
        [.scheduleStageTickAt (t.stageGen + 1) deadline']) =
      { clock := now, spent := g.spent + s.unheldTime g.clock now,
        emitted := g.emitted ++ [(t.stageGen + 1, deadline')] } := by
    simp only [restLog, hsr, Bool.not_true, Bool.and_false, Bool.false_eq_true, if_false]
    rfl
  rw [hlog]
  refine ⟨rfl, fun _ ht => tick_of_next (by rwa [hgen]) (by rwa [hgen]) ht, fun _ => ⟨hheld, ?_⟩,
    fun _ _ hf => nomatch hf⟩
  rw [← hat, hfrozen]
  cases hr : s.stageDwellFrozenRemaining with
  | none =>
    have hspent := ((h.pass now).1 hr).expired (hdue hr)
    simp only [Countdown.Covers]
    omega
  | some r => exact ((h.pass now).2 hs r hr).cap

theorem note_held_of_free {input : Input} (hs : s.held = false)
    (hin : ¬ ((∃ u, input = .pause u) ∨ input = .inhibitorChanged true)) :
    (s.note input).held = false := by
  cases input with
  | pause u => exact absurd (.inl ⟨u, rfl⟩) hin
  | inhibitorChanged inhibited =>
    cases inhibited with
    | true => exact absurd (.inr rfl) hin
    | false => simp_all [held, note, setInhibited]
  | resume => simp_all [held, note, clearPause]
  | _ => exact hs

theorem dwelling_step {g : RestLog} (h : Dwelling (g, s)) {input : Input} {now : ℕ}
    (hcut : ¬ (s.cutsDwell input now ∨ s.stageGen.toNat + 1 = 2 ^ 64)) :
    Dwelling (restLog g s (.input input now) (s.step input now), (s.step input now).1) := by
  obtain ⟨hcut, hwrap⟩ := not_or.mp hcut
  have hgens := gens_step h.gens hwrap input now
  have hm := step_rest s input now
  refine ⟨hgens, ?_⟩
  generalize s.step input now = r at hm hgens
  intro dwell hrest hd
  cases hm with
  | off hoff =>
    have hr : r.1.atRest = true := hrest
    simp [hoff] at hr
  | quiet hr hq =>
    have hd' : s.currentDwell = some dwell := by simpa using hd
    obtain ⟨deadline, hrested⟩ := h.rested dwell hr hd'
    refine ⟨deadline, ?_⟩
    have hrest' : (s.note input).atRest = true := hrest
    simp only [restLog, hr, hrest', Bool.not_true, Bool.and_false, Bool.false_eq_true, if_false,
      stageTicks_noteEffects, List.append_nil]
    refine hrested.kept (by simp) (by simp) (by simp) (by simp) fun hf => ?_
    have hheld := (hrested.running hf).1
    cases hp : s.phase <;> simp only [atRest, hp, Bool.false_eq_true] at hr
    · exact note_held_of_free hheld fun hin =>
        hcut ⟨by simp [hd'], .inl ⟨hp, hf, hin⟩⟩
    · exact (quiet_staged_held (by simp [onStage, hp]) hq).1.trans hheld
  | ticked hr hres =>
    have hsame : r.2 = [] ∧ r.1.stageGen = s.stageGen ∧ r.1.atRest = s.atRest ∧
        r.1.scheduledStageDeadline = s.scheduledStageDeadline ∧ r.1.onStage = s.onStage ∧
        r.1.stageDwellFrozenRemaining = s.stageDwellFrozenRemaining ∧
        r.1.currentDwell = s.currentDwell ∧ (s.held = false → r.1.held = false) := by
      rcases hres with rfl | ⟨-, rfl⟩
      · exact ⟨rfl, rfl, rfl, rfl, rfl, rfl, rfl, id⟩
      · exact ⟨rfl, rfl, rfl, rfl, rfl, rfl, rfl, by simp_all [held, clearPause]⟩
    obtain ⟨hout, hgen, hrr, hdl, hst, hfr, hcd, hheld⟩ := hsame
    obtain ⟨deadline, hrested⟩ := h.rested dwell hr (hcd ▸ hd)
    refine ⟨deadline, ?_⟩
    simp only [restLog, hrr, hr, hout, Bool.not_true, Bool.and_false, Bool.false_eq_true, if_false,
      stageTicks, List.filterMap_nil, List.append_nil]
    exact hrested.kept hgen hdl hfr hst fun hf => hheld (hrested.running hf).1
  | @blanked gen u hp hgen hwake =>
    have hd' : ({ s with lastBlank := some now, phase := .blanked }).currentDwell = some dwell := by
      obtain ⟨_, _, he⟩ :=
        ({ s with lastBlank := some now, phase := .blanked }).scheduleStageTick_frame now
      rwa [he] at hd
    have hs : s.atRest = false := by simp [atRest, hp]
    refine ⟨now + dwell, rested_scheduled s { s with lastBlank := some now, phase := .blanked }
      h.gens hwrap hs rfl hd' (.blankResult gen (.ok u)) now rfl (fun hf => ?_) fun hst => ?_⟩
    · by_contra hheld
      refine hcut ⟨?_, .inr (.inr (.inr (.inl ⟨hp, hwake, hf, ?_, gen, rfl, hgen⟩)))⟩
      · exact Option.isSome_iff_exists.mpr ⟨dwell, hd'⟩
      · exact eq_true_of_ne_false hheld
    · exact absurd hst Bool.false_ne_true
  | @rendered gen u idx hp =>
    have hd' : ({ s with phase := .staged idx gen }).currentDwell = some dwell := by
      obtain ⟨_, _, he⟩ := ({ s with phase := .staged idx gen }).scheduleStageTick_frame now
      rwa [he] at hd
    have hfree : ¬ (s.held = true ∨ s.stageDwellFrozenRemaining.isSome = true) := fun hf =>
      hcut ⟨Option.isSome_iff_exists.mpr ⟨dwell, hd'⟩,
        .inr (.inr (.inr (.inr ⟨hf, idx, gen, hp, rfl⟩)))⟩
    obtain ⟨hheld, hfrozen⟩ := not_or.mp hfree
    have hs : s.atRest = false := by simp [atRest, hp]
    exact ⟨now + dwell, rested_scheduled s { s with phase := .staged idx gen } h.gens hwrap hs rfl
      hd' (.renderResult gen (.ok u)) now rfl (fun _ => by simpa [held] using hheld)
      fun _ => by simpa using hfrozen⟩
  | captured hs hin =>
    have hd' : s.currentDwell = some dwell := (note_currentDwell s input).symm.trans hd
    have hr := atRest_of_onStage hs
    obtain ⟨deadline, hrested⟩ := h.rested dwell hr hd'
    refine ⟨deadline, ?_⟩
    have hlog : restLog g s (.input input now) ((s.note input).captureDwell now, noteEffects input) =
        { clock := now, spent := g.spent + s.unheldTime g.clock now, emitted := g.emitted } := by
      simp [restLog, hr, stageTicks_noteEffects]
    rw [hlog]
    exact hrested.captured hs (by simp) (by simp) (by simp)
  | rearmed hs hin =>
    have hd' : (s.note input).currentDwell = some dwell := by
      obtain ⟨_, _, he⟩ := (s.note input).rearmStageTick_frame now
      rwa [he] at hd
    have hd'' : s.currentDwell = some dwell := (note_currentDwell s input).symm.trans hd'
    have hsome : s.currentDwell.isSome = true := Option.isSome_iff_exists.mpr ⟨dwell, hd''⟩
    have hr := atRest_of_onStage hs
    obtain ⟨deadline, hrested⟩ := h.rested dwell hr hd''
    refine ⟨_, hrested.rearmed h.gens hwrap hs hr (by simp) (by simp)
      hd' input now ?_ fun hf => ?_⟩
    · rcases hin with rfl | ⟨rfl, hi⟩
      · by_contra hheld
        have hp : s.overlays.paused.isSome = true := by
          simpa [held, note, setInhibited] using eq_true_of_ne_false hheld
        exact hcut ⟨hsome, .inr (.inr (.inl ⟨hs, rfl, hp⟩))⟩
      · simp [held, note, clearPause, hi]
    · by_contra hlt
      refine hcut ⟨hsome, .inr (.inl ⟨hs, hf, ?_, deadline, hrested.scheduled, by omega⟩)⟩
      rcases hin with rfl | ⟨rfl, hi⟩
      · exact .inr rfl
      · exact .inl ⟨rfl, hi⟩

/-! ## Runs -/

def RestLog.start (start : ℕ) : RestLog := { clock := start, spent := 0, emitted := [] }

theorem dwelling_next (x : RestLog × DisplayStateMachine) (f : Feed) (h : Dwelling x)
    (hcut : ¬ x.2.cutsFeed f) : Dwelling (dwelt.next x f).1 := by
  obtain ⟨g, s⟩ := x
  cases f with
  | input input now => exact dwelling_step h hcut
  | hold active =>
    refine ⟨h.gens, fun dwell hrest hd => ?_⟩
    obtain ⟨deadline, hr⟩ := h.rested dwell hrest hd
    exact ⟨deadline, hr.scheduled, hr.tick, hr.running, hr.frozen⟩

theorem stageTick_moves (hrest : s.atRest = true) {gen : UInt64} {now : ℕ}
    (h : (s.step (.stageTick gen) now).1.currentStage ≠ s.currentStage) :
    gen = s.stageGen ∧ s.stageDwellFrozenRemaining = none := by
  have hstep : s.step (.stageTick gen) now = s.stageTicked gen now := by
    cases hp : s.phase <;> simp only [atRest, hp, Bool.false_eq_true] at hrest <;>
      simp [step, hp, stepBlanked, stepStaged]
  rw [hstep] at h
  unfold stageTicked at h
  split_ifs at h with hgen hgate
  · exact absurd rfl h
  · exact absurd rfl h
  · simp only [stageAdvanceFrozen, Bool.or_eq_true, not_or] at hgate
    exact ⟨by simpa using hgen, by simpa using hgate.1.1⟩

theorem Dwelling.served {x : RestLog × DisplayStateMachine} (h : Dwelling x) {f : Feed}
    (hf : dwellFeed x.1 f) : servedStep x f := by
  obtain ⟨g, s⟩ := x
  unfold servedStep
  split
  · rename_i gen now
    intro dwell hrest hd hmoves
    obtain ⟨rfl, hfrozen⟩ := stageTick_moves hrest hmoves
    obtain ⟨deadline, hr⟩ := h.rested dwell hrest hd
    obtain ⟨tick, ht, hdue⟩ := hf.2
    obtain rfl := hr.tick tick ht
    exact ((hr.pass now).1 hfrozen).expired hdue
  · trivial

/-- In every run with instants in order and stage ticks delivered on time that takes none of
the cutting arms, each stage tick that advances the ladder out of a rung with a dwell finds
the whole dwell spent there without an overlay. -/
theorem dwell_served (timings : SmTimings) (ladder : List LadderStage) (start : ℕ)
    (feeds : List Feed)
    (h : dwelt.Steps (fun x f => dwellFeed x.1 f ∧ ¬ x.2.cutsFeed f)
      (RestLog.start start, new timings ladder start) feeds) :
    dwelt.Steps servedStep (RestLog.start start, new timings ladder start) feeds :=
  h.derive Dwelling (fun x f hx hf => dwelling_next x f hx hf.2) (fun _ _ hx hf => hx.served hf.1)
    (dwelling_off (by simp [RestLog.start]) rfl)

/-- A pause of the first rung and its end: the rung is left after ten seconds before the pause
and twenty after it. -/
theorem dwell_served_resumed :
    let x₀ := (RestLog.start 0, new { gracePeriod := 60, minBlankTime := 0, minWakeTime := 0,
                                      startupHoldoff := 0, wakeRetryInterval := 5 }
      [⟨.renderBlack, some 30⟩, ⟨.controller .powerOff, none⟩] 0)
    let feeds : List Feed :=
      [.input .softBlank 1, .input (.renderResult 1 (.ok ())) 2, .input (.pause none) 12,
        .input .resume 40, .input (.stageTick 3) 60]
    dwelt.Steps servedStep x₀ feeds ∧ (dwelt.run x₀ feeds).2.currentStage = some 1 := by
  refine ⟨dwell_served _ _ _ _ ?_, by decide⟩
  refine ⟨⟨⟨by decide, trivial⟩, ?_⟩, ⟨⟨by decide, trivial⟩, ?_⟩, ⟨⟨by decide, trivial⟩, ?_⟩,
    ⟨⟨by decide, trivial⟩, ?_⟩, ⟨⟨by decide, 60, by decide, by decide⟩, ?_⟩, trivial⟩
  · rintro (⟨h, -⟩ | h) <;> exact absurd h (by decide)
  · rintro (⟨-, ⟨h, -⟩ | ⟨h, -⟩ | ⟨h, -⟩ | (⟨h, -⟩ | ⟨h, -⟩)⟩ | h) <;> exact absurd h (by decide)
  · rintro (⟨-, ⟨h, -⟩ | ⟨-, -, h, -⟩ | ⟨-, h, -⟩ | (⟨h, -⟩ | ⟨-, idx, gen, h, -⟩)⟩ | h)
    · exact absurd h (by decide)
    · rcases h with ⟨h, -⟩ | h <;> exact nomatch h
    · exact nomatch h
    · exact absurd h (by decide)
    · exact nomatch h
    · exact absurd h (by decide)
  · rintro (⟨-, ⟨h, -⟩ | ⟨-, h, -⟩ | ⟨-, h, -⟩ | (⟨h, -⟩ | ⟨-, idx, gen, h, -⟩)⟩ | h)
    · exact absurd h (by decide)
    · exact absurd h (by decide)
    · exact nomatch h
    · exact absurd h (by decide)
    · exact nomatch h
    · exact absurd h (by decide)
  · rintro (⟨-, ⟨h, -⟩ | ⟨-, -, h, -⟩ | ⟨-, h, -⟩ | (⟨h, -⟩ | ⟨-, idx, gen, h, -⟩)⟩ | h)
    · exact absurd h (by decide)
    · rcases h with ⟨h, -⟩ | h <;> exact nomatch h
    · exact nomatch h
    · exact absurd h (by decide)
    · exact nomatch h
    · exact absurd h (by decide)

/-- A resume with no pause before it arms the tick again with nothing left, and the rung is
over after a second. -/
theorem dwell_cut_short :
    let x₀ := (RestLog.start 0, new { gracePeriod := 60, minBlankTime := 0, minWakeTime := 0,
                                      startupHoldoff := 0, wakeRetryInterval := 5 }
      [⟨.renderBlack, some 30⟩, ⟨.controller .powerOff, none⟩] 0)
    let feeds : List Feed :=
      [.input .softBlank 1, .input (.renderResult 1 (.ok ())) 2, .input .resume 3,
        .input (.stageTick 3) 3]
    dwelt.Steps (fun x f => dwellFeed x.1 f) x₀ feeds ∧ ¬ dwelt.Steps servedStep x₀ feeds := by
  refine ⟨⟨⟨by decide, trivial⟩, ⟨by decide, trivial⟩, ⟨by decide, trivial⟩,
    ⟨by decide, 3, by decide, by decide⟩, trivial⟩, fun h => ?_⟩
  have hserved := h.2.2.2.1 30 (by decide) (by decide) (by decide)
  exact absurd hserved (by decide)

end DisplayStateMachine
end Dormant
