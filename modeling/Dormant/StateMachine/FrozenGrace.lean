import Dormant.StateMachine.Facts

/-!
# The frozen grace countdown

In Grace, `grace_frozen_remaining` is set exactly while an overlay is on: each helper that
enters Grace or moves an overlay restores that. Outside Grace it is clear, up to one step.
Gaining ownership over a render surface tears the surface down through `enter_active`, which
may chain into a frozen Grace, and then issues a wake on top. `strandsFreeze` names that
step, and `frozen_throughout_iff` says that it is the only one.
-/

namespace Dormant
set_option autoImplicit false

namespace DisplayStateMachine
variable {s : DisplayStateMachine}

/-- In Grace the countdown is frozen exactly while an overlay is on. -/
def GraceOk (s : DisplayStateMachine) : Prop :=
  s.inGrace = true → (s.graceFrozenRemaining.isSome = true ↔ s.held = true)

/-- Outside Grace no countdown is frozen. -/
def CalmOk (s : DisplayStateMachine) : Prop :=
  s.inGrace = false → s.graceFrozenRemaining = none

/-- The countdown is frozen exactly while the display is in Grace under an overlay. -/
def FrozenOk (s : DisplayStateMachine) : Prop :=
  s.graceFrozenRemaining.isSome = true ↔ s.inGrace = true ∧ s.held = true

theorem frozenOk_iff : s.FrozenOk ↔ s.GraceOk ∧ s.CalmOk := by
  cases hg : s.inGrace <;> simp [FrozenOk, GraceOk, CalmOk, hg]

theorem FrozenOk.not_held (hs : s.FrozenOk) (hg : s.inGrace = true)
    (hf : s.graceFrozenRemaining = none) : s.held = false := by
  have h := hs.not.mp (by simp [hf])
  simpa [hg] using h

theorem exists_grace (hg : s.inGrace = true) : ∃ untilTick, s.phase = .grace untilTick := by
  cases hp : s.phase <;> simp [inGrace, hp] at hg ⊢

theorem calmOk_iff_assertion : s.CalmOk ↔ s.frozenGraceAssertion = true := by
  cases hg : s.inGrace <;> simp [CalmOk, frozenGraceAssertion, hg]

instance (s : DisplayStateMachine) : Decidable s.FrozenOk :=
  inferInstanceAs (Decidable (_ ↔ _))

theorem graceOk_of_out (hg : s.inGrace = false) : s.GraceOk := by simp [GraceOk, hg]

theorem calmOk_of_none (hf : s.graceFrozenRemaining = none) : s.CalmOk := fun _ => hf

/-! ## The helpers -/

theorem frozenOk_enterGrace (s : DisplayStateMachine) (now : ℕ) (cause : String) :
    (s.enterGrace now cause).1.FrozenOk := by
  by_cases h : (s.overlays.inhibited || s.overlays.paused.isSome) = true <;>
    simp [enterGrace, h, FrozenOk, inGrace, held, -Bool.or_eq_true]

theorem frozenOk_enterActive (s : DisplayStateMachine) (now : ℕ) (cause : String) :
    (s.enterActive now cause).1.FrozenOk := by
  unfold enterActive
  dsimp only
  split
  · exact frozenOk_enterGrace _ _ _
  · simp [FrozenOk, inGrace]

theorem graceOk_enterLadderStage (idx : ℕ) (now : ℕ) (cause : String) :
    (s.enterLadderStage idx now cause).1.GraceOk := by
  unfold enterLadderStage
  split
  · exact (frozenOk_iff.mp (frozenOk_enterActive _ _ _)).1
  · dsimp only
    split <;> exact graceOk_of_out rfl

theorem calmOk_enterLadderStage (hf : s.graceFrozenRemaining = none) (idx : ℕ) (now : ℕ)
    (cause : String) : (s.enterLadderStage idx now cause).1.CalmOk := by
  unfold enterLadderStage
  split
  · exact (frozenOk_iff.mp (frozenOk_enterActive _ _ _)).2
  · dsimp only
    split <;> exact calmOk_of_none hf

theorem frozenOk_enterLadderStage (hf : s.graceFrozenRemaining = none) (idx : ℕ) (now : ℕ)
    (cause : String) : (s.enterLadderStage idx now cause).1.FrozenOk :=
  frozenOk_iff.mpr ⟨graceOk_enterLadderStage _ _ _, calmOk_enterLadderStage hf _ _ _⟩

theorem frozen_advanceStage (s : DisplayStateMachine) (now : ℕ) (cause : String) :
    (s.advanceStage now cause).1.GraceOk ∧
      (s.graceFrozenRemaining = none → (s.advanceStage now cause).1.CalmOk) := by
  unfold advanceStage
  split
  · have h := frozenOk_iff.mp (frozenOk_enterActive s now cause)
    exact ⟨h.1, fun _ => h.2⟩
  · exact ⟨graceOk_enterLadderStage _ _ _, fun hf => calmOk_enterLadderStage hf _ _ _⟩

theorem frozen_advanceToNextController (s : DisplayStateMachine) (now : ℕ) (cause : String) :
    (s.advanceToNextController now cause).1.GraceOk ∧
      (s.graceFrozenRemaining = none → (s.advanceToNextController now cause).1.CalmOk) := by
  unfold advanceToNextController
  split
  · exact ⟨graceOk_enterLadderStage _ _ _, fun hf => calmOk_enterLadderStage hf _ _ _⟩
  · have h := frozenOk_iff.mp (frozenOk_enterActive s now cause)
    exact ⟨h.1, fun _ => h.2⟩

/-- Entering Active leaves a frozen countdown behind when it chains into Grace under an
overlay, and no other time. -/
theorem enterActive_frozen_iff (s : DisplayStateMachine) (now : ℕ) (cause : String) :
    (s.enterActive now cause).1.graceFrozenRemaining.isSome = true ↔
      s.zonePresent = some false ∧ s.held = true ∧ s.inputWakeHoldActive = false := by
  unfold enterActive
  dsimp only
  split_ifs with h
  · by_cases hh : s.held = true <;>
      simp only [held] at hh <;> simp [enterGrace, held, hh, h, -Bool.or_eq_true]
  · simp only [Option.isSome_none, Bool.false_eq_true, false_iff]
    rintro ⟨hz, -, hw⟩
    exact h ⟨hz, hw⟩

theorem graceOk_unfreezeGrace
    (hh : s.inGrace = true → s.held = true → s.graceFrozenRemaining.isSome = true) (now : ℕ) :
    (s.unfreezeGrace now).1.GraceOk := by
  unfold unfreezeGrace
  split
  · rename_i h
    simpa [GraceOk, h] using hh
  · rename_i remaining h
    split
    · simp_all [GraceOk, held]
    · simp_all [GraceOk, held]

theorem calmOk_unfreezeGrace (hs : s.CalmOk) (now : ℕ) : (s.unfreezeGrace now).1.CalmOk := by
  unfold unfreezeGrace
  split
  · exact hs
  · split
    · exact hs
    · exact calmOk_of_none rfl

theorem frozenOk_freezeGrace (hg : s.inGrace = true) (hh : s.held = true) (untilTick now : ℕ) :
    (s.freezeGrace untilTick now).FrozenOk := by
  unfold freezeGrace
  split
  · exact ⟨fun _ => ⟨hg, hh⟩, fun _ => rfl⟩
  · rename_i hf
    refine ⟨fun _ => ⟨hg, hh⟩, fun _ => ?_⟩
    simpa [Option.isSome_iff_ne_none] using hf

theorem graceOk_maybeAutoResume (hs : s.GraceOk) (now : ℕ) :
    (s.maybeAutoResume now).1.GraceOk := by
  by_cases hd : s.pauseDue now
  · rw [maybeAutoResume_due s now hd]
    obtain ⟨deadline, hp, -⟩ := hd
    have hh : s.held = true := by simp [held, hp]
    exact graceOk_unfreezeGrace (s := s.clearPause) (fun hg _ => (hs hg).mpr hh) now
  · rwa [maybeAutoResume_not_due s now hd]

theorem calmOk_maybeAutoResume (hs : s.CalmOk) (now : ℕ) :
    (s.maybeAutoResume now).1.CalmOk := by
  by_cases hd : s.pauseDue now
  · rw [maybeAutoResume_due s now hd]
    exact calmOk_unfreezeGrace (s := s.clearPause) hs now
  · rwa [maybeAutoResume_not_due s now hd]

/-- In Grace the frozen countdown and the overlays agree, so a tick never meets an overlay
over a live countdown. -/
theorem graceTick_frozenOk (hs : s.GraceOk) (hg : s.inGrace = true) (untilTick now : ℕ) :
    (s.graceTick untilTick now).1.FrozenOk := by
  have hgrace : (s.maybeAutoResume now).1.inGrace = true := by
    unfold maybeAutoResume unfreezeGrace
    repeat' split
    all_goals simp_all [inGrace]
  have h1 : (s.maybeAutoResume now).1.FrozenOk :=
    frozenOk_iff.mpr ⟨graceOk_maybeAutoResume hs now, fun h => by simp [hgrace] at h⟩
  unfold graceTick
  dsimp only
  split_ifs with h2 h3 h4 h5 h6 h7
  · exact h1
  · exact h1
  · exact frozenOk_freezeGrace hgrace (by simpa [held] using h4) _ _
  · exact h1
  · exact h1
  · exact h1
  · exact frozenOk_enterLadderStage (by simpa using h3) _ _ _

/-! ## One step -/

/-- Ownership gained over a render surface, with the zone known absent, an overlay on and no
input-wake hold: `teardown_render` chains into a frozen Grace that the wake leaves at once. -/
def strandsFreeze (s : DisplayStateMachine) (input : Input) : Prop :=
  s.onRender = true ∧ input = .ownershipChanged true ∧ s.zonePresent = some false ∧
    s.held = true ∧ s.inputWakeHoldActive = false

instance (input : Input) (owns : Bool) : Decidable (input = .ownershipChanged owns) :=
  match input with
  | .ownershipChanged o => decidable_of_iff (o = owns) (by simp)
  | .zonePresent _ | .tick | .inhibitorChanged _ | .pause _ | .resume | .blankResult _ _
  | .wakeResult _ _ | .forceBlank | .forceWake | .softBlank | .stageTick _ | .renderResult _ _
  | .inputWake => isFalse nofun

instance (s : DisplayStateMachine) (input : Input) : Decidable (s.strandsFreeze input) :=
  inferInstanceAs (Decidable (_ ∧ _))

theorem graceOk_quiet {input : Input} (hs : s.GraceOk) (h : s.quiet input) :
    (s.note input).GraceOk := by
  intro hg
  rw [note_inGrace] at hg
  have ho := quiet_grace_overlays hg h
  simpa [held, ho] using hs hg

/-- A step out of a machine in order: Grace stays in order, and so does the rest unless the
step strands a frozen countdown. -/
theorem frozen_step (hs : s.GraceOk) (input : Input) (now : ℕ) :
    (s.step input now).1.GraceOk ∧
      (s.CalmOk → ¬ s.strandsFreeze input → (s.step input now).1.CalmOk) := by
  have hm := step_move s input now
  generalize s.step input now = r at hm
  have both {t : DisplayStateMachine} (ht : t.FrozenOk) :
      t.GraceOk ∧ (s.CalmOk → ¬ s.strandsFreeze input → t.CalmOk) :=
    ⟨(frozenOk_iff.mp ht).1, fun _ _ => (frozenOk_iff.mp ht).2⟩
  have out {t : DisplayStateMachine} (hin : s.inGrace = false) (hg : t.inGrace = false)
      (hf : s.graceFrozenRemaining = none → t.graceFrozenRemaining = none) :
      t.GraceOk ∧ (s.CalmOk → ¬ s.strandsFreeze input → t.CalmOk) :=
    ⟨graceOk_of_out hg, fun hc _ => calmOk_of_none (hf (hc hin))⟩
  cases hm with
  | quiet h => exact ⟨graceOk_quiet hs h, fun hc _ hg => by simp_all [CalmOk]⟩
  | ticked => exact ⟨graceOk_maybeAutoResume hs now, fun hc _ => calmOk_maybeAutoResume hc now⟩
  | graceTicked untilTick h => exact both (graceTick_frozenOk hs (by simp [inGrace, h]) _ _)
  | vacated => exact both (frozenOk_enterGrace _ _ _)
  | froze untilTick h hinput =>
    refine both (frozenOk_freezeGrace (by simp [inGrace, h]) ?_ _ _)
    rcases hinput with rfl | ⟨⟨u, rfl⟩, -⟩ <;> simp [held, note, setInhibited, recordPause]
  | repaused hg hp =>
    have hf := (hs hg).mpr (by simp [held, hp])
    exact both ⟨fun _ => ⟨hg, by simp [held, note, recordPause]⟩, fun _ => hf⟩
  | thawed hg hinput =>
    have hu : (s.note input).graceFrozenRemaining.isSome = true ∨ (s.note input).held = false := by
      cases hf : s.graceFrozenRemaining with
      | some _ => exact .inl (by simp [hf])
      | none =>
        have hheld := (hs hg).not.mp (by simp [hf])
        refine .inr ?_
        simp only [held, Bool.not_eq_true, Bool.or_eq_false_iff] at hheld
        rcases hinput with rfl | rfl <;> simp [held, note, setInhibited, clearPause, hheld]
    refine ⟨graceOk_unfreezeGrace (fun _ hh => hu.resolve_right (by simp [hh])) now, ?_⟩
    intro _ _
    exact calmOk_unfreezeGrace (fun hg' => by simp [hg] at hg') now
  | regained untilTick h => exact ⟨hs, fun hc _ => hc⟩
  | activated => exact both (frozenOk_enterActive _ _ _)
  | forceBlanked source h =>
    cases hg : s.inGrace with
    | true => exact both (by simp [FrozenOk, issueBlank, inGrace])
    | false => exact out hg rfl id
  | softBlanked h =>
    cases hg : s.inGrace with
    | true => exact both (frozenOk_enterLadderStage rfl _ _ _)
    | false =>
      exact ⟨graceOk_enterLadderStage _ _ _, fun hc _ => calmOk_enterLadderStage (hc hg) _ _ _⟩
  | deferred h => exact out (by simp [inGrace, h]) (by simp [inGrace, h]) (by simp)
  | blankAnswered result h =>
    have hin : s.inGrace = false := by simp [inGrace, h]
    cases result with
    | ok u =>
      unfold blankAnswered
      dsimp only
      split
      · exact out hin rfl id
      · obtain ⟨gen, deadline, he⟩ :=
          ({ s with lastBlank := some now, phase := .blanked }).scheduleStageTick_frame now
        rw [he]
        exact out hin rfl id
    | error failure =>
      unfold blankAnswered
      dsimp only
      split
      · exact both (frozenOk_enterGrace _ _ _)
      · exact both (frozenOk_enterActive _ _ _)
  | woken source cause h =>
    refine out ?_ rfl (by simp [issueWake])
    rcases h with ⟨h, -⟩ | ⟨h | h, -⟩ <;> simp [inGrace, h]
  | rewoken pre h => exact out (by simp [inGrace, h]) rfl id
  | retried h =>
    refine ⟨graceOk_of_out rfl, fun hc _ => calmOk_of_none ?_⟩
    have hf := hc (by simp [inGrace, h])
    rcases maybeAutoResume_unfrozen hf now with he | he <;> rw [he] <;> exact hf
  | awoken => exact both (frozenOk_enterActive _ _ _)
  | torn => exact both (frozenOk_enterActive _ _ _)
  | tornAwake source h hw =>
    refine ⟨graceOk_of_out rfl, fun hc hn => calmOk_of_none ?_⟩
    have hz : ¬ (s.zonePresent = some false ∧ s.held = true ∧ s.inputWakeHoldActive = false) :=
      fun hz => hn ⟨h, rfl, hz⟩
    have hf := (enterActive_frozen_iff (s.note (.ownershipChanged true)) now
      "ownership_acquired").not.mpr hz
    exact Option.not_isSome_iff_eq_none.mp hf
  | renderForceBlanked source h =>
    exact out (by cases hp : s.phase <;> simp_all [onRender, inGrace]) rfl id
  | renderSoftBlanked source h =>
    have hin : s.inGrace = false := by cases hp : s.phase <;> simp_all [onRender, inGrace]
    refine ⟨graceOk_enterLadderStage _ _ _, fun hc _ => ?_⟩
    have hf : ({ s with currentStage := none } : DisplayStateMachine).graceFrozenRemaining = none :=
      hc hin
    exact calmOk_enterLadderStage hf _ _ _
  | rendered idx h =>
    obtain ⟨gen, deadline, he⟩ := ({ s with phase := .staged idx _ }).scheduleStageTick_frame now
    rw [he]
    exact out (by simp [inGrace, h]) rfl id
  | renderFailed idx h =>
    have ha := frozen_advanceToNextController s now "render_failed"
    exact ⟨ha.1, fun hc _ => ha.2 (hc (by simp [inGrace, h]))⟩
  | advanced h =>
    have ha := frozen_advanceStage s now "stage_tick"
    refine ⟨ha.1, fun hc _ => ha.2 (hc ?_)⟩
    rcases h with h | ⟨idx, gen, h⟩ <;> simp [inGrace, h]
  | captured h =>
    exact out (by simp [inGrace, h]) (by simp [inGrace, captureDwell, h]) (by simp [captureDwell])
  | rearmed h =>
    obtain ⟨gen, deadline, he⟩ := (s.note input).rearmStageTick_frame now
    rw [he]
    exact out (by simp [inGrace, h]) (by simp [inGrace, h]) (by simp)

theorem not_calmOk_of_strandsFreeze {input : Input} (h : s.strandsFreeze input) (now : ℕ) :
    ¬ (s.step input now).1.CalmOk := by
  obtain ⟨hr, rfl, hz⟩ := h
  have hf := (enterActive_frozen_iff (s.note (.ownershipChanged true)) now
    "ownership_acquired").mpr hz
  have hheld := hz.2.1
  have hn : ¬ (s.zonePresent ≠ some true ∧ s.overlays.inhibited = false ∧
      s.overlays.paused = none) := wantsPanel_iff.mp (.inr hheld)
  have hstep : ∃ source,
      (s.step (.ownershipChanged true) now).1 = (((s.note (.ownershipChanged true)).teardownRender
        now "ownership_acquired").1.issueWake
          [.logTransition source "waking" "ownership_acquired"] now).1 := by
    cases hp : s.phase <;> simp only [onRender, hp, Bool.false_eq_true] at hr
    · exact ⟨"render_pending", by
        simp only [step, hp, stepRenderPending, if_true, reconcileOwnershipGain, if_neg hn, note]⟩
    · exact ⟨"staged", by
        simp only [step, hp, stepStaged, if_true, reconcileOwnershipGain, if_neg hn, note]⟩
  obtain ⟨source, hstep⟩ := hstep
  rw [hstep]
  intro hc
  exact Option.isSome_iff_ne_none.mp hf (hc rfl)

theorem frozenOk_step_iff (hs : s.FrozenOk) (input : Input) (now : ℕ) :
    (s.step input now).1.FrozenOk ↔ ¬ s.strandsFreeze input := by
  have hs' := frozenOk_iff.mp hs
  have h := frozen_step hs'.1 input now
  constructor
  · exact fun hf hn => not_calmOk_of_strandsFreeze hn now (frozenOk_iff.mp hf).2
  · exact fun hn => frozenOk_iff.mpr ⟨h.1, h.2 hs'.2 hn⟩

theorem frozenOk_new (timings : SmTimings) (ladder : List LadderStage) (start : ℕ) :
    (new timings ladder start).FrozenOk := by
  simp [FrozenOk, new, inGrace]

/-! ## Runs -/

def strands (s : DisplayStateMachine) : Feed → Prop
  | .input input _ => s.strandsFreeze input
  | .hold _ => False

instance (s : DisplayStateMachine) : (feed : Feed) → Decidable (s.strands feed)
  | .input input _ => inferInstanceAs (Decidable (s.strandsFreeze input))
  | .hold _ => isFalse id

theorem frozenOk_next_iff (s : DisplayStateMachine) (feed : Feed) (hs : s.FrozenOk) :
    (machine.next s feed).1.FrozenOk ↔ ¬ s.strands feed := by
  cases feed with
  | input input now => exact frozenOk_step_iff hs input now
  | hold active => exact iff_of_true hs id

/-- The freeze invariant, and with it the debug assertion, holds throughout a run exactly
when no step of the run strands a frozen countdown. -/
theorem frozen_throughout_iff (timings : SmTimings) (ladder : List LadderStage) (start : ℕ)
    (feeds : List Feed) :
    machine.Throughout (fun s => s.FrozenOk ∧ s.frozenGraceAssertion = true)
        (new timings ladder start) feeds ↔
      machine.Steps (fun s feed => ¬ s.strands feed) (new timings ladder start) feeds := by
  have hand (s : DisplayStateMachine) : s.FrozenOk ∧ s.frozenGraceAssertion = true ↔ s.FrozenOk :=
    and_iff_left_of_imp fun h => calmOk_iff_assertion.mp (frozenOk_iff.mp h).2
  simp only [hand]
  exact Runs.System.throughout_iff_steps (fun _ => True) (fun _ _ => True)
    (fun _ _ _ _ => trivial) (fun s feed _ _ hs => frozenOk_next_iff s feed hs)
    (.of_forall (fun _ _ => trivial) _ _) trivial (frozenOk_new timings ladder start)

/-- A soft blank while another host owns the display, then an inhibitor, then ownership. -/
theorem frozen_stranded :
    (let s := machine.run
      (new { gracePeriod := 60, minBlankTime := 0, minWakeTime := 0, startupHoldoff := 0,
             wakeRetryInterval := 5 }
        [⟨.renderBlack, some 30⟩, ⟨.controller .powerOff, none⟩] 0)
      [.input (.ownershipChanged false) 1, .input (.zonePresent false) 2, .input .softBlank 3,
        .input (.inhibitorChanged true) 4, .input (.ownershipChanged true) 5]
    ¬ s.FrozenOk ∧ s.frozenGraceAssertion = false ∧ s.phase = .waking ∧
      s.graceFrozenRemaining = some 60) := by
  decide

end DisplayStateMachine
end Dormant
