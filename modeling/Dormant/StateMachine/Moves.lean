import Dormant.StateMachine.Step

/-!
# What one step can do

`Move s now input result` lists the moves of the machine: which phase and input allow each,
under which guard, and what the move leaves behind. `step_move` says that every step is one
of them. The invariants of a machine are proved by cases on its moves, so that the match of
`step` is taken apart here and nowhere else.
-/

namespace Dormant
set_option autoImplicit false

namespace DisplayStateMachine

/-- The flags an input records in every phase, before anything else happens. -/
def note (s : DisplayStateMachine) : Input → DisplayStateMachine
  | .zonePresent present => s.seeZone present
  | .inhibitorChanged inhibited => s.setInhibited inhibited
  | .pause untilTick => (s.recordPause untilTick).1
  | .resume => s.clearPause
  | .ownershipChanged owns => { s with owned := owns }
  | _ => s

def noteEffects : Input → List Effect
  | .pause (some deadline) => [.scheduleTickAt deadline]
  | _ => []

/-- Something asks for a visible panel when ownership is gained. -/
def wantsPanel (s : DisplayStateMachine) : Prop :=
  s.zonePresent = some true ∨ s.held = true

instance (s : DisplayStateMachine) : Decidable s.wantsPanel := instDecidableOr

def stageTickDropped (s : DisplayStateMachine) (gen : UInt64) : Prop :=
  gen ≠ s.stageGen ∨ s.stageDwellFrozenRemaining.isSome ∨ s.overlays.inhibited ∨ s.owned = false

/-! ## Inputs that are only recorded

One table for each phase: the inputs that phase records or ignores. -/

def quietActive (s : DisplayStateMachine) : Input → Prop
  | .zonePresent present => present = true
  | .tick | .forceBlank | .softBlank => False
  | .ownershipChanged owns => owns = true → ¬ s.wantsPanel
  | _ => True

def quietGrace (s : DisplayStateMachine) : Input → Prop
  | .zonePresent present => present = false
  | .ownershipChanged owns => owns = true → s.zonePresent ≠ some false
  | .blankResult _ _ | .wakeResult _ _ | .stageTick _ | .renderResult _ _ => True
  | _ => False

def quietBlanking (s : DisplayStateMachine) : Input → Prop
  | .zonePresent present => present = false
  | .blankResult gen _ => some gen ≠ s.lastBlankGen
  | .ownershipChanged owns => owns = true → ¬ s.wantsPanel
  | .tick | .forceWake | .inputWake => False
  | _ => True

def quietBlanked (s : DisplayStateMachine) : Input → Prop
  | .zonePresent present => present = false
  | .stageTick gen => s.stageTickDropped gen
  | .ownershipChanged owns => owns = true ∧ ¬ s.wantsPanel
  | .tick | .forceWake | .inputWake => False
  | _ => True

def quietWaking (s : DisplayStateMachine) : Input → Prop
  | .wakeResult gen _ => some gen ≠ s.lastWakeGen
  | .tick | .forceBlank | .forceWake | .inputWake => False
  | _ => True

def quietRenderPending (s : DisplayStateMachine) (pending : UInt64) : Input → Prop
  | .zonePresent present => present = false
  | .renderResult gen _ => pending ≠ gen
  | .ownershipChanged owns => owns = true ∧ ¬ s.wantsPanel
  | .tick | .inputWake | .forceWake | .forceBlank | .softBlank => False
  | _ => True

def quietStaged (s : DisplayStateMachine) : Input → Prop
  | .zonePresent present => present = false
  | .pause _ => s.overlays.paused.isSome = true
  | .resume => s.overlays.inhibited = true
  | .stageTick gen => s.stageTickDropped gen
  | .ownershipChanged owns => owns = true ∧ ¬ s.wantsPanel
  | .blankResult _ _ | .wakeResult _ _ | .renderResult _ _ => True
  | _ => False

/-- The inputs that a machine only records, or ignores. -/
def quiet (s : DisplayStateMachine) (input : Input) : Prop :=
  match s.phase with
  | .active => s.quietActive input
  | .grace _ => s.quietGrace input
  | .blanking => s.quietBlanking input
  | .blanked => s.quietBlanked input
  | .waking => s.quietWaking input
  | .renderPending _ pending => s.quietRenderPending pending input
  | .staged _ _ => s.quietStaged input

def onRender (s : DisplayStateMachine) : Bool :=
  match s.phase with
  | .renderPending _ _ | .staged _ _ => true
  | _ => false

def wakeRequest : Input → Bool
  | .zonePresent present => present
  | .forceWake | .inputWake => true
  | _ => false

inductive Move (s : DisplayStateMachine) (now : ℕ) :
    Input → DisplayStateMachine × List Effect → Prop
  | quiet {input : Input} (h : s.quiet input) : Move s now input (s.note input, noteEffects input)
  /-- A tick outside Grace and Waking serves auto-resume only. -/
  | ticked (grace : s.inGrace = false) (waking : s.phase ≠ .waking) :
      Move s now .tick (s.maybeAutoResume now)
  | graceTicked (untilTick : ℕ) (h : s.phase = .grace untilTick) :
      Move s now .tick (s.graceTick untilTick now)
  | vacated (h : s.phase = .active) :
      Move s now (.zonePresent false) ((s.seeZone false).enterGrace now "zone_clear")
  /-- An overlay arrives in Grace. -/
  | froze {input : Input} (untilTick : ℕ) (h : s.phase = .grace untilTick)
      (hinput : input = .inhibitorChanged true ∨
        (∃ u, input = .pause u) ∧ s.overlays.paused = none) :
      Move s now input ((s.note input).freezeGrace untilTick now, noteEffects input)
  /-- A second pause arrives in Grace. -/
  | repaused {u : Option ℕ} (h : s.inGrace = true) (hp : s.overlays.paused.isSome) :
      Move s now (.pause u) (s.note (.pause u), noteEffects (.pause u))
  /-- An overlay is lifted in Grace. -/
  | thawed {input : Input} (h : s.inGrace = true)
      (hinput : input = .inhibitorChanged false ∨ input = .resume) :
      Move s now input ((s.note input).unfreezeGrace now)
  /-- Ownership returns in Grace: the expiry tick is delivered again. -/
  | regained (untilTick : ℕ) (h : s.phase = .grace untilTick) (hz : s.zonePresent = some false) :
      Move s now (.ownershipChanged true)
        (s.note (.ownershipChanged true), [.scheduleTickAt untilTick])
  /-- A request in Grace, or a lost panel in Blanked, leads to Active. -/
  | activated {input : Input} (cause : String)
      (h : s.inGrace = true ∧ wakeRequest input = true ∨
        s.phase = .blanked ∧ input = .ownershipChanged false) :
      Move s now input ((s.note input).enterActive now cause)
  | forceBlanked (source : String) (h : s.phase = .active ∨ s.inGrace = true ∨ s.phase = .waking) :
      Move s now .forceBlank
        ((if s.inGrace then { s with graceFrozenRemaining := none } else s).issueBlank
          [.logTransition source "blanking" "force_blank"])
  | softBlanked (h : s.phase = .active ∨ s.inGrace = true) :
      Move s now .softBlank
        ((if s.inGrace then { s with graceFrozenRemaining := none } else s).enterLadderStage 0 now
          "soft_blank")
  | deferred {input : Input} (h : s.phase = .blanking)
      (hinput : wakeRequest input = true ∨ input = .ownershipChanged true ∧ s.wantsPanel) :
      Move s now input ({ s.note input with pendingWake := true }, [])
  | blankAnswered {gen : UInt64} (result : Except CmdFailure Unit) (h : s.phase = .blanking)
      (hgen : s.lastBlankGen = some gen) :
      Move s now (.blankResult gen result) (s.blankAnswered result now)
  /-- A wake is issued for a visible panel that is wanted. -/
  | woken {input : Input} (source cause : String)
      (h : s.phase = .blanked ∧ wakeRequest input = true ∨
        (s.phase = .active ∨ s.phase = .blanked) ∧ input = .ownershipChanged true ∧ s.wantsPanel) :
      Move s now input ((s.note input).issueWake [.logTransition source "waking" cause] now)
  | rewoken {input : Input} (pre : List Effect) (h : s.phase = .waking)
      (hinput : input = .forceWake ∧ pre = [] ∨ input = .inputWake ∧ pre = [] ∨
        (∃ gen failure, input = .wakeResult gen (.error failure) ∧ s.lastWakeGen = some gen) ∧
          pre = [.logTransition "waking" "waking" "wake_retry"]) :
      Move s now input (s.issueWake pre now)
  | retried (h : s.phase = .waking) :
      Move s now .tick
        (((s.maybeAutoResume now).1.issueWake [] now).1,
          (s.maybeAutoResume now).2 ++
            .logTransition "waking" "waking" "wake_retry_scheduled" ::
              ((s.maybeAutoResume now).1.issueWake [] now).2)
  | awoken {gen : UInt64} {u : Unit} (h : s.phase = .waking) (hgen : s.lastWakeGen = some gen) :
      Move s now (.wakeResult gen (.ok u))
        ({ s with lastWake := some now }.enterActive now "wake_completed")
  /-- A surface is torn down for a request or a lost panel. -/
  | torn {input : Input} (cause : String) (h : s.onRender = true)
      (hinput : wakeRequest input = true ∨ input = .ownershipChanged false) :
      Move s now input ((s.note input).teardownRender now cause)
  /-- A surface is torn down because ownership returns and the panel is wanted. -/
  | tornAwake (source : String) (h : s.onRender = true) (hw : s.wantsPanel) :
      Move s now (.ownershipChanged true)
        ((((s.note (.ownershipChanged true)).teardownRender now "ownership_acquired").1.issueWake
            [.logTransition source "waking" "ownership_acquired"] now).1,
          ((s.note (.ownershipChanged true)).teardownRender now "ownership_acquired").2 ++
            (((s.note (.ownershipChanged true)).teardownRender now
              "ownership_acquired").1.issueWake
                [.logTransition source "waking" "ownership_acquired"] now).2)
  | renderForceBlanked (source : String) (h : s.onRender = true) :
      Move s now .forceBlank (s.forceBlankFromRender source)
  | renderSoftBlanked (source : String) (h : s.onRender = true) :
      Move s now .softBlank (s.softBlankFromRender source now)
  | rendered {gen : UInt64} {u : Unit} (idx : ℕ) (h : s.phase = .renderPending idx gen) :
      Move s now (.renderResult gen (.ok u))
        (({ s with phase := .staged idx gen }.scheduleStageTick now).1,
          .logTransition "render_pending" "staged" "render_succeeded" ::
            ({ s with phase := .staged idx gen }.scheduleStageTick now).2)
  | renderFailed {gen : UInt64} {failure : CmdFailure} (idx : ℕ)
      (h : s.phase = .renderPending idx gen) :
      Move s now (.renderResult gen (.error failure))
        (s.advanceToNextController now "render_failed")
  | advanced (h : s.phase = .blanked ∨ ∃ idx gen, s.phase = .staged idx gen)
      (hfrozen : s.stageDwellFrozenRemaining = none) (hinhibited : s.overlays.inhibited = false)
      (howned : s.owned = true) :
      Move s now (.stageTick s.stageGen) (s.advanceStage now "stage_tick")
  /-- An overlay arrives in Staged: what is left of the dwell is captured. -/
  | captured {input : Input} {idx : ℕ} {gen : UInt64} (h : s.phase = .staged idx gen)
      (hinput : input = .inhibitorChanged true ∨
        (∃ u, input = .pause u) ∧ s.overlays.paused = none) :
      Move s now input ((s.note input).captureDwell now, noteEffects input)
  /-- An overlay is lifted in Staged: the stage tick is armed again. -/
  | rearmed {input : Input} {idx : ℕ} {gen : UInt64} (h : s.phase = .staged idx gen)
      (hinput : input = .inhibitorChanged false ∨
        input = .resume ∧ s.overlays.inhibited = false) :
      Move s now input ((s.note input).rearmStageTick now)


/-! ## Every step is a move -/

section Recognition
variable {s : DisplayStateMachine} {now : ℕ}

theorem wantsPanel_iff : s.wantsPanel ↔
    ¬ (s.zonePresent ≠ some true ∧ s.overlays.inhibited = false ∧ s.overlays.paused = none) := by
  cases hi : s.overlays.inhibited <;> cases hp : s.overlays.paused <;>
    simp [wantsPanel, held, hi, hp]

theorem recordPause_eq (s : DisplayStateMachine) (untilTick : Option ℕ) :
    s.recordPause untilTick = (s.note (.pause untilTick), noteEffects (.pause untilTick)) := by
  cases untilTick <;> rfl

theorem reconcile_unwanted (source : String) (hg : s.inGrace = false) (hw : ¬ s.wantsPanel) :
    s.reconcileOwnershipGain now source = (s.note (.ownershipChanged true), []) := by
  have hn := not_not.mp (mt wantsPanel_iff.mpr hw)
  cases h : s.phase <;> simp_all [reconcileOwnershipGain, inGrace, note]

theorem reconcile_wake (source : String) (h : s.phase = .active ∨ s.phase = .blanked)
    (hw : s.wantsPanel) :
    s.reconcileOwnershipGain now source = (s.note (.ownershipChanged true)).issueWake
      [.logTransition source "waking" "ownership_acquired"] now := by
  have hn := wantsPanel_iff.mp hw
  rcases h with h | h <;> simp only [reconcileOwnershipGain, h, if_neg hn, note]

theorem reconcile_move (source : String) (hg : s.inGrace = false) :
    Move s now (.ownershipChanged true) (s.reconcileOwnershipGain now source) := by
  by_cases hw : s.wantsPanel
  · have hn := wantsPanel_iff.mp hw
    cases h : s.phase with
    | active =>
      rw [reconcile_wake source (.inl h) hw]
      exact .woken _ _ (.inr ⟨.inl h, rfl, hw⟩)
    | blanked =>
      rw [reconcile_wake source (.inr h) hw]
      exact .woken _ _ (.inr ⟨.inr h, rfl, hw⟩)
    | grace untilTick => simp [inGrace, h] at hg
    | blanking =>
      have hm : Move s now (.ownershipChanged true) _ := .deferred h (.inr ⟨rfl, hw⟩)
      simpa only [reconcileOwnershipGain, h, if_neg hn, note] using hm
    | waking =>
      have hm : Move s now (.ownershipChanged true) _ := .quiet (by simp [quiet, quietWaking, h])
      simpa only [reconcileOwnershipGain, h, if_neg hn, note, noteEffects] using hm
    | renderPending idx gen =>
      have hm : Move s now (.ownershipChanged true) _ :=
        .tornAwake source (by simp [onRender, h]) hw
      simpa only [reconcileOwnershipGain, h, if_neg hn, note] using hm
    | staged idx gen =>
      have hm : Move s now (.ownershipChanged true) _ :=
        .tornAwake source (by simp [onRender, h]) hw
      simpa only [reconcileOwnershipGain, h, if_neg hn, note] using hm
  · rw [reconcile_unwanted source hg hw]
    refine .quiet ?_
    cases h : s.phase <;>
      simp_all [quiet, quietActive, quietBlanking, quietBlanked, quietWaking, quietRenderPending,
        quietStaged, inGrace]

theorem active_move (h : s.phase = .active) (input : Input) :
    Move s now input (s.stepActive input now) := by
  cases input with
  | zonePresent present =>
    cases present with
    | true => exact .quiet (by simp [quiet, quietActive, h])
    | false => exact .vacated h
  | tick => exact .ticked (by simp [inGrace, h]) (by simp [h])
  | pause untilTick =>
    rw [stepActive, recordPause_eq]
    exact .quiet (by simp [quiet, quietActive, h])
  | forceBlank =>
    have hm : Move s now .forceBlank _ := .forceBlanked "active" (.inl h)
    simpa [inGrace, h, stepActive] using hm
  | softBlank =>
    have hm : Move s now .softBlank _ := .softBlanked (.inl h)
    simpa [inGrace, h, stepActive] using hm
  | ownershipChanged owns =>
    cases owns with
    | false => exact .quiet (by simp [quiet, quietActive, h])
    | true => exact reconcile_move "active" (by simp [inGrace, h])
  | _ => exact .quiet (by simp [quiet, quietActive, h])

theorem grace_move {untilTick : ℕ} (h : s.phase = .grace untilTick) (input : Input) :
    Move s now input (s.stepGrace untilTick input now) := by
  have hg : s.inGrace = true := by simp [inGrace, h]
  cases input with
  | zonePresent present =>
    cases present with
    | true => exact .activated _ (.inl ⟨hg, rfl⟩)
    | false => exact .quiet (by simp [quiet, quietGrace, h])
  | tick => exact .graceTicked untilTick h
  | inhibitorChanged inhibited =>
    cases inhibited with
    | true => exact .froze untilTick h (.inl rfl)
    | false => exact .thawed hg (.inl rfl)
  | pause pauseUntil =>
    simp only [stepGrace, recordPause_eq]
    cases hp : s.overlays.paused with
    | none => exact .froze untilTick h (.inr ⟨⟨_, rfl⟩, hp⟩)
    | some _ => exact .repaused hg (by simp [hp])
  | resume => exact .thawed hg (.inr rfl)
  | forceBlank =>
    have hm : Move s now .forceBlank _ := .forceBlanked "grace" (.inr (.inl hg))
    simpa [hg, stepGrace] using hm
  | softBlank =>
    have hm : Move s now .softBlank _ := .softBlanked (.inr hg)
    simpa [hg, stepGrace] using hm
  | forceWake => exact @Move.activated s now .forceWake "force_wake" (.inl ⟨hg, rfl⟩)
  | inputWake => exact @Move.activated s now .inputWake "input_wake" (.inl ⟨hg, rfl⟩)
  | ownershipChanged owns =>
    cases owns with
    | false => exact .quiet (by simp [quiet, quietGrace, h])
    | true =>
      by_cases hz : s.zonePresent = some false
      · have hm : Move s now (.ownershipChanged true) _ := .regained untilTick h hz
        simpa [stepGrace, reconcileOwnershipGain, h, hz, note] using hm
      · have hm : Move s now (.ownershipChanged true) _ :=
          .quiet (by simp [quiet, quietGrace, h, hz])
        simpa [stepGrace, reconcileOwnershipGain, h, hz, note, noteEffects] using hm
  | _ => exact .quiet (by simp [quiet, quietGrace, h])

theorem blanking_move (h : s.phase = .blanking) (input : Input) :
    Move s now input (s.stepBlanking input now) := by
  have hg : s.inGrace = false := by simp [inGrace, h]
  cases input with
  | zonePresent present =>
    cases present with
    | true => exact .deferred h (.inl rfl)
    | false => exact .quiet (by simp [quiet, quietBlanking, h])
  | tick => exact .ticked hg (by simp [h])
  | pause untilTick =>
    rw [stepBlanking, recordPause_eq]
    exact .quiet (by simp [quiet, quietBlanking, h])
  | blankResult gen result =>
    by_cases hgen : some gen = s.lastBlankGen
    · simp only [stepBlanking, hgen, ne_eq, not_true_eq_false, if_false]
      exact .blankAnswered result h hgen.symm
    · simp only [stepBlanking, ne_eq, hgen, not_false_eq_true, if_true]
      exact .quiet (by simpa [quiet, quietBlanking, h] using hgen)
  | forceWake => exact @Move.deferred s now .forceWake h (.inl rfl)
  | inputWake => exact @Move.deferred s now .inputWake h (.inl rfl)
  | ownershipChanged owns =>
    cases owns with
    | false => exact .quiet (by simp [quiet, quietBlanking, h])
    | true => exact reconcile_move "blanking" hg
  | _ => exact .quiet (by simp [quiet, quietBlanking, h])

/-- A stage tick is dropped, or its generation is current and nothing gates it. -/
theorem stageTicked_move (h : s.phase = .blanked ∨ ∃ idx gen, s.phase = .staged idx gen)
    (gen : UInt64) : Move s now (.stageTick gen) (s.stageTicked gen now) := by
  by_cases hd : s.stageTickDropped gen
  · have hs : s.stageTicked gen now = (s, []) := by
      rcases hd with hd | hd | hd | hd <;> simp [stageTicked, stageAdvanceFrozen, hd]
    rw [hs]
    refine @Move.quiet s now (.stageTick gen) ?_
    rcases h with h | ⟨idx, g, h⟩ <;> simpa [quiet, quietBlanked, quietStaged, h] using hd
  · simp only [stageTickDropped, not_or, not_not, Bool.not_eq_true, Bool.not_eq_false] at hd
    obtain ⟨rfl, hf, hi, ho⟩ := hd
    have hs : s.stageTicked s.stageGen now = s.advanceStage now "stage_tick" := by
      simp [stageTicked, stageAdvanceFrozen, hf, hi, ho]
    rw [hs]
    exact .advanced h (by simpa using hf) hi ho

theorem blanked_move (h : s.phase = .blanked) (input : Input) :
    Move s now input (s.stepBlanked input now) := by
  have hg : s.inGrace = false := by simp [inGrace, h]
  cases input with
  | zonePresent present =>
    cases present with
    | true => exact .woken _ _ (.inl ⟨h, rfl⟩)
    | false => exact .quiet (by simp [quiet, quietBlanked, h])
  | tick => exact .ticked hg (by simp [h])
  | pause untilTick =>
    rw [stepBlanked, recordPause_eq]
    exact .quiet (by simp [quiet, quietBlanked, h])
  | forceWake => exact @Move.woken s now .forceWake _ _ (.inl ⟨h, rfl⟩)
  | inputWake => exact @Move.woken s now .inputWake _ _ (.inl ⟨h, rfl⟩)
  | stageTick gen => exact stageTicked_move (.inl h) gen
  | ownershipChanged owns =>
    cases owns with
    | false => exact .activated _ (.inr ⟨h, rfl⟩)
    | true => exact reconcile_move "blanked" hg
  | _ => exact .quiet (by simp [quiet, quietBlanked, h])

theorem waking_move (h : s.phase = .waking) (input : Input) :
    Move s now input (s.stepWaking input now) := by
  have hg : s.inGrace = false := by simp [inGrace, h]
  cases input with
  | tick => exact .retried h
  | pause untilTick =>
    rw [stepWaking, recordPause_eq]
    exact .quiet (by simp [quiet, quietWaking, h])
  | wakeResult gen result =>
    by_cases hgen : some gen = s.lastWakeGen
    · simp only [stepWaking, hgen, ne_eq, not_true_eq_false, if_false]
      cases result with
      | ok u => exact .awoken h hgen.symm
      | error failure => exact .rewoken _ h (.inr (.inr ⟨⟨gen, failure, rfl, hgen.symm⟩, rfl⟩))
    · simp only [stepWaking, ne_eq, hgen, not_false_eq_true, if_true]
      exact .quiet (by simpa [quiet, quietWaking, h] using hgen)
  | forceBlank =>
    have hm : Move s now .forceBlank _ := .forceBlanked "waking" (.inr (.inr h))
    simpa [hg, stepWaking] using hm
  | forceWake => exact .rewoken _ h (.inl ⟨rfl, rfl⟩)
  | inputWake => exact .rewoken _ h (.inr (.inl ⟨rfl, rfl⟩))
  | ownershipChanged owns =>
    cases owns with
    | false => exact .quiet (by simp [quiet, quietWaking, h])
    | true => exact reconcile_move "waking" hg
  | _ => exact .quiet (by simp [quiet, quietWaking, h])

theorem renderPending_move {idx : ℕ} {pending : UInt64} (h : s.phase = .renderPending idx pending)
    (input : Input) : Move s now input (s.stepRenderPending idx pending input now) := by
  have hg : s.inGrace = false := by simp [inGrace, h]
  have hr : s.onRender = true := by simp [onRender, h]
  cases input with
  | zonePresent present =>
    cases present with
    | true => exact .torn _ hr (.inl rfl)
    | false => exact .quiet (by simp [quiet, quietRenderPending, h])
  | tick => exact .ticked hg (by simp [h])
  | pause untilTick =>
    rw [stepRenderPending, recordPause_eq]
    exact .quiet (by simp [quiet, quietRenderPending, h])
  | renderResult gen result =>
    by_cases hgen : pending = gen
    · subst hgen
      simp only [stepRenderPending, ne_eq, not_true_eq_false, if_false]
      cases result with
      | ok u => exact .rendered idx h
      | error failure => exact .renderFailed idx h
    · simp only [stepRenderPending, ne_eq, hgen, not_false_eq_true, if_true]
      exact .quiet (by simpa [quiet, quietRenderPending, h] using hgen)
  | inputWake => exact @Move.torn s now .inputWake _ hr (.inl rfl)
  | forceWake => exact @Move.torn s now .forceWake _ hr (.inl rfl)
  | forceBlank => exact .renderForceBlanked _ hr
  | softBlank => exact .renderSoftBlanked _ hr
  | ownershipChanged owns =>
    cases owns with
    | false => exact .torn _ hr (.inr rfl)
    | true => exact reconcile_move "render_pending" hg
  | _ => exact .quiet (by simp [quiet, quietRenderPending, h])

theorem staged_move {idx : ℕ} {gen : UInt64} (h : s.phase = .staged idx gen) (input : Input) :
    Move s now input (s.stepStaged input now) := by
  have hg : s.inGrace = false := by simp [inGrace, h]
  have hr : s.onRender = true := by simp [onRender, h]
  cases input with
  | zonePresent present =>
    cases present with
    | true => exact .torn _ hr (.inl rfl)
    | false => exact .quiet (by simp [quiet, quietStaged, h])
  | tick => exact .ticked hg (by simp [h])
  | inhibitorChanged inhibited =>
    cases inhibited with
    | true => exact .captured h (.inl rfl)
    | false => exact .rearmed h (.inl rfl)
  | pause untilTick =>
    simp only [stepStaged, recordPause_eq]
    cases hp : s.overlays.paused with
    | none => exact .captured h (.inr ⟨⟨_, rfl⟩, hp⟩)
    | some _ => exact .quiet (by simp [quiet, quietStaged, h, hp])
  | resume =>
    cases hi : s.overlays.inhibited with
    | true =>
      have hm : Move s now .resume _ := .quiet (by simp [quiet, quietStaged, h, hi])
      simpa [stepStaged, clearPause, hi, note, noteEffects] using hm
    | false =>
      have hm : Move s now .resume _ := .rearmed h (.inr ⟨rfl, hi⟩)
      simpa [stepStaged, clearPause, hi, note] using hm
  | stageTick g => exact stageTicked_move (.inr ⟨idx, gen, h⟩) g
  | inputWake => exact @Move.torn s now .inputWake _ hr (.inl rfl)
  | forceWake => exact @Move.torn s now .forceWake _ hr (.inl rfl)
  | forceBlank => exact .renderForceBlanked _ hr
  | softBlank => exact .renderSoftBlanked _ hr
  | ownershipChanged owns =>
    cases owns with
    | false => exact .torn _ hr (.inr rfl)
    | true => exact reconcile_move "staged" hg
  | _ => exact .quiet (by simp [quiet, quietStaged, h])

theorem step_move (s : DisplayStateMachine) (input : Input) (now : ℕ) :
    Move s now input (s.step input now) := by
  unfold step
  cases h : s.phase with
  | active => exact active_move h input
  | grace untilTick => exact grace_move h input
  | blanking => exact blanking_move h input
  | blanked => exact blanked_move h input
  | waking => exact waking_move h input
  | renderPending idx gen => exact renderPending_move h input
  | staged idx gen => exact staged_move h input

end Recognition

end DisplayStateMachine
end Dormant
