import Dormant.StateMachine.Commands
import Dormant.StateMachine.Ladder

/-!
# Dark panels and the phases that give them up

`lit` runs a machine beside the panel itself: a controller blank that succeeds makes the
panel dark, and a wake that succeeds lights it. A machine in Active or Grace takes the panel
to be on, and no request makes it issue a wake from there. `abandons` names the steps that
take a machine with a dark panel to Active or Grace.
-/

namespace Dormant
set_option autoImplicit false

namespace DisplayStateMachine
variable {s : DisplayStateMachine} {input : Input} (now : ℕ)

def blankAccepted (s : DisplayStateMachine) (input : Input) : Bool :=
  match s.phase, input with
  | .blanking, .blankResult gen (.ok _) => s.lastBlankGen == some gen
  | _, _ => false

def takenOn (s : DisplayStateMachine) : Bool :=
  match s.phase with
  | .active | .grace _ => true
  | _ => false

/-! ## Where the helpers end -/

@[simp] theorem takenOn_enterGrace (s : DisplayStateMachine) (cause : String) :
    (s.enterGrace now cause).1.takenOn = true := by
  simp [takenOn]

@[simp] theorem takenOn_enterActive (s : DisplayStateMachine) (cause : String) :
    (s.enterActive now cause).1.takenOn = true := by
  rcases enterActive_phase s now cause with h | h <;> simp [takenOn, h]

@[simp] theorem takenOn_teardownRender (s : DisplayStateMachine) (cause : String) :
    (s.teardownRender now cause).1.takenOn = true :=
  takenOn_enterActive now s cause

theorem takenOn_enterLadderStage (s : DisplayStateMachine) (idx : ℕ) (cause : String) :
    (s.enterLadderStage idx now cause).1.takenOn = true ↔ s.ladder.length ≤ idx := by
  unfold enterLadderStage
  split
  · rename_i h
    exact iff_of_true (takenOn_enterActive now s cause) (List.getElem?_eq_none_iff.mp h)
  · rename_i stage h
    have hlt := (List.getElem?_eq_some_iff.mp h).1
    dsimp only
    split <;> exact iff_of_false Bool.false_ne_true (by omega)

theorem takenOn_advanceStage (s : DisplayStateMachine) (cause : String) :
    (s.advanceStage now cause).1.takenOn = true ↔ s.ladder.length ≤ s.nextStage := by
  unfold advanceStage
  split
  · rename_i h
    exact iff_of_true (takenOn_enterActive now s cause) h
  · exact takenOn_enterLadderStage now s _ cause

theorem takenOn_advanceToNextController (s : DisplayStateMachine) (cause : String) :
    (s.advanceToNextController now cause).1.takenOn = true ↔
      s.nextController s.nextStage = none := by
  unfold advanceToNextController
  cases h : s.nextController s.nextStage with
  | none => exact iff_of_true (takenOn_enterActive now s cause) rfl
  | some idx =>
    obtain ⟨-, stage, hs, -⟩ := nextController_eq_some s h
    have hlt := (List.getElem?_eq_some_iff.mp hs).1
    refine iff_of_false (fun ht => ?_) nofun
    have hle := (takenOn_enterLadderStage now s idx cause).mp ht
    omega

/-! ## The steps that give a dark panel up -/

/-- The last rung's stage tick comes, and nothing holds it back. -/
def dwellsOut (s : DisplayStateMachine) (input : Input) : Prop :=
  (s.phase = .blanked ∨ ∃ idx gen, s.phase = .staged idx gen) ∧ input = .stageTick s.stageGen ∧
    s.stageDwellFrozenRemaining = none ∧ s.overlays.inhibited = false ∧ s.owned = true ∧
    s.ladder.length ≤ s.nextStage

/-- A later rung's command fails: its blank, or its surface with no controller after it. -/
def failsAtRung (s : DisplayStateMachine) (input : Input) : Prop :=
  (s.phase = .blanking ∧ ∃ gen failure, input = .blankResult gen (.error failure) ∧
    s.lastBlankGen = some gen) ∨
  ∃ idx gen failure, s.phase = .renderPending idx gen ∧
    input = .renderResult gen (.error failure) ∧ s.nextController s.nextStage = none

/-- A due pause ends outside Grace and Waking while a frozen countdown is left over. -/
def thawsStray (s : DisplayStateMachine) (input : Input) (now : ℕ) : Prop :=
  input = .tick ∧ s.inGrace = false ∧ s.phase ≠ .waking ∧ s.pauseDue now ∧
    s.overlays.inhibited = false ∧ s.graceFrozenRemaining.isSome = true

/-- The steps that take a machine that shows a dark panel to Active or Grace. -/
def abandons (s : DisplayStateMachine) (input : Input) (now : ℕ) : Prop :=
  s.dwellsOut input ∨ s.failsAtRung input ∨ (s.onRender = true ∧ wakeRequest input = true) ∨
    s.thawsStray input now

theorem takenOn_maybeAutoResume (hs : s.takenOn = false) :
    (s.maybeAutoResume now).1.takenOn = true ↔ s.pauseDue now ∧ s.overlays.inhibited = false ∧
      s.graceFrozenRemaining.isSome = true := by
  by_cases hd : s.pauseDue now
  · rw [maybeAutoResume_due s now hd]
    unfold unfreezeGrace
    cases hf : s.graceFrozenRemaining with
    | none =>
      simp only [clearPause, hf]
      exact iff_of_false (Bool.eq_false_iff.mp hs) (by simp)
    | some remaining =>
      cases hi : s.overlays.inhibited with
      | true =>
        simp only [clearPause, hf, hi, Bool.true_or, if_true]
        exact iff_of_false (Bool.eq_false_iff.mp hs) (by simp)
      | false => simp [clearPause, hf, hi, hd, takenOn]
  · rw [maybeAutoResume_not_due s now hd]
    simp [hs, hd]

theorem abandons_of_takenOn (hstage : s.StageOk) (hs : s.takenOn = false)
    (howns : input ≠ .ownershipChanged false) (hwake : s.wakeAccepted input = false)
    (h : (s.step input now).1.takenOn = true) : s.abandons input now := by
  have hm := step_move s input now
  generalize s.step input now = r at hm h
  have hgrace : s.inGrace = false := by
    cases hp : s.phase <;> simp [takenOn, inGrace, hp] at hs ⊢
  have hactive : s.phase ≠ .active := by
    intro hp
    simp [takenOn, hp] at hs
  cases hm with
  | quiet =>
    have hsame : (s.note input).takenOn = s.takenOn := by simp only [takenOn, note_phase]
    simp [hsame, hs] at h
  | ticked hg hw =>
    obtain ⟨hd, hi, hf⟩ := (takenOn_maybeAutoResume now hs).mp h
    exact .inr (.inr (.inr ⟨rfl, hg, hw, hd, hi, hf⟩))
  | graceTicked untilTick hp => simp [inGrace, hp] at hgrace
  | vacated hp => exact absurd hp hactive
  | froze untilTick hp => simp [inGrace, hp] at hgrace
  | repaused hg => simp [hg] at hgrace
  | thawed hg => simp [hg] at hgrace
  | regained untilTick hp => simp [inGrace, hp] at hgrace
  | activated cause hin =>
    rcases hin with ⟨hg, -⟩ | ⟨-, rfl⟩
    · simp [hg] at hgrace
    · exact absurd rfl howns
  | forceBlanked => simp [issueBlank, takenOn] at h
  | softBlanked hp =>
    rcases hp with hp | hg
    · exact absurd hp hactive
    · simp [hg] at hgrace
  | deferred hp => simp [takenOn, hp] at h
  | @blankAnswered gen result hp hgen =>
    cases result with
    | ok u =>
      unfold blankAnswered at h
      dsimp only at h
      split at h
      · simp [issueWake, takenOn] at h
      · simp [takenOn] at h
    | error failure => exact .inr (.inl (.inl ⟨hp, gen, failure, rfl, hgen⟩))
  | woken => simp [issueWake, takenOn] at h
  | rewoken => simp [issueWake, takenOn] at h
  | retried => simp [issueWake, takenOn] at h
  | awoken hp hgen => simp [wakeAccepted, hp, hgen] at hwake
  | torn cause hr hin =>
    rcases hin with hin | rfl
    · exact .inr (.inr (.inl ⟨hr, hin⟩))
    · exact absurd rfl howns
  | tornAwake => simp [issueWake, takenOn] at h
  | renderForceBlanked => simp [forceBlankFromRender, issueBlank, takenOn] at h
  | renderSoftBlanked source hr =>
    have hle := (takenOn_enterLadderStage now { s with currentStage := none } 0 _).mp h
    exact absurd (List.length_eq_zero_iff.mp (Nat.le_zero.mp hle)) (hstage.ladder_ne_nil hr)
  | rendered => simp [takenOn] at h
  | @renderFailed gen failure idx hp =>
    exact .inr (.inl (.inr ⟨idx, gen, failure, hp, rfl,
      (takenOn_advanceToNextController now s _).mp h⟩))
  | advanced hp hf hi ho =>
    exact .inl ⟨hp, rfl, hf, hi, ho, (takenOn_advanceStage now s _).mp h⟩
  | captured hp => simp [takenOn, captureDwell, hp] at h
  | rearmed hp =>
    obtain ⟨gen, deadline, he⟩ := (s.note input).rearmStageTick_frame now
    simp [he, takenOn, hp] at h

theorem takenOn_of_abandons (hs : s.takenOn = false) (h : s.abandons input now) :
    (s.step input now).1.takenOn = true := by
  rcases h with ⟨hp, rfl, hf, hi, ho, hle⟩ | hfail | ⟨hr, hin⟩ | ⟨rfl, hg, hw, hd, hi, hf⟩
  · have hstep : s.step (.stageTick s.stageGen) now = s.advanceStage now "stage_tick" := by
      rcases hp with hp | ⟨idx, gen, hp⟩ <;>
        simp [step, hp, stepBlanked, stepStaged, stageTicked, stageAdvanceFrozen, hf, hi, ho]
    rw [hstep]
    exact (takenOn_advanceStage now s _).mpr hle
  · rcases hfail with ⟨hp, gen, failure, rfl, hgen⟩ | ⟨idx, gen, failure, hp, rfl, hnone⟩
    · have hstep : s.step (.blankResult gen (.error failure)) now =
          s.blankAnswered (.error failure) now := by
        simp [step, hp, stepBlanking, hgen]
      rw [hstep]
      unfold blankAnswered
      dsimp only
      split <;> simp
    · have hstep : s.step (.renderResult gen (.error failure)) now =
          s.advanceToNextController now "render_failed" := by
        simp [step, hp, stepRenderPending]
      rw [hstep]
      exact (takenOn_advanceToNextController now s _).mpr hnone
  · obtain ⟨idx, gen, hp⟩ := exists_render hr
    cases input with
    | zonePresent present =>
      obtain rfl : present = true := hin
      rcases hp with hp | hp <;> simp [step, hp, stepRenderPending, stepStaged]
    | forceWake => rcases hp with hp | hp <;> simp [step, hp, stepRenderPending, stepStaged]
    | inputWake => rcases hp with hp | hp <;> simp [step, hp, stepRenderPending, stepStaged]
    | _ => exact absurd hin (by simp [wakeRequest])
  · have hstep : s.step .tick now = s.maybeAutoResume now := by
      cases hp : s.phase <;>
        simp_all [step, inGrace, stepActive, stepBlanking, stepBlanked, stepRenderPending,
          stepStaged]
    rw [hstep]
    exact (takenOn_maybeAutoResume now hs).mpr ⟨hd, hi, hf⟩

/-! ## Wake requests -/

/-- The step issues a wake, or finds one in flight, or leaves one due with the blank's result. -/
def heeds (s : DisplayStateMachine) (input : Input) (now : ℕ) : Prop :=
  (∃ gen, .issueWake gen ∈ (s.step input now).2) ∨
    (s.phase = .waking ∧ (s.step input now).1.phase = .waking) ∨
    ((s.step input now).1.phase = .blanking ∧ (s.step input now).1.pendingWake = true)

theorem heeds_request (hs : s.takenOn = false) (hr : s.onRender = false)
    (hin : wakeRequest input = true) : s.heeds input now := by
  have hphase : s.phase = .blanking ∨ s.phase = .blanked ∨ s.phase = .waking := by
    cases hp : s.phase <;> simp [takenOn, onRender, hp] at hs hr ⊢
  cases input with
  | zonePresent present =>
    obtain rfl : present = true := hin
    rcases hphase with hp | hp | hp
    · exact .inr (.inr (by simp [step, hp, stepBlanking, seeZone]))
    · exact .inl ⟨_, by simp only [step, hp, stepBlanked, if_true, issueWake]; simp; rfl⟩
    · exact .inr (.inl (by simp [step, hp, stepWaking, seeZone]))
  | forceWake =>
    rcases hphase with hp | hp | hp
    · exact .inr (.inr (by simp [step, hp, stepBlanking]))
    · exact .inl ⟨_, by simp only [step, hp, stepBlanked, issueWake]; simp; rfl⟩
    · exact .inr (.inl (by simp [step, hp, stepWaking, issueWake]))
  | inputWake =>
    rcases hphase with hp | hp | hp
    · exact .inr (.inr (by simp [step, hp, stepBlanking]))
    · exact .inl ⟨_, by simp only [step, hp, stepBlanked, issueWake]; simp; rfl⟩
    · exact .inr (.inl (by simp [step, hp, stepWaking, issueWake]))
  | _ => exact absurd hin (by simp [wakeRequest])

theorem heeds_pending (hp : s.phase = .blanking) (hw : s.pendingWake = true)
    (hn : ¬ s.abandons input now) : s.heeds input now := by
  have hm := step_move s input now
  unfold heeds
  generalize s.step input now = r at hm
  have hg : s.inGrace = false := by simp [inGrace, hp]
  cases hm with
  | quiet =>
    obtain ⟨overlays, zone, owns, he⟩ := s.note_frame input
    exact .inr (.inr ⟨by simp [hp], by rw [he]; exact hw⟩)
  | ticked =>
    refine .inr (.inr ?_)
    by_cases hd : s.pauseDue now
    · rw [maybeAutoResume_due s now hd]
      unfold unfreezeGrace
      cases hf : s.graceFrozenRemaining with
      | none => simp [clearPause, hf, hp, hw]
      | some remaining =>
        cases hi : s.overlays.inhibited with
        | true => simp [clearPause, hf, hi, hp, hw]
        | false =>
          exact absurd (.inr (.inr (.inr ⟨rfl, hg, by simp [hp], hd, hi, by simp [hf]⟩))) hn
    · rw [maybeAutoResume_not_due s now hd]
      exact ⟨hp, hw⟩
  | graceTicked untilTick h => simp [hp] at h
  | vacated h => simp [hp] at h
  | froze untilTick h => simp [hp] at h
  | repaused h => simp [hg] at h
  | thawed h => simp [hg] at h
  | regained untilTick h => simp [hp] at h
  | activated cause h => simp [hg, hp] at h
  | forceBlanked source h => simp [hg, hp] at h
  | softBlanked h => simp [hg, hp] at h
  | deferred => exact .inr (.inr ⟨by simp [hp], rfl⟩)
  | @blankAnswered gen result _ hgen =>
    cases result with
    | ok u => exact .inl ⟨s.cmdGen + 1, by simp [blankAnswered, hw, issueWake]⟩
    | error failure => exact absurd (.inr (.inl (.inl ⟨hp, gen, failure, rfl, hgen⟩))) hn
  | woken source cause h => simp [hp] at h
  | rewoken pre h => simp [hp] at h
  | retried h => simp [hp] at h
  | awoken h => simp [hp] at h
  | torn cause h => simp [onRender, hp] at h
  | tornAwake source h => simp [onRender, hp] at h
  | renderForceBlanked source h => simp [onRender, hp] at h
  | renderSoftBlanked source h => simp [onRender, hp] at h
  | rendered idx h => simp [hp] at h
  | renderFailed idx h => simp [hp] at h
  | advanced h => simp [hp] at h
  | captured h => simp [hp] at h
  | rearmed h => simp [hp] at h

/-! ## Runs -/

/-- The panel after a step: dark once a blank has succeeded, lit once a wake has. -/
def panel (dark : Bool) (s : DisplayStateMachine) (f : Feed)
    (_ : DisplayStateMachine × List Effect) : Bool :=
  match f with
  | .input input _ =>
    if s.blankAccepted input then true else if s.wakeAccepted input then false else dark
  | .hold _ => dark

def lit : Runs.System (Bool × DisplayStateMachine) Feed Effect := machine.observed panel

/-- A dark panel is never taken to be on. -/
def KnownDark (x : Bool × DisplayStateMachine) : Prop := x.1 = true → x.2.takenOn = false

instance (x : Bool × DisplayStateMachine) : Decidable (KnownDark x) :=
  inferInstanceAs (Decidable (_ → _))

/-- A request for a dark panel, new or waiting for the blank's result, leads to a wake. -/
def heedsFeed (x : Bool × DisplayStateMachine) : Feed → Prop
  | .input input now =>
    x.1 = true → wakeRequest input = true ∨ x.2.phase = .blanking ∧ x.2.pendingWake = true →
      x.2.heeds input now
  | .hold _ => True

def abandonsFeed (x : Bool × DisplayStateMachine) : Feed → Prop
  | .input input now => x.1 = true ∧ x.2.abandons input now
  | .hold _ => False

theorem blankAccepted_spec (h : s.blankAccepted input = true) : s.phase = .blanking ∧
    ∃ gen, input = .blankResult gen (.ok ()) ∧ s.lastBlankGen = some gen := by
  unfold blankAccepted at h
  split at h
  · rename_i gen u hp
    exact ⟨hp, gen, rfl, by simpa using h⟩
  · exact absurd h Bool.false_ne_true

theorem not_abandons_ok {gen : UInt64} (hp : s.phase = .blanking) :
    ¬ s.abandons (.blankResult gen (.ok ())) now := by
  rintro (⟨-, h, -⟩ | (⟨-, g, e, h, -⟩ | ⟨i, g, e, h, -⟩) | ⟨h, -⟩ | ⟨h, -⟩)
  · cases h
  · cases h
  · simp [hp] at h
  · simp [onRender, hp] at h
  · cases h

theorem not_abandons_wake {gen : UInt64} (hp : s.phase = .waking) :
    ¬ s.abandons (.wakeResult gen (.ok ())) now := by
  rintro (⟨-, h, -⟩ | (⟨-, g, e, h, -⟩ | ⟨i, g, e, h, -⟩) | ⟨h, -⟩ | ⟨h, -⟩)
  · cases h
  · cases h
  · simp [hp] at h
  · simp [onRender, hp] at h
  · cases h

theorem knownDark_next_iff (x : Bool × DisplayStateMachine) (f : Feed) (hstage : x.2.StageOk)
    (hown : ∀ now, f ≠ .input (.ownershipChanged false) now) (hx : KnownDark x) :
    KnownDark (lit.next x f).1 ↔ ¬ abandonsFeed x f := by
  obtain ⟨dark, s⟩ := x
  cases f with
  | hold active => exact iff_of_true hx id
  | input input now =>
    show ((if s.blankAccepted input then true else if s.wakeAccepted input then false else dark) =
      true → (s.step input now).1.takenOn = false) ↔ ¬ (dark = true ∧ s.abandons input now)
    by_cases hb : s.blankAccepted input = true
    · obtain ⟨hp, gen, rfl, hgen⟩ := blankAccepted_spec hb
      refine iff_of_true (fun _ => ?_) fun h => not_abandons_ok now hp h.2
      have hstep : s.step (.blankResult gen (.ok ())) now = s.blankAnswered (.ok ()) now := by
        simp [step, hp, stepBlanking, hgen]
      rw [hstep]
      unfold blankAnswered
      dsimp only
      split
      · rfl
      · simp [takenOn]
    rw [if_neg hb]
    by_cases hw : s.wakeAccepted input = true
    · obtain ⟨hp, ⟨gen, rfl⟩, -⟩ := step_wakeAccepted hw now
      rw [if_pos hw]
      refine iff_of_true (fun h => absurd h Bool.false_ne_true) fun h => ?_
      exact not_abandons_wake now hp h.2
    rw [if_neg hw]
    cases dark with
    | false => simp
    | true =>
      have hs : s.takenOn = false := hx rfl
      have hne : input ≠ .ownershipChanged false := fun h => hown now (h ▸ rfl)
      constructor
      · rintro h ⟨-, ha⟩
        simp [takenOn_of_abandons now hs ha] at h
      · intro hn _
        by_contra ht
        exact hn ⟨rfl, abandons_of_takenOn now hstage hs hne (by simpa using hw) (by simpa using ht)⟩

theorem stageOk_next (s : DisplayStateMachine) (f : Feed) (hs : s.StageOk) :
    (machine.next s f).1.StageOk := by
  cases f with
  | input input now => exact stageOk_step now hs input
  | hold active => exact ⟨hs.bound, hs.render⟩

theorem heedsFeed_of_knownDark (x : Bool × DisplayStateMachine) (f : Feed) (hx : KnownDark x)
    (hn : ¬ abandonsFeed x f) : heedsFeed x f := by
  cases f with
  | hold active => trivial
  | input input now =>
    intro hdark hreq
    have hna : ¬ x.2.abandons input now := fun h => hn ⟨hdark, h⟩
    rcases hreq with hin | ⟨hp, hw⟩
    · have hr : x.2.onRender = false := by
        by_contra hr
        exact hna (.inr (.inr (.inl ⟨by simpa using hr, hin⟩)))
      exact heeds_request now (hx hdark) hr hin
    · exact heeds_pending now hp hw hna

/-- In a run without a loss of ownership, a dark panel is never taken to be on, and requests
for it lead to a wake, exactly when no step of the run abandons a dark panel. -/
theorem dark_panel_iff (timings : SmTimings) (ladder : List LadderStage) (start : ℕ)
    (feeds : List Feed) (hown : ∀ now, .input (.ownershipChanged false) now ∉ feeds) :
    lit.Throughout KnownDark (false, new timings ladder start) feeds ∧
        lit.Steps heedsFeed (false, new timings ladder start) feeds ↔
      lit.Steps (fun x f => ¬ abandonsFeed x f) (false, new timings ladder start) feeds := by
  have hstage := stageOk_new timings ladder start
  have hno : lit.Steps (fun _ f => ∀ now, f ≠ .input (.ownershipChanged false) now)
      (false, new timings ladder start) feeds :=
    .of_mem (fun f : Feed => ∀ now, f ≠ .input (.ownershipChanged false) now)
      (fun f hf now h => hown now (h ▸ hf)) _
  have hiff := Runs.System.throughout_iff_steps (fun x => x.2.StageOk)
    (fun _ f => ∀ now, f ≠ .input (.ownershipChanged false) now)
    (fun x f hx _ => stageOk_next x.2 f hx)
    (fun x f hx hf => knownDark_next_iff x f hx hf) hno hstage nofun
  constructor
  · exact fun h => hiff.mp h.1
  · intro h
    refine ⟨hiff.mpr h, (h.and hno).derive (fun x => x.2.StageOk ∧ KnownDark x) ?_ ?_
      ⟨hstage, nofun⟩⟩
    · exact fun x f hx hf =>
        ⟨stageOk_next x.2 f hx.1, (knownDark_next_iff x f hx.1 hf.2 hx.2).mpr hf.1⟩
    · exact fun x f hx hf => heedsFeed_of_knownDark x f hx.2 hf.1

theorem dark_panel_woken :
    let x₀ := (false, new { gracePeriod := 60, minBlankTime := 0, minWakeTime := 0,
                            startupHoldoff := 0, wakeRetryInterval := 5 }
      [⟨.controller .powerOff, none⟩] 0)
    let feeds : List Feed := [.input .softBlank 1, .input (.blankResult 1 (.ok ())) 2,
      .input (.zonePresent true) 3, .input (.wakeResult 2 (.ok ())) 4]
    lit.Throughout KnownDark x₀ feeds ∧ lit.Steps heedsFeed x₀ feeds := by
  refine (dark_panel_iff _ _ _ _ (by simp)).mpr
    ⟨fun h => absurd h.1 (by decide), fun h => absurd h.1 (by decide), ?_, ?_, trivial⟩
  · rintro ⟨-, ⟨-, h, -⟩ | (⟨-, _, _, h, -⟩ | ⟨_, _, _, -, h, -⟩) | ⟨h, -⟩ | ⟨h, -⟩⟩
    · exact nomatch h
    · exact nomatch h
    · exact nomatch h
    · exact absurd h (by decide)
    · exact nomatch h
  · exact fun h => not_abandons_wake 4 (by decide) h.2

/-- A dwell on the last rung, which validation accepts and calls ignored, lets its stage tick
lead to Active with the panel dark; presence then asks for nothing. -/
theorem dark_panel_abandoned :
    let x₀ := (false, new { gracePeriod := 60, minBlankTime := 0, minWakeTime := 0,
                            startupHoldoff := 0, wakeRetryInterval := 5 }
      [⟨.controller .powerOff, some 10⟩] 0)
    let feeds : List Feed := [.input .softBlank 1, .input (.blankResult 1 (.ok ())) 2,
      .input (.stageTick 2) 12]
    ¬ lit.Throughout KnownDark x₀ feeds ∧ (lit.run x₀ feeds).1 = true ∧
      (lit.run x₀ feeds).2.phase = .active ∧
      ((lit.run x₀ feeds).2.step (.zonePresent true) 20).2 = [] := by
  decide

end DisplayStateMachine
end Dormant
