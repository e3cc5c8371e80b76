import Dormant.StateMachine.StageDwell
import Dormant.StateMachine.Surfaces

/-!
# The ladder position outside the ladder

`current_stage` is documented to be `None` in Active, Grace and Waking. `enter_active` clears
it, `issue_wake` and `enter_grace` do not, and `carriesRung` names the steps that take a rung
along. `Forcing` follows a forced blank: until the ladder is entered again its machine stands
on no rung, so only a stage tick left over from an earlier rung moves it.
-/

namespace Dormant
set_option autoImplicit false

theorem Clerical.stageTicks_eq {effects : List Effect} (h : Clerical effects) :
    stageTicks effects = [] :=
  h.filterMap_nil fun e he => by cases e <;> simp [Effect.clerical, Effect.stageTick?] at he ⊢

namespace DisplayStateMachine
variable {s t : DisplayStateMachine} {input : Input}

/-- The phases in which the machine is on no ladder stage. -/
def offLadder (s : DisplayStateMachine) : Bool :=
  match s.phase with
  | .active | .grace _ | .waking => true
  | _ => false

/-- Off the ladder there is no current stage. -/
def PositionOk (s : DisplayStateMachine) : Prop := s.offLadder = true → s.currentStage = none

instance (s : DisplayStateMachine) : Decidable s.PositionOk := inferInstanceAs (Decidable (_ → _))

/-! ## The steps that carry a rung along -/

/-- A wake is issued from Blanked, or for the request that waited for the blank's result. -/
def wakesOffRung (s : DisplayStateMachine) (input : Input) : Prop :=
  s.phase = .blanked ∧ (wakeRequest input = true ∨ input = .ownershipChanged true ∧ s.wantsPanel) ∨
    s.pendingWake = true ∧ s.phase = .blanking ∧
      ∃ gen, input = .blankResult gen (.ok ()) ∧ s.lastBlankGen = some gen

/-- The blank in flight fails while the zone is known absent. -/
def regraces (s : DisplayStateMachine) (input : Input) : Prop :=
  s.zonePresent = some false ∧ s.phase = .blanking ∧
    ∃ gen failure, input = .blankResult gen (.error failure) ∧ s.lastBlankGen = some gen

/-- The machine leaves the ladder with its rung still recorded. -/
def carriesRung (s : DisplayStateMachine) (input : Input) (now : ℕ) : Prop :=
  s.currentStage ≠ none ∧ (s.wakesOffRung input ∨ s.regraces input ∨ s.thawsStray input now)

theorem positionOk_of_none (h : s.currentStage = none) : s.PositionOk := fun _ => h

theorem positionOk_of_on (h : s.offLadder = false) : s.PositionOk := by
  intro ho
  rw [h] at ho
  exact absurd ho Bool.false_ne_true

theorem positionOk_congr (hp : t.phase = s.phase) (hc : t.currentStage = s.currentStage)
    (hs : s.PositionOk) : t.PositionOk := by
  intro ho
  rw [hc]
  refine hs ?_
  simpa only [offLadder, hp] using ho

theorem offLadder_of_inGrace (hg : s.inGrace = true) : s.offLadder = true := by
  cases hp : s.phase <;> simp [inGrace, offLadder, hp] at hg ⊢

section Helpers
variable (s) (now : ℕ) (cause : String)

@[simp] theorem enterGrace_currentStage :
    (s.enterGrace now cause).1.currentStage = s.currentStage := by
  unfold enterGrace
  dsimp only
  split <;> rfl

@[simp] theorem enterActive_currentStage : (s.enterActive now cause).1.currentStage = none := by
  unfold enterActive
  dsimp only
  split
  · exact enterGrace_currentStage _ now _
  · rfl

@[simp] theorem scheduleStageTick_currentStage :
    (s.scheduleStageTick now).1.currentStage = s.currentStage := by
  obtain ⟨gen, deadline, h⟩ := s.scheduleStageTick_frame now
  rw [h]

@[simp] theorem rearmStageTick_currentStage :
    (s.rearmStageTick now).1.currentStage = s.currentStage := by
  obtain ⟨gen, deadline, h⟩ := s.rearmStageTick_frame now
  rw [h]

@[simp] theorem unfreezeGrace_currentStage :
    (s.unfreezeGrace now).1.currentStage = s.currentStage := by
  unfold unfreezeGrace
  repeat' split
  all_goals rfl

@[simp] theorem maybeAutoResume_currentStage :
    (s.maybeAutoResume now).1.currentStage = s.currentStage := by
  by_cases hd : s.pauseDue now
  · rw [maybeAutoResume_due s now hd]
    exact unfreezeGrace_currentStage s.clearPause now
  · rw [maybeAutoResume_not_due s now hd]

@[simp] theorem freezeGrace_currentStage (untilTick : ℕ) :
    (s.freezeGrace untilTick now).currentStage = s.currentStage := by
  unfold freezeGrace
  split <;> rfl

theorem offLadder_enterActive : (s.enterActive now cause).1.offLadder = true := by
  rcases enterActive_phase s now cause with h | h <;> simp [offLadder, h]

/-- Entering a stage records it, or runs off the ladder and clears it. -/
theorem enterLadderStage_on (idx : ℕ) :
    emitsDark (s.enterLadderStage idx now cause).2 = true ∧
        (s.enterLadderStage idx now cause).1.currentStage = some idx ∧
        (s.enterLadderStage idx now cause).1.offLadder = false ∨
      emitsDark (s.enterLadderStage idx now cause).2 = false ∧
        (s.enterLadderStage idx now cause).1.currentStage = none ∧
        (s.enterLadderStage idx now cause).1.offLadder = true := by
  have hdark := dark_enterLadderStage s now cause idx
  unfold enterLadderStage at hdark ⊢
  split
  · exact .inr ⟨dark_enterActive s now cause, enterActive_currentStage s now cause,
      offLadder_enterActive s now cause⟩
  · rename_i stage hstage
    simp only [hstage] at hdark
    refine .inl ⟨hdark.mpr (List.getElem?_eq_some_iff.mp hstage).1, ?_⟩
    dsimp only
    split <;> exact ⟨rfl, rfl⟩

theorem positionOk_enterLadderStage (idx : ℕ) :
    (s.enterLadderStage idx now cause).1.PositionOk := by
  rcases enterLadderStage_on s now cause idx with ⟨-, -, h⟩ | ⟨-, h, -⟩
  · exact positionOk_of_on h
  · exact positionOk_of_none h

theorem positionOk_advanceStage : (s.advanceStage now cause).1.PositionOk := by
  unfold advanceStage
  split
  · exact positionOk_of_none (enterActive_currentStage s now cause)
  · exact positionOk_enterLadderStage s now cause _

theorem positionOk_advanceToNextController :
    (s.advanceToNextController now cause).1.PositionOk := by
  unfold advanceToNextController
  split
  · exact positionOk_enterLadderStage s now cause _
  · exact positionOk_of_none (enterActive_currentStage s now cause)

end Helpers

theorem positionOk_graceTick (hc : s.currentStage = none) (untilTick now : ℕ) : (s.graceTick untilTick now).1.PositionOk := by
  have ha : (s.maybeAutoResume now).1.PositionOk := positionOk_of_none (by simpa using hc)
  unfold graceTick
  dsimp only
  split_ifs
  · exact ha
  · exact ha
  · exact positionOk_of_none (by simpa using hc)
  · exact ha
  · exact ha
  · exact ha
  · exact positionOk_enterLadderStage _ now _ 0

/-- A step keeps the position with the phase, unless it carries a rung along. -/
theorem positionOk_step (hs : s.PositionOk) (now : ℕ) (hn : ¬ s.carriesRung input now) :
    (s.step input now).1.PositionOk := by
  have hm := step_move s input now
  generalize s.step input now = r at hm
  have hnote : (s.note input).PositionOk := positionOk_congr (note_phase s input) (by simp) hs
  have off (hp : s.offLadder = true) : s.currentStage = none := hs hp
  cases hm with
  | quiet => exact hnote
  | ticked hg hw =>
    by_cases hc : s.currentStage = none
    · exact positionOk_of_none (by simpa using hc)
    · refine positionOk_congr (maybeAutoResume_phase ?_) (by simp) hs
      exact fun ⟨hd, hi, hf⟩ => hn ⟨hc, .inr (.inr ⟨rfl, hg, hw, hd, hi, hf⟩)⟩
  | graceTicked untilTick hp =>
    exact positionOk_graceTick (off (by simp [offLadder, hp])) untilTick now
  | vacated hp =>
    exact positionOk_of_none (by simpa [seeZone] using off (by simp [offLadder, hp]))
  | froze untilTick hp =>
    exact positionOk_of_none (by simpa using off (by simp [offLadder, hp]))
  | repaused => exact hnote
  | thawed hg => exact positionOk_of_none (by simpa using off (offLadder_of_inGrace hg))
  | regained => exact hnote
  | activated cause => exact positionOk_of_none (enterActive_currentStage _ now cause)
  | forceBlanked => exact positionOk_of_on rfl
  | softBlanked => exact positionOk_enterLadderStage _ now _ 0
  | deferred hp => exact positionOk_of_on (by simp [offLadder, hp])
  | @blankAnswered gen result hp hgen =>
    by_cases hc : s.currentStage = none
    · refine positionOk_of_none ?_
      unfold blankAnswered
      cases result <;> dsimp only <;> split <;> simp [issueWake, hc]
    · unfold blankAnswered
      cases result with
      | ok u =>
        dsimp only
        split
        · rename_i hw
          exact absurd ⟨hc, .inl (.inr ⟨hw, hp, gen, rfl, hgen⟩)⟩ hn
        · exact positionOk_of_on (by simp [offLadder])
      | error failure =>
        dsimp only
        split
        · rename_i hz
          exact absurd ⟨hc, .inr (.inl ⟨hz, hp, gen, failure, rfl, hgen⟩)⟩ hn
        · exact positionOk_of_none (enterActive_currentStage _ now _)
  | woken source cause h =>
    refine positionOk_of_none ?_
    show (s.note input).currentStage = none
    rw [note_currentStage]
    by_contra hc
    rcases h with ⟨hp, hin⟩ | ⟨hp | hp, hin⟩
    · exact hn ⟨hc, .inl (.inl ⟨hp, .inl hin⟩)⟩
    · exact hc (off (by simp [offLadder, hp]))
    · exact hn ⟨hc, .inl (.inl ⟨hp, .inr hin⟩)⟩
  | rewoken pre hp => exact positionOk_of_none (off (by simp [offLadder, hp]))
  | retried hp =>
    refine positionOk_of_none ?_
    show (s.maybeAutoResume now).1.currentStage = none
    rw [maybeAutoResume_currentStage]
    exact off (by simp [offLadder, hp])
  | awoken => exact positionOk_of_none (enterActive_currentStage _ now _)
  | torn cause => exact positionOk_of_none (enterActive_currentStage _ now cause)
  | tornAwake => exact positionOk_of_none (enterActive_currentStage _ now _)
  | renderForceBlanked => exact positionOk_of_none rfl
  | renderSoftBlanked => exact positionOk_enterLadderStage _ now _ 0
  | rendered => exact positionOk_of_on (by simp [offLadder])
  | renderFailed => exact positionOk_advanceToNextController s now _
  | advanced => exact positionOk_advanceStage s now _
  | captured hp => exact positionOk_of_on (by simp [captureDwell, offLadder, hp])
  | rearmed hp =>
    refine positionOk_of_on ?_
    obtain ⟨gen, deadline, he⟩ := (s.note input).rearmStageTick_frame now
    rw [he]
    simp [offLadder, hp]

/-- A step that carries a rung along ends off the ladder with the rung still recorded. -/
theorem not_positionOk_of_carries (now : ℕ) (h : s.carriesRung input now) :
    ¬ (s.step input now).1.PositionOk := by
  suffices hs : (s.step input now).1.offLadder = true ∧
      (s.step input now).1.currentStage = s.currentStage by
    intro hok
    exact h.1 (hs.2.symm.trans (hok hs.1))
  obtain ⟨-, (⟨hp, hin⟩ | ⟨hw, hp, gen, rfl, hgen⟩) | ⟨hz, hp, gen, failure, rfl, hgen⟩ |
    ⟨rfl, hg, hw, hd, hi, hf⟩⟩ := h
  · rcases hin with hin | ⟨rfl, hwants⟩
    · cases input with
      | zonePresent present =>
        obtain rfl : present = true := hin
        simp [step, hp, stepBlanked, issueWake, offLadder, seeZone]
      | forceWake => simp [step, hp, stepBlanked, issueWake, offLadder]
      | inputWake => simp [step, hp, stepBlanked, issueWake, offLadder]
      | _ => exact absurd hin (by simp [wakeRequest])
    · have hstep : s.step (.ownershipChanged true) now = (s.note (.ownershipChanged true)).issueWake
          [.logTransition "blanked" "waking" "ownership_acquired"] now := by
        rw [← reconcile_wake "blanked" (.inr hp) hwants]
        simp only [step, hp, stepBlanked, if_true]
      rw [hstep]
      exact ⟨rfl, rfl⟩
  · simp [step, hp, stepBlanking, hgen, blankAnswered, hw, issueWake, offLadder]
  · simp [step, hp, stepBlanking, hgen, blankAnswered, hz, offLadder]
  · obtain ⟨remaining, -, hthaw⟩ := maybeAutoResume_thaw hd hi hf
    have hstep : s.step .tick now = s.maybeAutoResume now := by
      cases hp : s.phase <;>
        simp_all [step, inGrace, stepActive, stepBlanking, stepBlanked, stepRenderPending,
          stepStaged]
    rw [hstep, hthaw]
    exact ⟨rfl, rfl⟩

theorem positionOk_step_iff (hs : s.PositionOk) (now : ℕ) :
    (s.step input now).1.PositionOk ↔ ¬ s.carriesRung input now :=
  ⟨fun h hc => not_positionOk_of_carries now hc h, positionOk_step hs now⟩

/-! ## The steps that schedule a stage tick -/

section StageTicks
variable (s) (now : ℕ) (cause : String)

@[simp] theorem stageTicks_enterLadderStage (idx : ℕ) :
    stageTicks (s.enterLadderStage idx now cause).2 = [] := by
  unfold enterLadderStage
  split
  · exact (clerical_enterActive s now cause).stageTicks_eq
  · dsimp only
    cases s.onRenderStage <;> split <;> simp_all [StageKind.isRender, stageTicks,
      issueBlankForMode, Effect.stageTick?]

@[simp] theorem stageTicks_advanceStage : stageTicks (s.advanceStage now cause).2 = [] := by
  unfold advanceStage
  split
  · exact (clerical_enterActive s now cause).stageTicks_eq
  · exact stageTicks_enterLadderStage s now cause _

theorem stageTicks_graceTick (untilTick : ℕ) : stageTicks (s.graceTick untilTick now).2 = [] := by
  have hm := (clerical_maybeAutoResume s now).stageTicks_eq
  unfold graceTick
  dsimp only
  split_ifs
  · exact hm
  · exact hm
  · exact hm
  · exact hm
  · rw [stageTicks, List.filterMap_append]
    exact List.append_eq_nil_iff.mpr ⟨hm, rfl⟩
  · exact hm
  · rw [stageTicks, List.filterMap_append]
    exact List.append_eq_nil_iff.mpr ⟨hm, stageTicks_enterLadderStage _ now _ 0⟩

end StageTicks

/-- A stage tick is scheduled on a rung: when its blank succeeds, or over a surface. -/
theorem stageTicks_step (hc : s.phase = .blanking → s.currentStage = none)
    (hr : s.onRender = false) (input : Input) (now : ℕ) :
    stageTicks (s.step input now).2 = [] := by
  have hm := step_move s input now
  generalize s.step input now = r at hm
  cases hm with
  | quiet => exact (clerical_noteEffects input).stageTicks_eq
  | ticked => exact (clerical_maybeAutoResume s now).stageTicks_eq
  | graceTicked untilTick => exact stageTicks_graceTick s now untilTick
  | vacated => exact (clerical_enterGrace _ now _).stageTicks_eq
  | froze => exact (clerical_noteEffects input).stageTicks_eq
  | repaused => exact (clerical_noteEffects _).stageTicks_eq
  | thawed => exact (clerical_unfreezeGrace _ now).stageTicks_eq
  | regained => rfl
  | activated cause => exact (clerical_enterActive _ now cause).stageTicks_eq
  | forceBlanked => rfl
  | softBlanked => exact stageTicks_enterLadderStage _ now _ 0
  | deferred => rfl
  | blankAnswered result hp =>
    unfold blankAnswered
    cases result with
    | ok u =>
      dsimp only
      split
      · rfl
      · simp [scheduleStageTick, hc hp, stageTicks, Effect.stageTick?]
    | error failure =>
      dsimp only
      split
      · exact (clerical_enterGrace _ now _).stageTicks_eq
      · exact (clerical_enterActive _ now _).stageTicks_eq
  | woken => rfl
  | rewoken pre hp hinput => rcases hinput with ⟨-, rfl⟩ | ⟨-, rfl⟩ | ⟨-, rfl⟩ <;> rfl
  | retried =>
    rw [stageTicks, List.filterMap_append]
    exact List.append_eq_nil_iff.mpr ⟨(clerical_maybeAutoResume s now).stageTicks_eq, rfl⟩
  | awoken => exact (clerical_enterActive _ now _).stageTicks_eq
  | torn cause h => exact absurd h (by simp [hr])
  | tornAwake source h => exact absurd h (by simp [hr])
  | renderForceBlanked source h => exact absurd h (by simp [hr])
  | renderSoftBlanked source h => exact absurd h (by simp [hr])
  | rendered idx h => simp [onRender, h] at hr
  | renderFailed idx h => simp [onRender, h] at hr
  | advanced => exact stageTicks_advanceStage s now _
  | captured h => simp [onRender, h] at hr
  | rearmed h => simp [onRender, h] at hr

/-! ## A forced blank -/

/-- How far a forced blank has got: issued under a generation, or answered with success. -/
inductive Forcing where
  | idle
  | sent (gen : UInt64)
  | done
  deriving DecidableEq

/-- A forced blank that succeeded counts until a grace expiry or a soft blank enters a rung. -/
def forcing (g : Forcing) (_ : DisplayStateMachine) (f : Feed)
    (r : DisplayStateMachine × List Effect) : Forcing :=
  match f with
  | .input .forceBlank _ => if emitsDark r.2 && g != .done then .sent r.1.cmdGen else g
  | .input (.blankResult gen (.ok _)) _ => if g = .sent gen then .done else g
  | .input .tick _ | .input .softBlank _ => if emitsDark r.2 then .idle else g
  | _ => g

def positions : Runs.System (Forcing × DisplayStateMachine) Feed Effect :=
  machine.observed forcing

/-- After a forced blank no stage tick is scheduled, and none moves the machine. -/
def unmoved (x : Forcing × DisplayStateMachine) (f : Feed) : Prop :=
  (positions.next x f).1.1 = .done → stageTicks (positions.next x f).2 = [] ∧
    ∀ gen now, f = .input (.stageTick gen) now → (positions.next x f).2 = []

/-- A stage tick is accepted in Blanked while the machine stands on no rung. -/
def strayStageTick (s : DisplayStateMachine) (input : Input) : Prop :=
  s.phase = .blanked ∧ s.currentStage = none ∧ input = .stageTick s.stageGen ∧
    s.stageDwellFrozenRemaining = none ∧ s.overlays.inhibited = false ∧ s.owned = true

/-- What a forced blank in progress says of the position. -/
structure Forced (x : Forcing × DisplayStateMachine) : Prop where
  surface : x.2.onRender = true → x.1 = .idle
  rung : x.2.phase = .blanking ∨ x.2.phase = .blanked → x.1 ≠ .idle → x.2.currentStage = none
  blanking : x.2.phase = .blanking → x.2.currentStage = none →
    x.1 = .done ∨ ∃ gen, x.1 = .sent gen ∧ x.2.lastBlankGen = some gen
  blanked : x.2.phase = .blanked → x.2.currentStage = none → x.1 = .done

theorem forced_off {g : Forcing} (h : t.offLadder = true) : Forced (g, t) := by
  cases hp : t.phase <;> simp [offLadder, hp] at h <;>
    exact ⟨by simp [onRender, hp], by simp [hp], by simp [hp], by simp [hp]⟩

theorem forced_enterLadderStage {g : Forcing} (s : DisplayStateMachine) (idx now : ℕ)
    (cause : String) (hg : emitsDark (s.enterLadderStage idx now cause).2 = true → g = .idle) :
    Forced (g, (s.enterLadderStage idx now cause).1) := by
  rcases enterLadderStage_on s now cause idx with ⟨hdark, hc, -⟩ | ⟨-, -, h⟩
  · obtain rfl := hg hdark
    exact ⟨fun _ => rfl, fun _ hne => absurd rfl hne, fun _ hnone => by simp [hc] at hnone,
      fun _ hnone => by simp [hc] at hnone⟩
  · exact forced_off h

theorem Forced.idle_of_rung {g : Forcing} (h : Forced (g, s))
    (hp : s.phase = .blanking ∨ s.phase = .blanked) (hc : s.currentStage ≠ none) : g = .idle := by
  by_contra hg
  exact hc (h.rung hp hg)

/-- A step that issues nothing dark leaves a forced blank as it is, or answers it. -/
theorem forcing_dull {g : Forcing} {f : Feed} {r : DisplayStateMachine × List Effect}
    (hd : emitsDark r.2 = false) :
    forcing g s f r = g ∨ g ≠ .idle ∧ forcing g s f r = .done := by
  unfold forcing
  split
  · simp [hd]
  · split
    · rename_i hg
      exact .inr ⟨by simp [hg], rfl⟩
    · exact .inl rfl
  · simp [hd]
  · simp [hd]
  · exact .inl rfl

theorem Forced.kept {g g' : Forcing} (h : Forced (g, s)) (hg : g' = g ∨ g ≠ .idle ∧ g' = .done)
    (hp : t.phase = s.phase) (hc : t.currentStage = s.currentStage)
    (hb : t.lastBlankGen = s.lastBlankGen) : Forced (g', t) := by
  have hidle : g = .idle → g' = .idle := by
    rintro rfl
    rcases hg with hg | ⟨hne, -⟩
    · exact hg
    · exact absurd rfl hne
  have hdone : g = .done → g' = .done := by
    rintro rfl
    rcases hg with hg | ⟨-, hg⟩ <;> exact hg
  refine ⟨fun hr => hidle (h.surface ?_), fun hq hne => ?_, fun hq hnone => ?_, fun hq hnone => ?_⟩
  · simpa only [onRender, hp] using hr
  · exact hc.trans (h.rung (hp ▸ hq) fun hi => hne (hidle hi))
  · show g' = .done ∨ ∃ gen, g' = .sent gen ∧ t.lastBlankGen = some gen
    rw [hb]
    rcases h.blanking (hp ▸ hq) (hc ▸ hnone) with hd | ⟨gen, hs, hgen⟩
    · exact .inl (hdone hd)
    · rcases hg with rfl | ⟨-, hg⟩
      · exact .inr ⟨gen, hs, hgen⟩
      · exact .inl hg
  · exact hdone (h.blanked (hp ▸ hq) (hc ▸ hnone))

/-- A force blank issues its command from no rung. -/
theorem forced_blanked {g : Forcing} {r : DisplayStateMachine × List Effect} (now : ℕ)
    (hd : emitsDark r.2 = true) (hp : r.1.phase = .blanking)
    (hgen : r.1.lastBlankGen = some r.1.cmdGen) (hc : r.1.currentStage = none) :
    Forced (forcing g s (.input .forceBlank now) r, r.1) := by
  have hg : forcing g s (.input .forceBlank now) r = .done ∨
      forcing g s (.input .forceBlank now) r = .sent r.1.cmdGen := by
    simp only [forcing, hd, Bool.true_and]
    by_cases hdone : g = .done
    · exact .inl (by simp [hdone])
    · exact .inr (by simp [hdone])
  refine ⟨by simp [onRender, hp], fun _ _ => hc, fun _ _ => ?_, by simp [hp]⟩
  rcases hg with hg | hg
  · exact .inl hg
  · exact .inr ⟨_, hg, hgen⟩

/-- The answer to a forced blank, or to any other. -/
theorem forced_answered {g : Forcing} (h : Forced (g, s)) {gen : UInt64}
    {result : Except CmdFailure Unit} (hp : s.phase = .blanking)
    (hgen : s.lastBlankGen = some gen) (now : ℕ) :
    Forced (forcing g s (.input (.blankResult gen result) now) (s.blankAnswered result now),
      (s.blankAnswered result now).1) := by
  unfold blankAnswered
  cases result with
  | ok u =>
    dsimp only
    split
    · exact forced_off rfl
    · have hphase : (({ s with lastBlank := some now, phase := .blanked }).scheduleStageTick
          now).1.phase = .blanked := by simp
      have hstage : (({ s with lastBlank := some now, phase := .blanked }).scheduleStageTick
          now).1.currentStage = s.currentStage := by simp
      refine ⟨by simp [onRender], fun _ hne => ?_, by simp, fun _ hnone => ?_⟩
      · refine hstage.trans (h.rung (.inl hp) ?_)
        rintro rfl
        exact hne rfl
      · rcases h.blanking hp (hstage ▸ hnone) with rfl | ⟨gen', rfl, hgen'⟩
        · rfl
        · obtain rfl : gen = gen' := Option.some.inj (hgen.symm.trans hgen')
          exact if_pos rfl
  | error failure =>
    dsimp only
    split
    · exact forced_off (by simp [offLadder])
    · exact forced_off (offLadder_enterActive _ now _)

theorem forced_graceTick {g : Forcing} {untilTick now : ℕ} (hp : s.phase = .grace untilTick) :
    Forced (forcing g s (.input .tick now) (s.graceTick untilTick now),
      (s.graceTick untilTick now).1) := by
  have hoff : (s.maybeAutoResume now).1.offLadder = true := by
    unfold maybeAutoResume unfreezeGrace
    repeat' split
    all_goals simp [offLadder, hp]
  have hfreeze : ((s.maybeAutoResume now).1.freezeGrace untilTick now).offLadder = true := by
    unfold freezeGrace
    split <;> exact hoff
  unfold graceTick
  dsimp only
  split_ifs
  · exact forced_off hoff
  · exact forced_off hoff
  · exact forced_off hfreeze
  · exact forced_off hoff
  · exact forced_off hoff
  · exact forced_off hoff
  · refine forced_enterLadderStage _ 0 now _ fun hd => if_pos ?_
    rw [emitsDark_append, hd, Bool.or_true]

theorem PositionOk.of_force (hs : s.PositionOk)
    (h : s.phase = .active ∨ s.inGrace = true ∨ s.phase = .waking) :
    (if s.inGrace = true then { s with graceFrozenRemaining := none } else s).currentStage =
      none := by
  have hc : s.currentStage = none := by
    rcases h with hp | hg | hp
    · exact hs (by simp [offLadder, hp])
    · exact hs (offLadder_of_inGrace hg)
    · exact hs (by simp [offLadder, hp])
  split <;> exact hc

theorem forced_step {g : Forcing} (h : Forced (g, s)) (hs : s.PositionOk)
    (hn : ¬ s.strayStageTick input) (now : ℕ) :
    Forced (forcing g s (.input input now) (s.step input now), (s.step input now).1) := by
  have hm := step_move s input now
  generalize s.step input now = r at hm
  have kept {r : DisplayStateMachine × List Effect} (hd : emitsDark r.2 = false)
      (hp : r.1.phase = s.phase) (hc : r.1.currentStage = s.currentStage)
      (hb : r.1.lastBlankGen = s.lastBlankGen) :
      Forced (forcing g s (.input input now) r, r.1) :=
    h.kept (forcing_dull hd) hp hc hb
  have off {r : DisplayStateMachine × List Effect} (ht : r.1.offLadder = true) :
      Forced (forcing g s (.input input now) r, r.1) := forced_off ht
  have noted : Forced (forcing g s (.input input now) (s.note input, noteEffects input),
      s.note input) :=
    kept (emitsDark_noteEffects input) (note_phase s input) (note_currentStage s input)
      (Idle.note s input).blank
  cases hm with
  | quiet => exact noted
  | ticked hg hw =>
    by_cases hthaw : s.pauseDue now ∧ s.overlays.inhibited = false ∧
        s.graceFrozenRemaining.isSome = true
    · obtain ⟨remaining, -, he⟩ := maybeAutoResume_thaw hthaw.1 hthaw.2.1 hthaw.2.2
      rw [he]
      exact off rfl
    · exact kept (dark_maybeAutoResume s now) (maybeAutoResume_phase hthaw)
        (maybeAutoResume_currentStage s now) (idle_maybeAutoResume s now).2.blank
  | graceTicked untilTick hp => exact forced_graceTick hp
  | vacated hp => exact off (by simp [offLadder])
  | froze untilTick hp =>
    refine off ?_
    unfold freezeGrace
    split <;> simp [offLadder, hp]
  | repaused => exact noted
  | thawed hg =>
    refine off ?_
    unfold unfreezeGrace
    repeat' split
    · exact offLadder_of_inGrace (by simpa using hg)
    · exact offLadder_of_inGrace (by simpa using hg)
    · rfl
  | regained untilTick hp => exact off (by simp [offLadder, hp])
  | activated cause => exact off (offLadder_enterActive _ now cause)
  | forceBlanked source hp => exact forced_blanked now rfl rfl rfl (hs.of_force hp)
  | softBlanked => exact forced_enterLadderStage _ 0 now _ fun hd => if_pos hd
  | deferred => exact kept rfl (by simp) (by simp) (Idle.note s input).blank
  | @blankAnswered gen result hp hgen => exact forced_answered h hp hgen now
  | woken => exact off rfl
  | rewoken => exact off rfl
  | retried => exact off rfl
  | awoken => exact off (offLadder_enterActive _ now _)
  | torn cause => exact off (offLadder_enterActive _ now cause)
  | tornAwake => exact off rfl
  | renderForceBlanked source hr => exact forced_blanked now rfl rfl rfl rfl
  | renderSoftBlanked source hr =>
    exact forced_enterLadderStage _ 0 now _ fun hd => if_pos hd
  | @rendered gen u idx hp =>
    obtain rfl : g = .idle := h.surface (by simp [onRender, hp])
    exact ⟨fun _ => rfl, by simp, by simp, by simp⟩
  | renderFailed idx hp =>
    obtain rfl : g = .idle := h.surface (by simp [onRender, hp])
    unfold advanceToNextController
    split
    · exact forced_enterLadderStage s _ now _ fun _ => rfl
    · exact off (offLadder_enterActive s now _)
  | advanced hp hf hi ho =>
    have hg : g = .idle := by
      rcases hp with hp | ⟨idx, gen, hp⟩
      · exact h.idle_of_rung (.inr hp) fun hc => hn ⟨hp, hc, rfl, hf, hi, ho⟩
      · exact h.surface (by simp [onRender, hp])
    unfold advanceStage
    split
    · exact off (offLadder_enterActive s now _)
    · exact forced_enterLadderStage s _ now _ fun _ => hg
  | captured =>
    exact kept (emitsDark_noteEffects input) (note_phase s input) (note_currentStage s input)
      (Idle.note s input).blank
  | rearmed =>
    obtain ⟨gen, deadline, he⟩ := (s.note input).rearmStageTick_frame now
    refine kept (dark_rearmStageTick _ now) ?_ ?_ ?_
    · rw [he]
      exact note_phase s input
    · rw [he]
      exact note_currentStage s input
    · rw [he]
      exact (Idle.note s input).blank

/-! ## Runs -/

theorem unmoved_of_forced {g : Forcing} (h : Forced (g, s)) {f : Feed}
    (hn : ∀ input now, f = .input input now → ¬ s.strayStageTick input) : unmoved (g, s) f := by
  cases f with
  | hold active => exact fun _ => ⟨rfl, fun _ _ _ => rfl⟩
  | input input now =>
    intro hdone
    have hg : g ≠ .idle := by
      rintro rfl
      have hidle : forcing .idle s (.input input now) (s.step input now) = .done := hdone
      unfold forcing at hidle
      split at hidle <;> try split at hidle
      all_goals simp_all
    have hr : s.onRender = false := by
      by_contra hr
      exact hg (h.surface (by simpa using hr))
    refine ⟨stageTicks_step (fun hp => h.rung (.inl hp) hg) hr input now, ?_⟩
    rintro gen now' ⟨⟩
    show (s.step (.stageTick gen) now).2 = []
    have hm := step_move s (.stageTick gen) now
    generalize s.step (.stageTick gen) now = r at hm
    cases hm with
    | quiet => rfl
    | froze untilTick hp hinput => simp at hinput
    | thawed hg hinput => simp at hinput
    | activated cause h => simp [wakeRequest] at h
    | deferred hp hinput => simp [wakeRequest] at hinput
    | woken source cause h => simp [wakeRequest] at h
    | rewoken pre hp hinput => simp at hinput
    | torn cause hp hinput => simp [wakeRequest] at hinput
    | captured hp hinput => simp at hinput
    | rearmed hp hinput => simp at hinput
    | advanced hp hf hi ho =>
      rcases hp with hp | ⟨idx, gen, hp⟩
      · exact absurd ⟨hp, h.rung (.inr hp) hg, rfl, hf, hi, ho⟩ (hn _ _ rfl)
      · simp [onRender, hp] at hr

theorem not_unmoved_of_stray {g : Forcing} (h : Forced (g, s)) (now : ℕ)
    (hstray : s.strayStageTick input) : ¬ unmoved (g, s) (.input input now) := by
  obtain ⟨hp, hc, rfl, hf, hi, ho⟩ := hstray
  intro hu
  have hstep : s.step (.stageTick s.stageGen) now = s.advanceStage now "stage_tick" := by
    simp [step, hp, stepBlanked, stageTicked, stageAdvanceFrozen, hf, hi, ho]
  have hnil := (hu (h.blanked hp hc)).2 s.stageGen now rfl
  rw [show (positions.next (g, s) (.input (.stageTick s.stageGen) now)).2 =
    (s.step (.stageTick s.stageGen) now).2 from rfl, hstep] at hnil
  unfold advanceStage enterLadderStage enterActive at hnil
  dsimp only at hnil
  repeat' split at hnil
  all_goals simp at hnil

/-- The step takes a rung off the ladder, or a stale stage tick moves a forced blank. -/
def misplaces (s : DisplayStateMachine) : Feed → Prop
  | .input input now => s.carriesRung input now ∨ s.strayStageTick input
  | .hold _ => False

theorem positionOk_next_iff (s : DisplayStateMachine) (f : Feed) (hs : s.PositionOk) :
    (machine.next s f).1.PositionOk ↔
      ∀ input now, f = .input input now → ¬ s.carriesRung input now := by
  cases f with
  | hold active => exact iff_of_true hs fun _ _ h => by cases h
  | input input now =>
    rw [machine_input, positionOk_step_iff hs now]
    constructor
    · rintro h _ _ ⟨⟩
      exact h
    · exact fun h => h input now rfl

theorem forced_next {g : Forcing} (h : Forced (g, s)) (hs : s.PositionOk) {f : Feed}
    (hn : ∀ input now, f = .input input now → ¬ s.strayStageTick input) :
    Forced (positions.next (g, s) f).1 := by
  cases f with
  | hold active => exact ⟨h.surface, h.rung, h.blanking, h.blanked⟩
  | input input now => exact forced_step h hs (hn input now rfl) now

theorem forced_new (timings : SmTimings) (ladder : List LadderStage) (start : ℕ) :
    Forced (.idle, new timings ladder start) :=
  forced_off rfl

/-- The ladder position is live only inside the ladder, and a forced blank is left alone by
stage ticks, exactly in the runs none of whose steps misplaces the machine. -/
theorem ladder_position_iff (timings : SmTimings) (ladder : List LadderStage) (start : ℕ)
    (feeds : List Feed) :
    positions.Throughout (fun x => x.2.PositionOk) (.idle, new timings ladder start) feeds ∧
        positions.Steps unmoved (.idle, new timings ladder start) feeds ↔
      positions.Steps (fun x f => ¬ misplaces x.2 f) (.idle, new timings ladder start) feeds := by
  have hiff := Runs.System.throughout_iff_steps (M := positions) (P := fun x => x.2.PositionOk)
    (fun _ => True) (fun _ _ => True) (fun _ _ _ _ => trivial)
    (fun x f _ _ hx => positionOk_next_iff x.2 f hx)
    (.of_forall (fun _ _ => trivial) (.idle, new timings ladder start) feeds) trivial
    (positionOk_of_none rfl)
  have h0 := And.intro (forced_new timings ladder start)
    (positionOk_of_none (s := new timings ladder start) rfl)
  rw [hiff]
  constructor
  · rintro ⟨hcarry, hun⟩
    refine (hcarry.and hun).derive (fun x => Forced x ∧ x.2.PositionOk) ?_ ?_ h0
    · rintro ⟨g, s⟩ f ⟨hf, hs⟩ ⟨hc, hu⟩
      refine ⟨forced_next hf hs ?_, (positionOk_next_iff s f hs).mpr hc⟩
      rintro input now rfl hstray
      exact not_unmoved_of_stray hf now hstray hu
    · rintro ⟨g, s⟩ f ⟨hf, hs⟩ ⟨hc, hu⟩ hmis
      cases f with
      | hold active => exact hmis
      | input input now =>
        rcases hmis with hcarries | hstray
        · exact hc input now rfl hcarries
        · exact not_unmoved_of_stray hf now hstray hu
  · intro h
    refine ⟨h.mono ?_, h.derive (fun x => Forced x ∧ x.2.PositionOk) ?_ ?_ h0⟩
    · rintro ⟨g, s⟩ f hn input now rfl hc
      exact hn (.inl hc)
    · rintro ⟨g, s⟩ f ⟨hf, hs⟩ hn
      refine ⟨forced_next hf hs ?_, (positionOk_next_iff s f hs).mpr ?_⟩
      · rintro input now rfl hstray
        exact hn (.inr hstray)
      · rintro input now rfl hc
        exact hn (.inl hc)
    · rintro ⟨g, s⟩ f ⟨hf, hs⟩ hn
      refine unmoved_of_forced hf ?_
      rintro input now rfl hstray
      exact hn (.inr hstray)

/-- Presence wakes a display off its first rung, the rung stays recorded in Waking, and the
forced blank after it schedules that rung's stage tick. -/
theorem ladder_position_kept :
    let x₀ := (Forcing.idle, new { gracePeriod := 60, minBlankTime := 0, minWakeTime := 0,
                                   startupHoldoff := 0, wakeRetryInterval := 5 }
      [⟨.controller .brightnessZero, some 10⟩, ⟨.controller .powerOff, none⟩] 0)
    let woken : List Feed := [.input .softBlank 1, .input (.blankResult 1 (.ok ())) 2,
      .input (.zonePresent true) 3]
    let forced := positions.run x₀ (woken ++ [.input .forceBlank 4])
    let answer : Feed := .input (.blankResult 3 (.ok ())) 5
    ¬ positions.Throughout (fun x => x.2.PositionOk) x₀ woken ∧
      (positions.run x₀ woken).2.phase = .waking ∧
      (positions.run x₀ woken).2.currentStage = some 0 ∧
      (positions.next forced answer).1.1 = .done ∧
      stageTicks (positions.next forced answer).2 = [(3, 15)] := by
  decide

end DisplayStateMachine
end Dormant
