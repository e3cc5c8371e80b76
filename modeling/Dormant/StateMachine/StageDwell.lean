import Dormant.StateMachine.Ladder

/-!
# Resting on a rung

A machine rests on a rung in Blanked and in Staged. `RestMove` lists the steps after which it
does: the two that come to rest, those that leave the dwell as it is, the capture of what is
left of it, and its re-arming. `step_rest` says there is no other.
-/

namespace Dormant
set_option autoImplicit false

namespace DisplayStateMachine
variable {s : DisplayStateMachine} {now : ℕ}

def atRest (s : DisplayStateMachine) : Bool :=
  match s.phase with
  | .blanked | .staged _ _ => true
  | _ => false

def onStage (s : DisplayStateMachine) : Bool :=
  match s.phase with
  | .staged _ _ => true
  | _ => false

theorem atRest_of_onStage (h : s.onStage = true) : s.atRest = true := by
  cases hp : s.phase <;> simp [onStage, atRest, hp] at h ⊢

/-- The steps after which the machine rests on a rung, and those after which it does not. -/
inductive RestMove (s : DisplayStateMachine) (now : ℕ) :
    Input → DisplayStateMachine × List Effect → Prop
  | off {input : Input} {r : DisplayStateMachine × List Effect} (h : r.1.atRest = false) :
      RestMove s now input r
  | quiet {input : Input} (hrest : s.atRest = true) (h : s.quiet input) :
      RestMove s now input (s.note input, noteEffects input)
  | ticked {r : DisplayStateMachine × List Effect} (hrest : s.atRest = true)
      (h : r = (s, []) ∨ s.pauseDue now ∧ r = (s.clearPause, [])) : RestMove s now .tick r
  | blanked {gen : UInt64} {u : Unit} (h : s.phase = .blanking) (hgen : s.lastBlankGen = some gen)
      (hwake : s.pendingWake = false) :
      RestMove s now (.blankResult gen (.ok u))
        (({ s with lastBlank := some now, phase := .blanked }.scheduleStageTick now).1,
          .logTransition "blanking" "blanked" "blank_succeeded" ::
            ({ s with lastBlank := some now, phase := .blanked }.scheduleStageTick now).2)
  | rendered {gen : UInt64} {u : Unit} (idx : ℕ) (h : s.phase = .renderPending idx gen) :
      RestMove s now (.renderResult gen (.ok u))
        (({ s with phase := .staged idx gen }.scheduleStageTick now).1,
          .logTransition "render_pending" "staged" "render_succeeded" ::
            ({ s with phase := .staged idx gen }.scheduleStageTick now).2)
  | captured {input : Input} (h : s.onStage = true)
      (hinput : input = .inhibitorChanged true ∨
        (∃ u, input = .pause u) ∧ s.overlays.paused = none) :
      RestMove s now input ((s.note input).captureDwell now, noteEffects input)
  | rearmed {input : Input} (h : s.onStage = true)
      (hinput : input = .inhibitorChanged false ∨
        input = .resume ∧ s.overlays.inhibited = false) :
      RestMove s now input ((s.note input).rearmStageTick now)

/-! ## Helpers that leave the rung -/

theorem atRest_enterActive (s : DisplayStateMachine) (now : ℕ) (cause : String) :
    (s.enterActive now cause).1.atRest = false := by
  rcases enterActive_phase s now cause with h | h <;> simp [atRest, h]

theorem atRest_enterLadderStage (s : DisplayStateMachine) (idx now : ℕ) (cause : String) :
    (s.enterLadderStage idx now cause).1.atRest = false := by
  unfold enterLadderStage
  split
  · exact atRest_enterActive s now cause
  · dsimp only
    split <;> rfl

theorem atRest_advanceStage (s : DisplayStateMachine) (now : ℕ) (cause : String) :
    (s.advanceStage now cause).1.atRest = false := by
  unfold advanceStage
  split
  · exact atRest_enterActive s now cause
  · exact atRest_enterLadderStage s _ now cause

theorem atRest_advanceToNextController (s : DisplayStateMachine) (now : ℕ) (cause : String) :
    (s.advanceToNextController now cause).1.atRest = false := by
  unfold advanceToNextController
  split
  · exact atRest_enterLadderStage s _ now cause
  · exact atRest_enterActive s now cause

/-- Auto-resume leaves the rung only through a countdown that thaws. -/
theorem rest_maybeAutoResume (s : DisplayStateMachine) (now : ℕ) :
    RestMove s now .tick (s.maybeAutoResume now) := by
  have stay {r : DisplayStateMachine × List Effect} (hr : r.1.atRest = s.atRest)
      (h : r = (s, []) ∨ s.pauseDue now ∧ r = (s.clearPause, [])) : RestMove s now .tick r := by
    cases hs : s.atRest with
    | true => exact .ticked hs h
    | false => exact .off (hr.trans hs)
  by_cases hd : s.pauseDue now
  · rw [maybeAutoResume_due s now hd]
    unfold unfreezeGrace
    repeat' split
    · exact stay rfl (.inr ⟨hd, rfl⟩)
    · exact stay rfl (.inr ⟨hd, rfl⟩)
    · exact .off rfl
  · rw [maybeAutoResume_not_due s now hd]
    exact stay rfl (.inl rfl)

theorem atRest_graceTick (hg : s.inGrace = true) (untilTick now : ℕ) :
    (s.graceTick untilTick now).1.atRest = false := by
  have hs : s.atRest = false := by cases hp : s.phase <;> simp [inGrace, atRest, hp] at hg ⊢
  have ha : (s.maybeAutoResume now).1.atRest = false := by
    unfold maybeAutoResume unfreezeGrace
    repeat' split
    all_goals first | exact hs | rfl
  unfold graceTick
  dsimp only
  split_ifs
  · exact ha
  · exact ha
  · unfold freezeGrace
    split <;> exact ha
  · exact ha
  · exact ha
  · exact ha
  · exact atRest_enterLadderStage _ 0 now _

theorem step_rest (s : DisplayStateMachine) (input : Input) (now : ℕ) :
    RestMove s now input (s.step input now) := by
  have hm := step_move s input now
  generalize s.step input now = r at hm
  have off {t : DisplayStateMachine} (ht : t.inGrace = true) : t.atRest = false := by
    cases hp : t.phase <;> simp [inGrace, atRest, hp] at ht ⊢
  cases hm with
  | quiet h =>
    cases hs : s.atRest with
    | true => exact .quiet hs h
    | false => exact .off (by simpa [atRest] using hs)
  | ticked => exact rest_maybeAutoResume s now
  | graceTicked untilTick h => exact .off (atRest_graceTick (by simp [inGrace, h]) untilTick now)
  | vacated => exact .off (by simp [atRest])
  | froze untilTick h =>
    refine .off (off ?_)
    unfold freezeGrace
    split <;> simp [inGrace, h]
  | repaused h => exact .off (off (by simpa using h))
  | thawed h =>
    refine .off (off ?_)
    unfold unfreezeGrace
    repeat' split
    · simpa using h
    · simpa using h
    · rfl
  | regained untilTick h => exact .off (off (by simp [inGrace, h]))
  | activated cause => exact .off (atRest_enterActive _ now cause)
  | forceBlanked => exact .off rfl
  | softBlanked => exact .off (atRest_enterLadderStage _ 0 now _)
  | deferred h => exact .off (by simp [atRest, h])
  | @blankAnswered gen result h hgen =>
    cases result with
    | ok u =>
      unfold blankAnswered
      dsimp only
      split
      · exact .off rfl
      · rename_i hw
        exact .blanked h hgen (by simpa using hw)
    | error failure =>
      unfold blankAnswered
      dsimp only
      split
      · exact .off (by simp [atRest])
      · exact .off (atRest_enterActive _ now _)
  | woken => exact .off rfl
  | rewoken => exact .off rfl
  | retried => exact .off rfl
  | awoken => exact .off (atRest_enterActive _ now _)
  | torn cause => exact .off (atRest_enterActive _ now cause)
  | tornAwake => exact .off rfl
  | renderForceBlanked => exact .off rfl
  | renderSoftBlanked => exact .off (atRest_enterLadderStage _ 0 now _)
  | rendered idx h => exact .rendered idx h
  | renderFailed => exact .off (atRest_advanceToNextController s now _)
  | advanced => exact .off (atRest_advanceStage s now _)
  | captured h hinput => exact .captured (by simp [onStage, h]) hinput
  | rearmed h hinput => exact .rearmed (by simp [onStage, h]) hinput

/-! ## Arming the stage tick -/

theorem exists_stage {dwell : ℕ} (h : s.currentDwell = some dwell) :
    ∃ idx, s.currentStage = some idx := by
  cases hs : s.currentStage with
  | none => simp [currentDwell, hs] at h
  | some idx => exact ⟨idx, rfl⟩

theorem scheduleStageTick_dwell {dwell : ℕ} (h : s.currentDwell = some dwell) (now : ℕ) :
    s.scheduleStageTick now =
      ({ s with stageGen := s.stageGen + 1, scheduledStageDeadline := some (now + dwell) },
        [.scheduleStageTickAt (s.stageGen + 1) (now + dwell)]) := by
  obtain ⟨idx, hs⟩ := exists_stage h
  simp only [scheduleStageTick, hs, h]

theorem rearmStageTick_dwell {dwell : ℕ} (h : s.currentDwell = some dwell) (now : ℕ) :
    s.rearmStageTick now =
      ({ s with
          stageDwellFrozenRemaining := none
          stageGen := s.stageGen + 1
          scheduledStageDeadline :=
            some (now + min (s.stageDwellFrozenRemaining.getD 0) dwell) },
        [.scheduleStageTickAt (s.stageGen + 1)
          (now + min (s.stageDwellFrozenRemaining.getD 0) dwell)]) := by
  obtain ⟨idx, hs⟩ := exists_stage h
  have hd : ({ s with stageDwellFrozenRemaining := none } : DisplayStateMachine).currentDwell =
      some dwell := h
  unfold rearmStageTick
  dsimp only
  split
  · rename_i hn
    exact nomatch hn.symm.trans hs
  · split
    · rename_i hn
      exact nomatch hn.symm.trans hd
    · rename_i hd'
      obtain rfl := Option.some.inj (hd'.symm.trans hd)
      rfl

theorem mem_stageTicks {effects : List Effect} {gen : UInt64} {tick : ℕ} :
    (gen, tick) ∈ stageTicks effects ↔ .scheduleStageTickAt gen tick ∈ effects := by
  simp only [stageTicks, List.mem_filterMap]
  constructor
  · rintro ⟨e, he, ht⟩
    cases e <;> simp_all [Effect.stageTick?]
  · exact fun h => ⟨_, h, rfl⟩

@[simp] theorem note_onStage (s : DisplayStateMachine) (input : Input) :
    (s.note input).onStage = s.onStage := by
  simp [onStage]

@[simp] theorem note_currentStage (s : DisplayStateMachine) (input : Input) :
    (s.note input).currentStage = s.currentStage := by
  cases input <;> rfl

@[simp] theorem note_stageGen (s : DisplayStateMachine) (input : Input) :
    (s.note input).stageGen = s.stageGen := by
  cases input <;> rfl

@[simp] theorem note_ladder (s : DisplayStateMachine) (input : Input) :
    (s.note input).ladder = s.ladder := by
  cases input <;> rfl

@[simp] theorem note_stageDwellFrozenRemaining (s : DisplayStateMachine) (input : Input) :
    (s.note input).stageDwellFrozenRemaining = s.stageDwellFrozenRemaining := by
  cases input <;> rfl

@[simp] theorem note_scheduledStageDeadline (s : DisplayStateMachine) (input : Input) :
    (s.note input).scheduledStageDeadline = s.scheduledStageDeadline := by
  cases input <;> rfl

@[simp] theorem note_currentDwell (s : DisplayStateMachine) (input : Input) :
    (s.note input).currentDwell = s.currentDwell := by
  simp [currentDwell]

/-- In Staged an input that is only recorded leaves the display as held as it was. -/
theorem quiet_staged_held {input : Input} (hs : s.onStage = true) (h : s.quiet input) :
    (s.note input).held = s.held ∧ (s.note input).overlays.inhibited = s.overlays.inhibited := by
  cases hp : s.phase <;> simp only [onStage, hp, Bool.false_eq_true] at hs
  simp only [quiet, hp] at h
  cases input <;> simp_all [quietStaged, note, held, seeZone, recordPause, clearPause]

end DisplayStateMachine
end Dormant
