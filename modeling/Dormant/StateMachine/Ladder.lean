import Dormant.StateMachine.Facts

/-!
# The rungs of the ladder

Which rung a machine stands on. Every stage index it keeps is one of the ladder, and a
render phase agrees with `current_stage`.
-/

namespace Dormant
set_option autoImplicit false

namespace DisplayStateMachine
variable {s : DisplayStateMachine} (now : ℕ) (cause : String)

/-! ## Searching for a controller -/

section Search
variable (s)

theorem nextController_eq_some {start idx : ℕ} (h : s.nextController start = some idx) :
    start ≤ idx ∧ ∃ stage, s.ladder[idx]? = some stage ∧ stage.kind.isRender = false := by
  have hmem := List.mem_of_find?_eq_some h
  have hp := List.find?_some h
  rw [List.mem_range'_1] at hmem
  cases hs : s.ladder[idx]? with
  | none => simp [hs] at hp
  | some stage => exact ⟨hmem.1, stage, rfl, by simpa [hs] using hp⟩

theorem nextController_isSome_iff (start : ℕ) : (s.nextController start).isSome = true ↔
    ∃ idx stage, start ≤ idx ∧ s.ladder[idx]? = some stage ∧ stage.kind.isRender = false := by
  constructor
  · intro h
    obtain ⟨idx, hidx⟩ := Option.isSome_iff_exists.mp h
    obtain ⟨hle, stage, hs⟩ := nextController_eq_some s hidx
    exact ⟨idx, stage, hle, hs⟩
  · rintro ⟨idx, stage, hle, hs, hkind⟩
    have hlt := (List.getElem?_eq_some_iff.mp hs).1
    refine List.find?_isSome.mpr ⟨idx, ?_, by simp [hs, hkind]⟩
    rw [List.mem_range'_1]
    omega

end Search

/-! ## The stage index -/

/-- The stage index is in the ladder, and the render phases carry it too. -/
structure StageOk (s : DisplayStateMachine) : Prop where
  bound : ∀ idx, s.currentStage = some idx → idx < s.ladder.length
  render : ∀ idx gen, s.phase = .renderPending idx gen ∨ s.phase = .staged idx gen →
    s.currentStage = some idx

theorem stageOk_new (timings : SmTimings) (ladder : List LadderStage) (start : ℕ) :
    StageOk (new timings ladder start) :=
  ⟨nofun, by rintro idx gen (h | h) <;> simp [new] at h⟩

theorem exists_render (h : s.onRender = true) :
    ∃ idx gen, s.phase = .renderPending idx gen ∨ s.phase = .staged idx gen := by
  cases hp : s.phase <;> simp [onRender, hp] at h ⊢

/-- A surface stands on a rung, so the ladder has one. -/
theorem StageOk.ladder_ne_nil (hs : s.StageOk) (h : s.onRender = true) : s.ladder ≠ [] := by
  obtain ⟨idx, gen, hp⟩ := exists_render h
  have hlt := hs.bound idx (hs.render idx gen hp)
  rintro hnil
  simp [hnil] at hlt

/-- Off the render phases, only the bound matters. -/
theorem stageOk_off {t : DisplayStateMachine} (ht : t.onRender = false)
    (hb : ∀ idx, t.currentStage = some idx → idx < t.ladder.length) : t.StageOk where
  bound := hb
  render idx gen hp := by rcases hp with hp | hp <;> simp [onRender, hp] at ht

theorem stageOk_enterGrace (hs : s.StageOk) : (s.enterGrace now cause).1.StageOk := by
  unfold enterGrace
  dsimp only
  split <;> exact stageOk_off rfl hs.bound

theorem stageOk_enterActive (s : DisplayStateMachine) : (s.enterActive now cause).1.StageOk := by
  unfold enterActive
  dsimp only
  split
  · exact stageOk_enterGrace _ _ (stageOk_off rfl nofun)
  · exact stageOk_off rfl nofun

theorem stageOk_enterLadderStage (s : DisplayStateMachine) (idx : ℕ) :
    (s.enterLadderStage idx now cause).1.StageOk := by
  unfold enterLadderStage
  split
  · exact stageOk_enterActive now cause s
  · rename_i stage h
    have hlt := (List.getElem?_eq_some_iff.mp h).1
    dsimp only
    split
    · exact stageOk_off rfl fun i hi => Option.some.inj hi ▸ hlt
    · refine ⟨fun i hi => Option.some.inj hi ▸ hlt, ?_⟩
      rintro i gen (hp | hp)
      · exact congrArg some (Phase.renderPending.inj hp).1
      · exact Phase.noConfusion hp

theorem stageOk_advanceStage (s : DisplayStateMachine) : (s.advanceStage now cause).1.StageOk := by
  unfold advanceStage
  split
  · exact stageOk_enterActive now cause s
  · exact stageOk_enterLadderStage now cause s _

theorem stageOk_advanceToNextController (s : DisplayStateMachine) :
    (s.advanceToNextController now cause).1.StageOk := by
  unfold advanceToNextController
  split
  · exact stageOk_enterLadderStage now cause s _
  · exact stageOk_enterActive now cause s

theorem stageOk_note (hs : s.StageOk) (input : Input) : (s.note input).StageOk := by
  obtain ⟨overlays, zone, owns, h⟩ := s.note_frame input
  rw [h]
  exact ⟨hs.bound, hs.render⟩

theorem stageOk_unfreezeGrace (hs : s.StageOk) : (s.unfreezeGrace now).1.StageOk := by
  unfold unfreezeGrace
  repeat' split
  · exact hs
  · exact hs
  · exact stageOk_off rfl hs.bound

theorem stageOk_maybeAutoResume (hs : s.StageOk) : (s.maybeAutoResume now).1.StageOk := by
  by_cases hd : s.pauseDue now
  · rw [maybeAutoResume_due s now hd]
    exact stageOk_unfreezeGrace now ⟨hs.bound, hs.render⟩
  · rwa [maybeAutoResume_not_due s now hd]

theorem stageOk_freezeGrace (hs : s.StageOk) (untilTick : ℕ) :
    (s.freezeGrace untilTick now).StageOk := by
  unfold freezeGrace
  split
  · exact ⟨hs.bound, hs.render⟩
  · exact hs

theorem stageOk_graceTick (hs : s.StageOk) (untilTick : ℕ) :
    (s.graceTick untilTick now).1.StageOk := by
  have ha := stageOk_maybeAutoResume now hs
  unfold graceTick
  dsimp only
  split_ifs
  · exact ha
  · exact ha
  · exact stageOk_freezeGrace now ha untilTick
  · exact ha
  · exact ha
  · exact ha
  · exact stageOk_enterLadderStage now _ _ 0

theorem stageOk_blankAnswered (hs : s.StageOk) (result : Except CmdFailure Unit) :
    (s.blankAnswered result now).1.StageOk := by
  unfold blankAnswered
  cases result with
  | ok u =>
    dsimp only
    split
    · exact stageOk_off rfl hs.bound
    · obtain ⟨gen, deadline, h⟩ :=
        ({ s with lastBlank := some now, phase := .blanked }).scheduleStageTick_frame now
      rw [h]
      exact stageOk_off rfl hs.bound
  | error failure =>
    dsimp only
    split
    · exact stageOk_enterGrace now _ ⟨hs.bound, hs.render⟩
    · exact stageOk_enterActive now _ _

theorem stageOk_step (hs : s.StageOk) (input : Input) : (s.step input now).1.StageOk := by
  have hm := step_move s input now
  generalize s.step input now = r at hm
  have hnote := stageOk_note hs input
  cases hm with
  | quiet => exact hnote
  | ticked => exact stageOk_maybeAutoResume now hs
  | graceTicked untilTick => exact stageOk_graceTick now hs untilTick
  | vacated => exact stageOk_enterGrace now _ ⟨hs.bound, hs.render⟩
  | froze untilTick => exact stageOk_freezeGrace now hnote untilTick
  | repaused => exact hnote
  | thawed => exact stageOk_unfreezeGrace now hnote
  | regained => exact ⟨hs.bound, hs.render⟩
  | activated cause => exact stageOk_enterActive now cause _
  | forceBlanked => split <;> exact stageOk_off rfl hs.bound
  | softBlanked => exact stageOk_enterLadderStage now _ _ 0
  | deferred h => exact ⟨hnote.bound, hnote.render⟩
  | blankAnswered result => exact stageOk_blankAnswered now hs result
  | woken => exact stageOk_off rfl hnote.bound
  | rewoken => exact stageOk_off rfl hs.bound
  | retried => exact stageOk_off rfl (stageOk_maybeAutoResume now hs).bound
  | awoken => exact stageOk_enterActive now _ _
  | torn cause => exact stageOk_enterActive now cause _
  | tornAwake => exact stageOk_off rfl (stageOk_enterActive now _ _).bound
  | renderForceBlanked => exact stageOk_off rfl nofun
  | renderSoftBlanked => exact stageOk_enterLadderStage now _ _ 0
  | @rendered gen u idx h =>
    obtain ⟨stageGen, deadline, he⟩ :=
      ({ s with phase := .staged idx gen }).scheduleStageTick_frame now
    rw [he]
    refine ⟨hs.bound, ?_⟩
    rintro i g (hp | hp)
    · exact Phase.noConfusion hp
    · exact (Phase.staged.inj hp).1 ▸ hs.render idx gen (.inl h)
  | renderFailed => exact stageOk_advanceToNextController now _ s
  | advanced => exact stageOk_advanceStage now _ s
  | captured => exact ⟨hnote.bound, hnote.render⟩
  | rearmed =>
    obtain ⟨gen, deadline, he⟩ := (s.note input).rearmStageTick_frame now
    rw [he]
    exact ⟨hnote.bound, hnote.render⟩

end DisplayStateMachine
end Dormant
