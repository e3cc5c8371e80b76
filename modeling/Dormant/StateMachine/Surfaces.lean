import Dormant.StateMachine.DarkPanel
import Dormant.StateMachine.Suppression

/-!
# Render surfaces and the phases that show them

A surface is up from a `ShowRender` to the next `TeardownRender`. `surfaces` runs a machine
beside that flag. The two agree with the render phases along a run, until a step leaves a
render phase without a teardown: the last rung dwells out, or a stray countdown thaws.
-/

namespace Dormant
set_option autoImplicit false

def Effect.isBlank : Effect → Bool
  | .issueBlank _ _ => true
  | _ => false

def Effect.isTeardown : Effect → Bool
  | .teardownRender _ => true
  | _ => false

/-- What an effect does to the overlay: map it, or take it down. -/
def Effect.surface? : Effect → Option Bool
  | .showRender _ _ _ => some true
  | .teardownRender _ => some false
  | _ => none

def surfaceMoves (effects : List Effect) : List Bool := effects.filterMap Effect.surface?

/-- The surface after the effects, taken in emission order. -/
def surfaceAfter (up : Bool) (effects : List Effect) : Bool :=
  (surfaceMoves effects).foldl (fun _ shown => shown) up

/-- No teardown comes after a blank command of the same list. -/
def TeardownFirst (effects : List Effect) : Prop :=
  effects.Pairwise fun e f => e.isBlank = true → f.isTeardown = false

instance (effects : List Effect) : Decidable (TeardownFirst effects) :=
  inferInstanceAs (Decidable (effects.Pairwise _))

theorem surfaceMoves_cons {e : Effect} (he : e.surface? = none) (effects : List Effect) :
    surfaceMoves (e :: effects) = surfaceMoves effects :=
  List.filterMap_cons_none he

@[simp] theorem surfaceMoves_append (a b : List Effect) :
    surfaceMoves (a ++ b) = surfaceMoves a ++ surfaceMoves b :=
  List.filterMap_append

theorem Clerical.surfaceMoves_eq {effects : List Effect} (h : Clerical effects) :
    surfaceMoves effects = [] :=
  h.filterMap_nil fun e he => by cases e <;> simp [Effect.clerical, Effect.surface?] at he ⊢

theorem surfaceAfter_of_nil {effects : List Effect} (h : surfaceMoves effects = []) (up : Bool) :
    surfaceAfter up effects = up := by
  rw [surfaceAfter, h]
  rfl

theorem Clerical.surfaceAfter_eq {effects : List Effect} (h : Clerical effects) (up : Bool) :
    surfaceAfter up effects = up :=
  surfaceAfter_of_nil h.surfaceMoves_eq up

theorem surfaceAfter_append (up : Bool) (a b : List Effect) :
    surfaceAfter up (a ++ b) = surfaceAfter (surfaceAfter up a) b := by
  rw [surfaceAfter, surfaceMoves_append, List.foldl_append]
  rfl

theorem surfaceAfter_cons {e : Effect} (he : e.surface? = none) (up : Bool)
    (effects : List Effect) : surfaceAfter up (e :: effects) = surfaceAfter up effects := by
  rw [surfaceAfter, surfaceMoves_cons he]
  rfl

@[simp] theorem surfaceAfter_teardown (up : Bool) (gen : UInt64) (effects : List Effect) :
    surfaceAfter up (.teardownRender gen :: effects) = surfaceAfter false effects := rfl

theorem isBlank_of_dark {effects : List Effect} (h : emitsDark effects = false) :
    ∀ e ∈ effects, e.isBlank = false := by
  intro e he
  have hd := List.any_eq_false.mp h e he
  cases e <;> simp_all [Effect.darkens, Effect.isBlank]

/-- A list without a blank command has nothing to order. -/
theorem teardownFirst_of_dark {effects : List Effect} (h : emitsDark effects = false) :
    TeardownFirst effects := by
  refine List.pairwise_of_forall_mem_list fun e he f _ hb => ?_
  rw [isBlank_of_dark h e he] at hb
  exact absurd hb Bool.false_ne_true

theorem teardownFirst_cons {e : Effect} (he : e.isBlank = false) {effects : List Effect}
    (h : TeardownFirst effects) : TeardownFirst (e :: effects) := by
  refine List.pairwise_cons.mpr ⟨fun f _ hb => ?_, h⟩
  rw [he] at hb
  exact absurd hb Bool.false_ne_true

theorem teardownFirst_append {a b : List Effect} (ha : emitsDark a = false)
    (h : TeardownFirst b) : TeardownFirst (a ++ b) := by
  induction a with
  | nil => exact h
  | cons e a ih =>
    rw [emitsDark_cons, Bool.or_eq_false_iff] at ha
    refine teardownFirst_cons ?_ (ih ha.2)
    cases e <;> simp_all [Effect.darkens, Effect.isBlank]

namespace DisplayStateMachine
variable {s : DisplayStateMachine} {input : Input}

/-! ## What the helpers do to the surface -/

section Helpers
variable (s : DisplayStateMachine) (now : ℕ) (cause : String)

@[simp] theorem surfaceMoves_scheduleStageTick :
    surfaceMoves (s.scheduleStageTick now).2 = [] := by
  unfold scheduleStageTick
  split
  · rfl
  · split <;> rfl

@[simp] theorem surfaceMoves_rearmStageTick : surfaceMoves (s.rearmStageTick now).2 = [] := by
  unfold rearmStageTick
  dsimp only
  split
  · rfl
  · split <;> rfl

theorem surfaceMoves_issueWake {pre : List Effect} (hpre : surfaceMoves pre = []) :
    surfaceMoves (s.issueWake pre now).2 = [] := by
  rw [issueWake, surfaceMoves_append, hpre]
  rfl

@[simp] theorem surfaceMoves_blankAnswered (result : Except CmdFailure Unit) :
    surfaceMoves (s.blankAnswered result now).2 = [] := by
  unfold blankAnswered
  cases result with
  | ok u =>
    dsimp only
    split
    · exact surfaceMoves_issueWake _ now rfl
    · exact (surfaceMoves_cons rfl _).trans (surfaceMoves_scheduleStageTick _ now)
  | error failure =>
    dsimp only
    split
    · exact (clerical_enterGrace _ now _).surfaceMoves_eq
    · exact (clerical_enterActive _ now _).surfaceMoves_eq

theorem onRender_of_takenOn (h : s.takenOn = true) : s.onRender = false := by
  cases hp : s.phase <;> simp [takenOn, onRender, hp] at h ⊢

theorem onRender_blankAnswered (result : Except CmdFailure Unit) :
    (s.blankAnswered result now).1.onRender = false := by
  unfold blankAnswered
  cases result with
  | ok u =>
    dsimp only
    split
    · rfl
    · simp [onRender]
  | error failure =>
    dsimp only
    split
    · exact onRender_of_takenOn _ (takenOn_enterGrace now _ _)
    · exact onRender_of_takenOn _ (takenOn_enterActive now _ _)

theorem onRender_enterActive : (s.enterActive now cause).1.onRender = false :=
  onRender_of_takenOn _ (takenOn_enterActive now s cause)

/-- On a rung of the ladder the surface ends up with the phase, if what was up belonged to a
render stage. -/
theorem surface_enterLadderStage {up : Bool} (hup : up = true → s.onRenderStage = true)
    {idx : ℕ} (hidx : up = true → idx < s.ladder.length) :
    surfaceAfter up (s.enterLadderStage idx now cause).2 =
      (s.enterLadderStage idx now cause).1.onRender := by
  unfold enterLadderStage
  split
  · rename_i hnone
    have hdown : up = false := by
      by_contra hu
      have hlt := hidx (by simpa using hu)
      rw [List.getElem?_eq_none_iff] at hnone
      omega
    rw [(clerical_enterActive s now cause).surfaceAfter_eq, onRender_enterActive, hdown]
  · rename_i stage hstage
    cases hkind : stage.kind with
    | controller mode =>
      cases hprev : s.onRenderStage with
      | true => rfl
      | false =>
        have hdown : up = false := by
          by_contra hu
          have := hup (by simpa using hu)
          simp [hprev] at this
        rw [hdown]
        rfl
    | renderBlack => cases s.onRenderStage <;> rfl
    | renderScreensaver => cases s.onRenderStage <;> rfl

theorem surface_advanceStage {up : Bool} (hup : up = true → s.onRenderStage = true)
    (hidx : up = true → s.nextStage < s.ladder.length) :
    surfaceAfter up (s.advanceStage now cause).2 = (s.advanceStage now cause).1.onRender := by
  unfold advanceStage
  split
  · rename_i hle
    have hdown : up = false := by
      by_contra hu
      have hlt := hidx (by simpa using hu)
      omega
    rw [(clerical_enterActive s now cause).surfaceAfter_eq, onRender_enterActive, hdown]
  · exact surface_enterLadderStage s now cause hup hidx

theorem surface_teardownRender (up : Bool) :
    surfaceAfter up (s.teardownRender now cause).2 = (s.teardownRender now cause).1.onRender := by
  show surfaceAfter up (.teardownRender s.stageGen :: (s.enterActive now cause).2) = _
  rw [surfaceAfter_teardown, (clerical_enterActive s now cause).surfaceAfter_eq]
  exact (onRender_enterActive s now cause).symm

theorem surface_advanceToNextController {up : Bool} (hup : up = true → s.onRenderStage = true) :
    surfaceAfter up (s.advanceToNextController now cause).2 =
      (s.advanceToNextController now cause).1.onRender := by
  unfold advanceToNextController
  split
  · rename_i idx hidx
    obtain ⟨-, stage, hstage, -⟩ := nextController_eq_some s hidx
    exact surface_enterLadderStage s now cause hup fun _ => (List.getElem?_eq_some_iff.mp hstage).1
  · exact surface_teardownRender s now cause up

theorem onRender_maybeAutoResume (h : s.onRender = false) :
    (s.maybeAutoResume now).1.onRender = false := by
  unfold maybeAutoResume unfreezeGrace
  repeat' split
  all_goals first | exact h | rfl

theorem surface_graceTick (untilTick : ℕ) (h : s.onRender = false) :
    surfaceAfter false (s.graceTick untilTick now).2 =
      (s.graceTick untilTick now).1.onRender := by
  have hr := onRender_maybeAutoResume s now h
  have hm := clerical_maybeAutoResume s now
  have hfreeze : ((s.maybeAutoResume now).1.freezeGrace untilTick now).onRender = false := by
    unfold freezeGrace
    split <;> exact hr
  unfold graceTick
  dsimp only
  split_ifs
  · rw [hm.surfaceAfter_eq, hr]
  · rw [hm.surfaceAfter_eq, hr]
  · rw [hm.surfaceAfter_eq, hfreeze]
  · rw [hm.surfaceAfter_eq, hr]
  · rw [surfaceAfter_append, hm.surfaceAfter_eq, hr]
    rfl
  · rw [hm.surfaceAfter_eq, hr]
  · rw [surfaceAfter_append, hm.surfaceAfter_eq]
    exact surface_enterLadderStage _ now _ (by simp) (by simp)

end Helpers

/-! ## One step -/

/-- The step leaves a render phase and emits no teardown. -/
def abandonsSurface (s : DisplayStateMachine) (input : Input) (now : ℕ) : Prop :=
  s.onRender = true ∧ (s.dwellsOut input ∨ s.thawsStray input now)

/-- In a render phase, the current stage is a render stage. -/
def RenderOk (s : DisplayStateMachine) : Prop := s.onRender = true → s.onRenderStage = true

theorem renderOk_of_off (h : s.onRender = false) : s.RenderOk := by
  intro hr
  rw [h] at hr
  exact absurd hr Bool.false_ne_true

theorem renderOk_enterLadderStage (s : DisplayStateMachine) (idx now : ℕ) (cause : String) :
    (s.enterLadderStage idx now cause).1.RenderOk := by
  unfold enterLadderStage
  split
  · exact renderOk_of_off (onRender_enterActive s now cause)
  · rename_i stage hstage
    cases hkind : stage.kind with
    | controller mode => exact renderOk_of_off rfl
    | renderBlack => exact fun _ => by simp [onRenderStage, hstage, hkind, StageKind.isRender]
    | renderScreensaver => exact fun _ => by simp [onRenderStage, hstage, hkind, StageKind.isRender]

theorem onRender_note (s : DisplayStateMachine) (input : Input) :
    (s.note input).onRender = s.onRender := by
  simp only [onRender, note_phase]

theorem renderOk_note (h : s.RenderOk) (input : Input) : (s.note input).RenderOk := by
  obtain ⟨overlays, zone, owns, he⟩ := s.note_frame input
  rw [he]
  exact h

theorem renderOk_maybeAutoResume (h : s.RenderOk) (now : ℕ) :
    (s.maybeAutoResume now).1.RenderOk := by
  unfold maybeAutoResume unfreezeGrace
  repeat' split
  all_goals first | exact h | exact renderOk_of_off rfl

theorem renderOk_graceTick (h : s.onRender = false) (untilTick now : ℕ) :
    (s.graceTick untilTick now).1.RenderOk := by
  have hr := renderOk_maybeAutoResume (renderOk_of_off h) now
  have hfreeze : ((s.maybeAutoResume now).1.freezeGrace untilTick now).RenderOk := by
    unfold freezeGrace
    split <;> exact hr
  unfold graceTick
  dsimp only
  split_ifs
  · exact hr
  · exact hr
  · exact hfreeze
  · exact hr
  · exact hr
  · exact hr
  · exact renderOk_enterLadderStage _ 0 now _

theorem renderOk_step (h : s.RenderOk) (input : Input) (now : ℕ) :
    (s.step input now).1.RenderOk := by
  have hm := step_move s input now
  generalize s.step input now = r at hm
  have hnote := renderOk_note h input
  cases hm with
  | quiet => exact hnote
  | ticked => exact renderOk_maybeAutoResume h now
  | graceTicked untilTick hp => exact renderOk_graceTick (by simp [onRender, hp]) untilTick now
  | vacated => exact renderOk_of_off (onRender_of_takenOn _ (takenOn_enterGrace now _ _))
  | froze untilTick hp =>
    refine renderOk_of_off ?_
    unfold freezeGrace
    split <;> simp [onRender, hp]
  | repaused => exact hnote
  | thawed =>
    unfold unfreezeGrace
    repeat' split
    all_goals first | exact hnote | exact renderOk_of_off rfl
  | regained => exact hnote
  | activated cause => exact renderOk_of_off (onRender_enterActive _ now cause)
  | forceBlanked => exact renderOk_of_off rfl
  | softBlanked => exact renderOk_enterLadderStage _ 0 now _
  | deferred => exact hnote
  | blankAnswered result => exact renderOk_of_off (onRender_blankAnswered s now result)
  | woken => exact renderOk_of_off rfl
  | rewoken => exact renderOk_of_off rfl
  | retried => exact renderOk_of_off rfl
  | awoken => exact renderOk_of_off (onRender_enterActive _ now _)
  | torn cause => exact renderOk_of_off (onRender_enterActive _ now cause)
  | tornAwake => exact renderOk_of_off rfl
  | renderForceBlanked => exact renderOk_of_off rfl
  | renderSoftBlanked => exact renderOk_enterLadderStage _ 0 now _
  | @rendered gen u idx hp =>
    obtain ⟨stageGen, deadline, he⟩ :=
      ({ s with phase := .staged idx gen }).scheduleStageTick_frame now
    rw [he]
    exact fun _ => h (by simp [onRender, hp])
  | renderFailed =>
    unfold advanceToNextController
    split
    · exact renderOk_enterLadderStage s _ now _
    · exact renderOk_of_off (onRender_enterActive s now _)
  | advanced =>
    unfold advanceStage
    split
    · exact renderOk_of_off (onRender_enterActive s now _)
    · exact renderOk_enterLadderStage s _ now _
  | captured => exact hnote
  | rearmed =>
    obtain ⟨gen, deadline, he⟩ := (s.note input).rearmStageTick_frame now
    rw [he]
    exact hnote

theorem surface_kept {r : DisplayStateMachine × List Effect} (hm : surfaceMoves r.2 = [])
    (hr : r.1.onRender = s.onRender) : surfaceAfter s.onRender r.2 = r.1.onRender := by
  rw [surfaceAfter_of_nil hm, hr]

theorem onRender_of_inGrace (hg : s.inGrace = true) : s.onRender = false := by
  cases hp : s.phase <;> simp [inGrace, onRender, hp] at hg ⊢

/-- A step keeps the surface with the phase, unless it abandons one. -/
theorem step_surface (hr : s.RenderOk) (now : ℕ)
    (hn : ¬ s.abandonsSurface input now) :
    surfaceAfter s.onRender (s.step input now).2 = (s.step input now).1.onRender := by
  have hm := step_move s input now
  generalize s.step input now = r at hm
  have hnote := onRender_note s input
  cases hm with
  | quiet => exact surface_kept (clerical_noteEffects input).surfaceMoves_eq hnote
  | ticked hg hw =>
    refine surface_kept (clerical_maybeAutoResume s now).surfaceMoves_eq ?_
    cases hup : s.onRender with
    | false => exact onRender_maybeAutoResume s now hup
    | true =>
      have hp := maybeAutoResume_phase fun ⟨hd, hi, hf⟩ =>
        hn ⟨hup, .inr ⟨rfl, hg, hw, hd, hi, hf⟩⟩
      rw [← hup]
      simp only [onRender, hp]
  | graceTicked untilTick hp =>
    have hup : s.onRender = false := by simp [onRender, hp]
    rw [hup]
    exact surface_graceTick s now untilTick hup
  | vacated hp =>
    refine surface_kept (clerical_enterGrace _ now _).surfaceMoves_eq ?_
    rw [onRender_of_takenOn _ (takenOn_enterGrace now _ _)]
    simp [onRender, hp]
  | froze untilTick hp =>
    refine surface_kept (clerical_noteEffects input).surfaceMoves_eq ?_
    unfold freezeGrace
    split <;> exact hnote
  | repaused => exact surface_kept (clerical_noteEffects _).surfaceMoves_eq hnote
  | thawed hg =>
    refine surface_kept (clerical_unfreezeGrace _ now).surfaceMoves_eq ?_
    rw [onRender_of_inGrace hg] at hnote ⊢
    unfold unfreezeGrace
    repeat' split
    all_goals first | exact hnote | rfl
  | regained => exact surface_kept rfl hnote
  | activated cause h =>
    refine surface_kept (clerical_enterActive _ now cause).surfaceMoves_eq ?_
    rw [onRender_enterActive]
    rcases h with ⟨hg, -⟩ | ⟨hp, -⟩
    · exact (onRender_of_inGrace hg).symm
    · simp [onRender, hp]
  | forceBlanked source h =>
    refine surface_kept rfl ?_
    rcases h with hp | hg | hp
    · simp [issueBlank, onRender, hp]
    · exact (onRender_of_inGrace hg).symm
    · simp [issueBlank, onRender, hp]
  | softBlanked h =>
    have hup : s.onRender = false := by
      rcases h with hp | hg
      · simp [onRender, hp]
      · exact onRender_of_inGrace hg
    rw [hup]
    exact surface_enterLadderStage _ now _ (by simp) (by simp)
  | deferred => exact surface_kept rfl hnote
  | blankAnswered result hp =>
    refine surface_kept (surfaceMoves_blankAnswered s now result) ?_
    rw [onRender_blankAnswered]
    simp [onRender, hp]
  | woken source cause h =>
    refine surface_kept (surfaceMoves_issueWake _ now rfl) ?_
    rcases h with ⟨hp, -⟩ | ⟨hp | hp, -⟩ <;> simp [issueWake, onRender, hp]
  | rewoken pre hp hinput =>
    refine surface_kept (surfaceMoves_issueWake _ now ?_) (by simp [issueWake, onRender, hp])
    rcases hinput with ⟨-, rfl⟩ | ⟨-, rfl⟩ | ⟨-, rfl⟩ <;> rfl
  | retried hp =>
    refine surface_kept ?_ (by simp [issueWake, onRender, hp])
    rw [surfaceMoves_append, (clerical_maybeAutoResume s now).surfaceMoves_eq]
    rfl
  | awoken hp =>
    refine surface_kept (clerical_enterActive _ now _).surfaceMoves_eq ?_
    rw [onRender_enterActive]
    simp [onRender, hp]
  | torn cause => exact surface_teardownRender _ now cause _
  | tornAwake =>
    rw [surfaceAfter_append, surface_teardownRender, teardownRender, onRender_enterActive]
    rfl
  | renderForceBlanked => rfl
  | renderSoftBlanked source =>
    show surfaceAfter s.onRender (.teardownRender s.stageGen :: .logTransition source
      "entering_ladder" "soft_blank" :: _) = _
    rw [surfaceAfter_teardown, surfaceAfter_cons rfl]
    exact surface_enterLadderStage _ now _ (by simp) (by simp)
  | @rendered gen u idx hp =>
    refine surface_kept ((surfaceMoves_cons rfl _).trans (surfaceMoves_scheduleStageTick _ now)) ?_
    simp [onRender, hp]
  | renderFailed => exact surface_advanceToNextController s now _ hr
  | advanced hp hf hi ho =>
    refine surface_advanceStage s now _ hr fun hup => ?_
    by_contra hle
    exact hn ⟨hup, .inl ⟨hp, rfl, hf, hi, ho, by omega⟩⟩
  | captured => exact surface_kept (clerical_noteEffects input).surfaceMoves_eq hnote
  | rearmed =>
    refine surface_kept (surfaceMoves_rearmStageTick _ now) ?_
    obtain ⟨gen, deadline, he⟩ := (s.note input).rearmStageTick_frame now
    rw [he]
    exact hnote

theorem surfaceMoves_of_abandons (now : ℕ) (h : s.abandonsSurface input now) :
    surfaceMoves (s.step input now).2 = [] := by
  obtain ⟨hr, ⟨hp, rfl, hf, hi, ho, hle⟩ | ⟨rfl, -⟩⟩ := h
  · have hstep : s.step (.stageTick s.stageGen) now = s.enterActive now "stage_tick" := by
      rcases hp with hp | ⟨idx, gen, hp⟩ <;>
        simp [step, hp, stepBlanked, stepStaged, stageTicked, stageAdvanceFrozen, hf, hi, ho,
          advanceStage, hle]
    rw [hstep]
    exact (clerical_enterActive s now _).surfaceMoves_eq
  · obtain ⟨idx, gen, hp⟩ := exists_render hr
    have hstep : s.step .tick now = s.maybeAutoResume now := by
      rcases hp with hp | hp <;> simp only [step, hp, stepRenderPending, stepStaged]
    rw [hstep]
    exact (clerical_maybeAutoResume s now).surfaceMoves_eq

theorem onRender_of_abandons (now : ℕ) (h : s.abandonsSurface input now) :
    (s.step input now).1.onRender = false := by
  have hoff : s.takenOn = false := by
    by_contra ht
    have hr := onRender_of_takenOn s (by simpa using ht)
    rw [h.1] at hr
    exact Bool.false_ne_true hr.symm
  refine onRender_of_takenOn _ (takenOn_of_abandons now hoff ?_)
  rcases h.2 with hd | ht
  · exact .inl hd
  · exact .inr (.inr (.inr ht))

theorem step_surface_iff (hr : s.RenderOk) (now : ℕ) :
    surfaceAfter s.onRender (s.step input now).2 = (s.step input now).1.onRender ↔
      ¬ s.abandonsSurface input now := by
  constructor
  · intro h ha
    rw [surfaceAfter_of_nil (surfaceMoves_of_abandons now ha), onRender_of_abandons now ha,
      ha.1] at h
    exact Bool.false_ne_true h.symm
  · exact step_surface hr now

/-! ## The order of teardown and blank -/

section Order
variable (s : DisplayStateMachine) (now : ℕ) (cause : String)

theorem teardownFirst_enterLadderStage (idx : ℕ) :
    TeardownFirst (s.enterLadderStage idx now cause).2 := by
  unfold enterLadderStage
  split
  · exact teardownFirst_of_dark (dark_enterActive s now cause)
  · rename_i stage hstage
    cases hkind : stage.kind with
    | controller mode =>
      cases s.onRenderStage <;>
        simp [StageKind.isRender, issueBlankForMode, TeardownFirst, Effect.isBlank,
          Effect.isTeardown]
    | renderBlack =>
      cases s.onRenderStage <;>
        simp [StageKind.isRender, TeardownFirst, Effect.isBlank]
    | renderScreensaver =>
      cases s.onRenderStage <;>
        simp [StageKind.isRender, TeardownFirst, Effect.isBlank]

theorem teardownFirst_graceTick (untilTick : ℕ) :
    TeardownFirst (s.graceTick untilTick now).2 := by
  have hm := dark_maybeAutoResume s now
  unfold graceTick
  dsimp only
  split_ifs
  · exact teardownFirst_of_dark hm
  · exact teardownFirst_of_dark hm
  · exact teardownFirst_of_dark hm
  · exact teardownFirst_of_dark hm
  · exact teardownFirst_append hm (teardownFirst_of_dark rfl)
  · exact teardownFirst_of_dark hm
  · exact teardownFirst_append hm (teardownFirst_enterLadderStage _ now _ 0)

theorem teardownFirst_step (input : Input) : TeardownFirst (s.step input now).2 := by
  have hm := step_move s input now
  generalize s.step input now = r at hm
  cases hm with
  | quiet => exact teardownFirst_of_dark (emitsDark_noteEffects input)
  | ticked => exact teardownFirst_of_dark (dark_maybeAutoResume s now)
  | graceTicked untilTick => exact teardownFirst_graceTick s now untilTick
  | vacated => exact teardownFirst_of_dark (dark_enterGrace _ now _)
  | froze => exact teardownFirst_of_dark (emitsDark_noteEffects input)
  | repaused => exact teardownFirst_of_dark (emitsDark_noteEffects _)
  | thawed => exact teardownFirst_of_dark (dark_unfreezeGrace _ now)
  | regained => exact teardownFirst_of_dark rfl
  | activated cause => exact teardownFirst_of_dark (dark_enterActive _ now cause)
  | forceBlanked => simp [issueBlank, TeardownFirst, Effect.isBlank, Effect.isTeardown]
  | softBlanked => exact teardownFirst_enterLadderStage _ now _ 0
  | deferred => exact teardownFirst_of_dark rfl
  | blankAnswered result => exact teardownFirst_of_dark (dark_blankAnswered s now result)
  | woken => exact teardownFirst_of_dark (dark_issueWake _ now rfl)
  | rewoken pre hp hinput =>
    refine teardownFirst_of_dark (dark_issueWake _ now ?_)
    rcases hinput with ⟨-, rfl⟩ | ⟨-, rfl⟩ | ⟨-, rfl⟩ <;> rfl
  | retried =>
    refine teardownFirst_append (dark_maybeAutoResume s now) (teardownFirst_of_dark ?_)
    exact dark_issueWake _ now rfl
  | awoken => exact teardownFirst_of_dark (dark_enterActive _ now _)
  | torn cause => exact teardownFirst_of_dark (dark_teardownRender _ now cause)
  | tornAwake =>
    refine teardownFirst_append (dark_teardownRender _ now _) (teardownFirst_of_dark ?_)
    exact dark_issueWake _ now rfl
  | renderForceBlanked =>
    simp [forceBlankFromRender, issueBlank, TeardownFirst, Effect.isBlank, Effect.isTeardown]
  | renderSoftBlanked =>
    exact teardownFirst_cons rfl (teardownFirst_cons rfl (teardownFirst_enterLadderStage _ now _ 0))
  | rendered => exact teardownFirst_of_dark (dark_scheduleStageTick _ now)
  | renderFailed =>
    unfold advanceToNextController
    split
    · exact teardownFirst_enterLadderStage s now _ _
    · exact teardownFirst_of_dark (dark_teardownRender s now _)
  | advanced =>
    unfold advanceStage
    split
    · exact teardownFirst_of_dark (dark_enterActive s now _)
    · exact teardownFirst_enterLadderStage s now _ _
  | captured => exact teardownFirst_of_dark (emitsDark_noteEffects input)
  | rearmed => exact teardownFirst_of_dark (dark_rearmStageTick _ now)

end Order

/-! ## Runs -/

/-- A machine beside its surface: each step's effects are taken in emission order. -/
def surfaces : Runs.System (Bool × DisplayStateMachine) Feed Effect :=
  machine.observed fun up _ _ r => surfaceAfter up r.2

/-- A surface is up exactly in the render phases. -/
def Paired (x : Bool × DisplayStateMachine) : Prop := x.1 = x.2.onRender

instance (x : Bool × DisplayStateMachine) : Decidable (Paired x) :=
  inferInstanceAs (Decidable (_ = _))

def abandonsSurfaceFeed (s : DisplayStateMachine) : Feed → Prop
  | .input input now => s.abandonsSurface input now
  | .hold _ => False

theorem paired_next_iff (x : Bool × DisplayStateMachine) (f : Feed) (hr : x.2.RenderOk)
    (hx : Paired x) : Paired (surfaces.next x f).1 ↔ ¬ abandonsSurfaceFeed x.2 f := by
  obtain ⟨up, s⟩ := x
  obtain rfl : up = s.onRender := hx
  cases f with
  | hold active => exact iff_of_true rfl id
  | input input now => exact step_surface_iff hr now

theorem renderOk_next (s : DisplayStateMachine) (f : Feed) (h : s.RenderOk) :
    (machine.next s f).1.RenderOk := by
  cases f with
  | hold active => exact h
  | input input now => exact renderOk_step h input now

theorem teardownFirst_next (s : DisplayStateMachine) (f : Feed) :
    TeardownFirst (machine.next s f).2 := by
  cases f with
  | hold active => exact List.Pairwise.nil
  | input input now => exact teardownFirst_step s now input

/-- Along a run the surface is up exactly in the render phases, and every step tears down
before it blanks, exactly when no step abandons a surface. -/
theorem surface_paired_iff (timings : SmTimings) (ladder : List LadderStage) (start : ℕ)
    (feeds : List Feed) :
    surfaces.Throughout Paired (false, new timings ladder start) feeds ∧
        surfaces.Steps (fun x f => TeardownFirst (surfaces.next x f).2)
          (false, new timings ladder start) feeds ↔
      surfaces.Steps (fun x f => ¬ abandonsSurfaceFeed x.2 f)
        (false, new timings ladder start) feeds := by
  have hiff := Runs.System.throughout_iff_steps (M := surfaces) (P := Paired)
    (fun x => x.2.RenderOk) (fun _ _ => True) (fun x f hx _ => renderOk_next x.2 f hx)
    (fun x f hx _ => paired_next_iff x f hx)
    (.of_forall (fun _ _ => trivial) (false, new timings ladder start) feeds)
    (renderOk_of_off rfl) rfl
  rw [hiff]
  refine and_iff_left (.of_forall (fun x f => ?_) _ _)
  exact teardownFirst_next x.2 f

/-- The dwell rules of config validation: the non-terminal stages without a dwell. -/
def missingDwells (ladder : List LadderStage) : List ℕ :=
  (ladder.zipIdx.filter fun x => x.2 + 1 != ladder.length && x.1.dwell.isNone).map (·.2)

/-- A dwell on a terminal render stage is accepted, and its stage tick leads to Active with
the surface still up. -/
theorem surface_abandoned :
    let ladder := [⟨.renderBlack, some 10⟩]
    let x₀ := (false, new { gracePeriod := 60, minBlankTime := 0, minWakeTime := 0,
                            startupHoldoff := 0, wakeRetryInterval := 5 } ladder 0)
    let feeds : List Feed := [.input .softBlank 1, .input (.renderResult 1 (.ok ())) 2,
      .input (.stageTick 2) 12]
    missingDwells ladder = [] ∧ ¬ surfaces.Throughout Paired x₀ feeds ∧
      (surfaces.run x₀ feeds).1 = true ∧ (surfaces.run x₀ feeds).2.phase = .active := by
  decide

end DisplayStateMachine
end Dormant
