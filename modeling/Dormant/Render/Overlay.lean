import Dormant.Foundations.Runs
import Dormant.Render.Surface

/-!
# The overlay of a display

The engine spawns a task for each show and each teardown, the tasks hand their commands to the
channel in any order, and the render thread takes them from there while the compositor configures
its surfaces. What is left is what the last command makes of the overlay.
-/

namespace Dormant
set_option autoImplicit false

/-- What `process_effect` spawns for an effect. -/
inductive RenderTask where
  | showRender (gen : UInt64) (idx : ℕ) (kind : StageKind)
  | teardownRender (gen : UInt64)
  deriving DecidableEq, Repr

/-- The command that a task hands over, if the sink has the settings for it. -/
def RenderTask.command (screensaver : Bool) : RenderTask → Option RenderCommand
  | .showRender gen idx .renderScreensaver =>
    if screensaver then some (.showScreensaver gen idx) else none
  | .showRender gen idx kind => some (.show gen idx kind)
  | .teardownRender gen => some (.teardown gen)

/-- `processed` and `handled` keep the effects that the engine has processed and the commands that
the render thread has taken. -/
structure OverlayState where
  screensaver : Bool
  tasks : List RenderTask
  channel : List RenderCommand
  wayland : WaylandState
  processed : List RenderTask
  handled : List RenderCommand
  deriving DecidableEq, Repr

inductive OverlayEvent where
  | process (effect : RenderTask)
  | runTask (n : ℕ)
  | handle (setup : ShowSetup)
  | configure (surface : ℕ) (setup : ShowSetup)
  | configureTimeout (gen : UInt64)
  deriving DecidableEq, Repr

def OverlayState.next (s : OverlayState) : OverlayEvent → OverlayState × List ShowReply
  | .process effect =>
    ({ s with tasks := s.tasks ++ [effect], processed := s.processed ++ [effect] }, [])
  | .runTask n =>
    ({ s with
        tasks := s.tasks.eraseIdx n
        channel := s.channel ++ (s.tasks[n]?.bind (RenderTask.command s.screensaver)).toList }, [])
  | .handle setup =>
    match s.channel with
    | [] => (s, [])
    | command :: channel =>
      let handled := s.wayland.handleCommand setup command
      ({ s with
          channel := channel
          wayland := handled.1
          handled := s.handled ++ [command] }, handled.2)
  | .configure surface setup =>
    let configured := s.wayland.configure setup surface
    ({ s with wayland := configured.1 }, configured.2)
  | .configureTimeout gen =>
    let failed := s.wayland.handleConfigureTimeout gen
    ({ s with wayland := failed.1 }, failed.2)

def overlays : Runs.System OverlayState OverlayEvent ShowReply where
  next := OverlayState.next

/-- The surface that is up or pending, by the generation of its show. -/
def WaylandState.surface (s : WaylandState) : Option UInt64 :=
  match s.pendingShow with
  | some pending => some pending.gen
  | none => s.content

def RenderTask.shown : RenderTask → Option UInt64
  | .showRender gen _ _ => some gen
  | .teardownRender _ => none

def RenderCommand.shown : RenderCommand → Option UInt64
  | .show gen _ _ => some gen
  | .showScreensaver gen _ => some gen
  | .teardown _ => none

/-- A teardown destroys nothing newer than its own show. -/
def RenderCommand.SparesNewer (shown : Option UInt64) : RenderCommand → Prop
  | .teardown gen => ∀ newer ∈ shown, newer ≤ gen
  | _ => True

instance (shown : Option UInt64) : DecidablePred (RenderCommand.SparesNewer shown)
  | .teardown gen =>
    show Decidable (∀ newer ∈ shown, newer ≤ gen) from Option.decidableForallMem shown
  | .show _ _ _ => isTrue trivial
  | .showScreensaver _ _ => isTrue trivial

namespace OverlayState
variable (s : OverlayState)

/-- All tasks have run, and their commands are handled. -/
def Done : Prop := s.tasks = [] ∧ s.channel = []

/-- The overlay is that of the last processed effect, if it is a show. -/
def FollowsEngine : Prop := s.wayland.surface = s.processed.getLast?.bind RenderTask.shown

/-- The last command that the render thread has taken shows what the last processed effect does. -/
def EndsInOrder : Prop :=
  s.handled.getLast?.bind RenderCommand.shown = s.processed.getLast?.bind RenderTask.shown

/-- A teardown finds no surface of a newer show. -/
def SparesNewer : OverlayEvent → Prop
  | .handle _ => ∀ command ∈ s.channel.head?, command.SparesNewer s.wayland.surface
  | _ => True

/-- A teardown does not come right after a newer show. -/
def TakesInOrder : OverlayEvent → Prop
  | .handle _ => ∀ command ∈ s.channel.head?,
      command.SparesNewer (s.handled.getLast?.bind RenderCommand.shown)
  | _ => True

/-- The shows are of render stages and find what they need, and the compositor configures a pending
surface before the timeout. -/
def Supported : OverlayEvent → Prop
  | .process (.showRender _ _ kind) => kind.isRender = true
  | .process (.teardownRender _) => True
  | .runTask n => ∀ task ∈ s.tasks[n]?, (task.command s.screensaver).isSome
  | .handle setup =>
    setup.located = true ∧ setup.blackError = none ∧ setup.installError = none
  | .configure _ setup => setup.blackError = none ∧ setup.installError = none
  | .configureTimeout gen => s.wayland.pendingShow.map PendingShow.gen ≠ some gen

instance (s : OverlayState) : Decidable s.Done := inferInstanceAs (Decidable (_ ∧ _))

instance (s : OverlayState) : Decidable s.FollowsEngine := inferInstanceAs (Decidable (_ = _))

instance (s : OverlayState) : Decidable s.EndsInOrder := inferInstanceAs (Decidable (_ = _))

instance (s : OverlayState) : DecidablePred s.SparesNewer
  | .handle _ => inferInstanceAs (Decidable (∀ command ∈ s.channel.head?, _))
  | .process _ | .runTask _ | .configure _ _ | .configureTimeout _ => isTrue trivial

instance (s : OverlayState) : DecidablePred s.TakesInOrder
  | .handle _ => inferInstanceAs (Decidable (∀ command ∈ s.channel.head?, _))
  | .process _ | .runTask _ | .configure _ _ | .configureTimeout _ => isTrue trivial

instance (s : OverlayState) : DecidablePred s.Supported
  | .process (.showRender _ _ kind) => inferInstanceAs (Decidable (kind.isRender = true))
  | .process (.teardownRender _) => isTrue trivial
  | .runTask n =>
    inferInstanceAs (Decidable (∀ task ∈ s.tasks[n]?, (task.command s.screensaver).isSome))
  | .handle _ | .configure _ _ => inferInstanceAs (Decidable (_ ∧ _))
  | .configureTimeout _ => inferInstanceAs (Decidable (_ ≠ _))

end OverlayState

/-! ## What a command makes of the overlay -/

/-- A task of a render stage. -/
def RenderTask.Renders : RenderTask → Prop
  | .showRender _ _ kind => kind.isRender = true
  | .teardownRender _ => True

/-- A command of a render stage. -/
def RenderCommand.Renders : RenderCommand → Prop
  | .show _ _ kind => kind = .renderBlack
  | _ => True

namespace WaylandState
variable {s : WaylandState} {setup : ShowSetup}

/-- The surface is up with a content, or a show is pending, or neither. -/
structure Proper (s : WaylandState) : Prop where
  up : s.surfaceUp = s.layerSurface.isSome
  content : s.content.isSome = s.surfaceUp
  pending (h : s.pendingShow.isSome = true) : s.surfaceUp = false

theorem destroySurface_proper (s : WaylandState) :
    Proper s.destroySurface.1 ∧ s.destroySurface.1.surface = none :=
  ⟨⟨rfl, rfl, fun _ => rfl⟩, rfl⟩

theorem Proper.of_up (h : s.Proper) (hup : s.surfaceUp = true) : s.pendingShow = none := by
  cases hpending : s.pendingShow with
  | none => rfl
  | some pending =>
    have hdown := h.pending (by rw [hpending]; rfl)
    rw [hup] at hdown
    cases hdown

theorem proper_live {gen : UInt64} (hpending : s.pendingShow = none) (hup : s.surfaceUp = true)
    (hlayer : s.layerSurface.isSome = true) (hcontent : s.content = some gen) :
    s.Proper ∧ s.surface = some gen := by
  refine ⟨⟨hup.trans hlayer.symm, ?_, fun h => ?_⟩, ?_⟩
  · rw [hcontent, hup]
    rfl
  · rw [hpending] at h
    cases h
  · unfold surface
    rw [hpending]
    exact hcontent

theorem proper_pending (pending : PendingShow) (hpending : s.pendingShow = some pending)
    (hup : s.surfaceUp = false) (hlayer : s.layerSurface = none) (hcontent : s.content = none) :
    s.Proper ∧ s.surface = some pending.gen := by
  refine ⟨⟨?_, ?_, fun _ => hup⟩, ?_⟩
  · rw [hup, hlayer]
    rfl
  · rw [hcontent, hup]
    rfl
  · unfold surface
    rw [hpending]

theorem completeScreensaverShow_proper (hpending : s.pendingShow = none)
    (hsetup : setup.installError = none) (gen : UInt64) (layerSurface : ℕ) :
    (s.completeScreensaverShow setup gen layerSurface).1.Proper ∧
      (s.completeScreensaverShow setup gen layerSurface).1.surface = some gen := by
  unfold completeScreensaverShow
  rw [hsetup]
  exact proper_live hpending rfl rfl rfl

/-- Without a live surface, there is no surface and no content. -/
theorem Proper.of_down (h : s.Proper)
    (hdown : ¬(s.layerSurface.isSome = true ∧ s.surfaceUp = true)) :
    s.surfaceUp = false ∧ s.layerSurface = none ∧ s.content = none := by
  have hup : s.surfaceUp = false := by
    cases hup : s.surfaceUp with
    | false => rfl
    | true => exact absurd ⟨h.up ▸ hup, hup⟩ hdown
  refine ⟨hup, ?_, ?_⟩
  · exact Option.isSome_eq_false_iff.mp (h.up.symm.trans hup) |> Option.isNone_iff_eq_none.mp
  · exact Option.isSome_eq_false_iff.mp (h.content.trans hup) |> Option.isNone_iff_eq_none.mp

theorem handleShow_proper (h : s.Proper) (hlocated : setup.located = true)
    (hsetup : setup.blackError = none) (gen : UInt64) :
    (s.handleShow setup gen .renderBlack).1.Proper ∧
      (s.handleShow setup gen .renderBlack).1.surface = some gen := by
  have hfound : ¬setup.located = false := by
    rw [hlocated]
    decide
  dsimp only [handleShow]
  rw [if_neg hfound, hsetup]
  by_cases hup : s.layerSurface.isSome = true ∧ s.surfaceUp = true
  · rw [if_pos hup]
    exact proper_live (h.of_up hup.2) hup.2 hup.1 rfl
  · rw [if_neg hup]
    exact proper_pending ⟨gen, .renderBlack, s.nextSurface⟩ rfl rfl rfl rfl

theorem handleShowScreensaver_proper (h : s.Proper) (hlocated : setup.located = true)
    (hsetup : setup.installError = none) (gen : UInt64) :
    (s.handleShowScreensaver setup gen).1.Proper ∧
      (s.handleShowScreensaver setup gen).1.surface = some gen := by
  have hfound : ¬setup.located = false := by
    rw [hlocated]
    decide
  unfold handleShowScreensaver
  rw [if_neg hfound]
  split
  · rename_i existing hlayer hup
    exact completeScreensaverShow_proper (h.of_up hup) hsetup gen existing
  · rename_i hdown
    obtain ⟨hup, hlayer, hcontent⟩ := h.of_down fun hlive => by
      obtain ⟨existing, hexisting⟩ := Option.isSome_iff_exists.mp hlive.1
      exact hdown existing hexisting hlive.2
    exact proper_pending ⟨gen, .renderScreensaver, s.nextSurface⟩ rfl hup hlayer hcontent

/-- After a command of a render stage, what it shows is on the overlay, and nothing else. -/
theorem handleCommand_proper (h : s.Proper) (hlocated : setup.located = true)
    (hblack : setup.blackError = none) (hinstall : setup.installError = none)
    {command : RenderCommand} (hrenders : command.Renders) :
    (s.handleCommand setup command).1.Proper ∧
      (s.handleCommand setup command).1.surface = command.shown := by
  cases command with
  | «show» gen idx kind =>
    obtain rfl := hrenders
    exact handleShow_proper h hlocated hblack gen
  | showScreensaver gen idx => exact handleShowScreensaver_proper h hlocated hinstall gen
  | teardown gen => exact destroySurface_proper s

/-- A configure completes a pending show, and changes nothing else. -/
theorem configure_proper (h : s.Proper) (hblack : setup.blackError = none)
    (hinstall : setup.installError = none) (surface : ℕ) :
    (s.configure setup surface).1.Proper ∧ (s.configure setup surface).1.surface = s.surface := by
  unfold configure
  split
  · rename_i hmatch
    obtain ⟨pending, hpending, -⟩ := Option.map_eq_some_iff.mp hmatch
    have hsurface : s.surface = some pending.gen := by
      unfold WaylandState.surface
      rw [hpending]
    rw [hsurface]
    unfold completePendingShow
    rw [hpending]
    dsimp only
    split
    · exact completeScreensaverShow_proper rfl hinstall pending.gen pending.layerSurface
    · rw [hblack]
      exact proper_live rfl rfl rfl rfl
  · exact ⟨h, rfl⟩

theorem handleConfigureTimeout_stale {gen : UInt64}
    (h : s.pendingShow.map PendingShow.gen ≠ some gen) : s.handleConfigureTimeout gen = (s, []) :=
  if_neg h

end WaylandState

/-! ## Runs -/

/-- What the last command shows is on the overlay, and all that is under way is of render stages. -/
structure Overlaid (s : OverlayState) : Prop where
  proper : s.wayland.Proper
  surface : s.wayland.surface = s.handled.getLast?.bind RenderCommand.shown
  tasks : ∀ task ∈ s.tasks, task.Renders
  channel : ∀ command ∈ s.channel, command.Renders

theorem command_renders {task : RenderTask} (h : task.Renders) (screensaver : Bool) :
    ∀ command ∈ task.command screensaver, command.Renders := by
  intro command hcommand
  cases task with
  | teardownRender gen =>
    obtain rfl := Option.some.inj hcommand
    trivial
  | showRender gen idx kind =>
    cases kind with
    | controller mode => cases h
    | renderBlack =>
      obtain rfl := Option.some.inj hcommand
      rfl
    | renderScreensaver =>
      change command ∈ (if screensaver = true then some (.showScreensaver gen idx) else none)
        at hcommand
      split at hcommand
      · obtain rfl := Option.some.inj hcommand
        trivial
      · cases hcommand

theorem overlaid_next {s : OverlayState} {e : OverlayEvent} (h : Overlaid s)
    (hsupported : s.Supported e) : Overlaid (overlays.next s e).1 := by
  cases e with
  | process effect =>
    refine ⟨h.proper, h.surface, fun task htask => ?_, h.channel⟩
    rcases List.mem_append.mp htask with htask | htask
    · exact h.tasks task htask
    · obtain rfl := List.mem_singleton.mp htask
      cases task with
      | showRender gen idx kind => exact hsupported
      | teardownRender gen => trivial
  | runTask n =>
    refine ⟨h.proper, h.surface, fun task htask => ?_, fun command hcommand => ?_⟩
    · exact h.tasks task (List.mem_of_mem_eraseIdx htask)
    · rcases List.mem_append.mp hcommand with hcommand | hcommand
      · exact h.channel command hcommand
      · obtain ⟨task, htask, hcommand⟩ := Option.bind_eq_some_iff.mp (Option.mem_toList.mp hcommand)
        exact command_renders (h.tasks task (List.mem_of_getElem? htask)) _ command hcommand
  | handle setup =>
    obtain ⟨hlocated, hblack, hinstall⟩ := hsupported
    unfold overlays OverlayState.next
    dsimp only
    cases hchannel : s.channel with
    | nil => exact h
    | cons command channel =>
      have hrenders : command.Renders :=
        h.channel command (by rw [hchannel]; exact List.mem_cons_self)
      obtain ⟨hproper, hsurface⟩ :=
        WaylandState.handleCommand_proper h.proper hlocated hblack hinstall hrenders
      refine ⟨hproper, ?_, h.tasks, fun command' hcommand => ?_⟩
      · rw [List.getLast?_concat]
        exact hsurface
      · exact h.channel command' (by rw [hchannel]; exact List.mem_cons_of_mem _ hcommand)
  | configure surface setup =>
    obtain ⟨hblack, hinstall⟩ := hsupported
    obtain ⟨hproper, hsurface⟩ := WaylandState.configure_proper h.proper hblack hinstall surface
    exact ⟨hproper, hsurface.trans h.surface, h.tasks, h.channel⟩
  | configureTimeout gen =>
    have hstale := WaylandState.handleConfigureTimeout_stale hsupported
    unfold overlays OverlayState.next
    dsimp only
    rw [hstale]
    exact h

/-- Nothing is on the overlay, and nothing is under way. -/
def OverlayState.idle (outputName : String) (screensaver : Bool) : OverlayState where
  screensaver := screensaver
  tasks := []
  channel := []
  wayland :=
    { outputName
      layerSurface := none
      surfaceUp := false
      pendingShow := none
      screensaverSession := none
      content := none
      nextSurface := 0 }
  processed := []
  handled := []

theorem overlaid_idle (outputName : String) (screensaver : Bool) :
    Overlaid (.idle outputName screensaver) where
  proper := ⟨rfl, rfl, fun _ => rfl⟩
  surface := rfl
  tasks _ htask := by cases htask
  channel _ hcommand := by cases hcommand

/-- The overlay ends where the engine left it, and no teardown destroys a newer surface, exactly if
the render thread takes the commands so. -/
theorem overlay_follows_engine (outputName : String) (screensaver : Bool)
    (events : List OverlayEvent)
    (hsupported : overlays.Steps OverlayState.Supported (.idle outputName screensaver) events) :
    (overlays.run (.idle outputName screensaver) events).FollowsEngine ∧
        overlays.Steps OverlayState.SparesNewer (.idle outputName screensaver) events ↔
      (overlays.run (.idle outputName screensaver) events).EndsInOrder ∧
        overlays.Steps OverlayState.TakesInOrder (.idle outputName screensaver) events := by
  have hidle := overlaid_idle outputName screensaver
  have hend : Overlaid (overlays.run (.idle outputName screensaver) events) :=
    hsupported.invariant (fun s e h hs => overlaid_next h hs) hidle
  have hspares (s : OverlayState) (e : OverlayEvent) (h : Overlaid s) :
      s.SparesNewer e ↔ s.TakesInOrder e := by
    cases e with
    | handle setup =>
      unfold OverlayState.SparesNewer OverlayState.TakesInOrder
      rw [h.surface]
    | _ => exact Iff.rfl
  refine and_congr ?_ ⟨fun hsteps => ?_, fun hsteps => ?_⟩
  · unfold OverlayState.FollowsEngine OverlayState.EndsInOrder
    rw [hend.surface]
  · exact (hsupported.and hsteps).derive Overlaid (fun s e h hs => overlaid_next h hs.1)
      (fun s e h hs => (hspares s e h).mp hs.2) hidle
  · exact (hsupported.and hsteps).derive Overlaid (fun s e h hs => overlaid_next h hs.1)
      (fun s e h hs => (hspares s e h).mpr hs.2) hidle

/-! ## A show and its teardown -/

/-- The output is there, and so are the buffers. -/
def presentSetup : ShowSetup := ⟨true, none, none⟩

def shownBlack (gen : UInt64) : OverlayEvent := .process (.showRender gen 0 .renderBlack)

def toreDown (gen : UInt64) : OverlayEvent := .process (.teardownRender gen)

/-- The task of a teardown is faster than that of its show, and the overlay stays up. The task of a
newer show is faster than that of the last teardown, and the new surface is destroyed. -/
theorem overlay_outlives_teardown :
    let ran : List OverlayEvent :=
      [.runTask 1, .runTask 0, .handle presentSetup, .configure 0 presentSetup,
        .handle presentSetup, .configure 0 presentSetup]
    let orphaned := [shownBlack 1, toreDown 1] ++ ran
    let destroyed := [toreDown 1, shownBlack 2] ++ ran
    let idle := OverlayState.idle "DP-1" false
    (overlays.Steps OverlayState.Supported idle orphaned ∧ (overlays.run idle orphaned).Done ∧
        (overlays.run idle orphaned).processed.getLast? = some (.teardownRender 1) ∧
        (overlays.run idle orphaned).wayland.surface = some 1) ∧
      overlays.Steps OverlayState.Supported idle destroyed ∧ (overlays.run idle destroyed).Done ∧
        (overlays.run idle destroyed).processed.getLast? = some (.showRender 2 0 .renderBlack) ∧
        (overlays.run idle destroyed).wayland.surface = none ∧
        ¬overlays.Steps OverlayState.SparesNewer idle destroyed := by
  intro ran orphaned destroyed idle
  refine ⟨⟨?_, ?_, ?_, ?_⟩, ?_, ?_, ?_, ?_, ?_⟩ <;> decide +kernel

/-- A screensaver takes over from black, and the last teardown comes last. -/
theorem overlay_follows_engine_desk :
    let events : List OverlayEvent :=
      [shownBlack 1, .runTask 0, .handle presentSetup, .configure 0 presentSetup,
        .process (.showRender 2 1 .renderScreensaver), .runTask 0, .handle presentSetup,
        toreDown 2, .runTask 0, .handle presentSetup]
    (overlays.run (.idle "DP-1" true) events).Done ∧
      (overlays.run (.idle "DP-1" true) events).FollowsEngine ∧
        overlays.Steps OverlayState.SparesNewer (.idle "DP-1" true) events := by
  intro events
  have hordered : (overlays.run (.idle "DP-1" true) events).EndsInOrder ∧
      overlays.Steps OverlayState.TakesInOrder (.idle "DP-1" true) events := by
    decide +kernel
  refine ⟨by decide +kernel, ?_⟩
  exact (overlay_follows_engine "DP-1" true events (by decide +kernel)).mpr hordered

end Dormant
