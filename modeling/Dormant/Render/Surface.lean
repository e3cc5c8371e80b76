import Dormant.Displays.Executor

/-!
# The overlay on the render thread

The surface of `WaylandState`, and what `handle_show`, `handle_show_screensaver` and
`handle_teardown` of `state.rs` do to it, with the replies to the shows. Layer surfaces are numbered
as they are created. What the compositor and the machine have for a command comes with it, as its
`ShowSetup`.
-/

namespace Dormant
set_option autoImplicit false

/-- A command on the channel. The settings of a screensaver are left out. -/
inductive RenderCommand where
  | show (gen : UInt64) (idx : ℕ) (kind : StageKind)
  | showScreensaver (gen : UInt64) (idx : ℕ)
  | teardown (gen : UInt64)
  deriving DecidableEq, Repr

structure PendingShow where
  gen : UInt64
  kind : StageKind
  layerSurface : ℕ
  deriving DecidableEq, Repr

/-- The reply to a show. A reply that is dropped is `none`. -/
structure ShowReply where
  gen : UInt64
  result : Option (Except CmdFailure Unit)

/-- The reply of a session goes out with its first frame. -/
structure SessionReply where
  pendingGen : UInt64
  pendingReply : Bool
  deriving DecidableEq, Repr

/-- Of the live surface, `content` is the generation of the show that made or last swapped it. -/
structure WaylandState where
  outputName : String
  layerSurface : Option ℕ
  surfaceUp : Bool
  pendingShow : Option PendingShow
  screensaverSession : Option SessionReply
  content : Option UInt64
  nextSurface : ℕ
  deriving DecidableEq, Repr

/-- Whether the output is found, and how the black buffer or the screensaver fails to be set up. -/
structure ShowSetup where
  located : Bool
  blackError : Option String
  installError : Option String
  deriving DecidableEq, Repr

def eRenderUnavailable : String := "E_RENDER_UNAVAILABLE"

def renderFailure (controller detail : String) : CmdFailure where
  controller := controller
  error := eRenderUnavailable ++ ": " ++ detail

/-- `{kind:?}`. -/
def StageKind.debug : StageKind → String
  | .controller mode => "Controller(" ++ mode.debug ++ ")"
  | .renderBlack => "RenderBlack"
  | .renderScreensaver => "RenderScreensaver"

namespace WaylandState
variable (s : WaylandState)

def outputNotFound : CmdFailure :=
  renderFailure "render-black" ("output '" ++ s.outputName ++ "' not found")

/-- The reply that a session still owes is dropped with it. -/
def destroyScreensaverSession : WaylandState × List ShowReply :=
  ({ s with screensaverSession := none },
    (s.screensaverSession.filter SessionReply.pendingReply).toList.map fun session =>
      { gen := session.pendingGen, result := none })

def failPendingShow (error : CmdFailure) : WaylandState × List ShowReply :=
  ({ s with pendingShow := none },
    s.pendingShow.toList.map fun pending => { gen := pending.gen, result := some (.error error) })

def destroySurface : WaylandState × List ShowReply :=
  let destroyed := s.destroyScreensaverSession
  let failed := destroyed.1.failPendingShow
    (renderFailure "render-black" "teardown raced with pending show")
  ({ failed.1 with layerSurface := none, surfaceUp := false, content := none },
    destroyed.2 ++ failed.2)

/-- The generation is not looked at. -/
def handleTeardown (_gen : UInt64) : WaylandState × List ShowReply := s.destroySurface

/-- Any show that is still pending is dropped, with its surface and its reply. -/
def createPending (gen : UInt64) (kind : StageKind) : WaylandState × List ShowReply :=
  ({ s with
      pendingShow := some { gen, kind, layerSurface := s.nextSurface }
      nextSurface := s.nextSurface + 1 },
    s.pendingShow.toList.map fun pending => { gen := pending.gen, result := none })

def handleShow (setup : ShowSetup) (gen : UInt64) : StageKind → WaylandState × List ShowReply
  | .renderBlack =>
    if setup.located = false then (s, [{ gen, result := some (.error s.outputNotFound) }])
    else if s.layerSurface.isSome ∧ s.surfaceUp then
      let destroyed := s.destroyScreensaverSession
      match setup.blackError with
      | none =>
        ({ destroyed.1 with content := some gen },
          destroyed.2 ++ [{ gen, result := some (.ok ()) }])
      | some _ =>
        (destroyed.1, destroyed.2 ++ [{
          gen
          result := some
            (.error (renderFailure "render-black" "could not build black fallback buffer")) }])
    else
      let destroyed := s.destroySurface
      let created := destroyed.1.createPending gen .renderBlack
      (created.1, destroyed.2 ++ created.2)
  | kind =>
    (s, [{
      gen
      result := some (.error (renderFailure "render-black"
        ("stage " ++ kind.debug ++ " not implemented in this backend"))) }])

/-- The caller logs the error, and the reply is dropped. -/
def completeScreensaverShow (setup : ShowSetup) (gen : UInt64) (layerSurface : ℕ) :
    WaylandState × List ShowReply :=
  let destroyed := s.destroyScreensaverSession
  match setup.installError with
  | some _ => (destroyed.1, destroyed.2 ++ [{ gen, result := none }])
  | none =>
    ({ destroyed.1 with
        screensaverSession := some { pendingGen := gen, pendingReply := true }
        layerSurface := some layerSurface
        surfaceUp := true
        content := some gen },
      destroyed.2)

def handleShowScreensaver (setup : ShowSetup) (gen : UInt64) : WaylandState × List ShowReply :=
  if setup.located = false then (s, [{ gen, result := some (.error s.outputNotFound) }])
  else
    match s.layerSurface, s.surfaceUp with
    | some existing, true => s.completeScreensaverShow setup gen existing
    | _, _ => s.createPending gen .renderScreensaver

def handleCommand (setup : ShowSetup) : RenderCommand → WaylandState × List ShowReply
  | .show gen _ kind => s.handleShow setup gen kind
  | .showScreensaver gen _ => s.handleShowScreensaver setup gen
  | .teardown gen => s.handleTeardown gen

def completePendingShow (setup : ShowSetup) : WaylandState × List ShowReply :=
  match s.pendingShow with
  | none => (s, [])
  | some pending =>
    let taken := { s with pendingShow := none }
    if pending.kind = .renderScreensaver then
      taken.completeScreensaverShow setup pending.gen pending.layerSurface
    else
      match setup.blackError with
      | none =>
        ({ taken with
            layerSurface := some pending.layerSurface
            surfaceUp := true
            content := some pending.gen },
          [{ gen := pending.gen, result := some (.ok ()) }])
      | some e =>
        (taken, [{
          gen := pending.gen
          result := some (.error (renderFailure "render-black" ("shm buffer: " ++ e))) }])

/-- A configure of the live surface tells its size. Any other but that of the pending surface is
stale. -/
def configure (setup : ShowSetup) (surface : ℕ) : WaylandState × List ShowReply :=
  if s.pendingShow.map PendingShow.layerSurface = some surface then s.completePendingShow setup
  else (s, [])

/-- A timer of another show is stale. -/
def handleConfigureTimeout (gen : UInt64) : WaylandState × List ShowReply :=
  if s.pendingShow.map PendingShow.gen = some gen then
    s.failPendingShow
      (renderFailure "render-black" "compositor did not configure layer surface in 2s")
  else (s, [])

end WaylandState

end Dormant
