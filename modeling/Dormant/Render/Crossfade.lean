import Mathlib.Logic.Function.Basic
import Dormant.Foundations.Runs

/-!
# The crossfade of a screensaver

The session of `WaylandState` with its transition, `process_mpv_events`, `on_mpv_wakeup` and
`on_transition_tick` of `state.rs`, and the transition timers that are registered with the event
loop. Tokens are numbered as the loop hands them out. What mpv draws comes with each event.
-/

namespace Dormant
set_option autoImplicit false

def tMax : ℕ := 256

/-- An item that ends or is loaded. The report on what is loaded is left out. -/
inductive MpvItemEvent where
  | itemEnded
  | itemLoaded
  deriving DecidableEq, Repr

inductive TransitionMode where
  | crossfade
  | none
  deriving DecidableEq, Repr

inductive TransitionPhase where
  | idle
  | captured
  | awaitingFirstFrame
  | fading
  deriving DecidableEq, Repr

inductive TransitionEvent where
  | itemEnded
  | itemLoaded
  | frameRendered (ok : Bool)
  deriving DecidableEq, Repr

inductive StepCmd where
  | noOp
  | dropTimer
  | armTimer
  deriving DecidableEq, Repr

inductive TickCmd where
  | noTickOp
  | advance
  | complete
  deriving DecidableEq, Repr

def transitionEventOf : MpvItemEvent → TransitionEvent
  | .itemEnded => .itemEnded
  | .itemLoaded => .itemLoaded

def transitionStep (phase : TransitionPhase) (t : ℕ) :
    TransitionEvent → TransitionPhase × ℕ × StepCmd
  | .itemEnded =>
    match phase with
    | .idle | .fading => (.captured, 0, .dropTimer)
    | .captured | .awaitingFirstFrame => (.captured, 0, .noOp)
  | .itemLoaded =>
    match phase with
    | .captured => (.awaitingFirstFrame, 0, .noOp)
    | phase => (phase, t, .noOp)
  | .frameRendered ok =>
    match phase, ok with
    | .awaitingFirstFrame, true => (.fading, 0, .armTimer)
    | phase, _ => (phase, t, .noOp)

/-- The sum saturates at `u16::MAX`. -/
def tickStep (phase : TransitionPhase) (t tStep : ℕ) : TransitionPhase × ℕ × TickCmd :=
  if phase ≠ .fading then (phase, t, .noTickOp)
  else
    let newT := min (t + tStep) 65535
    if tMax ≤ newT then (.idle, tMax, .complete) else (.fading, newT, .advance)

structure TransitionState where
  capture : List UInt8
  phase : TransitionPhase
  t : ℕ
  tStep : ℕ
  timerToken : Option ℕ
  deriving DecidableEq, Repr

structure ProcessCmds where
  capturePending : Bool
  armPending : Bool
  deriving DecidableEq, Repr

/-- One event of the batch. -/
def processMpvEvent (x : TransitionState × ProcessCmds) (ev : MpvItemEvent) :
    TransitionState × ProcessCmds :=
  let step := transitionStep x.1.phase x.1.t (transitionEventOf ev)
  match step.2.2 with
  | .noOp => ({ x.1 with phase := step.1 }, x.2)
  | .dropTimer =>
    ({ x.1 with phase := step.1, t := 0, timerToken := none }, { x.2 with capturePending := true })
  | .armTimer => ({ x.1 with phase := step.1, t := 0 }, { x.2 with armPending := true })

def processMpvEvents (transition : Option TransitionState) (mpvEvents : List MpvItemEvent)
    (tStep bufLen : ℕ) : Option TransitionState × ProcessCmds :=
  let fresh : TransitionState :=
    { capture := List.replicate bufLen 0, phase := .idle, t := 0, tStep, timerToken := none }
  let allocated :=
    match transition with
    | some tr => some tr
    | none => if .itemEnded ∈ mpvEvents then some fresh else none
  match allocated with
  | some tr =>
    let processed := mpvEvents.foldl processMpvEvent (tr, ⟨false, false⟩)
    (some processed.1, processed.2)
  | none => (none, ⟨false, false⟩)

def shouldDeferMpvCommit (transition : Option TransitionState) : Bool :=
  transition.any fun state => decide (state.phase = .captured)

def transitionLive (transition : Option TransitionState) : Bool :=
  transition.any fun state => decide (state.phase ≠ .idle)

/-- `out = capture*(1-t) + buf*t`, in units of `1/256`. -/
def blendInPlace (capture buf : List UInt8) (tFrac : ℕ) : List UInt8 :=
  let t := min tFrac tMax
  List.zipWith (fun c b => UInt8.ofNat ((c.toNat * (tMax - t) + b.toNat * t) / 256)) capture buf

/-- The buffers are the two halves of the pool, and `tStep` is that of `transition_duration`. -/
structure ScreensaverSession where
  buffers : Fin 2 → List UInt8
  bufLen : ℕ
  nextRenderIdx : Fin 2
  buffersBusy : Fin 2 → Bool
  pendingGen : UInt64
  transitionMode : TransitionMode
  transition : Option TransitionState
  tStep : ℕ

structure TransitionTimer where
  token : ℕ
  gen : UInt64
  deriving DecidableEq, Repr

structure ScreensaverState where
  session : Option ScreensaverSession
  timers : List TransitionTimer
  nextToken : ℕ

namespace ScreensaverSession
variable (session : ScreensaverSession)

def timerToken : Option ℕ := session.transition.bind TransitionState.timerToken

def front : List UInt8 := session.buffers (1 - session.nextRenderIdx)

def captureFrontIntoTransition : ScreensaverSession :=
  { session with
    transition := session.transition.map fun tr => { tr with capture := session.front } }

/-- The frame in the back buffer is blended with the capture while a transition is live, and
committed. -/
def commit (frame : List UInt8) (capture : List UInt8) (blendT : ℕ) : ScreensaverSession :=
  let drawn := if capture.isEmpty then frame else blendInPlace capture frame blendT
  { session with
    buffers := Function.update session.buffers session.nextRenderIdx drawn
    buffersBusy := Function.update session.buffersBusy session.nextRenderIdx true
    nextRenderIdx := 1 - session.nextRenderIdx }

def blendT : ℕ := (session.transition.map TransitionState.t).getD 0

def captureClone : List UInt8 :=
  if transitionLive session.transition then
    (session.transition.map TransitionState.capture).getD []
  else []

end ScreensaverSession

namespace ScreensaverState
variable (s : ScreensaverState)

def remove (token : Option ℕ) : ScreensaverState :=
  { s with timers := s.timers.filter fun timer => some timer.token ≠ token }

def cancelTransitionTimerFor (session : ScreensaverSession) : ScreensaverState :=
  { s.remove session.timerToken with
    session := some { session with
      transition := session.transition.map fun tr => { tr with timerToken := none } } }

/-- The session's other sources are left out. -/
def destroyScreensaverSession : ScreensaverState :=
  match s.session with
  | none => s
  | some session => { s.remove session.timerToken with session := none }

/-- The black buffer is left out. -/
def failScreensaverToBlack : ScreensaverState := s.destroyScreensaverSession

def armOrRearmTransitionTimer (gen : UInt64) (inserted : Bool) : ScreensaverState :=
  match s.session with
  | none => s
  | some session =>
    let isFading := session.transition.any fun tr => decide (tr.phase = .fading)
    if isFading = false ∨ session.timerToken.isSome ∨ session.pendingGen ≠ gen then s
    else if inserted then
      { session := some { session with
          transition := session.transition.map fun tr =>
            { tr with timerToken := some s.nextToken } }
        timers := s.timers ++ [⟨s.nextToken, gen⟩]
        nextToken := s.nextToken + 1 }
    else s

/-- A wakeup whose frame is rendered. -/
def frameRendered (session : ScreensaverSession) (frame : List UInt8) (inserted : Bool) :
    ScreensaverState :=
  match session.transitionMode, session.transition with
  | .crossfade, some tr =>
    let step := transitionStep tr.phase tr.t (.frameRendered true)
    let stepped := { session with transition := some { tr with phase := step.1 } }
    if step.2.2 = .armTimer then
      (s.cancelTransitionTimerFor { stepped with
        buffers := Function.update session.buffers session.nextRenderIdx frame
      }).armOrRearmTransitionTimer session.pendingGen inserted
    else { s with session := some (stepped.commit frame stepped.captureClone stepped.blendT) }
  | _, _ =>
    { s with session := some (session.commit frame session.captureClone session.blendT) }

/-- A wakeup after its batch. -/
def batchProcessed (session : ScreensaverSession) (armPending : Bool)
    (rendered : Option (List UInt8)) (inserted : Bool) : ScreensaverState :=
  if shouldDeferMpvCommit session.transition then s
  else if armPending then s.armOrRearmTransitionTimer session.pendingGen inserted
  else if session.buffersBusy session.nextRenderIdx then s
  else
    match rendered with
    | none => s.failScreensaverToBlack
    | some frame => s.frameRendered session frame inserted

def onMpvWakeup (mpvEvents : List MpvItemEvent) (rendered : Option (List UInt8))
    (inserted : Bool) : ScreensaverState :=
  match s.session with
  | none => s
  | some session =>
    let processed :=
      if session.transitionMode = .crossfade then
        processMpvEvents session.transition mpvEvents session.tStep session.bufLen
      else (none, ⟨false, false⟩)
    let session := { session with transition := processed.1 }
    let wired :=
      if processed.2.capturePending then
        s.cancelTransitionTimerFor session.captureFrontIntoTransition
      else { s with session := some session }
    match wired.session with
    | none => wired
    | some session => wired.batchProcessed session processed.2.armPending rendered inserted

/-- A tick whose frame is rendered. It is blended at the progress before the tick. -/
def frameTicked (session : ScreensaverSession) (frame : List UInt8)
    (tick : TransitionPhase × ℕ × TickCmd) : ScreensaverState :=
  let ticked : ScreensaverSession := { session with
    transition := session.transition.map fun tr => { tr with phase := tick.1, t := tick.2.1 } }
  let committed := ticked.commit frame session.captureClone session.blendT
  if tick.2.2 = .complete then s.cancelTransitionTimerFor committed
  else { s with session := some committed }

def onTransitionTick (gen : UInt64) (rendered : Option (List UInt8)) : ScreensaverState :=
  match s.session with
  | none => s
  | some session =>
    if session.pendingGen ≠ gen ∨ session.transitionMode ≠ .crossfade then s
    else if session.buffersBusy session.nextRenderIdx then s
    else
      match rendered with
      | none => s.failScreensaverToBlack
      | some frame =>
        let tStep := (session.transition.map TransitionState.tStep).getD 1
        let phase := (session.transition.map TransitionState.phase).getD .idle
        s.frameTicked session frame (tickStep phase session.blendT tStep)

/-- An item that is not loaded before its deadline fails the session. -/
def handleItemLoadTimeout (gen : UInt64) : ScreensaverState :=
  let timedOut := s.session.any fun session =>
    decide (session.pendingGen = gen) &&
      session.transition.any fun tr => decide (tr.phase = .captured)
  if timedOut then s.failScreensaverToBlack else s

/-- The buffers of a session of the new size, if all goes well. -/
def rebuildScreensaverBuffers (bufLen : ℕ) (buffers : Option (Fin 2 → List UInt8)) :
    ScreensaverState :=
  match s.session with
  | none => s
  | some session =>
    match buffers with
    | none => s.failScreensaverToBlack
    | some buffers =>
      { s.cancelTransitionTimerFor session with
        session := some { session with
          transition := none
          buffers := buffers
          bufLen := bufLen
          nextRenderIdx := 1
          buffersBusy := fun n => decide (n = 0) } }

/-- A screensaver session takes over from any other. -/
def installSession (session : ScreensaverSession) : ScreensaverState :=
  { s.destroyScreensaverSession with session := some { session with transition := none } }

def release (n : Fin 2) : ScreensaverState :=
  { s with session := s.session.map fun session =>
      { session with buffersBusy := Function.update session.buffersBusy n false } }

end ScreensaverState

inductive ScreensaverEvent where
  | install (session : ScreensaverSession)
  | destroy
  | wakeup (mpvEvents : List MpvItemEvent) (rendered : Option (List UInt8)) (inserted : Bool)
  | tick (token : ℕ) (rendered : Option (List UInt8))
  | itemLoadTimeout (gen : UInt64)
  | resize (bufLen : ℕ) (buffers : Option (Fin 2 → List UInt8))
  | release (n : Fin 2)

namespace ScreensaverState
variable (s : ScreensaverState)

def fire (token : ℕ) (rendered : Option (List UInt8)) : ScreensaverState :=
  match s.timers.find? fun timer => timer.token = token with
  | none => s
  | some timer => s.onTransitionTick timer.gen rendered

def next : ScreensaverEvent → ScreensaverState
  | .install session => s.installSession session
  | .destroy => s.destroyScreensaverSession
  | .wakeup mpvEvents rendered inserted => s.onMpvWakeup mpvEvents rendered inserted
  | .tick token rendered => s.fire token rendered
  | .itemLoadTimeout gen => s.handleItemLoadTimeout gen
  | .resize bufLen buffers => s.rebuildScreensaverBuffers bufLen buffers
  | .release n => s.release n

end ScreensaverState

def screensavers : Runs.System ScreensaverState ScreensaverEvent Unit where
  next s e := (s.next e, [])

end Dormant
