import Mathlib.Data.List.Nodup
import Mathlib.Order.Lattice
import Dormant.Render.Crossfade

/-!
# What the steps of a crossfade do

A batch of events settles, waits or ends a cycle of the transition, and from it follows what each
step makes of the session and of the timers that are registered.
-/

namespace Dormant
set_option autoImplicit false

namespace ScreensaverState
variable (s : ScreensaverState)

def timerToken : Option ℕ := s.session.bind ScreensaverSession.timerToken

/-- The transition, while it fades. -/
def fade : Option TransitionState :=
  (s.session.bind ScreensaverSession.transition).filter fun tr => decide (tr.phase = .fading)

def backBusy : Prop :=
  ∃ session ∈ s.session, session.buffersBusy session.nextRenderIdx = true

/-- An item ends in the middle of a fade. -/
def EndsInFade : ScreensaverEvent → Prop
  | .wakeup mpvEvents _ _ => .itemEnded ∈ mpvEvents ∧ s.fade.isSome = true
  | _ => False

/-- The loop takes the timers, and a duration has a positive step. -/
def Inserts (_s : ScreensaverState) : ScreensaverEvent → Prop
  | .install session => 0 < session.tStep
  | .wakeup _ _ inserted => inserted = true
  | _ => True

/-- The timers of the loop that the session does not know of. -/
def leaked : List TransitionTimer := (s.remove s.timerToken).timers

end ScreensaverState

/-! ## A batch of events -/

def TransitionPhase.Waits (phase : TransitionPhase) : Prop :=
  phase = .captured ∨ phase = .awaitingFirstFrame

/-- Between the end of an item and the first frame of the next, a batch changes only the phase. -/
theorem processMpvEvents_waits (mpvEvents : List MpvItemEvent)
    (x : TransitionState × ProcessCmds) (h : x.1.phase.Waits) :
    ∃ phase : TransitionPhase, phase.Waits ∧
      mpvEvents.foldl processMpvEvent x = ({ x.1 with phase := phase }, x.2) := by
  induction mpvEvents generalizing x with
  | nil => exact ⟨x.1.phase, h, rfl⟩
  | cons ev mpvEvents ih =>
    have hstep : ∃ phase : TransitionPhase, phase.Waits ∧
        processMpvEvent x ev = ({ x.1 with phase := phase }, x.2) := by
      unfold processMpvEvent
      rcases h with h | h <;> cases ev <;> rw [h]
      · exact ⟨_, .inl rfl, rfl⟩
      · exact ⟨_, .inr rfl, rfl⟩
      · exact ⟨_, .inl rfl, rfl⟩
      · exact ⟨_, .inr rfl, rfl⟩
    obtain ⟨phase, hphase, hev⟩ := hstep
    obtain ⟨phase', hphase', hrest⟩ := ih ({ x.1 with phase := phase }, x.2) hphase
    exact ⟨phase', hphase', by rw [List.foldl_cons, hev, hrest]⟩

/-- The first item that ends starts a new cycle. -/
theorem processMpvEvents_settled (mpvEvents : List MpvItemEvent)
    (x : TransitionState × ProcessCmds) (h : ¬x.1.phase.Waits) :
    (.itemEnded ∉ mpvEvents → mpvEvents.foldl processMpvEvent x = x) ∧
      (.itemEnded ∈ mpvEvents → ∃ phase : TransitionPhase, phase.Waits ∧
        mpvEvents.foldl processMpvEvent x =
          ({ x.1 with phase := phase, t := 0, timerToken := none },
            { x.2 with capturePending := true })) := by
  induction mpvEvents generalizing x with
  | nil => exact ⟨fun _ => rfl, fun hmem => by cases hmem⟩
  | cons ev mpvEvents ih =>
    cases ev with
    | itemEnded =>
      refine ⟨fun hmem => absurd List.mem_cons_self hmem, fun _ => ?_⟩
      have hev : processMpvEvent x .itemEnded =
          ({ x.1 with phase := .captured, t := 0, timerToken := none },
            { x.2 with capturePending := true }) := by
        unfold processMpvEvent
        cases hphase : x.1.phase with
        | idle => rfl
        | fading => rfl
        | captured => exact absurd (.inl hphase) h
        | awaitingFirstFrame => exact absurd (.inr hphase) h
      obtain ⟨phase, hphase, hrest⟩ := processMpvEvents_waits mpvEvents
        ({ x.1 with phase := .captured, t := 0, timerToken := none },
          { x.2 with capturePending := true }) (.inl rfl)
      exact ⟨phase, hphase, by rw [List.foldl_cons, hev, hrest]⟩
    | itemLoaded =>
      have hev : processMpvEvent x .itemLoaded = x := by
        obtain ⟨⟨capture, phase, t, tStep, token⟩, cmds⟩ := x
        cases phase with
        | idle => rfl
        | fading => rfl
        | captured => exact absurd (.inl rfl) h
        | awaitingFirstFrame => exact absurd (.inr rfl) h
      have hmem : MpvItemEvent.itemEnded ∈ MpvItemEvent.itemLoaded :: mpvEvents ↔
          .itemEnded ∈ mpvEvents := by
        rw [List.mem_cons]
        exact or_iff_right (by decide)
      rw [hmem, List.foldl_cons, hev]
      exact ih x h

/-- What a batch makes of a transition. -/
inductive Processed (tStep : ℕ) (mpvEvents : List MpvItemEvent) :
    Option TransitionState → Option TransitionState × ProcessCmds → Prop
  | settled (transition : Option TransitionState) (hended : .itemEnded ∉ mpvEvents)
      (hphase : ∀ tr ∈ transition, ¬tr.phase.Waits) :
      Processed tStep mpvEvents transition (transition, ⟨false, false⟩)
  | waits (tr : TransitionState) (phase : TransitionPhase) (htr : tr.phase.Waits)
      (hphase : phase.Waits) :
      Processed tStep mpvEvents (some tr) (some { tr with phase := phase }, ⟨false, false⟩)
  | ends (transition : Option TransitionState) (tr : TransitionState)
      (hended : .itemEnded ∈ mpvEvents) (hphase : tr.phase.Waits) (htoken : tr.timerToken = none)
      (ht : tr.t = 0) (hstep : tr.tStep = ((transition.map TransitionState.tStep).getD tStep)) :
      Processed tStep mpvEvents transition (some tr, ⟨true, false⟩)

theorem processMpvEvents_processed (transition : Option TransitionState)
    (mpvEvents : List MpvItemEvent) (tStep bufLen : ℕ) :
    Processed tStep mpvEvents transition
      (processMpvEvents transition mpvEvents tStep bufLen) := by
  unfold processMpvEvents
  cases transition with
  | none =>
    by_cases hended : .itemEnded ∈ mpvEvents
    · obtain ⟨phase, hphase, hfold⟩ := (processMpvEvents_settled mpvEvents
        (⟨List.replicate bufLen 0, .idle, 0, tStep, none⟩, ⟨false, false⟩)
        (fun hwaits => by rcases hwaits with hwaits | hwaits <;> cases hwaits)).2 hended
      simp only [if_pos hended, hfold]
      exact .ends none _ hended hphase rfl rfl rfl
    · simp only [if_neg hended]
      exact .settled none hended fun tr htr => by cases htr
  | some tr =>
    by_cases hphase : tr.phase.Waits
    · obtain ⟨phase, hwaits, hfold⟩ :=
        processMpvEvents_waits mpvEvents (tr, ⟨false, false⟩) hphase
      simp only [hfold]
      exact .waits tr phase hphase hwaits
    · obtain ⟨hstill, hends⟩ := processMpvEvents_settled mpvEvents (tr, ⟨false, false⟩) hphase
      by_cases hended : .itemEnded ∈ mpvEvents
      · obtain ⟨phase, hwaits, hfold⟩ := hends hended
        simp only [hfold]
        exact .ends (some tr) _ hended hwaits rfl rfl rfl
      · simp only [hstill hended]
        refine .settled (some tr) hended fun tr' htr => ?_
        obtain rfl := Option.some.inj htr
        exact hphase

/-! ## What a step makes of the timers -/

/-- Up to what is in its buffers, the session is as before. -/
def Redrawn (session session' : ScreensaverSession) : Prop :=
  session'.pendingGen = session.pendingGen ∧ session'.transitionMode = session.transitionMode ∧
    session'.tStep = session.tStep

/-- The token of a transition mirrors its timer. -/
structure Mirrors (timers : List TransitionTimer) (gen : UInt64) (tr : TransitionState) : Prop where
  token : tr.timerToken.isSome = decide (tr.phase = .fading)
  registered : ∀ token ∈ tr.timerToken, ⟨token, gen⟩ ∈ timers
  start : tr.phase.Waits → tr.t = 0

/-- A session with its transition, if it has one. -/
structure WiredSession (timers : List TransitionTimer) (session : ScreensaverSession) : Prop where
  tStep : 0 < session.tStep
  mode : session.transitionMode ≠ .crossfade → session.transition = none
  step : ∀ tr ∈ session.transition, tr.tStep = session.tStep
  mirrors : ∀ tr ∈ session.transition, Mirrors timers session.pendingGen tr

structure Wired (s : ScreensaverState) : Prop where
  fresh : ∀ timer ∈ s.timers, timer.token < s.nextToken
  nodup : (s.timers.map TransitionTimer.token).Nodup
  session : ∀ session ∈ s.session, WiredSession s.timers session

theorem waits_ne_fading {phase : TransitionPhase} (h : phase.Waits) : phase ≠ .fading := by
  rcases h with h | h <;> rw [h] <;> decide

/-- The session of a step with a new transition. -/
theorem wiredSession_of {timers timers' : List TransitionTimer}
    {session session' : ScreensaverSession} {tr : TransitionState}
    (h : WiredSession timers session) (hredrawn : Redrawn session session')
    (hmode : session.transitionMode = .crossfade) (htransition : session'.transition = some tr)
    (hstep : tr.tStep = session.tStep) (hmirrors : Mirrors timers' session.pendingGen tr) :
    WiredSession timers' session' := by
  obtain ⟨hgen, hmode', htStep⟩ := hredrawn
  refine ⟨?_, fun hother => absurd (hmode'.trans hmode) hother, fun tr' htr => ?_,
    fun tr' htr => ?_⟩
  · rw [htStep]
    exact h.tStep
  · obtain rfl := Option.some.inj (htransition.symm.trans htr)
    exact hstep.trans htStep.symm
  · obtain rfl := Option.some.inj (htransition.symm.trans htr)
    rw [hgen]
    exact hmirrors

theorem WiredSession.crossfade {timers : List TransitionTimer} {session : ScreensaverSession}
    {tr : TransitionState} (h : WiredSession timers session) (htr : session.transition = some tr) :
    session.transitionMode = .crossfade := by
  by_contra hother
  rw [h.mode hother] at htr
  cases htr

namespace ScreensaverState

/-- What a step makes of the session and its timer. -/
inductive Stepped (s : ScreensaverState) (e : ScreensaverEvent) (s' : ScreensaverState) : Prop
  | gone (hsession : s'.session = none) (htimers : s'.timers = s.leaked)
      (hnext : s'.nextToken = s.nextToken) (hends : ¬s.EndsInFade e)
      (hfree : ∀ token rendered, e = .tick token rendered → some token = s.timerToken → ¬s.backBusy)
  | lost (hsession : s'.session = none) (htimers : s'.timers = s.timers)
      (hnext : s'.nextToken = s.nextToken) (hends : s.EndsInFade e)
  | installed (session : ScreensaverSession) (hsession : s'.session = some session)
      (htimers : s'.timers = s.leaked) (hnext : s'.nextToken = s.nextToken)
      (hends : ¬s.EndsInFade e) (htick : ∀ token rendered, e ≠ .tick token rendered)
      (hstep : 0 < session.tStep) (hnone : session.transition = none)
  | kept (session session' : ScreensaverSession) (hbefore : s.session = some session)
      (hsession : s'.session = some session') (hredrawn : Redrawn session session')
      (htimers : s'.timers = s.timers) (hnext : s'.nextToken = s.nextToken)
      (hends : ¬s.EndsInFade e)
      (hbusy : ∀ token rendered, e = .tick token rendered → some token = s.timerToken → s.backBusy)
      (htransition : session'.transition = session.transition)
  | waits (session session' : ScreensaverSession) (tr : TransitionState)
      (hbefore : s.session = some session) (hsession : s'.session = some session')
      (hredrawn : Redrawn session session') (htimers : s'.timers = s.timers)
      (hnext : s'.nextToken = s.nextToken) (hmode : session.transitionMode = .crossfade)
      (hends : s.EndsInFade e ∧ tr.capture = session.front ∨ ¬s.EndsInFade e ∧ s.timerToken = none)
      (htick : ∀ token rendered, e ≠ .tick token rendered)
      (htransition : session'.transition = some tr) (hphase : tr.phase.Waits)
      (htoken : tr.timerToken = none) (ht : tr.t = 0) (hstep : tr.tStep = session.tStep)
  | arms (session session' : ScreensaverSession) (tr : TransitionState)
      (hbefore : s.session = some session) (hsession : s'.session = some session')
      (hredrawn : Redrawn session session')
      (htimers : s'.timers = s.timers ++ [⟨s.nextToken, session.pendingGen⟩])
      (hnext : s'.nextToken = s.nextToken + 1) (hmode : session.transitionMode = .crossfade)
      (hends : s.EndsInFade e ∧ tr.capture = session.front ∨ ¬s.EndsInFade e ∧ s.timerToken = none)
      (htick : ∀ token rendered, e ≠ .tick token rendered)
      (htransition : session'.transition = some tr) (hphase : tr.phase = .fading)
      (htoken : tr.timerToken = some s.nextToken) (ht : tr.t = 0)
      (hstep : tr.tStep = session.tStep)
  | ticks (session session' : ScreensaverSession) (tr : TransitionState)
      (hbefore : s.session = some session) (hsession : s'.session = some session')
      (hredrawn : Redrawn session session') (htimers : s'.timers = s.timers)
      (hnext : s'.nextToken = s.nextToken) (hfree : ¬s.backBusy)
      (htick : ∃ token rendered, e = .tick token rendered ∧
        token ∈ s.timers.map TransitionTimer.token)
      (htr : session.transition = some tr) (hphase : tr.phase = .fading)
      (ht : tr.t + tr.tStep < tMax)
      (htransition : session'.transition = some { tr with t := tr.t + tr.tStep })
  | completes (session session' : ScreensaverSession) (tr : TransitionState)
      (hbefore : s.session = some session) (hsession : s'.session = some session')
      (hredrawn : Redrawn session session') (htimers : s'.timers = s.leaked)
      (hnext : s'.nextToken = s.nextToken) (hfree : ¬s.backBusy)
      (htick : ∃ token rendered, e = .tick token rendered ∧
        token ∈ s.timers.map TransitionTimer.token)
      (htr : session.transition = some tr) (hphase : tr.phase = .fading)
      (ht : tMax ≤ tr.t + tr.tStep)
      (htransition : session'.transition =
        some { tr with phase := .idle, t := tMax, timerToken := none })

variable {s : ScreensaverState} {e : ScreensaverEvent}

theorem leaked_of_none (h : s.timerToken = none) : s.leaked = s.timers := by
  unfold leaked
  rw [h]
  exact List.filter_eq_self.mpr fun timer _ => by simp

/-- The own timer of a wired session. -/
theorem own_timer (h : Wired s) {token : ℕ} (htoken : some token = s.timerToken) :
    ∃ session tr, s.session = some session ∧ session.transition = some tr ∧
      tr.timerToken = some token ∧ tr.phase = .fading ∧ session.transitionMode = .crossfade ∧
        ⟨token, session.pendingGen⟩ ∈ s.timers := by
  obtain ⟨session, hsession, hown⟩ := Option.bind_eq_some_iff.mp htoken.symm
  obtain ⟨tr, htr, hown⟩ := Option.bind_eq_some_iff.mp hown
  have hwired := h.session session hsession
  have hmirrors := hwired.mirrors tr htr
  refine ⟨session, tr, hsession, htr, hown, ?_, ?_, hmirrors.registered token hown⟩
  · have hfading := hmirrors.token
    rw [hown] at hfading
    exact of_decide_eq_true hfading.symm
  · by_contra hmode
    rw [hwired.mode hmode] at htr
    cases htr

theorem stepped_self (hends : ¬s.EndsInFade e)
    (hbusy : ∀ token rendered, e = .tick token rendered → some token = s.timerToken →
      s.backBusy) : Stepped s e s := by
  cases hsession : s.session with
  | none =>
    have hnone : s.timerToken = none := by
      unfold timerToken
      rw [hsession]
      rfl
    refine .gone hsession (leaked_of_none hnone).symm rfl hends fun token rendered he htoken => ?_
    rw [hnone] at htoken
    cases htoken
  | some session =>
    exact .kept session session hsession hsession ⟨rfl, rfl, rfl⟩ rfl rfl hends hbusy rfl

theorem destroy_spec (s : ScreensaverState) : s.destroyScreensaverSession.session = none ∧
    s.destroyScreensaverSession.timers = s.leaked ∧
      s.destroyScreensaverSession.nextToken = s.nextToken := by
  unfold destroyScreensaverSession
  cases hsession : s.session with
  | none =>
    refine ⟨hsession, (leaked_of_none ?_).symm, rfl⟩
    unfold timerToken
    rw [hsession]
    rfl
  | some session =>
    refine ⟨rfl, ?_, rfl⟩
    unfold leaked timerToken
    rw [hsession]
    rfl

/-- The session is destroyed by a step that is no tick of a busy session. -/
theorem stepped_destroy (hends : ¬s.EndsInFade e)
    (hfree : ∀ token rendered, e = .tick token rendered → some token = s.timerToken →
      ¬s.backBusy) : Stepped s e s.destroyScreensaverSession := by
  obtain ⟨hsession, htimers, hnext⟩ := destroy_spec s
  exact .gone hsession htimers hnext hends hfree

theorem tickStep_of_ne {phase : TransitionPhase} (h : phase ≠ .fading) (t tStep : ℕ) :
    tickStep phase t tStep = (phase, t, .noTickOp) := if_pos h

theorem tickStep_fading {t tStep : ℕ} :
    tickStep .fading t tStep =
      if t + tStep < tMax then (.fading, t + tStep, .advance) else (.idle, tMax, .complete) := by
  have hmax : tMax = 256 := rfl
  unfold tickStep
  rw [if_neg (by decide)]
  dsimp only
  by_cases h : t + tStep < tMax
  · rw [if_pos h, Nat.min_eq_left (by omega), if_neg (by omega)]
  · rw [if_neg h, if_pos (by omega)]

theorem onTransitionTick_stepped (h : Wired s) {token : ℕ} {timer : TransitionTimer}
    (htimer : timer ∈ s.timers) (htoken : timer.token = token)
    (rendered : Option (List UInt8)) :
    Stepped s (.tick token rendered) (s.onTransitionTick timer.gen rendered) := by
  have hends : ¬s.EndsInFade (.tick token rendered) := fun h => h
  have hregistered : token ∈ s.timers.map TransitionTimer.token :=
    List.mem_map.mpr ⟨timer, htimer, htoken⟩
  -- The timer of the fade finds its session.
  have hown (session : ScreensaverSession) (hsession : s.session = some session)
      (hmine : some token = s.timerToken) :
      timer.gen = session.pendingGen ∧ session.transitionMode = .crossfade ∧
        ∃ tr, session.transition = some tr ∧ tr.phase = .fading := by
    obtain ⟨session', tr, hsession', htr, -, hphase, hmode, hmem⟩ := own_timer h hmine
    obtain rfl := Option.some.inj (hsession.symm.trans hsession')
    have heq : timer = ⟨token, session.pendingGen⟩ :=
      List.inj_on_of_nodup_map h.nodup htimer hmem htoken
    exact ⟨by rw [heq], hmode, tr, htr, hphase⟩
  unfold onTransitionTick
  cases hsession : s.session with
  | none =>
    refine stepped_self hends fun token' rendered' he hmine => ?_
    obtain ⟨rfl, -⟩ := ScreensaverEvent.tick.inj he
    obtain ⟨session, tr, hsession', -⟩ := own_timer h hmine
    rw [hsession] at hsession'
    cases hsession'
  | some session =>
    dsimp only
    by_cases hother : session.pendingGen ≠ timer.gen ∨ session.transitionMode ≠ .crossfade
    · rw [if_pos hother]
      refine stepped_self hends fun token' rendered' he hmine => ?_
      obtain ⟨rfl, -⟩ := ScreensaverEvent.tick.inj he
      obtain ⟨hgen, hmode, -⟩ := hown session hsession hmine
      exact absurd hother (by simp only [hgen, hmode, ne_eq, not_true_eq_false, or_self,
        not_false_eq_true])
    · rw [if_neg hother]
      by_cases hbusy : session.buffersBusy session.nextRenderIdx = true
      · rw [if_pos hbusy]
        exact stepped_self hends fun _ _ _ _ => ⟨session, hsession, hbusy⟩
      · rw [if_neg hbusy]
        have hfree : ¬s.backBusy := fun ⟨session', hsession', hbusy'⟩ => by
          obtain rfl := Option.some.inj (hsession.symm.trans hsession')
          exact hbusy hbusy'
        cases rendered with
        | none => exact stepped_destroy hends fun _ _ _ _ => hfree
        | some frame =>
          cases htransition : session.transition with
          | none =>
            dsimp only [Option.map_none, Option.getD_none]
            rw [tickStep_of_ne (by decide)]
            refine .kept session _ hsession rfl ⟨rfl, rfl, rfl⟩ rfl rfl hends ?_ ?_
            · intro token' rendered' he hmine
              obtain ⟨rfl, -⟩ := ScreensaverEvent.tick.inj he
              obtain ⟨-, -, tr, htr, -⟩ := hown session hsession hmine
              rw [htransition] at htr
              cases htr
            · dsimp only [ScreensaverSession.commit]
              rw [htransition]
              rfl
          | some tr =>
            have hblend : session.blendT = tr.t := by
              unfold ScreensaverSession.blendT
              rw [htransition]
              rfl
            dsimp only [Option.map_some, Option.getD_some]
            rw [hblend]
            by_cases hphase : tr.phase = .fading
            · rw [hphase, tickStep_fading]
              by_cases ht : tr.t + tr.tStep < tMax
              · rw [if_pos ht]
                refine .ticks session _ tr hsession rfl ⟨rfl, rfl, rfl⟩ rfl rfl hfree
                  ⟨token, some frame, rfl, hregistered⟩ htransition hphase ht ?_
                dsimp only [ScreensaverSession.commit]
                rw [htransition, ← hphase]
                rfl
              · rw [if_neg ht]
                refine .completes session _ tr hsession rfl ⟨rfl, rfl, rfl⟩ ?_ rfl hfree
                  ⟨token, some frame, rfl, hregistered⟩ htransition hphase (by omega) ?_
                · unfold leaked timerToken
                  rw [hsession]
                  dsimp only [frameTicked]
                  unfold cancelTransitionTimerFor ScreensaverSession.timerToken
                  dsimp only [ScreensaverSession.commit, Option.bind_some]
                  rw [htransition]
                  rfl
                · dsimp only [ScreensaverSession.commit]
                  rw [htransition]
                  rfl
            · rw [tickStep_of_ne hphase]
              refine .kept session _ hsession rfl ⟨rfl, rfl, rfl⟩ rfl rfl hends ?_ ?_
              · intro token' rendered' he hmine
                obtain ⟨rfl, -⟩ := ScreensaverEvent.tick.inj he
                obtain ⟨-, -, tr', htr, hfading⟩ := hown session hsession hmine
                obtain rfl := Option.some.inj (htransition.symm.trans htr)
                exact absurd hfading hphase
              · dsimp only [ScreensaverSession.commit]
                rw [htransition]
                rfl

theorem fire_stepped (h : Wired s) (token : ℕ) (rendered : Option (List UInt8)) :
    Stepped s (.tick token rendered) (s.fire token rendered) := by
  unfold fire
  cases hfind : s.timers.find? fun timer => decide (timer.token = token) with
  | none =>
    refine stepped_self (fun h => h) fun token' rendered' he hmine => ?_
    obtain ⟨rfl, -⟩ := ScreensaverEvent.tick.inj he
    obtain ⟨session, -, -, -, -, -, -, hmem⟩ := own_timer h hmine
    have hother := List.find?_eq_none.mp hfind _ hmem
    exact absurd (decide_eq_true rfl) hother
  | some timer =>
    exact onTransitionTick_stepped h (List.mem_of_find?_eq_some hfind)
      (by simpa using List.find?_some hfind) rendered

/-- A wakeup after its batch: the transition waits for a frame, and it has no timer. -/
theorem arm_spec (wired : ScreensaverState) {session : ScreensaverSession} {tr : TransitionState}
    (hsession : wired.session = some session) (htransition : session.transition = some tr)
    (hphase : tr.phase = .fading) (htoken : tr.timerToken = none) :
    wired.armOrRearmTransitionTimer session.pendingGen true =
      { session := some { session with
          transition := some { tr with timerToken := some wired.nextToken } }
        timers := wired.timers ++ [⟨wired.nextToken, session.pendingGen⟩]
        nextToken := wired.nextToken + 1 } := by
  have hnone : session.timerToken = none := by
    unfold ScreensaverSession.timerToken
    rw [htransition]
    exact htoken
  unfold armOrRearmTransitionTimer
  rw [hsession]
  dsimp only
  rw [if_neg, if_pos rfl, htransition]
  · rfl
  · rw [hnone, htransition]
    rintro (hfading | hsome | hgen)
    · exact absurd hphase (of_decide_eq_false hfading)
    · cases hsome
    · exact hgen rfl

theorem remove_none (wired : ScreensaverState) : wired.remove none = wired := by
  have htimers : wired.timers.filter (fun timer => some timer.token ≠ none) = wired.timers :=
    List.filter_eq_self.mpr fun timer _ => by simp
  unfold remove
  rw [htimers]

theorem cancel_of_none (wired : ScreensaverState) {session : ScreensaverSession}
    (h : session.timerToken = none) :
    wired.cancelTransitionTimerFor session = { wired with session := some session } := by
  have htransition : (session.transition.map fun tr => { tr with timerToken := none }) =
      session.transition := by
    cases htransition : session.transition with
    | none => rfl
    | some tr =>
      have htoken : tr.timerToken = none := by
        unfold ScreensaverSession.timerToken at h
        rwa [htransition] at h
      exact congrArg (fun token => some { tr with timerToken := token }) htoken.symm
  unfold cancelTransitionTimerFor
  rw [h, remove_none, htransition]

/-- Outside the first half of a cycle, a rendered frame is committed. -/
theorem frameRendered_settled (wired : ScreensaverState) {session : ScreensaverSession}
    (hphase : ∀ tr ∈ session.transition, ¬tr.phase.Waits) (frame : List UInt8) (inserted : Bool) :
    ∃ session', Redrawn session session' ∧ session'.transition = session.transition ∧
      wired.frameRendered session frame inserted = { wired with session := some session' } := by
  unfold frameRendered
  split
  · rename_i tr hmode htransition
    have hstep : transitionStep tr.phase tr.t (.frameRendered true) = (tr.phase, tr.t, .noOp) := by
      cases hcurrent : tr.phase with
      | idle => rfl
      | captured => exact absurd (.inl hcurrent) (hphase tr htransition)
      | awaitingFirstFrame => exact absurd (.inr hcurrent) (hphase tr htransition)
      | fading => rfl
    rw [hstep]
    dsimp only
    rw [if_neg (by decide)]
    refine ⟨_, ?_, ?_, rfl⟩
    · exact ⟨rfl, rfl, rfl⟩
    · exact htransition.symm
  · exact ⟨session.commit frame session.captureClone session.blendT, ⟨rfl, rfl, rfl⟩, rfl, rfl⟩

/-- Outside the first half of a cycle, a wakeup only draws, or the session is destroyed. -/
theorem batchProcessed_settled {wired : ScreensaverState} {session : ScreensaverSession}
    (hsession : wired.session = some session)
    (hphase : ∀ tr ∈ session.transition, ¬tr.phase.Waits) (rendered : Option (List UInt8)) :
    wired.batchProcessed session false rendered true = wired.destroyScreensaverSession ∨
      ∃ session', Redrawn session session' ∧ session'.transition = session.transition ∧
        wired.batchProcessed session false rendered true =
          { wired with session := some session' } := by
  have hdefer : shouldDeferMpvCommit session.transition = false := by
    unfold shouldDeferMpvCommit
    cases htransition : session.transition with
    | none => rfl
    | some tr => exact decide_eq_false fun h => hphase tr htransition (.inl h)
  unfold batchProcessed
  rw [hdefer, if_neg (by decide), if_neg (by decide)]
  by_cases hbusy : session.buffersBusy session.nextRenderIdx = true
  · rw [if_pos hbusy]
    refine .inr ⟨session, ⟨rfl, rfl, rfl⟩, rfl, ?_⟩
    rw [← hsession]
  · rw [if_neg hbusy]
    cases rendered with
    | none => exact .inl rfl
    | some frame => exact .inr (frameRendered_settled wired hphase frame true)

/-- In the first half of a cycle, a wakeup waits, arms the timer or destroys the session. -/
theorem batchProcessed_waits (wired : ScreensaverState) {session : ScreensaverSession}
    {tr : TransitionState} (hmode : session.transitionMode = .crossfade)
    (htransition : session.transition = some tr) (hphase : tr.phase.Waits)
    (htoken : tr.timerToken = none) (rendered : Option (List UInt8)) :
    wired.batchProcessed session false rendered true = wired ∨
      wired.batchProcessed session false rendered true = wired.destroyScreensaverSession ∨
        ∃ session', Redrawn session session' ∧
          session'.transition =
            some { tr with phase := .fading, timerToken := some wired.nextToken } ∧
          wired.batchProcessed session false rendered true =
            { session := some session'
              timers := wired.timers ++ [⟨wired.nextToken, session.pendingGen⟩]
              nextToken := wired.nextToken + 1 } := by
  unfold batchProcessed
  rcases hphase with hphase | hphase
  · refine .inl (if_pos ?_)
    rw [htransition]
    exact decide_eq_true hphase
  · have hdefer : shouldDeferMpvCommit session.transition = false := by
      rw [htransition]
      exact decide_eq_false (by rw [hphase]; decide)
    rw [hdefer, if_neg (by decide), if_neg (by decide)]
    by_cases hbusy : session.buffersBusy session.nextRenderIdx = true
    · exact .inl (if_pos hbusy)
    · rw [if_neg hbusy]
      cases rendered with
      | none => exact .inr (.inl rfl)
      | some frame =>
        refine .inr (.inr ?_)
        have harms : wired.frameRendered session frame true =
            (wired.cancelTransitionTimerFor { session with
              transition := some { tr with phase := .fading }
              buffers := Function.update session.buffers session.nextRenderIdx frame
            }).armOrRearmTransitionTimer session.pendingGen true := by
          unfold frameRendered
          rw [hmode, htransition]
          dsimp only
          rw [hphase]
          rfl
        dsimp only
        rw [harms, cancel_of_none]
        · have hsession := arm_spec
            { wired with session := some { session with
              transition := some { tr with phase := .fading }
              buffers := Function.update session.buffers session.nextRenderIdx frame } }
            rfl rfl rfl htoken
          refine ⟨_, ?_, ?_, hsession⟩
          · exact ⟨rfl, rfl, rfl⟩
          · rfl
        · exact htoken

theorem not_endsInFade {mpvEvents : List MpvItemEvent} {rendered : Option (List UInt8)}
    {inserted : Bool} (h : .itemEnded ∈ mpvEvents → s.fade = none) :
    ¬s.EndsInFade (.wakeup mpvEvents rendered inserted) := by
  rintro ⟨hended, hfade⟩
  rw [h hended] at hfade
  cases hfade

theorem wakeup_not_tick (mpvEvents : List MpvItemEvent) (rendered : Option (List UInt8))
    (inserted : Bool) (token : ℕ) (frame : Option (List UInt8)) :
    ScreensaverEvent.wakeup mpvEvents rendered inserted ≠ .tick token frame := by
  intro h
  cases h

theorem fade_of_transition {session : ScreensaverSession} (hsession : s.session = some session) :
    s.fade = session.transition.filter fun tr => decide (tr.phase = .fading) := by
  unfold fade
  rw [hsession]
  rfl

theorem timerToken_of_session {session : ScreensaverSession} (hsession : s.session = some session) :
    s.timerToken = session.timerToken := by
  unfold timerToken
  rw [hsession]
  rfl

/-- A wakeup outside the first half of a cycle, without an end. -/
theorem wakeup_settled {mpvEvents : List MpvItemEvent} {session : ScreensaverSession}
    (hsession : s.session = some session) (hphase : ∀ tr ∈ session.transition, ¬tr.phase.Waits)
    (hended : .itemEnded ∈ mpvEvents → s.fade = none) (rendered : Option (List UInt8)) :
    Stepped s (.wakeup mpvEvents rendered true)
      ({ s with session := some session }.batchProcessed session false rendered true) := by
  have hsame : { s with session := some session } = s := by rw [← hsession]
  rw [hsame]
  rcases batchProcessed_settled hsession hphase rendered with
    hgone | ⟨session', hredrawn, htr, hkept⟩
  · rw [hgone]
    exact stepped_destroy (not_endsInFade hended)
      fun token frame he => absurd he (wakeup_not_tick _ _ _ token frame)
  · rw [hkept]
    exact .kept session session' hsession rfl hredrawn rfl rfl (not_endsInFade hended)
      (fun token frame he => absurd he (wakeup_not_tick _ _ _ token frame)) htr

/-- A wakeup that leaves the transition in the first half of a cycle, with its timer dropped. -/
theorem wakeup_waits {mpvEvents : List MpvItemEvent} {rendered : Option (List UInt8)}
    {session waiting : ScreensaverSession} {tr : TransitionState}
    (hsession : s.session = some session) (hredrawn : Redrawn session waiting)
    (hmode : session.transitionMode = .crossfade) (htransition : waiting.transition = some tr)
    (hphase : tr.phase.Waits) (htoken : tr.timerToken = none) (ht : tr.t = 0)
    (hstep : tr.tStep = session.tStep)
    (hends : s.EndsInFade (.wakeup mpvEvents rendered true) ∧ tr.capture = session.front ∨
      ¬s.EndsInFade (.wakeup mpvEvents rendered true) ∧ s.timerToken = none) :
    Stepped s (.wakeup mpvEvents rendered true)
      ({ s with session := some waiting }.batchProcessed waiting false rendered true) := by
  have htick := wakeup_not_tick mpvEvents rendered true
  rcases batchProcessed_waits { s with session := some waiting }
      (hredrawn.2.1.trans hmode) htransition hphase htoken rendered with
    hstill | hgone | ⟨session', hredrawn', htr, harmed⟩
  · rw [hstill]
    exact .waits session waiting tr hsession rfl hredrawn rfl rfl hmode hends htick htransition
      hphase htoken ht hstep
  · rw [hgone]
    have hwaiting : waiting.timerToken = none := by
      unfold ScreensaverSession.timerToken
      rw [htransition]
      exact htoken
    have hgone' : ScreensaverState.destroyScreensaverSession { s with session := some waiting } =
        { s with session := none } := by
      unfold destroyScreensaverSession
      dsimp only
      rw [hwaiting, remove_none]
    rw [hgone']
    rcases hends with ⟨hends, -⟩ | ⟨hends, hnone⟩
    · exact .lost rfl rfl rfl hends
    · exact .gone rfl (leaked_of_none hnone).symm rfl hends
        fun token frame he => absurd he (htick token frame)
  · rw [harmed]
    refine .arms session session' { tr with phase := .fading, timerToken := some s.nextToken }
      hsession rfl ?_ ?_ rfl hmode hends htick htr rfl rfl ht hstep
    · exact ⟨hredrawn'.1.trans hredrawn.1, hredrawn'.2.1.trans hredrawn.2.1,
        hredrawn'.2.2.trans hredrawn.2.2⟩
    · rw [hredrawn.1]

/-- The session knows of a timer exactly while it fades. -/
theorem timerToken_fade (h : Wired s) : s.timerToken.isSome = s.fade.isSome := by
  cases hsession : s.session with
  | none =>
    unfold timerToken fade
    rw [hsession]
    rfl
  | some session =>
    rw [timerToken_of_session hsession, fade_of_transition hsession]
    unfold ScreensaverSession.timerToken
    cases htransition : session.transition with
    | none => rfl
    | some tr =>
      refine (((h.session session hsession).mirrors tr htransition).token).trans ?_
      cases hfading : decide (tr.phase = .fading) with
      | true =>
        rw [Option.filter_some_pos (by exact hfading)]
        rfl
      | false =>
        rw [Option.filter_some_neg (by exact hfading)]
        rfl

theorem onMpvWakeup_stepped (h : Wired s) (mpvEvents : List MpvItemEvent)
    (rendered : Option (List UInt8)) :
    Stepped s (.wakeup mpvEvents rendered true) (s.onMpvWakeup mpvEvents rendered true) := by
  unfold onMpvWakeup
  cases hsession : s.session with
  | none =>
    refine stepped_self (not_endsInFade fun _ => ?_)
      fun token frame he => absurd he (wakeup_not_tick _ _ _ token frame)
    unfold fade
    rw [hsession]
    rfl
  | some session =>
    have hwired := h.session session hsession
    dsimp only
    by_cases hmode : session.transitionMode = .crossfade
    · rw [if_pos hmode]
      have hprocessed := processMpvEvents_processed session.transition mpvEvents session.tStep
        session.bufLen
      generalize processMpvEvents session.transition mpvEvents session.tStep session.bufLen =
        processed at hprocessed
      generalize htransition : session.transition = transition at hprocessed
      cases hprocessed with
      | settled _ hended hphase =>
        have hsame : { session with transition := transition } = session := by rw [← htransition]
        dsimp only
        rw [if_neg (by decide), hsame]
        rw [← htransition] at hphase
        exact wakeup_settled hsession hphase (fun hmem => absurd hmem hended) rendered
      | waits tr phase htr hphase =>
        dsimp only
        rw [if_neg (by decide)]
        have hmirrors := hwired.mirrors tr htransition
        have htoken : tr.timerToken = none := by
          have hsome := hmirrors.token
          rw [decide_eq_false (by rcases htr with htr | htr <;> rw [htr] <;> decide)] at hsome
          exact Option.isSome_eq_false_iff.mp hsome |> Option.isNone_iff_eq_none.mp
        refine wakeup_waits hsession ⟨rfl, rfl, rfl⟩ hmode rfl hphase htoken
          (hmirrors.start htr) (hwired.step tr htransition) (.inr ⟨not_endsInFade fun _ => ?_, ?_⟩)
        · rw [fade_of_transition hsession, htransition]
          exact Option.filter_some_neg (by rcases htr with htr | htr <;> rw [htr] <;> decide)
        · rw [timerToken_of_session hsession]
          unfold ScreensaverSession.timerToken
          rw [htransition]
          exact htoken
      | ends _ tr hended hphase htoken ht hstep =>
        dsimp only
        rw [if_pos rfl, cancel_of_none]
        · have htStep : tr.tStep = session.tStep := by
            cases htransition' : transition with
            | none =>
              rw [htransition'] at hstep
              exact hstep
            | some before =>
              rw [htransition'] at hstep
              exact hstep.trans (hwired.step before (htransition.trans htransition'))
          refine wakeup_waits hsession ⟨rfl, rfl, rfl⟩ hmode rfl hphase htoken ht htStep ?_
          cases hfade : s.fade with
          | some before => exact .inl ⟨⟨hended, by rw [hfade]; rfl⟩, rfl⟩
          | none =>
            refine .inr ⟨not_endsInFade fun _ => hfade, ?_⟩
            have hsome := timerToken_fade h
            rw [hfade] at hsome
            exact Option.isSome_eq_false_iff.mp hsome |> Option.isNone_iff_eq_none.mp
        · exact htoken
    · rw [if_neg hmode]
      have hnone := hwired.mode hmode
      have hsame : { session with transition := none } = session := by rw [← hnone]
      dsimp only
      rw [if_neg (by decide), hsame]
      refine wakeup_settled hsession (fun tr htr => ?_) (fun _ => ?_) rendered
      · rw [hnone] at htr
        cases htr
      · rw [fade_of_transition hsession, hnone]
        rfl

/-- A step that installs a session without a transition in place of another. -/
theorem stepped_installed {s' : ScreensaverState} (session : ScreensaverSession)
    (hs' : s' = { s.destroyScreensaverSession with session := some session })
    (hends : ¬s.EndsInFade e) (htick : ∀ token rendered, e ≠ .tick token rendered)
    (hstep : 0 < session.tStep) (hnone : session.transition = none) : Stepped s e s' := by
  obtain ⟨-, htimers, hnext⟩ := destroy_spec s
  subst hs'
  exact .installed session rfl htimers hnext hends htick hstep hnone

theorem next_stepped (h : Wired s) (hinserts : s.Inserts e) : Stepped s e (s.next e) := by
  cases e with
  | install session =>
    exact stepped_installed _ rfl (fun h => h) (fun token rendered h => by cases h) hinserts rfl
  | destroy => exact stepped_destroy (fun h => h) fun token rendered h => by cases h
  | wakeup mpvEvents rendered inserted =>
    obtain rfl := hinserts
    exact onMpvWakeup_stepped h mpvEvents rendered
  | tick token rendered => exact fire_stepped h token rendered
  | itemLoadTimeout gen =>
    have htick (token : ℕ) (rendered : Option (List UInt8)) :
        ScreensaverEvent.itemLoadTimeout gen ≠ .tick token rendered := by
      intro h
      cases h
    dsimp only [next]
    unfold handleItemLoadTimeout
    dsimp only
    split
    · exact stepped_destroy (fun h => h) fun token rendered he => absurd he (htick token rendered)
    · exact stepped_self (fun h => h) fun token rendered he => absurd he (htick token rendered)
  | resize bufLen buffers =>
    have htick (token : ℕ) (rendered : Option (List UInt8)) :
        ScreensaverEvent.resize bufLen buffers ≠ .tick token rendered := by
      intro h
      cases h
    dsimp only [next]
    unfold rebuildScreensaverBuffers
    cases hsession : s.session with
    | none =>
      exact stepped_self (fun h => h) fun token rendered he => absurd he (htick token rendered)
    | some session =>
      cases buffers with
      | none =>
        exact stepped_destroy (fun h => h) fun token rendered he => absurd he (htick token rendered)
      | some buffers =>
        refine stepped_installed
          { session with
            transition := none
            buffers := buffers
            bufLen := bufLen
            nextRenderIdx := 1
            buffersBusy := fun n => decide (n = 0) }
          ?_ (fun h => h) htick (h.session session hsession).tStep rfl
        unfold destroyScreensaverSession cancelTransitionTimerFor
        rw [hsession]
  | release n =>
    have htick (token : ℕ) (rendered : Option (List UInt8)) :
        ScreensaverEvent.release n ≠ .tick token rendered := by
      intro h
      cases h
    cases hsession : s.session with
    | none =>
      have hsame : s.next (.release n) = s := by
        dsimp only [next, release]
        rw [hsession, Option.map_none, ← hsession]
      rw [hsame]
      exact stepped_self (fun h => h) fun token rendered he => absurd he (htick token rendered)
    | some session =>
      refine .kept session
        { session with buffersBusy := Function.update session.buffersBusy n false } hsession ?_
        ⟨rfl, rfl, rfl⟩ rfl rfl (fun h => h)
        (fun token rendered he => absurd he (htick token rendered)) rfl
      dsimp only [next, release]
      rw [hsession]
      rfl

end ScreensaverState

end Dormant
