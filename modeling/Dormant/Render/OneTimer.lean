import Dormant.Render.Fade

/-!
# The timer of a fade

A timer that is registered but not the session's own is leaked. Each step keeps the leaked timers
as they are, but for a batch in which an item ends in the middle of a fade. So there is one timer
while the transition fades, and none otherwise, exactly if no item ends so.
-/

namespace Dormant
set_option autoImplicit false

namespace ScreensaverState

section
variable (s : ScreensaverState)

/-- While the transition fades a timer is registered, and otherwise there is none. The session
knows of the timer. -/
structure OneTimer : Prop where
  timers : s.timers.length = if s.fade.isSome then 1 else 0
  token : s.timerToken.isSome = s.fade.isSome

/-- What a fade grows by when its timer fires. -/
def elapsed (before : TransitionState) : ScreensaverEvent → ℕ
  | .tick token _ => if some token = before.timerToken then before.tStep else 0
  | _ => 0

/-- A fade starts at zero and grows by a step with each tick of its timer until it completes. -/
structure Grows (e : ScreensaverEvent) : Prop where
  progress : ∀ tr ∈ (s.next e).fade,
    tr.t = match s.fade.filter fun before => decide (before.timerToken = tr.timerToken) with
      | some before => before.t + elapsed before e
      | none => 0
  completes : ∀ before ∈ s.fade, ∀ token rendered, e = .tick token rendered →
    some token = before.timerToken → (s.next e).session.isSome = true →
      ((s.next e).fade.isSome = true ↔ before.t + before.tStep < tMax)

/-- The next fade of the session starts from the captured frame. -/
def Restarts (e : ScreensaverEvent) : Prop :=
  s.EndsInFade e → ∀ session ∈ s.session, ∀ session' ∈ (s.next e).session,
    ∃ tr ∈ session'.transition, tr.capture = session.front ∧ tr.t = 0

/-- A tick of the session's timer finds the back buffer free. -/
def FindsFree : ScreensaverEvent → Prop
  | .tick token _ => some token = s.timerToken → ¬s.backBusy
  | _ => True

end

variable {s : ScreensaverState} {e : ScreensaverEvent}

theorem leaked_sublist (s : ScreensaverState) : s.leaked.Sublist s.timers := List.filter_sublist

/-- A session with what it has registered, after a step. -/
theorem wired_of {s s' : ScreensaverState} {timers : List TransitionTimer}
    (h : Wired s) (htimers : s'.timers = timers) (hsub : timers.Sublist s.timers)
    (hnext : s'.nextToken = s.nextToken)
    (hsession : ∀ session ∈ s'.session, WiredSession timers session) : Wired s' := by
  subst htimers
  refine ⟨fun timer htimer => ?_, h.nodup.sublist (hsub.map _), hsession⟩
  rw [hnext]
  exact h.fresh timer (hsub.subset htimer)

theorem Stepped.wired {s' : ScreensaverState} (h : Wired s) (hstep : Stepped s e s') :
    Wired s' := by
  cases hstep with
  | gone hsession htimers hnext =>
    exact wired_of h htimers (leaked_sublist s) hnext fun session hmem => by
      rw [hsession] at hmem
      cases hmem
  | lost hsession htimers hnext =>
    exact wired_of h htimers (List.Sublist.refl _) hnext fun session hmem => by
      rw [hsession] at hmem
      cases hmem
  | installed session hsession htimers hnext hends htick htStep hnone =>
    refine wired_of h htimers (leaked_sublist s) hnext fun session' hmem => ?_
    obtain rfl := Option.some.inj (hsession.symm.trans hmem)
    refine ⟨htStep, fun _ => hnone, fun tr htr => ?_, fun tr htr => ?_⟩ <;>
    · rw [hnone] at htr
      cases htr
  | kept session session' hbefore hsession hredrawn htimers hnext hends hbusy htransition =>
    refine wired_of h htimers (List.Sublist.refl _) hnext fun session'' hmem => ?_
    obtain rfl := Option.some.inj (hsession.symm.trans hmem)
    have hwired := h.session session hbefore
    obtain ⟨hgen, hmode, htStep⟩ := hredrawn
    refine ⟨?_, ?_, ?_, ?_⟩
    · rw [htStep]
      exact hwired.tStep
    · rw [hmode, htransition]
      exact hwired.mode
    · rw [htransition, htStep]
      exact hwired.step
    · rw [htransition, hgen]
      exact hwired.mirrors
  | waits session session' tr hbefore hsession hredrawn htimers hnext hmode hends htick htransition
      hphase htoken ht htStep =>
    refine wired_of h htimers (List.Sublist.refl _) hnext fun session'' hmem => ?_
    obtain rfl := Option.some.inj (hsession.symm.trans hmem)
    refine wiredSession_of (h.session session hbefore) hredrawn hmode htransition htStep
      ⟨?_, fun token hmem => ?_, fun _ => ht⟩
    · rw [htoken]
      exact (decide_eq_false (waits_ne_fading hphase)).symm
    · rw [htoken] at hmem
      cases hmem
  | arms session session' tr hbefore hsession hredrawn htimers hnext hmode hends htick htransition
      hphase htoken ht htStep =>
    refine ⟨fun timer htimer => ?_, ?_, fun session'' hmem => ?_⟩
    · rw [hnext]
      rw [htimers] at htimer
      rcases List.mem_append.mp htimer with htimer | htimer
      · have hlt := h.fresh timer htimer
        omega
      · obtain rfl := List.mem_singleton.mp htimer
        exact Nat.lt_succ_self _
    · rw [htimers, List.map_append]
      refine List.nodup_append.mpr ⟨h.nodup, List.nodup_singleton _, ?_⟩
      intro token hmem token' hmem'
      obtain ⟨timer, htimer, rfl⟩ := List.mem_map.mp hmem
      obtain rfl := List.mem_singleton.mp hmem'
      have hlt := h.fresh timer htimer
      exact Nat.ne_of_lt hlt
    · obtain rfl := Option.some.inj (hsession.symm.trans hmem)
      refine wiredSession_of (h.session session hbefore) hredrawn hmode htransition htStep
        ⟨?_, fun token hmem => ?_, fun _ => ht⟩
      · rw [htoken]
        exact (decide_eq_true hphase).symm
      · obtain rfl := Option.some.inj (htoken.symm.trans hmem)
        rw [htimers]
        exact List.mem_append_right _ (List.mem_singleton_self _)
  | ticks session session' tr hbefore hsession hredrawn htimers hnext hfree htick htr hphase ht
      htransition =>
    refine wired_of h htimers (List.Sublist.refl _) hnext fun session'' hmem => ?_
    obtain rfl := Option.some.inj (hsession.symm.trans hmem)
    have hwired := h.session session hbefore
    have hmirrors := hwired.mirrors tr htr
    exact wiredSession_of hwired hredrawn (hwired.crossfade htr) htransition (hwired.step tr htr)
      ⟨hmirrors.token, hmirrors.registered, fun hwaits => absurd hphase (waits_ne_fading hwaits)⟩
  | completes session session' tr hbefore hsession hredrawn htimers hnext hfree htick htr hphase ht
      htransition =>
    refine wired_of h htimers (leaked_sublist s) hnext fun session'' hmem => ?_
    obtain rfl := Option.some.inj (hsession.symm.trans hmem)
    have hwired := h.session session hbefore
    refine wiredSession_of hwired hredrawn (hwired.crossfade htr) htransition (hwired.step tr htr)
      ⟨rfl, fun token hmem => ?_, fun hwaits => ?_⟩
    · cases hmem
    · rcases hwaits with hwaits | hwaits <;> cases hwaits

/-- The session's own timer is registered once. -/
theorem timers_length (h : Wired s) :
    s.timers.length = s.leaked.length + if s.fade.isSome then 1 else 0 := by
  have hsplit := List.length_eq_length_filter_add (l := s.timers)
    fun timer => decide (some timer.token ≠ s.timerToken)
  have hleaked : s.leaked = s.timers.filter fun timer => decide (some timer.token ≠ s.timerToken) :=
    rfl
  rw [hsplit, hleaked, ← timerToken_fade h]
  congr 1
  cases hown : s.timerToken with
  | none =>
    rw [if_neg (by decide), List.length_eq_zero_iff, List.filter_eq_nil_iff]
    intro timer htimer
    simp
  | some token =>
    obtain ⟨session, -, -, -, -, -, -, hmem⟩ := own_timer h hown.symm
    have hfilter : (s.timers.filter fun timer => !decide (some timer.token ≠ some token)) =
        s.timers.filter fun timer => timer == ⟨token, session.pendingGen⟩ := by
      refine List.filter_congr fun timer htimer => ?_
      rw [Bool.eq_iff_iff]
      simp only [ne_eq, Option.some.injEq, decide_not, Bool.not_not, decide_eq_true_eq, beq_iff_eq]
      refine ⟨fun heq => List.inj_on_of_nodup_map h.nodup htimer hmem heq, fun heq => ?_⟩
      rw [heq]
    rw [hfilter, ← List.countP_eq_length_filter, Option.isSome_some, if_pos rfl]
    exact List.count_eq_one_of_mem (List.Nodup.of_map _ h.nodup) hmem

theorem leaked_eq {s' : ScreensaverState} {token : Option ℕ} (htoken : s'.timerToken = token) :
    s'.leaked = s'.timers.filter fun timer => decide (some timer.token ≠ token) := by
  subst htoken
  rfl

theorem timerToken_of_transition {s' : ScreensaverState} {session : ScreensaverSession}
    {tr : TransitionState} (hsession : s'.session = some session)
    (htransition : session.transition = some tr) : s'.timerToken = tr.timerToken := by
  rw [timerToken_of_session hsession]
  unfold ScreensaverSession.timerToken
  rw [htransition]
  rfl

theorem timerToken_of_none {s' : ScreensaverState} (hsession : s'.session = none) :
    s'.timerToken = none := by
  unfold timerToken
  rw [hsession]
  rfl

/-- A timer is leaked exactly if an item ends in the middle of its fade. -/
theorem Stepped.leaked {s' : ScreensaverState} (h : Wired s) (hstep : Stepped s e s') :
    (s.EndsInFade e → s'.leaked = s.timers) ∧ (¬s.EndsInFade e → s'.leaked = s.leaked) := by
  -- Where a timer may be dropped, the session has none after the step, or a new one.
  have hdropped {drops : Prop} (hends : s.EndsInFade e ∧ drops ∨
      ¬s.EndsInFade e ∧ s.timerToken = none) (hleaked : s'.leaked = s.timers) :
      (s.EndsInFade e → s'.leaked = s.timers) ∧ (¬s.EndsInFade e → s'.leaked = s.leaked) := by
    refine ⟨fun _ => hleaked, fun hnot => ?_⟩
    rcases hends with ⟨hends, -⟩ | ⟨-, hnone⟩
    · exact absurd hends hnot
    · exact hleaked.trans (leaked_of_none hnone).symm
  cases hstep with
  | gone hsession htimers hnext hends =>
    refine ⟨fun h => absurd h hends, fun _ => ?_⟩
    rw [leaked_of_none (timerToken_of_none hsession), htimers]
  | lost hsession htimers hnext hends =>
    refine ⟨fun _ => ?_, fun h => absurd hends h⟩
    rw [leaked_of_none (timerToken_of_none hsession), htimers]
  | installed session hsession htimers hnext hends htick htStep hnone =>
    refine ⟨fun h => absurd h hends, fun _ => ?_⟩
    have htoken : s'.timerToken = none := by
      rw [timerToken_of_session hsession]
      unfold ScreensaverSession.timerToken
      rw [hnone]
      rfl
    rw [leaked_of_none htoken, htimers]
  | kept session session' hbefore hsession hredrawn htimers hnext hends hbusy htransition =>
    refine ⟨fun h => absurd h hends, fun _ => ?_⟩
    have htoken : s'.timerToken = s.timerToken := by
      rw [timerToken_of_session hsession, timerToken_of_session hbefore]
      unfold ScreensaverSession.timerToken
      rw [htransition]
    rw [leaked_eq htoken, htimers]
    rfl
  | waits session session' tr hbefore hsession hredrawn htimers hnext hmode hends htick htransition
      hphase htoken =>
    refine hdropped hends ?_
    rw [leaked_of_none ((timerToken_of_transition hsession htransition).trans htoken), htimers]
  | arms session session' tr hbefore hsession hredrawn htimers hnext hmode hends htick htransition
      hphase htoken =>
    refine hdropped hends ?_
    rw [leaked_eq ((timerToken_of_transition hsession htransition).trans htoken), htimers,
      List.filter_append]
    have hold : s.timers.filter (fun timer => decide (some timer.token ≠ some s.nextToken)) =
        s.timers := by
      refine List.filter_eq_self.mpr fun timer htimer => decide_eq_true fun heq => ?_
      have hlt := h.fresh timer htimer
      rw [Option.some.inj heq] at hlt
      exact Nat.lt_irrefl _ hlt
    rw [hold, List.filter_eq_nil_iff.mpr, List.append_nil]
    intro timer htimer
    obtain rfl := List.mem_singleton.mp htimer
    simp
  | ticks session session' tr hbefore hsession hredrawn htimers hnext hfree htick htr hphase ht
      htransition =>
    obtain ⟨token, rendered, rfl, -⟩ := htick
    refine ⟨fun h => absurd h fun h => h, fun _ => ?_⟩
    have htoken : s'.timerToken = s.timerToken := by
      rw [timerToken_of_transition hsession htransition, timerToken_of_transition hbefore htr]
    rw [leaked_eq htoken, htimers]
    rfl
  | completes session session' tr hbefore hsession hredrawn htimers hnext hfree htick htr hphase ht
      htransition =>
    obtain ⟨token, rendered, rfl, -⟩ := htick
    refine ⟨fun h => absurd h fun h => h, fun _ => ?_⟩
    rw [leaked_of_none (timerToken_of_transition hsession htransition), htimers]

/-! ## One timer -/

instance (s : ScreensaverState) : DecidablePred s.EndsInFade
  | .wakeup mpvEvents _ _ =>
    inferInstanceAs (Decidable (.itemEnded ∈ mpvEvents ∧ s.fade.isSome = true))
  | .install _ | .destroy | .tick _ _ | .itemLoadTimeout _ | .resize _ _ | .release _ =>
    isFalse fun h => h

theorem oneTimer_iff (h : Wired s) : s.OneTimer ↔ s.leaked = [] := by
  have hlength := timers_length h
  rw [← List.length_eq_zero_iff]
  constructor
  · intro hone
    have htimers := hone.timers
    omega
  · intro hleaked
    exact ⟨by omega, timerToken_fade h⟩

/-- With one timer before the step, there is one after it unless an item ends in the middle of the
fade. -/
theorem oneTimer_next (h : Wired s) (hinserts : s.Inserts e) (hone : s.OneTimer) :
    (s.next e).OneTimer ↔ ¬s.EndsInFade e := by
  have hstep := next_stepped h hinserts
  rw [oneTimer_iff (hstep.wired h)]
  constructor
  · intro hnone hends
    have hfade : s.fade.isSome = true := by
      cases e with
      | wakeup mpvEvents rendered inserted => exact hends.2
      | _ => cases hends
    rw [(hstep.leaked h).1 hends] at hnone
    have htimers := hone.timers
    rw [if_pos hfade, hnone] at htimers
    cases htimers
  · intro hends
    rw [(hstep.leaked h).2 hends]
    exact (oneTimer_iff h).mp hone

/-- The fade of a session with a transition. -/
theorem fade_eq {s' : ScreensaverState} {session : ScreensaverSession} {tr : TransitionState}
    (hsession : s'.session = some session) (htransition : session.transition = some tr) :
    s'.fade = if tr.phase = .fading then some tr else none := by
  rw [fade_of_transition hsession, htransition]
  by_cases hphase : tr.phase = .fading
  · rw [if_pos hphase]
    exact Option.filter_some_pos (decide_eq_true hphase)
  · rw [if_neg hphase]
    exact Option.filter_some_neg (decide_eq_false hphase)

theorem fade_of_gone {s' : ScreensaverState} (hsession : s'.session = none) : s'.fade = none := by
  unfold fade
  rw [hsession]
  rfl

theorem restarts_next (h : Wired s) (hinserts : s.Inserts e) : s.Restarts e := by
  intro hends before hbefore' after hafter
  cases next_stepped h hinserts with
  | gone _ _ _ hnot => exact absurd hends hnot
  | lost hsession =>
    rw [hsession] at hafter
    cases hafter
  | installed _ _ _ _ hnot => exact absurd hends hnot
  | kept _ _ _ _ _ _ _ hnot => exact absurd hends hnot
  | waits session session' tr hbefore hsession hredrawn htimers hnext hmode hcapture htick
      htransition hphase htoken ht =>
    obtain rfl := Option.some.inj (hbefore.symm.trans hbefore')
    obtain rfl := Option.some.inj (hsession.symm.trans hafter)
    rcases hcapture with ⟨-, hcapture⟩ | ⟨hnot, -⟩
    · exact ⟨tr, htransition, hcapture, ht⟩
    · exact absurd hends hnot
  | arms session session' tr hbefore hsession hredrawn htimers hnext hmode hcapture htick
      htransition hphase htoken ht =>
    obtain rfl := Option.some.inj (hbefore.symm.trans hbefore')
    obtain rfl := Option.some.inj (hsession.symm.trans hafter)
    rcases hcapture with ⟨-, hcapture⟩ | ⟨hnot, -⟩
    · exact ⟨tr, htransition, hcapture, ht⟩
    · exact absurd hends hnot
  | ticks _ _ _ _ _ _ _ _ _ htick =>
    obtain ⟨token, rendered, rfl, -⟩ := htick
    exact absurd hends fun h => h
  | completes _ _ _ _ _ _ _ _ _ htick =>
    obtain ⟨token, rendered, rfl, -⟩ := htick
    exact absurd hends fun h => h

theorem mem_fade {before : TransitionState} (hbefore : before ∈ s.fade) :
    ∃ session, s.session = some session ∧ session.transition = some before ∧
      before.phase = .fading := by
  obtain ⟨hmem, hphase⟩ := Option.mem_filter_iff.mp hbefore
  obtain ⟨session, hsession, htransition⟩ := Option.bind_eq_some_iff.mp hmem
  exact ⟨session, hsession, htransition, of_decide_eq_true hphase⟩

theorem fade_token {before : TransitionState} (hbefore : before ∈ s.fade) :
    s.timerToken = before.timerToken := by
  obtain ⟨session, hsession, htransition, -⟩ := mem_fade hbefore
  exact timerToken_of_transition hsession htransition

theorem fade_step (h : Wired s) {before : TransitionState} (hbefore : before ∈ s.fade) :
    0 < before.tStep := by
  obtain ⟨session, hsession, htransition, -⟩ := mem_fade hbefore
  have hwired := h.session session hsession
  rw [hwired.step before htransition]
  exact hwired.tStep

/-- Where no transition fades after the step, nothing has to grow. -/
theorem grows_of_none (hfade : (s.next e).fade = none)
    (htick : ∀ before ∈ s.fade, ∀ token rendered, e = .tick token rendered →
      some token = s.timerToken → (s.next e).session.isSome = true →
        tMax ≤ before.t + before.tStep) : s.Grows e := by
  refine ⟨fun tr htr => ?_, fun before hbefore token rendered he htoken hsession => ?_⟩
  · rw [hfade] at htr
    cases htr
  · have hmax := htick before hbefore token rendered he (htoken.trans (fade_token hbefore).symm)
      hsession
    rw [hfade]
    exact ⟨fun hsome => (by cases hsome), fun hlt => absurd hmax (Nat.not_le.mpr hlt)⟩

/-- With one timer, the timers that can fire are the session's own. -/
theorem OneTimer.own (hone : s.OneTimer) (h : Wired s) {token : ℕ}
    (htoken : token ∈ s.timers.map TransitionTimer.token) : some token = s.timerToken := by
  obtain ⟨timer, htimer, rfl⟩ := List.mem_map.mp htoken
  by_contra hother
  have hmem : timer ∈ s.leaked := List.mem_filter.mpr ⟨htimer, decide_eq_true hother⟩
  rw [(oneTimer_iff h).mp hone] at hmem
  cases hmem

theorem filter_same (tr : TransitionState) :
    (some tr).filter (fun before => decide (before.timerToken = tr.timerToken)) = some tr :=
  Option.filter_some_pos (decide_eq_true rfl)

/-- With one timer, the fade grows as it should if its ticks find the back buffer free. -/
theorem grows_next (h : Wired s) (hinserts : s.Inserts e) (hone : s.OneTimer)
    (hends : ¬s.EndsInFade e) (hfinds : s.FindsFree e) : s.Grows e := by
  cases next_stepped h hinserts with
  | gone hsession =>
    refine grows_of_none (fade_of_gone hsession) fun before _ token rendered _ _ hsome => ?_
    rw [hsession] at hsome
    cases hsome
  | lost _ _ _ hlost => exact absurd hlost hends
  | installed session hsession _ _ _ htick _ hnone =>
    refine grows_of_none ?_ fun before _ token rendered he => absurd he (htick token rendered)
    rw [fade_of_transition hsession, hnone]
    rfl
  | kept session session' hbefore hsession hredrawn htimers hnext hnot hbusy htransition =>
    have hfade : (s.next e).fade = s.fade := by
      rw [fade_of_transition hsession, fade_of_transition hbefore, htransition]
    -- A tick of the own timer would have found the back buffer busy.
    have hquiet (token : ℕ) (rendered : Option (List UInt8)) (he : e = .tick token rendered)
        (htoken : some token = s.timerToken) : False := by
      subst he
      exact hfinds htoken (hbusy token rendered rfl htoken)
    refine ⟨fun tr htr => ?_, fun before hfading token rendered he htoken _ => ?_⟩
    · rw [hfade] at htr
      have helapsed : elapsed tr e = 0 := by
        cases e with
        | tick token rendered =>
          exact if_neg fun htoken =>
            hquiet token rendered rfl (htoken.trans (fade_token htr).symm)
        | _ => rfl
      have htr' : s.fade = some tr := htr
      rw [htr', filter_same]
      dsimp only
      rw [helapsed, Nat.add_zero]
    · exact (hquiet token rendered he (htoken.trans (fade_token hfading).symm)).elim
  | waits session session' tr hbefore hsession hredrawn htimers hnext hmode hcapture htick
      htransition hphase =>
    refine grows_of_none ?_ fun before _ token rendered he => absurd he (htick token rendered)
    rw [fade_eq hsession htransition]
    exact if_neg (waits_ne_fading hphase)
  | arms session session' tr hbefore hsession hredrawn htimers hnext hmode hcapture htick
      htransition hphase htoken ht =>
    refine ⟨fun tr' htr => ?_, fun before _ token rendered he => absurd he (htick token rendered)⟩
    rw [fade_eq hsession htransition, if_pos hphase] at htr
    obtain rfl := Option.some.inj htr
    have hnew :
        s.fade.filter (fun before => decide (before.timerToken = tr.timerToken)) = none := by
      refine Option.filter_eq_none_iff.mpr fun before hfading heq => ?_
      have hown := of_decide_eq_true heq
      rw [htoken, ← fade_token hfading] at hown
      obtain ⟨session, -, -, -, -, -, -, hmem⟩ := own_timer h hown.symm
      exact Nat.lt_irrefl _ (h.fresh _ hmem)
    rw [hnew]
    exact ht
  | ticks session session' tr hbefore hsession hredrawn htimers hnext hfree htick htr hphase ht
      htransition =>
    obtain ⟨token, rendered, rfl, hregistered⟩ := htick
    have hfade : s.fade = some tr := by
      rw [fade_eq hbefore htr]
      exact if_pos hphase
    have hfade' : (s.next (.tick token rendered)).fade = some { tr with t := tr.t + tr.tStep } := by
      rw [fade_eq hsession htransition]
      exact if_pos hphase
    refine ⟨fun tr' htr' => ?_, fun before hfading _ _ _ _ _ => ?_⟩
    · rw [hfade'] at htr'
      obtain rfl := Option.some.inj htr'
      have helapsed : elapsed tr (.tick token rendered) = tr.tStep :=
        if_pos ((hone.own h hregistered).trans (fade_token hfade))
      dsimp only
      rw [hfade, filter_same]
      dsimp only
      rw [helapsed]
    · obtain rfl := Option.some.inj (hfade.symm.trans hfading)
      rw [hfade']
      exact ⟨fun _ => ht, fun _ => rfl⟩
  | completes session session' tr hbefore hsession hredrawn htimers hnext hfree htick htr hphase ht
      htransition =>
    have hfade : s.fade = some tr := by
      rw [fade_eq hbefore htr]
      exact if_pos hphase
    refine grows_of_none ?_ fun before hfading _ _ _ _ _ => ?_
    · rw [fade_eq hsession htransition]
      exact if_neg fun hidle => by cases hidle
    · obtain rfl := Option.some.inj (hfade.symm.trans hfading)
      exact ht

/-- A fade does not grow at a tick that finds the back buffer busy. -/
theorem findsFree_of_grows (h : Wired s) (hinserts : s.Inserts e) (hgrows : s.Grows e) :
    s.FindsFree e := by
  cases e with
  | tick token rendered =>
    intro htoken hbusy
    cases next_stepped h hinserts with
    | gone _ _ _ _ hfree => exact hfree token rendered rfl htoken hbusy
    | lost _ _ _ hlost => exact hlost
    | installed _ _ _ _ _ htick => exact htick token rendered rfl
    | kept session session' hbefore hsession hredrawn htimers hnext hnot hkept htransition =>
      obtain ⟨before, hfading⟩ : ∃ before, s.fade = some before := by
        refine Option.isSome_iff_exists.mp ?_
        rw [← timerToken_fade h, ← htoken]
        rfl
      have hfade : (s.next (.tick token rendered)).fade = some before := by
        rw [fade_of_transition hsession, htransition, ← fade_of_transition hbefore, hfading]
      have hprogress := hgrows.progress before hfade
      have helapsed : elapsed before (.tick token rendered) = before.tStep :=
        if_pos (htoken.trans (fade_token hfading))
      rw [hfading, filter_same] at hprogress
      dsimp only at hprogress
      rw [helapsed] at hprogress
      have hsame : before.t = before.t + before.tStep := hprogress
      have hstep := fade_step h hfading
      omega
    | waits _ _ _ _ _ _ _ _ _ _ htick => exact htick token rendered rfl
    | arms _ _ _ _ _ _ _ _ _ _ htick => exact htick token rendered rfl
    | ticks _ _ _ _ _ _ _ _ hfree => exact hfree hbusy
    | completes _ _ _ _ _ _ _ _ hfree => exact hfree hbusy
  | _ => trivial

end ScreensaverState

/-- No session, and no timers. -/
def ScreensaverState.empty : ScreensaverState := ⟨none, [], 0⟩

theorem wired_empty : Wired .empty where
  fresh timer htimer := by cases htimer
  nodup := List.nodup_nil
  session session hsession := by cases hsession

/-- A crossfade has one timer, grows by a step with each tick and restarts from the captured frame
throughout a run exactly if no item ends in the middle of a fade and no tick of a fade finds the
back buffer busy. -/
theorem crossfade_one_timer (events : List ScreensaverEvent)
    (hinserts : screensavers.Steps ScreensaverState.Inserts .empty events) :
    (screensavers.Throughout ScreensaverState.OneTimer .empty events ∧
        screensavers.Steps ScreensaverState.Grows .empty events ∧
        screensavers.Steps ScreensaverState.Restarts .empty events) ↔
      screensavers.Steps (fun s e => ¬s.EndsInFade e) .empty events ∧
        screensavers.Steps ScreensaverState.FindsFree .empty events := by
  have hwired (s : ScreensaverState) (e : ScreensaverEvent) (h : Wired s) (hs : s.Inserts e) :
      Wired (screensavers.next s e).1 := (ScreensaverState.next_stepped h hs).wired h
  have hempty : ScreensaverState.OneTimer .empty := ⟨rfl, rfl⟩
  have honce : screensavers.Throughout ScreensaverState.OneTimer .empty events ↔
      screensavers.Steps (fun s e => ¬s.EndsInFade e) .empty events :=
    Runs.System.throughout_iff_steps Wired ScreensaverState.Inserts hwired
      (fun s e h hs hone => ScreensaverState.oneTimer_next h hs hone) hinserts wired_empty hempty
  have hrestarts : screensavers.Steps ScreensaverState.Restarts .empty events :=
    hinserts.derive Wired hwired (fun s e h hs => ScreensaverState.restarts_next h hs) wired_empty
  rw [honce]
  refine and_congr_right fun hends => ⟨fun ⟨hgrows, _⟩ => ?_, fun hfinds => ⟨?_, hrestarts⟩⟩
  · exact (hinserts.and hgrows).derive Wired (fun s e h hs => hwired s e h hs.1)
      (fun s e h hs => ScreensaverState.findsFree_of_grows h hs.1 hs.2) wired_empty
  · exact ((hinserts.and hends).and hfinds).derive (fun s => Wired s ∧ s.OneTimer)
      (fun s e h hs => ⟨hwired s e h.1 hs.1.1,
        (ScreensaverState.oneTimer_next h.1 hs.1.1 h.2).mpr hs.1.2⟩)
      (fun s e h hs => ScreensaverState.grows_next h.1 hs.1.1 h.2 hs.1.2 hs.2)
      ⟨wired_empty, hempty⟩

/-! ## A session of one pixel -/

/-- The first buffer is attached, and a fade takes two ticks. -/
def pixelSession : ScreensaverSession where
  buffers _ := [0]
  bufLen := 1
  nextRenderIdx := Fin.last 1
  buffersBusy n := decide (n.val = 0)
  pendingGen := 1
  transitionMode := .crossfade
  transition := none
  tStep := 128

/-- An item ends, the next is loaded, and its first frame is drawn. -/
def nextItem : List ScreensaverEvent :=
  [.wakeup [.itemEnded, .itemLoaded] (some [9]) true]

/-- Both timers are registered after an item that ends in the middle of a fade. They fire both in
one interval, and the new fade completes in it. -/
theorem crossfade_two_timers :
    let events := .install pixelSession :: nextItem ++ nextItem
    let state := screensavers.run .empty events
    let interval := [.tick 0 (some [9]), .release 0, .tick 1 (some [9])]
    screensavers.Steps ScreensaverState.Inserts .empty events ∧ state.timers = [⟨0, 1⟩, ⟨1, 1⟩] ∧
      state.fade = some ⟨[0], .fading, 0, 128, some 1⟩ ∧
        (screensavers.run state interval).fade = none ∧
          (screensavers.run state interval).timers = [⟨0, 1⟩] := by
  refine ⟨⟨Nat.zero_lt_succ 127, rfl, rfl, trivial⟩, rfl, rfl, rfl, rfl⟩

/-- Two items follow each other, the second after the fade. -/
theorem crossfade_one_timer_desk :
    let events := .install pixelSession :: nextItem ++
      [.tick 0 (some [9]), .release 0, .tick 0 (some [9]), .release 1] ++ nextItem
    screensavers.Throughout ScreensaverState.OneTimer .empty events ∧
      screensavers.Steps ScreensaverState.Grows .empty events ∧
        screensavers.Steps ScreensaverState.Restarts .empty events := by
  intro events
  have hinserts : screensavers.Steps ScreensaverState.Inserts .empty events :=
    ⟨Nat.zero_lt_succ 127, rfl, trivial, trivial, trivial, trivial, rfl, trivial⟩
  refine (crossfade_one_timer events hinserts).mpr ⟨by decide, ?_⟩
  refine ⟨trivial, trivial, fun _ hbusy => ?_, trivial, fun _ hbusy => ?_, trivial, trivial,
    trivial⟩
  · obtain ⟨session, hsession, hbusy⟩ := hbusy
    obtain rfl := Option.some.inj hsession
    cases hbusy
  · obtain ⟨session, hsession, hbusy⟩ := hbusy
    obtain rfl := Option.some.inj hsession
    cases hbusy

end Dormant
