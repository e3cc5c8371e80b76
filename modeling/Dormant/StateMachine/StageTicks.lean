import Dormant.StateMachine.StageDwell

/-!
# A rung keeps its stage tick

`stageTicker` runs a machine together with the stage ticks it has scheduled and not yet been
given. A stage tick that arrives under an overlay is dropped, and the machine counts on the
end of the overlay to arm another. `losesStageTick` names the steps after which none is
armed: the timed end of a pause in Staged, a tick dropped in Blanked or without ownership,
and a rung that is reached with a dwell still captured from an earlier one.
-/

namespace Dormant
set_option autoImplicit false

inductive StageDelivery where
  | feed (feed : Feed)
  | due (gen : UInt64) (tick now : ℕ)

def stageTicker : Runs.System (List (UInt64 × ℕ) × DisplayStateMachine) StageDelivery Effect where
  next x
    | .feed feed =>
      ((x.1 ++ stageTicks (machine.next x.2 feed).2, (machine.next x.2 feed).1),
        (machine.next x.2 feed).2)
    | .due gen tick now =>
      ((x.1.erase (gen, tick) ++ stageTicks (x.2.step (.stageTick gen) now).2,
        (x.2.step (.stageTick gen) now).1), (x.2.step (.stageTick gen) now).2)

def StageDelivery.known (outstanding : List (UInt64 × ℕ)) : StageDelivery → Prop
  | .feed _ => True
  | .due gen tick _ => (gen, tick) ∈ outstanding

instance (outstanding : List (UInt64 × ℕ)) : (d : StageDelivery) → Decidable (d.known outstanding)
  | .feed _ => isTrue trivial
  | .due gen tick _ => inferInstanceAs (Decidable ((gen, tick) ∈ outstanding))

namespace DisplayStateMachine
variable {s : DisplayStateMachine} {input : Input} {now : ℕ}

/-- The machine stands on a rung with a dwell and a rung after it. -/
def onRung (s : DisplayStateMachine) (idx : ℕ) : Prop :=
  s.currentStage = some idx ∧ s.currentDwell.isSome = true ∧ idx + 1 < s.ladder.length

instance (s : DisplayStateMachine) (idx : ℕ) : Decidable (s.onRung idx) :=
  inferInstanceAs (Decidable (_ ∧ _ ∧ _))

/-! ## The steps that lose a stage tick -/

/-- The timed end of a pause in Staged leaves the captured dwell as it is. -/
def resumesFrozen (s : DisplayStateMachine) (input : Input) (now : ℕ) : Prop :=
  s.onStage = true ∧ input = .tick ∧ s.pauseDue now ∧ s.overlays.inhibited = false ∧
    s.stageDwellFrozenRemaining.isSome = true

/-- A rung is reached with a dwell captured on an earlier one. -/
def restsFrozen (s : DisplayStateMachine) (input : Input) : Prop :=
  s.stageDwellFrozenRemaining.isSome = true ∧
    ((s.phase = .blanking ∧ s.pendingWake = false ∧
        ∃ gen, input = .blankResult gen (.ok ()) ∧ s.lastBlankGen = some gen) ∨
      s.held = false ∧ ∃ idx gen, s.phase = .renderPending idx gen ∧
        input = .renderResult gen (.ok ()))

/-- The current stage tick is used up by a gate whose opening does not arm another. -/
def dropsForGood (s : DisplayStateMachine) (gen : UInt64) : Prop :=
  gen = s.stageGen ∧
    (s.phase = .blanked ∧ (s.overlays.inhibited = true ∨ s.owned = false) ∨
      s.onStage = true ∧ s.stageDwellFrozenRemaining = none ∧ s.overlays.inhibited = false ∧
        s.owned = false)

/-- The steps that leave a rung without its stage tick. -/
def losesStageTick (s : DisplayStateMachine) (d : StageDelivery) : Prop :=
  (∃ idx, s.onRung idx) ∧
    match d with
    | .feed (.input input now) => s.resumesFrozen input now ∨ s.restsFrozen input
    | .feed (.hold _) => False
    | .due gen _ _ => s.dropsForGood gen

/-! ## The invariant -/

/-- On a rung ahead of another, a free display has an outstanding tick of its generation, and
in Staged a captured dwell means that an overlay is on. -/
structure Ticking (x : List (UInt64 × ℕ) × DisplayStateMachine) : Prop where
  staged : ∀ idx, x.2.onStage = true → x.2.onRung idx →
    (x.2.stageDwellFrozenRemaining = none → x.2.overlays.inhibited = false →
      ∃ tick, (x.2.stageGen, tick) ∈ x.1) ∧
    (x.2.stageDwellFrozenRemaining.isSome = true → x.2.held = true)
  blanked : ∀ idx, x.2.phase = .blanked → x.2.onRung idx →
    x.2.stageDwellFrozenRemaining = none ∧ ∃ tick, (x.2.stageGen, tick) ∈ x.1

theorem ticking_off {out : List (UInt64 × ℕ)} {t : DisplayStateMachine} (h : t.atRest = false) :
    Ticking (out, t) where
  staged idx hs := by
    have hr : t.atRest = true := atRest_of_onStage hs
    rw [h] at hr
    exact absurd hr Bool.false_ne_true
  blanked idx hb := by
    have hp : t.phase = .blanked := hb
    simp [atRest, hp] at h

theorem ticking_scheduled {out : List (UInt64 × ℕ)} {t : DisplayStateMachine} (now : ℕ)
    {e : Effect} (hb : t.phase = .blanked → (∃ idx, t.onRung idx) → t.stageDwellFrozenRemaining = none)
    (hst : t.onStage = true → (∃ idx, t.onRung idx) → t.stageDwellFrozenRemaining.isSome = true →
      t.held = true) :
    Ticking (out ++ stageTicks (e :: (t.scheduleStageTick now).2), (t.scheduleStageTick now).1) := by
  have armed (idx : ℕ) (hr : t.onRung idx) : ∃ tick, ((t.scheduleStageTick now).1.stageGen, tick) ∈
      out ++ stageTicks (e :: (t.scheduleStageTick now).2) := by
    obtain ⟨dwell, hd⟩ := Option.isSome_iff_exists.mp hr.2.1
    rw [scheduleStageTick_dwell hd]
    refine ⟨now + dwell, List.mem_append_right _ ?_⟩
    simp [mem_stageTicks]
  obtain ⟨gen, deadline, he⟩ := t.scheduleStageTick_frame now
  have hfrozen : (t.scheduleStageTick now).1.stageDwellFrozenRemaining =
      t.stageDwellFrozenRemaining := by rw [he]
  have hheld : (t.scheduleStageTick now).1.held = t.held := by rw [he]; rfl
  have hrung (idx : ℕ) (hr : (t.scheduleStageTick now).1.onRung idx) : t.onRung idx := by
    rwa [he] at hr
  constructor
  · intro idx hs hr
    have hs' : t.onStage = true := by simpa [onStage] using hs
    refine ⟨fun _ _ => armed idx (hrung idx hr), fun hf => ?_⟩
    exact hheld.trans (hst hs' ⟨idx, hrung idx hr⟩ (hfrozen ▸ hf))
  · intro idx hp hr
    have hp' : t.phase = .blanked := by simpa using hp
    exact ⟨hfrozen.trans (hb hp' ⟨idx, hrung idx hr⟩), armed idx (hrung idx hr)⟩

theorem dropsForGood_of_quiet (hrest : s.atRest = true) (h : s.quiet (.stageTick s.stageGen))
    (hf : s.stageDwellFrozenRemaining = none)
    (hi : s.onStage = true → s.overlays.inhibited = false) : s.dropsForGood s.stageGen := by
  refine ⟨rfl, ?_⟩
  cases hp : s.phase <;> simp only [atRest, hp, Bool.false_eq_true] at hrest
  · simp only [quiet, hp, quietBlanked, stageTickDropped] at h
    exact .inl ⟨rfl, by simpa [hf] using h⟩
  · simp only [quiet, hp, quietStaged, stageTickDropped] at h
    have hi' := hi (by simp [onStage, hp])
    simpa [onStage, hp, hf, hi'] using h

theorem ticking_step {before kept : List (UInt64 × ℕ)} (h : Ticking (before, s))
    (hlose : ∀ idx, s.onRung idx → ¬ (s.resumesFrozen input now ∨ s.restsFrozen input))
    (hkept : ∀ tick, (s.stageGen, tick) ∈ before → (s.stageGen, tick) ∈ kept ∨
      input = .stageTick s.stageGen ∧ ∀ idx, s.onRung idx → ¬ s.dropsForGood s.stageGen) :
    Ticking (kept ++ stageTicks (s.step input now).2, (s.step input now).1) := by
  have hm := step_rest s input now
  generalize s.step input now = r at hm
  cases hm with
  | off hoff => exact ticking_off hoff
  | quiet hrest hq =>
    have hrung (idx : ℕ) (hr : (s.note input).onRung idx) : s.onRung idx := by
      simpa [onRung] using hr
    -- a tick that was outstanding still is: the step did not use it up
    have stays (idx : ℕ) (hr : s.onRung idx) (hf : s.stageDwellFrozenRemaining = none)
        (hi : s.onStage = true → s.overlays.inhibited = false)
        (ht : ∃ tick, (s.stageGen, tick) ∈ before) :
        ∃ tick, ((s.note input).stageGen, tick) ∈ kept ++ stageTicks (noteEffects input) := by
      obtain ⟨tick, ht⟩ := ht
      rcases hkept tick ht with hk | ⟨rfl, hd⟩
      · exact ⟨tick, by simp [hk]⟩
      · exact absurd (dropsForGood_of_quiet hrest hq hf hi) (hd idx hr)
    constructor
    · intro idx hs hr
      have hs' : s.onStage = true := by simpa using hs
      obtain ⟨harm, hheld⟩ := h.staged idx hs' (hrung idx hr)
      obtain ⟨hsame, hinh⟩ := quiet_staged_held hs' hq
      refine ⟨fun hf hi => ?_, fun hf => ?_⟩
      · have hf' : s.stageDwellFrozenRemaining = none := by simpa using hf
        have hi' : s.overlays.inhibited = false := hinh ▸ hi
        exact stays idx (hrung idx hr) hf' (fun _ => hi') (harm hf' hi')
      · exact hsame.trans (hheld (by simpa using hf))
    · intro idx hp hr
      have hp' : s.phase = .blanked := by simpa using hp
      obtain ⟨hf, ht⟩ := h.blanked idx hp' (hrung idx hr)
      refine ⟨by simpa using hf, stays idx (hrung idx hr) hf (fun hs => ?_) ht⟩
      simp [onStage, hp'] at hs
  | ticked hrest hr =>
    have hsame : r.2 = [] ∧ r.1.phase = s.phase ∧ r.1.stageGen = s.stageGen ∧
        r.1.stageDwellFrozenRemaining = s.stageDwellFrozenRemaining ∧
        r.1.overlays.inhibited = s.overlays.inhibited ∧ ∀ idx, r.1.onRung idx ↔ s.onRung idx := by
      rcases hr with rfl | ⟨-, rfl⟩ <;> exact ⟨rfl, rfl, rfl, rfl, rfl, fun _ => Iff.rfl⟩
    obtain ⟨hout, hphase, hgen, hfrozen, hinh, hrung⟩ := hsame
    have stays (ht : ∃ tick, (s.stageGen, tick) ∈ before) :
        ∃ tick, (r.1.stageGen, tick) ∈ kept ++ stageTicks r.2 := by
      obtain ⟨tick, ht⟩ := ht
      rcases hkept tick ht with hk | ⟨hin, -⟩
      · exact ⟨tick, by simp [hgen, hk]⟩
      · cases hin
    constructor
    · intro idx hs hrr
      have hs' : s.onStage = true := by simpa [onStage, hphase] using hs
      have hrs := (hrung idx).mp hrr
      obtain ⟨harm, hheld⟩ := h.staged idx hs' hrs
      refine ⟨fun hf hi => stays (harm (hfrozen ▸ hf) (hinh ▸ hi)), fun hf => ?_⟩
      have hf' : s.stageDwellFrozenRemaining.isSome = true := by simpa [hfrozen] using hf
      rcases hr with rfl | ⟨hd, rfl⟩
      · exact hheld hf'
      · by_contra hn
        have hi : s.overlays.inhibited = false := by simpa [held, clearPause] using hn
        exact hlose idx hrs (.inl ⟨hs', rfl, hd, hi, hf'⟩)
    · intro idx hp hrr
      obtain ⟨hf, ht⟩ := h.blanked idx (hphase ▸ hp) ((hrung idx).mp hrr)
      exact ⟨hfrozen.trans hf, stays ht⟩
  | @blanked gen u hp hgen hwake =>
    refine ticking_scheduled now (fun _ hr => ?_) fun hs => by simp [onStage] at hs
    obtain ⟨idx, hr⟩ := hr
    by_contra hf
    refine hlose idx hr (.inr ⟨?_, .inl ⟨hp, hwake, gen, rfl, hgen⟩⟩)
    exact Option.isSome_iff_ne_none.mpr hf
  | @rendered gen u idx hp =>
    refine ticking_scheduled now (fun hp' => by simp at hp') fun _ hr hf => ?_
    obtain ⟨i, hr⟩ := hr
    by_contra hheld
    exact hlose i hr (.inr ⟨hf, .inr ⟨by simpa [held] using hheld, idx, gen, hp, rfl⟩⟩)
  | captured hs hin =>
    have hheld : (s.note input).held = true := by
      rcases hin with rfl | ⟨⟨u, rfl⟩, -⟩ <;> simp [held, note, setInhibited, recordPause]
    have hsome : ((s.note input).captureDwell now).stageDwellFrozenRemaining.isSome = true := by
      simp [captureDwell]
    constructor
    · intro idx _ _
      exact ⟨fun hf => absurd hf (Option.isSome_iff_ne_none.mp hsome), fun _ => hheld⟩
    · intro idx hp _
      have hp' : s.phase = .blanked := by simpa [captureDwell] using hp
      simp [onStage, hp'] at hs
  | rearmed hs hin =>
    obtain ⟨gen, deadline, he⟩ := (s.note input).rearmStageTick_frame now
    constructor
    · intro idx _ hr
      have hd : (s.note input).currentDwell.isSome = true := by
        rw [he] at hr
        exact hr.2.1
      obtain ⟨dwell, hd⟩ := Option.isSome_iff_exists.mp hd
      rw [rearmStageTick_dwell hd]
      refine ⟨fun _ _ => ?_, fun hf => absurd hf (by simp)⟩
      refine ⟨now + min ((s.note input).stageDwellFrozenRemaining.getD 0) dwell,
        List.mem_append_right kept ?_⟩
      simp [mem_stageTicks]
    · intro idx hp _
      rw [he] at hp
      have hp' : s.phase = .blanked := (note_phase s input).symm.trans hp
      simp [onStage, hp'] at hs

/-! ## Runs -/

/-- What a free display on a rung ahead of another has: an outstanding stage tick of the
current generation that advances the ladder. -/
def StageAwaited (x : List (UInt64 × ℕ) × DisplayStateMachine) : Prop :=
  ∀ idx, x.2.atRest = true → x.2.onRung idx → x.2.owned = true → x.2.held = false →
    (∃ tick, (x.2.stageGen, tick) ∈ x.1) ∧
      ∀ now, (x.2.step (.stageTick x.2.stageGen) now).1.currentStage = some (idx + 1)

theorem ticking_next (x : List (UInt64 × ℕ) × DisplayStateMachine) (d : StageDelivery)
    (h : Ticking x) (hd : d.known x.1 ∧ ¬ x.2.losesStageTick d) :
    Ticking (stageTicker.next x d).1 := by
  obtain ⟨out, s⟩ := x
  cases d with
  | feed feed =>
    cases feed with
    | input input now =>
      exact ticking_step h (fun idx hr hl => hd.2 ⟨⟨idx, hr⟩, hl⟩) fun tick ht => .inl ht
    | hold active =>
      have hsame : Ticking (out, s.setInputWakeHoldActive active) := ⟨h.staged, h.blanked⟩
      simpa [stageTicker, stageTicks] using hsame
  | due gen tick now =>
    refine ticking_step h (fun idx hr => ?_) fun tick' ht => ?_
    · rintro (⟨-, hin, -⟩ | ⟨-, (⟨-, -, g, hin, -⟩ | ⟨-, i, g, -, hin⟩)⟩)
      · cases hin
      · cases hin
      · cases hin
    · by_cases heq : (s.stageGen, tick') = (gen, tick)
      · obtain rfl : s.stageGen = gen := (Prod.mk.inj heq).1
        exact .inr ⟨rfl, fun idx hr hdrop => hd.2 ⟨⟨idx, hr⟩, hdrop⟩⟩
      · exact .inl ((List.mem_erase_of_ne heq).mpr ht)

theorem stageTick_advances (hrest : s.atRest = true) {idx : ℕ} (hr : s.onRung idx)
    (hf : s.stageDwellFrozenRemaining = none) (hi : s.overlays.inhibited = false)
    (ho : s.owned = true) (now : ℕ) :
    (s.step (.stageTick s.stageGen) now).1.currentStage = some (idx + 1) := by
  have hstep : s.step (.stageTick s.stageGen) now = s.advanceStage now "stage_tick" := by
    cases hp : s.phase <;> simp only [atRest, hp, Bool.false_eq_true] at hrest <;>
      simp [step, hp, stepBlanked, stepStaged, stageTicked, stageAdvanceFrozen, hf, hi, ho]
  have hnext : s.nextStage = idx + 1 := by simp [nextStage, hr.1]
  have hbound := hr.2.2
  have hstage : s.ladder[idx + 1]? = some s.ladder[idx + 1] := List.getElem?_eq_getElem hbound
  have hlt : ¬ s.ladder.length ≤ s.nextStage := by omega
  rw [hstep, advanceStage, if_neg hlt, hnext, enterLadderStage, hstage]
  dsimp only
  split <;> rfl

theorem Ticking.awaited {x : List (UInt64 × ℕ) × DisplayStateMachine} (h : Ticking x) :
    StageAwaited x := by
  intro idx hrest hr ho hheld
  obtain ⟨hi, hp⟩ : x.2.overlays.inhibited = false ∧ x.2.overlays.paused = none := by
    simpa [held] using hheld
  have harm : x.2.stageDwellFrozenRemaining = none ∧ ∃ tick, (x.2.stageGen, tick) ∈ x.1 := by
    cases hphase : x.2.phase <;> simp only [atRest, hphase, Bool.false_eq_true] at hrest
    · exact h.blanked idx hphase hr
    · obtain ⟨hlive, hfrozen⟩ := h.staged idx (by simp [onStage, hphase]) hr
      cases hf : x.2.stageDwellFrozenRemaining with
      | none => exact ⟨rfl, hlive hf hi⟩
      | some remaining => simp [hfrozen (by simp [hf])] at hheld
  exact ⟨harm.2, stageTick_advances hrest hr harm.1 hi ho⟩

/-- In every run that loses no stage tick, each free rung with one after it has an outstanding
stage tick that advances the ladder. -/
theorem stage_tick_never_lost (timings : SmTimings) (ladder : List LadderStage) (start : ℕ)
    (deliveries : List StageDelivery)
    (h : stageTicker.Steps (fun x d => d.known x.1 ∧ ¬ x.2.losesStageTick d)
      ([], new timings ladder start) deliveries) :
    StageAwaited (stageTicker.run ([], new timings ladder start) deliveries) :=
  (h.invariant ticking_next (ticking_off rfl)).awaited

/-- A pause and its operator's resume in Staged: the second tick is the current one. -/
theorem stage_tick_never_lost_resumed :
    let x := stageTicker.run
      ([], new { gracePeriod := 60, minBlankTime := 0, minWakeTime := 0, startupHoldoff := 0,
                 wakeRetryInterval := 5 } [⟨.renderBlack, some 30⟩, ⟨.controller .powerOff, none⟩] 0)
      [.feed (.input .softBlank 1), .feed (.input (.renderResult 1 (.ok ())) 2),
        .feed (.input (.pause none) 12), .due 2 32 32, .feed (.input .resume 40)]
    StageAwaited x ∧ x.2.stageGen = 3 ∧ x.1 = [(3, 60)] := by
  refine ⟨stage_tick_never_lost _ _ _ _ ?_, by decide, by decide⟩
  refine ⟨⟨trivial, ?_⟩, ⟨trivial, ?_⟩, ⟨trivial, ?_⟩, ⟨by decide, ?_⟩, ⟨trivial, ?_⟩, trivial⟩
  · rintro ⟨-, ⟨h, -⟩ | ⟨h, -⟩⟩ <;> exact absurd h (by decide)
  · rintro ⟨-, ⟨h, -⟩ | ⟨h, -⟩⟩ <;> exact absurd h (by decide)
  · rintro ⟨-, ⟨-, h, -⟩ | ⟨h, -⟩⟩
    · exact nomatch h
    · exact absurd h (by decide)
  · rintro ⟨-, -, ⟨h, -⟩ | ⟨-, h, -⟩⟩ <;> exact absurd h (by decide)
  · rintro ⟨-, ⟨-, h, -⟩ | ⟨-, ⟨h, -⟩ | ⟨h, -⟩⟩⟩
    · exact nomatch h
    · exact absurd h (by decide)
    · exact absurd h (by decide)

/-- A pause that ends on its deadline leaves the captured dwell, and the stage tick that comes
next is dropped: the rung stays for good. -/
theorem stage_tick_lost :
    let x₀ := ([], new { gracePeriod := 60, minBlankTime := 0, minWakeTime := 0,
                         startupHoldoff := 0, wakeRetryInterval := 5 }
      [⟨.renderBlack, some 30⟩, ⟨.controller .powerOff, none⟩] 0)
    let deliveries : List StageDelivery :=
      [.feed (.input .softBlank 1), .feed (.input (.renderResult 1 (.ok ())) 2),
        .feed (.input (.pause (some 20)) 12), .feed (.input .tick 20), .due 2 32 32]
    stageTicker.Steps (fun x d => d.known x.1) x₀ deliveries ∧
      ¬ StageAwaited (stageTicker.run x₀ deliveries) := by
  refine ⟨by decide, fun h => ?_⟩
  obtain ⟨⟨tick, ht⟩, -⟩ := h 0 (by decide) (by decide) (by decide) (by decide)
  exact absurd ht (List.not_mem_nil)

end DisplayStateMachine
end Dormant
