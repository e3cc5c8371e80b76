import Dormant.StateMachine.Commands
import Dormant.StateMachine.GraceCountdown

/-!
# No lost wake-up

`ticker` runs a machine together with the ticks it has scheduled and not yet been given.
Waking, a running grace countdown and a timed pause each need such a tick, since nothing
else drives them on. The first and the last always have one. A running countdown of an owned
display has one as long as no step strands a frozen countdown.
-/

namespace Dormant
set_option autoImplicit false

inductive Delivery where
  | feed (feed : Feed)
  | due (tick now : ℕ)

def ticker : Runs.System (List ℕ × DisplayStateMachine) Delivery Effect where
  next x
    | .feed feed =>
      ((x.1 ++ ticks (machine.next x.2 feed).2, (machine.next x.2 feed).1),
        (machine.next x.2 feed).2)
    | .due tick now =>
      ((x.1.erase tick ++ ticks (x.2.step .tick now).2, (x.2.step .tick now).1),
        (x.2.step .tick now).2)

/-- A scheduled tick is outstanding when it is delivered, and not delivered early. -/
def Delivery.timely (outstanding : List ℕ) : Delivery → Prop
  | .feed _ => True
  | .due tick now => tick ∈ outstanding ∧ tick ≤ now

instance (outstanding : List ℕ) : (d : Delivery) → Decidable (d.timely outstanding)
  | .feed _ => isTrue trivial
  | .due _ _ => instDecidableAnd

namespace DisplayStateMachine
variable {s : DisplayStateMachine}

def strandsDelivery (s : DisplayStateMachine) : Delivery → Prop
  | .feed feed => s.strands feed
  | .due _ _ => False

instance (s : DisplayStateMachine) : (d : Delivery) → Decidable (s.strandsDelivery d)
  | .feed feed => inferInstanceAs (Decidable (s.strands feed))
  | .due _ _ => isFalse id

/-! ## What drives each wait -/

theorem waking_tick (hp : s.phase = .waking) (now : ℕ) : commands (s.step .tick now).2 ≠ [] := by
  simp [step, hp, stepWaking, issueWake, commands, Effect.command?]

theorem waking_driven {input : Input} {now : ℕ} (h : (s.step input now).1.phase = .waking) :
    (s.phase = .waking ∧ input ≠ .tick) ∨ ∃ t, t ∈ ticks (s.step input now).2 := by
  cases step_issued s input now with
  | nothing hc hi =>
    refine .inl ⟨hi.waking h, ?_⟩
    rintro rfl
    exact waking_tick (hi.waking h) now hc
  | blank _ _ hphase => simp [h] at hphase
  | wake _ _ _ _ hretry => exact .inr (hretry.imp fun t ht => mem_ticks.mpr ht)

theorem pause_schedules (s : DisplayStateMachine) (deadline now : ℕ) :
    deadline ∈ ticks (s.step (.pause (some deadline)) now).2 := by
  rw [mem_ticks]
  cases hp : s.phase <;>
    simp [step, hp, stepActive, stepGrace, stepBlanking, stepBlanked, stepWaking,
      stepRenderPending, stepStaged, recordPause]

/-- A timed pause after a step was scheduled by the step, or was on and not due. -/
theorem pause_driven {input : Input} {now deadline : ℕ}
    (h : (s.step input now).1.overlays.paused = some ⟨some deadline⟩) :
    deadline ∈ ticks (s.step input now).2 ∨
      s.overlays.paused = some ⟨some deadline⟩ ∧ (input = .tick → now < deadline) := by
  rw [step_overlays] at h
  cases input with
  | tick =>
    refine .inr ?_
    simp only [Setting.after, Overlays.resumedAt, setting] at h
    split at h
    · rename_i d hp
      split at h
      · simp at h
      · obtain rfl : d = deadline := by simpa [hp] using h
        exact ⟨hp, fun _ => by omega⟩
    · rename_i hnone
      exact absurd h (hnone deadline)
  | pause untilTick =>
    obtain rfl : untilTick = some deadline := by simpa [Setting.after] using h
    exact .inl (pause_schedules s deadline now)
  | resume => simp [Setting.after] at h
  | _ => exact .inr ⟨by simpa [Setting.after, setting] using h, by simp⟩

/-- A running countdown of an owned display after a step was scheduled by the step, or ran
before and was not up. -/
theorem countdown_driven (hs : s.FrozenOk) (hv : s.GraceVacant) {input : Input} {now deadline : ℕ}
    (h : (s.step input now).1.countdown = some (.running deadline))
    (howned : (s.step input now).1.owned = true) :
    (∃ t ∈ ticks (s.step input now).2, deadline ≤ t) ∨
      s.countdown = some (.running deadline) ∧ s.owned = true ∧
        (input = .tick → now < deadline) := by
  cases step_grace hs input now with
  | fresh hf =>
    cases hf with
    | stopped hout => simp [countdown_none_iff.mpr hout] at h
    | started _ _ hc htick =>
      rw [hc] at h
      split at h
      · simp at h
      · rename_i hh
        have hd := Countdown.running.inj (Option.some.inj h)
        exact .inl ⟨_, htick (by simpa using hh), Nat.le_of_eq hd.symm⟩
  | kept _ hg hc _ hdue hgain =>
    have hs' : s.countdown = some (.running deadline) := hc ▸ h
    by_cases hown : input = .ownershipChanged true
    · exact .inl ⟨deadline, hgain hown (hv hg) deadline hs', Nat.le_refl _⟩
    have ho : s.owned = true := by
      rw [step_owned] at howned
      cases input with
      | ownershipChanged owns => cases owns <;> simp_all [Setting.after]
      | _ => exact howned
    by_cases hup : input = .tick ∧ deadline ≤ now
    · exact .inl (hdue hup.1 deadline hs' hup.2 ho)
    · exact .inr ⟨hs', ho, fun ht => Nat.lt_of_not_le fun hle => hup ⟨ht, hle⟩⟩
  | froze c _ _ hc =>
    rw [hc] at h
    cases c <;> simp [Countdown.freeze] at h
  | thawed remaining _ _ hc _ htick =>
    obtain rfl : now + remaining = deadline := by simpa [hc] using h
    exact .inl ⟨_, htick, Nat.le_refl _⟩

/-! ## Runs -/

/-- Each wait that only a tick can end has one outstanding. -/
structure Awaited (x : List ℕ × DisplayStateMachine) : Prop where
  waking : x.2.phase = .waking → x.1 ≠ []
  grace : x.2.inGrace = true → x.2.graceFrozenRemaining = none → x.2.owned = true →
    x.1 ≠ [] ∧ ∀ t now, x.1 = [t] → t ≤ now →
      (x.2.step .tick now).1.inGrace = false ∨ ticks (x.2.step .tick now).2 ≠ []
  paused : ∀ deadline, x.2.inGrace = true → x.2.graceFrozenRemaining.isSome = true →
    x.2.overlays = ⟨false, some ⟨some deadline⟩⟩ → ∃ t ∈ x.1, t ≤ deadline

/-- The invariant of `ticker`. -/
structure Driven (x : List ℕ × DisplayStateMachine) : Prop where
  frozen : x.2.FrozenOk
  vacant : x.2.GraceVacant
  waking : x.2.phase = .waking → x.1 ≠ []
  countdown : ∀ deadline, x.2.countdown = some (.running deadline) → x.2.owned = true →
    ∃ t ∈ x.1, deadline ≤ t
  paused : ∀ deadline, x.2.overlays.paused = some ⟨some deadline⟩ → deadline ∈ x.1

theorem driven_new (timings : SmTimings) (ladder : List LadderStage) (start : ℕ) :
    Driven ([], new timings ladder start) :=
  ⟨frozenOk_new timings ladder start, nofun, nofun, nofun, nofun⟩

/-- A step keeps the invariant when the ticks it leaves outstanding include all it schedules,
and all those from before but one, which is only used up when it is due. -/
theorem driven_step {before kept : List ℕ} {input : Input} {now : ℕ} (h : Driven (before, s))
    (hstrand : ¬ s.strandsFreeze input)
    (hkept : ∀ t ∈ before, t ∈ kept ∨ input = .tick ∧ t ≤ now)
    (hidle : input ≠ .tick → kept = before) :
    Driven (kept ++ ticks (s.step input now).2, (s.step input now).1) where
  frozen := (frozenOk_step_iff h.frozen input now).mpr hstrand
  vacant := graceVacant_step h.frozen h.vacant input now
  waking hp := by
    rcases waking_driven hp with ⟨hw, hne⟩ | ⟨t, ht⟩
    · rw [hidle hne]
      exact List.append_ne_nil_of_left_ne_nil (h.waking hw) _
    · exact List.append_ne_nil_of_right_ne_nil _ (List.ne_nil_of_mem ht)
  countdown deadline hc ho := by
    rcases countdown_driven h.frozen h.vacant hc ho with ⟨t, ht, hle⟩ | ⟨hs, hso, hup⟩
    · exact ⟨t, List.mem_append_right _ ht, hle⟩
    · obtain ⟨t, ht, hle⟩ := h.countdown deadline hs hso
      rcases hkept t ht with hk | ⟨htick, hdue⟩
      · exact ⟨t, List.mem_append_left _ hk, hle⟩
      · have := hup htick
        omega
  paused deadline hp := by
    rcases pause_driven hp with ht | ⟨hs, hup⟩
    · exact List.mem_append_right _ ht
    · rcases hkept deadline (h.paused deadline hs) with hk | ⟨htick, hdue⟩
      · exact List.mem_append_left _ hk
      · have := hup htick
        omega

theorem driven_next (x : List ℕ × DisplayStateMachine) (d : Delivery) (h : Driven x)
    (hd : d.timely x.1 ∧ ¬ x.2.strandsDelivery d) : Driven (ticker.next x d).1 := by
  obtain ⟨out, s⟩ := x
  cases d with
  | feed feed =>
    cases feed with
    | input input now => exact driven_step h hd.2 (fun t ht => .inl ht) fun _ => rfl
    | hold active =>
      have hsame : Driven (out, s.setInputWakeHoldActive active) :=
        ⟨h.frozen, h.vacant, h.waking, h.countdown, h.paused⟩
      simpa [ticker, ticks] using hsame
  | due tick now =>
    have hstrand : ¬ s.strandsFreeze .tick := by
      rintro ⟨-, hin, -⟩
      cases hin
    refine driven_step h hstrand (fun t ht => ?_) fun hne => absurd rfl hne
    by_cases heq : t = tick
    · exact .inr ⟨rfl, heq ▸ hd.1.2⟩
    · exact .inl ((List.mem_erase_of_ne heq).mpr ht)

/-- In an owned running Grace the last tick ends the wait or schedules another. -/
theorem Driven.last {t now : ℕ} (h : Driven ([t], s)) (hg : s.inGrace = true)
    (hf : s.graceFrozenRemaining = none) (ho : s.owned = true) (hnow : t ≤ now) :
    (s.step .tick now).1.inGrace = false ∨ ticks (s.step .tick now).2 ≠ [] := by
  obtain ⟨deadline, hp⟩ := exists_grace hg
  obtain ⟨t', ht', hle⟩ := h.countdown deadline (countdown_running_iff.mpr ⟨hp, hf⟩) ho
  obtain rfl : t' = t := by simpa using ht'
  by_contra hcon
  simp only [not_or, not_not, Bool.not_eq_false] at hcon
  obtain ⟨hstay, hnone⟩ := hcon
  -- a countdown that stays would be driven by a tick, and none is left or scheduled
  have hstrand : ¬ s.strandsFreeze .tick := fun hs => nomatch hs.2.1
  have hnext : Driven ([] ++ ticks (s.step .tick now).2, (s.step .tick now).1) := by
    refine driven_step h hstrand (fun u hu => .inr ⟨rfl, ?_⟩) fun hne => absurd rfl hne
    obtain rfl : u = t' := by simpa using hu
    exact hnow
  have hh := h.frozen.not_held hg hf
  have hheld : (s.step .tick now).1.held = false := by
    simp only [held, Bool.or_eq_false_iff, Option.isSome_eq_false_iff, Option.isNone_iff_eq_none]
      at hh ⊢
    rw [step_overlays]
    simp [Setting.after, Overlays.resumedAt, setting, hh]
  have hlive : (s.step .tick now).1.graceFrozenRemaining = none := by
    have hn := hnext.frozen.not.mpr (by simp [hheld])
    simpa using hn
  obtain ⟨d, hd⟩ := exists_grace hstay
  have hown : (s.step .tick now).1.owned = true := by rw [step_owned]; exact ho
  obtain ⟨u, hu, -⟩ := hnext.countdown d (countdown_running_iff.mpr ⟨hd, hlive⟩) hown
  simp [hnone] at hu

theorem Driven.awaited {x : List ℕ × DisplayStateMachine} (h : Driven x) : Awaited x where
  waking := h.waking
  grace hg hf ho := by
    obtain ⟨deadline, hp⟩ := exists_grace hg
    obtain ⟨t, ht, -⟩ := h.countdown deadline (countdown_running_iff.mpr ⟨hp, hf⟩) ho
    refine ⟨List.ne_nil_of_mem ht, fun t' now hlast hle => ?_⟩
    have h' : Driven ([t'], x.2) := hlast ▸ h
    exact h'.last hg hf ho hle
  paused deadline _ _ ho := ⟨deadline, h.paused deadline (by rw [ho]), Nat.le_refl _⟩

/-- In every run that delivers its ticks on time and strands no frozen countdown, no wait
that only a tick can end is left without one. -/
theorem wakeup_never_lost (timings : SmTimings) (ladder : List LadderStage) (start : ℕ)
    (deliveries : List Delivery)
    (h : ticker.Steps (fun x d => d.timely x.1 ∧ ¬ x.2.strandsDelivery d)
      ([], new timings ladder start) deliveries) :
    Awaited (ticker.run ([], new timings ladder start) deliveries) :=
  (h.invariant driven_next (driven_new timings ladder start)).awaited

/-- A timed pause in Grace: its tick thaws the countdown and schedules the new end. -/
theorem wakeup_never_lost_thawed :
    let x := ticker.run
      ([], new { gracePeriod := 60, minBlankTime := 0, minWakeTime := 0, startupHoldoff := 0,
                 wakeRetryInterval := 5 } [⟨.controller .powerOff, none⟩] 0)
      [.feed (.input (.zonePresent false) 1), .feed (.input (.pause (some 30)) 10), .due 30 31,
        .due 61 61]
    Awaited x ∧ x.1 = [82] ∧ x.2.countdown = some (.running 82) :=
  ⟨wakeup_never_lost _ _ _ _ (by decide), by decide, by decide⟩

/-- Past a stranded countdown, a timed pause that ends during Blanking leads into Grace with
the zone present. Its tick is used up while the display is not owned, and no other comes. -/
theorem wakeup_lost :
    let x₀ := ([], new { gracePeriod := 60, minBlankTime := 0, minWakeTime := 0,
                         startupHoldoff := 0, wakeRetryInterval := 5 }
      [⟨.renderBlack, some 30⟩, ⟨.controller .powerOff, none⟩] 0)
    let deliveries : List Delivery :=
      [.feed (.input (.ownershipChanged false) 1), .feed (.input (.zonePresent false) 2),
        .feed (.input .softBlank 3), .feed (.input (.pause (some 100)) 4),
        .feed (.input (.ownershipChanged true) 5), .feed (.input .forceBlank 6),
        .feed (.input (.zonePresent true) 7), .due 10 10, .due 62 62, .due 100 100,
        .feed (.input (.ownershipChanged false) 110), .due 160 160,
        .feed (.input (.ownershipChanged true) 170)]
    ticker.Steps (fun x d => d.timely x.1) x₀ deliveries ∧ ¬ Awaited (ticker.run x₀ deliveries) :=
  ⟨by decide, fun h => (h.grace (by decide) (by decide) (by decide)).1 (by decide)⟩

end DisplayStateMachine
end Dormant
