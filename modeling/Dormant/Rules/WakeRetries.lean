import Dormant.Foundations.Pulses
import Dormant.StateMachine.Commands
import Dormant.StateMachine.WakeTicks
import Dormant.Rules.Chores

/-!
# The ticks that retry a wake

Every wake leaves a tick in the wheel, and a tick that comes due in Waking sends the next wake.
That is a pulse that renews itself. `WakeBook` keeps the pulses of one display along a run: what
is asked for begins one, a retry tick renews one, and a failed result begins one without being
asked.
-/

namespace Dormant
set_option autoImplicit false

/-- How many wake commands go to a display. -/
def wakesTo (display : DisplayId) (outputs : List Output) : ℕ :=
  outputs.countP fun o => o.wakes? = some display

namespace RulesEngine

def wakeInterval (e : RulesEngine) (display : DisplayId) : ℕ :=
  ((e.machines display).map (·.timings.wakeRetryInterval)).getD 0

/-- The instant at which an event steps the machines. -/
def instant (e : RulesEngine) (i : Env × Event) : ℕ :=
  match i.2 with
  | .timer => ((e.dueTimer i).map (timerInstant i.1)).getD i.1.now
  | .result (.exerciseResume _ _ _) => i.1.now
  | .result _ => i.1.nowTick
  | _ => i.1.now

end RulesEngine

inductive WakeCause where
  | asked
  | retry
  | failure
  deriving DecidableEq

/-- The pulses of a display. `due` are the pending ticks that wakes scheduled, `sent` the instants
of the wakes; each wake was asked for, or renews the one before, or follows a failed result. -/
structure WakeBook where
  due : List ℕ
  sent : List ℕ
  asked : ℕ
  refired : ℕ

namespace WakeBook

def empty : WakeBook := { due := [], sent := [], asked := 0, refired := 0 }

def record (b : WakeBook) (cause : WakeCause) (interval now k : ℕ) : WakeBook :=
  match cause with
  | .asked =>
    { b with
      due := List.replicate k (now + interval) ++ b.due
      sent := List.replicate k now ++ b.sent
      asked := b.asked + k }
  | .retry =>
    { b with
      due := List.replicate k (now + interval) ++ b.due.erase now
      sent := List.replicate k now ++ b.sent
      asked := b.asked + (k - 1) }
  | .failure =>
    { b with
      due := List.replicate k (now + interval) ++ b.due
      sent := List.replicate k now ++ b.sent
      refired := b.refired + k }

def pulses (b : WakeBook) : Pulses :=
  { due := b.due, sent := b.sent, begun := b.asked + b.refired }

theorem pulses_record (b : WakeBook) (cause : WakeCause) (interval now k : ℕ) :
    (b.record cause interval now k).pulses =
      if cause = .retry then b.pulses.renew interval now k else b.pulses.begin interval now k := by
  cases cause with
  | asked => simp [record, pulses, Pulses.begin, Nat.add_right_comm]
  | retry => simp [record, pulses, Pulses.renew, Nat.add_right_comm]
  | failure => simp [record, pulses, Pulses.begin, Nat.add_assoc]

end WakeBook

namespace RulesEngine

/-- Why an event makes a display's machine send wakes: a pending retry tick is popped, a wake
failed, or anything else. -/
def wakeCause (display : DisplayId) (due : List ℕ) (e : RulesEngine) (i : Env × Event) :
    WakeCause :=
  match i.2 with
  | .timer =>
    match e.dueTimer i with
    | some (tick, .displayTick d) => if d = display ∧ tick ∈ due then .retry else .asked
    | _ => .asked
  | .result (.wake d _ (.error _)) => if d = display then .failure else .asked
  | _ => .asked

def noteWakes (display : DisplayId) (b : WakeBook) (e : RulesEngine) (i : Env × Event)
    (r : RulesEngine × List Output) : WakeBook :=
  b.record (e.wakeCause display b.due i) (e.wakeInterval display) (e.instant i)
    (wakesTo display r.2)

def wakeWatch (display : DisplayId) : Runs.System (WakeBook × RulesEngine) (Env × Event) Output :=
  engine.observed (noteWakes display)

/-- The event is the failed result of the wake that is in flight. -/
def failsWake (display : DisplayId) (e : RulesEngine) (i : Env × Event) : Prop :=
  ∃ gen failure, i.2 = .result (.wake display gen (.error failure)) ∧
    ∃ machine ∈ e.machines display, machine.phase = .waking ∧ machine.lastWakeGen = some gen

/-- The pending ticks of a display's wakes, and the wakes within any one retry interval, are no
more than the wakes that were asked for. -/
structure WakesBounded (display : DisplayId) (x : WakeBook × RulesEngine) : Prop where
  wheel : ∀ tick, x.1.due.count tick ≤ x.2.timers.count (tick, .displayTick display)
  pending : x.1.due.length ≤ x.1.asked
  rate : ∀ start,
    x.1.sent.countP (Pulses.within start (x.2.wakeInterval display)) ≤ x.1.asked

/-! ## What a link of a chain sends and schedules -/

variable {e e' : RulesEngine} {display : DisplayId} {now : ℕ}

/-- Each wake that goes to the display on the way leaves a tick in the wheel. -/
structure Follows (display : DisplayId) (now : ℕ) (e e' : RulesEngine) : Prop where
  interval : e'.wakeInterval display = e.wakeInterval display
  ticks : ∃ k, wakesTo display e'.outbox = wakesTo display e.outbox + k ∧
    ∀ tick, e.timers.count (tick, .displayTick display) +
      (if tick = now + e.wakeInterval display then k else 0) ≤
        e'.timers.count (tick, .displayTick display)

theorem Follows.refl (e : RulesEngine) : Follows display now e e :=
  ⟨rfl, 0, rfl, fun tick => by split <;> simp⟩

theorem Follows.trans {e'' : RulesEngine} (h : Follows display now e e')
    (h' : Follows display now e' e'') : Follows display now e e'' := by
  obtain ⟨hinterval, k, hk, hticks⟩ := h
  obtain ⟨hinterval', k', hk', hticks'⟩ := h'
  refine ⟨hinterval'.trans hinterval, k + k', by omega, fun tick => ?_⟩
  have hfirst := hticks tick
  have hthen := hticks' tick
  rw [hinterval] at hthen
  split at hfirst <;> simp_all <;> omega

/-- A link that leaves the machines alone, sends no wake and takes no timer away. -/
theorem Follows.of_quiet (hmachines : e'.machines = e.machines)
    (houtbox : wakesTo display e'.outbox = wakesTo display e.outbox)
    (htimers : ∀ tick, e.timers.count (tick, .displayTick display) ≤
      e'.timers.count (tick, .displayTick display)) : Follows display now e e' := by
  refine ⟨by rw [wakeInterval, hmachines]; rfl, 0, houtbox, fun tick => ?_⟩
  have h := htimers tick
  split <;> exact h

theorem wakesTo_append (display : DisplayId) (a b : List Output) :
    wakesTo display (a ++ b) = wakesTo display a + wakesTo display b :=
  List.countP_append

theorem wakesTo_aside {notes : List Output} (h : ∀ o ∈ notes, o.aside = true) :
    wakesTo display notes = 0 := by
  refine List.countP_eq_zero.mpr fun o ho => ?_
  have haside := h o ho
  simp only [Output.aside, Bool.and_eq_true, Option.isNone_iff_eq_none] at haside
  simp [haside.2]

/-- A display's commands are the wakes that its own machine issues, if it has an executor. -/
theorem wakesTo_outputOf (e : RulesEngine) (display d : DisplayId) (effects : List Effect) :
    wakesTo display (effects.filterMap (e.outputOf d)) ≤
      if d = display then wakes effects else 0 := by
  rw [wakesTo, List.countP_filterMap]
  split
  · apply List.countP_mono_left
    intro effect _ h
    cases effect with
    | issueWake gen => rfl
    | logTransition source dest cause => simp [outputOf, Output.wakes?] at h
    | scheduleTickAt tick => cases h
    | scheduleStageTickAt gen tick => cases h
    | _ =>
      simp only [outputOf] at h
      split at h <;> simp [Output.wakes?] at h
  · rename_i hd
    rw [Nat.le_zero, List.countP_eq_zero]
    intro effect _
    cases effect with
    | logTransition source dest cause => simp [outputOf, Output.wakes?]
    | scheduleTickAt tick => simp [outputOf]
    | scheduleStageTickAt gen tick => simp [outputOf]
    | _ =>
      simp only [outputOf]
      split <;> simp [Output.wakes?, hd]

theorem count_timerOf (display : DisplayId) (effects : List Effect) (tick : ℕ) :
    (effects.filterMap (timerOf display)).count (tick, .displayTick display) =
      (ticks effects).count tick := by
  rw [ticks, List.count_filterMap, List.count_filterMap]
  apply List.countP_congr
  intro effect _
  cases effect <;> simp [timerOf, Effect.tick?]

theorem wakeInterval_stepMachine (e : RulesEngine) (d : DisplayId) (input : Input) (now : ℕ) :
    (e.stepMachine d input now).wakeInterval display = e.wakeInterval display := by
  cases hm : e.machines d with
  | none => rw [stepMachine_none e d now hm]
  | some machine =>
    obtain ⟨notes, scopes, -, hstep⟩ := stepMachine_eq hm input now
    have hkept : (machine.step input now).1.timings = machine.timings := by
      have h := congrArg Setting.timings (machine.step_setting input now)
      have hafter : (machine.setting.after input now).timings = machine.timings := by
        cases input <;> rfl
      split at h
      · exact h
      · exact h.trans hafter
    rw [hstep]
    unfold wakeInterval
    by_cases hd : display = d
    · subst hd
      simp only [Function.update_self, hm, Option.map_some, hkept]
    · simp only [Function.update_of_ne hd]

theorem follows_stepMachine (e : RulesEngine) (display d : DisplayId) (input : Input) (now : ℕ) :
    Follows display now e (e.stepMachine d input now) := by
  refine ⟨wakeInterval_stepMachine e d input now, ?_⟩
  cases hm : e.machines d with
  | none =>
    rw [stepMachine_none e d now hm]
    exact (Follows.refl e).ticks
  | some machine =>
    obtain ⟨notes, scopes, hnotes, hstep⟩ := stepMachine_eq hm input now
    have hsent := wakesTo_outputOf e display d (machine.step input now).2
    rw [hstep]
    refine ⟨wakesTo display ((machine.step input now).2.filterMap (e.outputOf d)), ?_, ?_⟩
    · rw [wakesTo_append, wakesTo_append, wakesTo_aside hnotes, Nat.zero_add]
    intro tick
    dsimp only
    rw [List.count_append, List.count_reverse]
    by_cases hd : d = display
    · subst hd
      have hretried := machine.retried_step input now
      have hinterval : e.wakeInterval d = machine.timings.wakeRetryInterval := by
        simp [wakeInterval, hm]
      rw [if_pos rfl] at hsent
      unfold DisplayStateMachine.Retried at hretried
      rw [count_timerOf, hinterval]
      split
      · rename_i htick
        rw [htick]
        omega
      · omega
    · rw [if_neg hd] at hsent
      have hnone : wakesTo display ((machine.step input now).2.filterMap (e.outputOf d)) = 0 :=
        Nat.le_zero.mp hsent
      rw [hnone]
      split <;> omega

theorem follows_chore (h : Chore now e e') : Follows display now e e' := by
  cases h with
  | book => exact .of_quiet rfl rfl fun _ => le_rfl
  | send h =>
    rename_i o
    have haside : wakesTo display [o] = 0 := wakesTo_aside (by simpa using h)
    refine .of_quiet rfl ?_ fun _ => le_rfl
    rw [send, wakesTo_append, haside, Nat.add_zero]
  | tell d h => exact follows_stepMachine e display d _ now

theorem wakeInterval_setHoldFlag (display : DisplayId) (e : RulesEngine) (d : DisplayId) (active : Bool) :
    (e.setHoldFlag d active).wakeInterval display = e.wakeInterval display := by
  unfold setHoldFlag
  split
  · rfl
  · rename_i machine hm
    unfold wakeInterval setMachine
    by_cases hd : display = d
    · subst hd
      simp only [Function.update_self, hm, Option.map_some]
      rfl
    · simp only [Function.update_of_ne hd]

theorem follows_deed (h : Deed now e e') : Follows display now e e' := by
  cases h with
  | chore h => exact follows_chore h
  | see d present => exact follows_stepMachine e display d _ now
  | write => exact .of_quiet rfl rfl fun _ => le_rfl
  | arm tick h =>
    refine .of_quiet rfl rfl fun tick' => ?_
    rw [pushTimer]
    exact List.count_le_count_cons
  | flag d active =>
    have hinterval := wakeInterval_setHoldFlag display e d active
    refine ⟨hinterval, 0, ?_, fun tick => ?_⟩
    · unfold setHoldFlag
      split <;> rfl
    · have htimers : (e.setHoldFlag d active).timers = e.timers := by
        unfold setHoldFlag
        split <;> rfl
      rw [htimers]
      split <;> exact le_rfl

theorem follows_deeds (h : Deeds now e e') : Follows display now e e' :=
  h.keeps (P := Follows display now e) (fun _ _ hd hf => hf.trans (follows_deed hd)) (.refl e)

/-! ## One event -/

/-- Reports are sent, and the failure books are written. -/
theorem follows_report (hmachines : e'.machines = e.machines) (htimers : e'.timers = e.timers)
    (reports : List DaemonEvent) (houtbox : e'.outbox = e.outbox ++ reports.map Output.event) :
    Follows display now e e' := by
  have hnone : wakesTo display (reports.map Output.event) = 0 := by
    rw [wakesTo, List.countP_map, List.countP_eq_zero]
    intro report _
    simp [Output.wakes?]
  refine .of_quiet hmachines ?_ fun tick => by rw [htimers]
  rw [houtbox, wakesTo_append, hnone, Nat.add_zero]

theorem follows_handleInternalResult (e : RulesEngine) (env : Env) (res : InternalResult) :
    Follows display (e.instant (env, .result res)) e (e.handleInternalResult env res) := by
  cases res with
  | render d gen result => exact follows_stepMachine e display d _ env.nowTick
  | exerciseResume rules operationId generation =>
    simp only [handleInternalResult]
    split
    · exact follows_deeds (Chores.foldl (fun e r => chores_handleResume e env (some r)) _ e).deeds
    · exact .refl e
  | blank d gen result =>
    have hstep := follows_stepMachine e display d (.blankResult gen result) env.nowTick
    simp only [handleInternalResult]
    apply hstep.trans
    generalize e.stepMachine d (.blankResult gen result) env.nowTick = e₁
    cases result with
    | error failure => exact follows_report rfl rfl [_] rfl
    | ok u =>
      dsimp only
      split
      · exact follows_report rfl rfl [_] rfl
      · exact .refl e₁
  | wake d gen result =>
    have hstep := follows_stepMachine e display d (.wakeResult gen result) env.nowTick
    simp only [handleInternalResult]
    apply hstep.trans
    generalize e.stepMachine d (.wakeResult gen result) env.nowTick = e₁
    cases result with
    | error failure => exact follows_report rfl rfl [_] rfl
    | ok u =>
      dsimp only
      cases e₁.wakeAttempts d with
      | none => exact .refl e₁
      | some n =>
        dsimp only
        split
        · exact follows_report rfl rfl [_] rfl
        · exact follows_report rfl rfl [] (by simp)

/-- An event that pops no timer. -/
theorem follows_handle (display : DisplayId) (e : RulesEngine) (i : Env × Event) (h : e.dueTimer i = none) :
    Follows display (e.instant i) e (e.handle i.1 i.2) := by
  obtain ⟨env, event⟩ := i
  cases event with
  | presence ev => exact follows_deeds (deeds_handlePresenceEvent e env ev)
  | sweep => exact follows_deeds (deeds_sweepStaleSensors e env)
  | result res => exact follows_handleInternalResult e env res
  | control msg =>
    by_cases hrelay : ∀ event, msg = .publishDaemonEvent event → event.isReport = false
    · exact follows_deeds (deeds_handleControl e env hrelay)
    · push Not at hrelay
      obtain ⟨event, rfl, -⟩ := hrelay
      exact follows_report rfl rfl [event] rfl
  | timer =>
    rw [handle, fireDueTimer_idle h]
    exact .refl e

/-- The pop of a timer and what its handler does. -/
theorem follows_popped (display : DisplayId) (e : RulesEngine) (i : Env × Event) {t : Timer}
    (h : e.dueTimer i = some t) :
    e.instant i = timerInstant i.1 t ∧
      Follows display (e.instant i) (e.popTimer t) (e.handle i.1 i.2) := by
  obtain ⟨env, event⟩ := i
  cases event with
  | timer =>
    have hinstant : e.instant (env, .timer) = timerInstant env t := by
      simp [instant, h]
    refine ⟨hinstant, ?_⟩
    rw [handle, fireDueTimer_due h, hinstant]
    exact follows_deeds (deeds_fireTimer _ env t)
  | _ => cases h

/-! ## The book along a run -/

/-- The book's pulses are steady, and its ticks are in the wheel. -/
structure Ticking (display : DisplayId) (x : WakeBook × RulesEngine) : Prop where
  steady : Pulses.Steady (x.2.wakeInterval display) x.1.pulses
  wheel : ∀ tick, x.1.due.count tick ≤ x.2.timers.count (tick, .displayTick display)

theorem count_sent (due : List ℕ) (time k tick : ℕ) :
    (List.replicate k time ++ due).count tick = due.count tick + if tick = time then k else 0 := by
  rw [List.count_append, List.count_replicate, Nat.add_comm]
  by_cases h : tick = time
  · subst h
    simp
  · simp [h, Ne.symm h]

theorem count_record {b : WakeBook} {cause : WakeCause} (h : cause ≠ .retry)
    (interval now k tick : ℕ) : (b.record cause interval now k).due.count tick =
      b.due.count tick + if tick = now + interval then k else 0 := by
  cases cause with
  | asked => exact count_sent b.due (now + interval) k tick
  | failure => exact count_sent b.due (now + interval) k tick
  | retry => exact absurd rfl h

theorem count_renewed (b : WakeBook) (interval now k tick : ℕ) :
    (b.record .retry interval now k).due.count tick =
      (b.due.erase now).count tick + if tick = now + interval then k else 0 :=
  count_sent (b.due.erase now) (now + interval) k tick

theorem wakeCause_retry {due : List ℕ} {i : Env × Event}
    (h : e.wakeCause display due i = .retry) :
    ∃ tick ∈ due, e.dueTimer i = some (tick, .displayTick display) := by
  unfold wakeCause at h
  split at h
  · split at h
    · rename_i tick d ht
      split at h
      · rename_i hd
        exact ⟨tick, hd.2, hd.1 ▸ ht⟩
      · cases h
    · cases h
  · split at h <;> cases h
  · cases h

theorem wakeCause_of_retry {due : List ℕ} {i : Env × Event} {tick : ℕ} (hdue : tick ∈ due)
    (h : e.dueTimer i = some (tick, .displayTick display)) :
    e.wakeCause display due i = .retry := by
  obtain ⟨env, event⟩ := i
  cases event with
  | timer =>
    unfold wakeCause
    rw [h]
    exact if_pos ⟨rfl, hdue⟩
  | _ => cases h

/-- A pop takes no tick of the book from the wheel, unless the event is its retry. -/
theorem wheel_popped {due : List ℕ} {i : Env × Event} {t : Timer} (ht : e.dueTimer i = some t)
    (h : e.wakeCause display due i ≠ .retry) {tick : ℕ}
    (hwheel : due.count tick ≤ e.timers.count (tick, .displayTick display)) :
    due.count tick ≤ (e.popTimer t).timers.count (tick, .displayTick display) := by
  by_cases hown : t = (tick, .displayTick display)
  · have hnot : tick ∉ due := fun hdue => h (wakeCause_of_retry hdue (hown ▸ ht))
    rw [List.count_eq_zero_of_not_mem hnot]
    exact Nat.zero_le _
  · rwa [popTimer, List.count_erase_of_ne (Ne.symm hown)]

/-- The popped retry goes from the book and from the wheel. -/
theorem wheel_retried {due : List ℕ} {now tick : ℕ}
    (hwheel : due.count tick ≤ e.timers.count (tick, .displayTick display)) :
    (due.erase now).count tick ≤
      (e.popTimer (now, .displayTick display)).timers.count (tick, .displayTick display) := by
  rw [popTimer, List.count_erase, List.count_erase]
  by_cases h : now = tick
  · subst h
    simp only [beq_self_eq_true, if_true]
    omega
  · have hne : ¬ ((now, TimerEntry.displayTick display) : Timer) = (tick, .displayTick display) :=
      fun heq => h (congrArg Prod.fst heq)
    simp only [beq_iff_eq, h, hne, if_false]
    omega

theorem ticking_next {x : WakeBook × RulesEngine} (hx : Ticking display x) (i : Env × Event) :
    Ticking display ((wakeWatch display).next x i).1 := by
  obtain ⟨b, e⟩ := x
  obtain ⟨hsteady, hwheel⟩ := hx
  dsimp only at hsteady hwheel
  have hmain (hf : ∃ e₁ : RulesEngine, Follows display (e.instant i) e₁ (engine.next e i).1 ∧
      e₁.wakeInterval display = e.wakeInterval display ∧ wakesTo display e₁.outbox = 0 ∧
      ∀ tick k, (b.record (e.wakeCause display b.due i) (e.wakeInterval display) (e.instant i)
        k).due.count tick ≤ e₁.timers.count (tick, .displayTick display) +
          if tick = e.instant i + e.wakeInterval display then k else 0)
      (hsent : ∀ k, Pulses.Steady (e.wakeInterval display)
        (b.record (e.wakeCause display b.due i) (e.wakeInterval display) (e.instant i) k).pulses) :
      Ticking display ((wakeWatch display).next (b, e) i).1 := by
    obtain ⟨e₁, ⟨hinterval, k, hk, hticks⟩, hsame, hstart, hbook⟩ := hf
    have hcount : wakesTo display (engine.next e i).2 = k := by
      rw [hstart, Nat.zero_add] at hk
      exact hk
    constructor
    · show Pulses.Steady ((engine.next e i).1.wakeInterval display) _
      rw [hinterval, hsame]
      exact hsent _
    · intro tick
      show (noteWakes display b e i (engine.next e i)).due.count tick ≤ _
      rw [noteWakes, hcount]
      have hfinal := hticks tick
      rw [hsame] at hfinal
      exact (hbook tick k).trans hfinal
  apply hmain
  · cases hdue : e.dueTimer i with
    | none =>
      have hcause : e.wakeCause display b.due i ≠ .retry := by
        intro h
        obtain ⟨tick, -, ht⟩ := wakeCause_retry h
        rw [hdue] at ht
        cases ht
      refine ⟨{ e with outbox := [] }, ?_, rfl, rfl, fun tick k => ?_⟩
      · exact follows_handle display { e with outbox := [] } i hdue
      · rw [count_record hcause]
        exact Nat.add_le_add_right (hwheel tick) _
    | some t =>
      have hpopped := follows_popped display { e with outbox := [] } i hdue
      refine ⟨({ e with outbox := [] } : RulesEngine).popTimer t, hpopped.2, rfl, rfl,
        fun tick k => ?_⟩
      by_cases hcause : e.wakeCause display b.due i = .retry
      · obtain ⟨tick', -, ht⟩ := wakeCause_retry hcause
        obtain rfl : t = (tick', .displayTick display) := Option.some.inj (hdue.symm.trans ht)
        have hinstant : e.instant i = tick' := hpopped.1
        rw [hcause, count_renewed, hinstant]
        apply Nat.add_le_add_right
        exact wheel_retried (e := e) (hwheel tick)
      · rw [count_record hcause]
        apply Nat.add_le_add_right
        exact wheel_popped hdue hcause (hwheel tick)
  · intro k
    rw [WakeBook.pulses_record]
    split
    · rename_i hcause
      obtain ⟨tick, hmem, ht⟩ := wakeCause_retry hcause
      have hinstant : e.instant i = tick := (follows_popped display e i ht).1
      rw [hinstant]
      exact hsteady.renew hmem k
    · exact hsteady.begin _ k

/-! ## Runs without a failed wake -/

theorem wakeCause_failure {due : List ℕ} {i : Env × Event}
    (h : e.wakeCause display due i = .failure) :
    ∃ gen failure, i.2 = .result (.wake display gen (.error failure)) := by
  unfold wakeCause at h
  split at h
  · split at h
    · split at h <;> cases h
    · cases h
  · rename_i d gen failure heq
    split at h
    · rename_i hd
      exact ⟨gen, failure, hd ▸ heq⟩
    · cases h
  · cases h

/-- The failure of a wake that is not in flight sends no wake. -/
theorem wakesTo_failed {i : Env × Event} (h : ¬ e.failsWake display i) {gen : UInt64}
    {failure : CmdFailure} (hi : i.2 = .result (.wake display gen (.error failure))) :
    wakesTo display (engine.next e i).2 = 0 := by
  obtain ⟨env, event⟩ := i
  obtain rfl : event = .result (.wake display gen (.error failure)) := hi
  have hstepped : wakesTo display (stepMachine { e with outbox := [] } display
      (.wakeResult gen (.error failure)) env.nowTick).outbox = 0 := by
    cases hm : e.machines display with
    | none =>
      rw [stepMachine_none { e with outbox := [] } display env.nowTick hm]
      rfl
    | some machine =>
      obtain ⟨notes, scopes, hnotes, hstep⟩ := stepMachine_eq (e := { e with outbox := [] }) hm
        (.wakeResult gen (.error failure)) env.nowTick
      have hspent : machine.Spent (.wake gen) := by
        intro hp hgen
        exact h ⟨gen, failure, rfl, machine, hm, hp, hgen⟩
      have hsilent : machine.step (.wakeResult gen (.error failure)) env.nowTick = (machine, []) :=
        DisplayStateMachine.step_spent rfl hspent env.nowTick
      rw [hstep, hsilent]
      simp only [List.filterMap_nil, List.append_nil, List.nil_append]
      exact wakesTo_aside hnotes
  show wakesTo display (RulesEngine.handle env { e with outbox := [] } _).outbox = 0
  simp only [handle, handleInternalResult, send]
  rw [wakesTo_append, hstepped]
  rfl

theorem refired_next {x : WakeBook × RulesEngine} (hx : x.1.refired = 0) {i : Env × Event}
    (h : ¬ x.2.failsWake display i) : ((wakeWatch display).next x i).1.1.refired = 0 := by
  obtain ⟨b, e⟩ := x
  show (noteWakes display b e i (engine.next e i)).refired = 0
  unfold noteWakes
  cases hcause : e.wakeCause display b.due i with
  | asked => exact hx
  | retry => exact hx
  | failure =>
    obtain ⟨gen, failure, hi⟩ := wakeCause_failure hcause
    rw [wakesTo_failed h hi]
    exact hx

theorem Ticking.bounded {x : WakeBook × RulesEngine} (hx : Ticking display x)
    (hrefired : x.1.refired = 0) : WakesBounded display x := by
  have hbegun : x.1.pulses.begun = x.1.asked := by
    show x.1.asked + x.1.refired = x.1.asked
    rw [hrefired, Nat.add_zero]
  refine ⟨hx.wheel, ?_, fun start => ?_⟩
  · rw [← hbegun]
    exact hx.steady.due_le
  · rw [← hbegun]
    exact hx.steady.sent_le start

theorem ticking_empty (e : RulesEngine) : Ticking display (WakeBook.empty, e) :=
  ⟨Pulses.steady_none, fun _ => Nat.zero_le _⟩

/-- In every run in which no wake in flight fails, the pending retry ticks of a display and its
wakes within any retry interval are no more than the wakes it was asked for. -/
theorem wakes_bounded (display : DisplayId) (e : RulesEngine) (events : List (Env × Event))
    (hsteps : (wakeWatch display).Steps (fun x i => ¬ x.2.failsWake display i)
      (WakeBook.empty, e) events) :
    (wakeWatch display).Throughout (WakesBounded display) (WakeBook.empty, e) events := by
  apply hsteps.throughout (fun x => Ticking display x ∧ x.1.refired = 0)
  · rintro x i ⟨hx, hrefired⟩ hC
    exact ⟨ticking_next hx i, refired_next hrefired hC⟩
  · rintro x ⟨hx, hrefired⟩
    exact hx.bounded hrefired
  · exact ⟨ticking_empty e, rfl⟩

/-- A forced blank, a wake, and the tick that retries it. -/
theorem wakes_bounded_retried : ∃ e, new sharedSetup (fun _ => true) 0 = .ok e ∧
    (wakeWatch ⟨"monitor"⟩).Throughout (WakesBounded ⟨"monitor"⟩) (WakeBook.empty, e)
      [(Env.plain 1, .control (.forceBlank ⟨"monitor"⟩)),
        (Env.plain 2, .result (.blank ⟨"monitor"⟩ 1 (.ok ()))),
        (Env.plain 3, .control (.forceWake ⟨"monitor"⟩)), (Env.plain 8, .timer)] := by
  refine ⟨_, rfl, wakes_bounded ⟨"monitor"⟩ _ _ ⟨?_, ?_, ?_, ?_, trivial⟩⟩
  all_goals
    rintro ⟨gen, failure, h, -⟩
    cases h

/-! ## A display that cannot be woken -/

/-- The display is in Waking, was asked for one wake, and has sent a number of them at one time,
each with its tick in the wheel. -/
structure Stuck (display : DisplayId) (now interval n : ℕ) (x : WakeBook × RulesEngine) : Prop where
  waking : ∃ machine ∈ x.2.machines display, machine.phase = .waking ∧
    ∃ gen, machine.lastWakeGen = some gen
  executor : display ∈ x.2.executors
  period : x.2.wakeInterval display = interval
  asked : x.1.asked = 1
  due : x.1.due = List.replicate n (now + interval)
  sent : x.1.sent = List.replicate n now

/-- The failure of the wake in flight sends another one, which is in flight then. -/
theorem next_failed {machine : DisplayStateMachine} (hm : e.machines display = some machine)
    (hp : machine.phase = .waking) {gen : UInt64} (hgen : machine.lastWakeGen = some gen)
    (hexecutor : display ∈ e.executors) (failure : CmdFailure) (env : Env) :
    wakesTo display (engine.next e (env, .result (.wake display gen (.error failure)))).2 = 1 ∧
      ∃ machine' ∈ (engine.next e
        (env, .result (.wake display gen (.error failure)))).1.machines display,
        machine'.phase = .waking ∧ ∃ gen', machine'.lastWakeGen = some gen' := by
  have hstep : machine.step (.wakeResult gen (.error failure)) env.nowTick =
      machine.issueWake [.logTransition "waking" "waking" "wake_retry"] env.nowTick := by
    simp [DisplayStateMachine.step, hp, DisplayStateMachine.stepWaking, hgen]
    rfl
  obtain ⟨notes, scopes, hnotes, heq⟩ := stepMachine_eq (e := { e with outbox := [] }) hm
    (.wakeResult gen (.error failure)) env.nowTick
  rw [hstep] at heq
  simp only [engine, handle, handleInternalResult, heq, send]
  constructor
  · rw [wakesTo_append, wakesTo_append, wakesTo_append, wakesTo_aside hnotes]
    simp [wakesTo, DisplayStateMachine.issueWake, outputOf, Output.wakes?, hexecutor]
  · refine ⟨_, Function.update_self _ _ _, rfl, _, rfl⟩

theorem stuck_failed {display : DisplayId} {now interval n : ℕ} {x : WakeBook × RulesEngine}
    (hx : Stuck display now interval n x) :
    ∃ i, Stuck display now interval (n + 1) ((wakeWatch display).next x i).1 := by
  obtain ⟨b, e⟩ := x
  obtain ⟨⟨machine, hm, hp, gen, hgen⟩, hexecutor, hperiod, hasked, hdue, hsent⟩ := hx
  dsimp only at hperiod hexecutor hasked hdue hsent
  let event : Event := .result (.wake display gen (.error ⟨"ddcci", "timeout"⟩))
  obtain ⟨hone, hwaking⟩ := next_failed hm hp hgen hexecutor ⟨"ddcci", "timeout"⟩ (Env.plain now)
  have hframe := wiring_next e (Env.plain now, event)
  have hbook : ((wakeWatch display).next (b, e) (Env.plain now, event)).1.1 =
      b.record .failure interval now 1 := by
    show b.record (e.wakeCause display b.due (Env.plain now, event)) (e.wakeInterval display)
      (e.instant (Env.plain now, event)) (wakesTo display _) = _
    have hcause : e.wakeCause display b.due (Env.plain now, event) = .failure := if_pos rfl
    have hcount : wakesTo display (engine.next e (Env.plain now, event)).2 = 1 := hone
    rw [hcause, hperiod, hcount]
    rfl
  refine ⟨(Env.plain now, event), hwaking, ?_, ?_, ?_, ?_, ?_⟩
  · have hexecutors : (engine.next e (Env.plain now, event)).1.executors = e.executors :=
      congrArg Wiring.executors hframe
    show display ∈ (engine.next e (Env.plain now, event)).1.executors
    rw [hexecutors]
    exact hexecutor
  · have hfollows := follows_handle display { e with outbox := [] }
      (Env.plain now, event) rfl
    exact hfollows.interval.trans hperiod
  · rw [hbook]
    exact hasked
  · rw [hbook, List.replicate_succ]
    simp [WakeBook.record, hdue]
  · rw [hbook, List.replicate_succ]
    simp [WakeBook.record, hsent]

/-- A display whose wakes fail, one request and any number of failures: the pending retry ticks
and the wakes within one interval grow with the failures. -/
theorem wake_retries_multiply : ∃ e, new sharedSetup (fun _ => true) 0 = .ok e ∧
    ∀ n, ∃ events, let x := (wakeWatch ⟨"monitor"⟩).run (WakeBook.empty, e) events
      x.1.asked = 1 ∧ n < x.1.due.length ∧ n < x.1.sent.countP (Pulses.within 3 5) ∧
        n < x.2.timers.count (8, .displayTick ⟨"monitor"⟩) ∧
        (x.2.machines ⟨"monitor"⟩).map (·.phase) = some .waking := by
  obtain ⟨e, he⟩ : ∃ e, new sharedSetup (fun _ => true) 0 = .ok e := ⟨_, rfl⟩
  refine ⟨e, he, fun n => ?_⟩
  have hstuck : ∀ n, ∃ events,
      Stuck ⟨"monitor"⟩ 3 5 (n + 1) ((wakeWatch ⟨"monitor"⟩).run (WakeBook.empty, e) events) := by
    intro n
    induction n with
    | zero =>
      obtain rfl := Except.ok.inj he
      exact ⟨[(Env.plain 1, .control (.forceBlank ⟨"monitor"⟩)),
        (Env.plain 2, .result (.blank ⟨"monitor"⟩ 1 (.ok ()))),
        (Env.plain 3, .control (.forceWake ⟨"monitor"⟩))],
        ⟨_, rfl, by decide, 2, by decide⟩, by decide, by decide, by decide, by decide, by decide⟩
    | succ n ih =>
      obtain ⟨events, hx⟩ := ih
      obtain ⟨i, hi⟩ := stuck_failed hx
      refine ⟨events ++ [i], ?_⟩
      rw [Runs.System.run_append]
      exact hi
  obtain ⟨events, hx⟩ := hstuck n
  have hnext (x : WakeBook × RulesEngine) (i : Env × Event) (hx : Ticking ⟨"monitor"⟩ x) :
      Ticking ⟨"monitor"⟩ ((wakeWatch ⟨"monitor"⟩).next x i).1 := ticking_next hx i
  have hticking := Runs.System.invariant hnext (ticking_empty e) events
  refine ⟨events, hx.asked, ?_, ?_, ?_, ?_⟩
  · rw [hx.due, List.length_replicate]
    omega
  · rw [hx.sent, List.countP_replicate, if_pos (by decide)]
    omega
  · have hwheel := hticking.wheel 8
    rw [hx.due, List.count_replicate_self] at hwheel
    omega
  · obtain ⟨machine, hm, hp, -⟩ := hx.waking
    rw [Option.mem_def.mp hm, Option.map_some, hp]

end RulesEngine
end Dormant
