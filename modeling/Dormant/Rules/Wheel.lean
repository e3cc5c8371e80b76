import Dormant.Rules.Links
import Mathlib.Data.Multiset.Filter

/-!
# Each display runs alone

Seen from one display, the engine is that display's machine and the ticks that the machine has
asked for. `wheel` runs the two together: each tick is delivered once, at its own deadline, and
no tick comes that was not asked for. `Alone` says that a part of the engine's work is such a run
for the display, and `alone_run` says it of every run of the engine.
-/

namespace Dormant
set_option autoImplicit false

/-- What the world sees of a display. -/
inductive Sign where
  | blank (gen : UInt64) (mode : BlankMode)
  | wake (gen : UInt64)
  | shown (gen : UInt64) (idx : ℕ) (kind : StageKind)
  | tornDown (gen : UInt64)
  | phase (dest cause : String)
  deriving DecidableEq

def Output.sign? (d : DisplayId) : Output → Option Sign
  | .blank display gen mode => if display = d then some (.blank gen mode) else none
  | .wake display gen => if display = d then some (.wake gen) else none
  | .showRender display gen idx kind => if display = d then some (.shown gen idx kind) else none
  | .teardownRender display gen => if display = d then some (.tornDown gen) else none
  | .event (.displayPhase display dest cause _) =>
    if display = d then some (.phase dest cause) else none
  | _ => none

/-- Commands need an executor, and surfaces a render sink. -/
def Effect.sign? (executor sink : Bool) : Effect → Option Sign
  | .issueBlank gen mode => if executor then some (.blank gen mode) else none
  | .issueWake gen => if executor then some (.wake gen) else none
  | .showRender gen idx kind => if sink then some (.shown gen idx kind) else none
  | .teardownRender gen => if sink then some (.tornDown gen) else none
  | .logTransition _ dest cause => some (.phase dest cause)
  | .scheduleTickAt _ | .scheduleStageTickAt _ _ => none

def signs (d : DisplayId) (outputs : List Output) : List Sign := outputs.filterMap (Output.sign? d)

/-! ## A machine and its ticks -/

inductive Spin where
  | fed (feed : Feed)
  | ticked (deadline : ℕ)
  | stageTicked (deadline : ℕ) (gen : UInt64)

def Spin.feed : Spin → Feed
  | .fed feed => feed
  | .ticked deadline => .input .tick deadline
  | .stageTicked deadline gen => .input (.stageTick gen) deadline

def Spin.timer? (d : DisplayId) : Spin → Option Timer
  | .fed _ => none
  | .ticked deadline => some (deadline, .displayTick d)
  | .stageTicked deadline gen => some (deadline, .displayStageTick d gen)

/-- A tick comes only when it was asked for, and has not come yet. -/
def Spin.timely (d : DisplayId) (timers : Multiset Timer) : Spin → Prop
  | .fed (.input input _) => input.untimed = true
  | .fed (.hold _) => True
  | .ticked deadline => (deadline, .displayTick d) ∈ timers
  | .stageTicked deadline gen => (deadline, .displayStageTick d gen) ∈ timers

def Spin.take (d : DisplayId) (turn : Spin) (timers : Multiset Timer) : Multiset Timer :=
  match turn.timer? d with
  | some t => timers.erase t
  | none => timers

def wheel (d : DisplayId) : Runs.System (Multiset Timer × DisplayStateMachine) Spin Effect where
  next x turn :=
    let stepped := machine.next x.2 turn.feed
    ((↑(stepped.2.filterMap (timerOf d)) + turn.take d x.1, stepped.1), stepped.2)

/-- Every tick of the run comes when it is asked for. -/
def Timely (d : DisplayId) (x : Multiset Timer × DisplayStateMachine) (turns : List Spin) : Prop :=
  (wheel d).Steps (fun x turn => turn.timely d x.1) x turns

theorem Spin.timely_cons {d : DisplayId} {timers : Multiset Timer} {turn : Spin}
    (h : turn.timely d timers) (t : Timer) : turn.timely d (t ::ₘ timers) ∧
      turn.take d (t ::ₘ timers) = t ::ₘ turn.take d timers := by
  have hwaits {u : Timer} (hu : u ∈ timers) : u ∈ t ::ₘ timers ∧
      (t ::ₘ timers).erase u = t ::ₘ timers.erase u := by
    refine ⟨Multiset.mem_cons_of_mem hu, ?_⟩
    by_cases htu : u = t
    · subst htu
      rw [Multiset.erase_cons_head, Multiset.cons_erase hu]
    · exact Multiset.erase_cons_tail _ (Ne.symm htu)
  cases turn with
  | fed feed =>
    refine ⟨?_, rfl⟩
    cases feed with
    | input input now => exact h
    | hold active => trivial
  | ticked deadline => exact hwaits h
  | stageTicked deadline gen => exact hwaits h

/-- A tick that waits is in nobody's way. -/
theorem timely_cons {d : DisplayId} {x : Multiset Timer × DisplayStateMachine}
    {turns : List Spin} (h : Timely d x turns) (t : Timer) :
    Timely d (t ::ₘ x.1, x.2) turns ∧
      (wheel d).run (t ::ₘ x.1, x.2) turns =
        (t ::ₘ ((wheel d).run x turns).1, ((wheel d).run x turns).2) ∧
      (wheel d).outputs (t ::ₘ x.1, x.2) turns = (wheel d).outputs x turns := by
  induction turns generalizing x with
  | nil => exact ⟨trivial, rfl, rfl⟩
  | cons turn turns ih =>
    obtain ⟨hturn, htake⟩ := Spin.timely_cons h.1 t
    have hnext : (wheel d).next (t ::ₘ x.1, x.2) turn =
        ((t ::ₘ ((wheel d).next x turn).1.1, ((wheel d).next x turn).1.2),
          ((wheel d).next x turn).2) := by
      simp only [wheel, htake, Multiset.add_cons]
    obtain ⟨htimely, hrun, houtputs⟩ := ih h.2
    refine ⟨⟨hturn, ?_⟩, ?_, ?_⟩
    · rw [hnext]
      exact htimely
    · rw [Runs.System.run_cons, hnext, hrun]
      rfl
    · rw [Runs.System.outputs, hnext, houtputs]
      rfl

namespace RulesEngine

/-- The ticks of a display that are in the engine's wheel. -/
def pending (d : DisplayId) (e : RulesEngine) : Multiset Timer :=
  ↑(e.timers.filter fun t => t.2.tickOf? = some d)

def signsOf (d : DisplayId) (e : RulesEngine) (effects : List Effect) : List Sign :=
  effects.filterMap (Effect.sign? (decide (d ∈ e.executors)) (decide (d ∈ e.renderSinks)))

/-- What a display sees of a part of the engine's work is a run of its machine. -/
structure Alone (d : DisplayId) (e e' : RulesEngine) : Prop where
  executors : e'.executors = e.executors
  renderSinks : e'.renderSinks = e.renderSinks
  ran : ∀ m, e.machines d = some m → ∃ turns m', e'.machines d = some m' ∧
    Timely d (e.pending d, m) turns ∧
    (wheel d).run (e.pending d, m) turns = (e'.pending d, m') ∧
    signs d e'.outbox = signs d e.outbox ++ e.signsOf d ((wheel d).outputs (e.pending d, m) turns)

variable {d : DisplayId} {e e' e'' : RulesEngine}

theorem Alone.of_frame (hm : e'.machines d = e.machines d) (ht : e'.pending d = e.pending d)
    (ho : signs d e'.outbox = signs d e.outbox) (hx : e'.executors = e.executors)
    (hr : e'.renderSinks = e.renderSinks) : Alone d e e' := by
  refine ⟨hx, hr, fun m hsome => ⟨[], m, hm.trans hsome, trivial, ?_, ?_⟩⟩
  · rw [Runs.System.run_nil, ht]
  · simp [ho, Runs.System.outputs, signsOf]

theorem Alone.refl (e : RulesEngine) : Alone d e e := .of_frame rfl rfl rfl rfl rfl

theorem Alone.trans (h : Alone d e e') (h' : Alone d e' e'') : Alone d e e'' := by
  refine ⟨h'.executors.trans h.executors, h'.renderSinks.trans h.renderSinks, fun m hm => ?_⟩
  obtain ⟨turns, m', hm', htimely, hrun, hsigns⟩ := h.ran m hm
  obtain ⟨more, m'', hm'', htimely', hrun', hsigns'⟩ := h'.ran m' hm'
  refine ⟨turns ++ more, m'', hm'', ?_, ?_, ?_⟩
  · refine (Runs.System.steps_append _ _ _).mpr ⟨htimely, ?_⟩
    rw [hrun]
    exact htimely'
  · rw [Runs.System.run_append, hrun, hrun']
  · have hof : e'.signsOf d = e.signsOf d := by
      funext effects
      rw [signsOf, signsOf, h.executors, h.renderSinks]
    rw [hsigns', hsigns, Runs.System.outputs_append, hrun, hof, List.append_assoc, signsOf,
      signsOf, signsOf, List.filterMap_append]

/-! ## One step of the machine -/

theorem sign_plain {o : Output} (h : o.plain = true) : o.sign? d = none := by
  cases o with
  | event ev => cases ev <;> first | rfl | cases h
  | blank | wake | showRender | teardownRender => cases h
  | _ => rfl

theorem signs_outputOf (e : RulesEngine) (display : DisplayId) (effects : List Effect) :
    (effects.filterMap (e.outputOf display)).filterMap (Output.sign? d) =
      if display = d then e.signsOf d effects else [] := by
  rw [List.filterMap_filterMap]
  split
  · rename_i hd
    subst hd
    rw [signsOf]
    congr 1
    funext effect
    cases effect <;> simp only [outputOf, Effect.sign?, decide_eq_true_eq]
    case logTransition => simp [Output.sign?]
    all_goals (try split) <;> simp [Output.sign?]
  · rename_i hd
    rw [List.filterMap_eq_nil_iff]
    intro effect _
    cases effect <;> simp only [outputOf]
    case logTransition => simp [Output.sign?, hd]
    all_goals (try split) <;> simp [Output.sign?, hd]

theorem timerOf_tickOf {display : DisplayId} {effect : Effect} {t : Timer}
    (h : timerOf display effect = some t) : t.2.tickOf? = some display := by
  cases effect <;> simp only [timerOf, Option.some.injEq, reduceCtorEq] at h <;> subst h <;> rfl

/-- The ticks that a step adds to the wheel are its own display's. -/
theorem filter_timerOf (display : DisplayId) (effects : List Effect) :
    (effects.filterMap (timerOf display)).reverse.filter (fun t => t.2.tickOf? = some d) =
      if display = d then (effects.filterMap (timerOf display)).reverse else [] := by
  split
  · rename_i hd
    refine List.filter_eq_self.mpr fun t ht => ?_
    obtain ⟨effect, -, heffect⟩ := List.mem_filterMap.mp (List.mem_reverse.mp ht)
    simp [timerOf_tickOf heffect, hd]
  · rename_i hd
    refine List.filter_eq_nil_iff.mpr fun t ht => ?_
    obtain ⟨effect, -, heffect⟩ := List.mem_filterMap.mp (List.mem_reverse.mp ht)
    simp [timerOf_tickOf heffect, hd]

theorem alone_stepMachine_of_ne {display : DisplayId} (hd : display ≠ d) (e : RulesEngine)
    (input : Input) (now : ℕ) : Alone d e (e.stepMachine display input now) := by
  cases hm : e.machines display with
  | none =>
    rw [stepMachine_none e display now hm]
    exact .refl e
  | some m =>
    have hsigns := read_stepMachine (fun o => sign_plain (d := d)) hm input now
    obtain ⟨notes, scopes, -, hstep⟩ := stepMachine_plain hm input now
    rw [signs_outputOf, if_neg hd, List.append_nil] at hsigns
    refine .of_frame ?_ ?_ hsigns ?_ ?_
    · rw [hstep]
      exact Function.update_of_ne (Ne.symm hd) _ _
    · rw [hstep, pending, List.filter_append, filter_timerOf, if_neg hd]
      rfl
    · rw [hstep]
    · rw [hstep]

/-- A step of the display's own machine is one turn of its wheel. -/
theorem turn_stepMachine {m : DisplayStateMachine} (hm : e.machines d = some m) (turn : Spin)
    {input : Input} {now : ℕ} (hturn : turn.feed = .input input now) (timers : Multiset Timer)
    (htake : turn.take d timers = e.pending d) :
    (e.stepMachine d input now).machines d = some (m.step input now).1 ∧
      ((wheel d).next (timers, m) turn).1 =
        ((e.stepMachine d input now).pending d, (m.step input now).1) ∧
      signs d (e.stepMachine d input now).outbox =
        signs d e.outbox ++ e.signsOf d ((wheel d).next (timers, m) turn).2 ∧
      (e.stepMachine d input now).executors = e.executors ∧
      (e.stepMachine d input now).renderSinks = e.renderSinks := by
  have hsigns := read_stepMachine (fun o => sign_plain (d := d)) hm input now
  obtain ⟨notes, scopes, -, hstep⟩ := stepMachine_plain hm input now
  have hpending : (e.stepMachine d input now).pending d =
      ↑((m.step input now).2.filterMap (timerOf d)) + e.pending d := by
    rw [hstep, pending, List.filter_append, filter_timerOf, if_pos rfl, pending,
      ← Multiset.coe_add, Multiset.coe_reverse]
  refine ⟨?_, ?_, ?_, ?_, ?_⟩
  · rw [hstep]
    exact Function.update_self ..
  · rw [hpending]
    simp only [wheel, hturn, machine_input, htake]
  · rw [signs, hsigns, signs_outputOf, if_pos rfl]
    simp only [wheel, hturn, machine_input, signs]
  · rw [hstep]
  · rw [hstep]

theorem alone_fed (e : RulesEngine) {input : Input} (h : input.untimed = true) (now : ℕ) :
    Alone d e (e.stepMachine d input now) := by
  cases hm : e.machines d with
  | none =>
    rw [stepMachine_none e d now hm]
    exact .refl e
  | some m =>
    obtain ⟨hm', hnext, hsigns, hx, hr⟩ := turn_stepMachine hm
      (.fed (.input input now)) rfl (e.pending d) rfl
    refine ⟨hx, hr, fun m₀ hm₀ => ?_⟩
    obtain rfl := Option.some.inj (hm.symm.trans hm₀)
    refine ⟨[.fed (.input input now)], _, hm', ⟨h, trivial⟩, ?_, ?_⟩
    · rw [Runs.System.run_cons, hnext, Runs.System.run_nil]
    · rw [hsigns, Runs.System.outputs, Runs.System.outputs, List.append_nil]

/-! ## The links -/

theorem alone_flag (e : RulesEngine) (display : DisplayId) (active : Bool) :
    Alone d e (e.setHoldFlag display active) := by
  unfold setHoldFlag
  split
  · exact .refl e
  · rename_i m hm
    by_cases hd : display = d
    · subst hd
      refine ⟨rfl, rfl, fun m₀ hm₀ => ?_⟩
      obtain rfl := Option.some.inj (hm.symm.trans hm₀)
      refine ⟨[.fed (.hold active)], _, Function.update_self .., ⟨trivial, trivial⟩, rfl, ?_⟩
      simp [setMachine, Runs.System.outputs, wheel, Spin.feed, signsOf]
    · exact .of_frame (Function.update_of_ne (Ne.symm hd) _ _) rfl rfl rfl rfl

theorem alone_link (h : Link e e') : Alone d e e' := by
  cases h with
  | book => exact .of_frame rfl rfl rfl rfl rfl
  | send h =>
    refine .of_frame rfl rfl ?_ rfl rfl
    simp [send, signs, sign_plain h]
  | arm tick h =>
    refine .of_frame rfl ?_ rfl rfl rfl
    simp [pushTimer, pending, h]
  | step display now h =>
    rename_i input
    by_cases hd : display = d
    · subst hd
      exact alone_fed e h now
    · exact alone_stepMachine_of_ne hd e input now
  | flag display active => exact alone_flag e display active

theorem alone_links (h : Links e e') : Alone d e e' :=
  h.lift .refl (fun _ _ _ => .trans) fun _ _ => alone_link

theorem alone_applyPresence (env : Env) (e : RulesEngine) (ev : PresenceEvent) :
    Alone d e (e.applyPresence env ev) := by
  have told (changes : List ZoneChange) (e : RulesEngine) : Alone d e (changes.foldl
      (fun e change => (e.send (.event (.zoneChanged change.zone change.present change.cause)))
        |>.fanZoneChangeToDisplays env change.zone) e) := by
    induction changes generalizing e with
    | nil => exact .refl e
    | cons change changes ih =>
      refine Alone.trans ?_ (ih _)
      have hsent : Alone d e
          (e.send (.event (.zoneChanged change.zone change.present change.cause))) := by
        refine .of_frame rfl rfl ?_ rfl rfl
        simp [send, signs, Output.sign?]
      exact hsent.trans (alone_links (links_fanZoneChangeToDisplays _ env change.zone))
  have hregistered : Alone d e (e.registered env ev) := by
    unfold registered
    dsimp only
    split
    · exact .of_frame rfl rfl rfl rfl rfl
    · refine .of_frame rfl rfl ?_ rfl rfl
      simp [send, signs, Output.sign?]
  rw [applyPresence_eq]
  exact hregistered.trans (told _ _)

theorem alone_strides {env : Env} (h : Strides env e e') : Alone d e e' :=
  h.lift .refl (fun _ _ _ => .trans) (fun _ _ => alone_link) (alone_applyPresence env)

/-! ## The pop of a timer -/

theorem pending_popTimer (t : Timer) (e : RulesEngine) :
    (e.popTimer t).pending d = (e.pending d).erase t := by
  rw [popTimer, pending, ← List.erase_filter, pending, Multiset.coe_erase]
  congr 2
  exact lawful_beq_subsingleton _ _

theorem alone_popTimer {t : Timer} (h : t.2.tickOf? ≠ some d) (e : RulesEngine) :
    Alone d e (e.popTimer t) := by
  refine .of_frame rfl ?_ rfl rfl rfl
  rw [pending_popTimer, Multiset.erase_of_notMem]
  intro ht
  have hof := (List.mem_filter.mp (Multiset.mem_coe.mp ht)).2
  exact h (by simpa using hof)

/-- A tick of the display that comes due is a turn of its wheel, after the machine has heard of
its ownership. -/
theorem alone_tick (env : Env) (turn : Spin) {t : Timer} {input : Input} (ht : t ∈ e.timers)
    (hof : t.2.tickOf? = some d) (htimer : turn.timer? d = some t)
    (htimely : ∀ timers, t ∈ timers → turn.timely d timers)
    (hturn : turn.feed = .input input t.1) :
    Alone d e (((e.popTimer t).feedOwnership env d t.1).stepMachine d input t.1) := by
  have hfed := alone_links (d := d) (links_feedOwnership (e.popTimer t) env d t.1)
  have hmem : t ∈ e.pending d := by
    rw [pending, Multiset.mem_coe]
    exact List.mem_filter.mpr ⟨ht, by simpa using hof⟩
  have hcons : e.pending d = t ::ₘ (e.popTimer t).pending d := by
    rw [pending_popTimer, Multiset.cons_erase hmem]
  generalize (e.popTimer t).feedOwnership env d t.1 = e₁ at hfed ⊢
  have hwiring := (stepMachine_frame e₁ d input t.1).1
  refine ⟨(congrArg Wiring.executors hwiring).trans hfed.executors,
    (congrArg Wiring.renderSinks hwiring).trans hfed.renderSinks, fun m hm => ?_⟩
  obtain ⟨turns, m₁, hm₁, hturns, hrun, hsigns⟩ := hfed.ran m hm
  obtain ⟨hwaited, hrun', houtputs⟩ := timely_cons hturns t
  obtain ⟨hm', hnext, hsigns', -, -⟩ := turn_stepMachine hm₁ turn hturn
    (t ::ₘ e₁.pending d) (by simp [Spin.take, htimer])
  rw [hrun] at hrun'
  rw [hcons]
  refine ⟨turns ++ [turn], _, hm', ?_, ?_, ?_⟩
  · refine (Runs.System.steps_append _ _ _).mpr ⟨hwaited, ?_, trivial⟩
    rw [hrun']
    exact htimely _ (Multiset.mem_cons_self t (e₁.pending d))
  · rw [Runs.System.run_append, hrun', Runs.System.run_cons, hnext, Runs.System.run_nil]
  · have hof : e₁.signsOf d = e.signsOf d := by
      funext effects
      rw [signsOf, signsOf, hfed.executors, hfed.renderSinks]
      rfl
    have hof' : (e.popTimer t).signsOf d = e.signsOf d := rfl
    rw [hsigns', hsigns, Runs.System.outputs_append, hrun', houtputs, hof, hof', Runs.System.outputs,
      Runs.System.outputs, List.append_nil, List.append_assoc, signsOf, signsOf, signsOf,
      List.filterMap_append]
    rfl

/-! ## Runs -/

theorem alone_fireTimer (env : Env) {t : Timer} (ht : t ∈ e.timers) :
    Alone d e ((e.popTimer t).fireTimer env t.1 t.2) := by
  obtain ⟨deadline, entry⟩ := t
  have other {display : DisplayId} (hd : display ≠ d) (e : RulesEngine) (input : Input) : Alone d e
      ((e.feedOwnership env display deadline).stepMachine display input deadline) :=
    (alone_links (links_feedOwnership e env display deadline)).trans
      (alone_stepMachine_of_ne hd _ input deadline)
  have popped (h : entry.tickOf? ≠ some d) : Alone d e (e.popTimer (deadline, entry)) :=
    alone_popTimer h e
  cases entry with
  | displayTick display =>
    by_cases hd : display = d
    · subst hd
      exact alone_tick env (.ticked deadline) ht rfl rfl (fun _ h => h) rfl
    · exact (popped fun h => hd (Option.some.inj h)).trans (other hd _ .tick)
  | displayStageTick display gen =>
    by_cases hd : display = d
    · subst hd
      exact alone_tick env (.stageTicked deadline gen) ht rfl rfl (fun _ h => h) rfl
    · exact (popped fun h => hd (Option.some.inj h)).trans (other hd _ (.stageTick gen))
  | holdExpiry sensor =>
    exact (popped (by simp [TimerEntry.tickOf?])).trans (alone_strides (strides_fireTimer _ env rfl _))
  | inputWakeHoldExpiry display =>
    exact (popped (by simp [TimerEntry.tickOf?])).trans (alone_strides (strides_fireTimer _ env rfl _))

theorem alone_handle (e : RulesEngine) {i : Env × Event} (hrelay : i.2.relaysState = false) :
    Alone d e (e.handle i.1 i.2) := by
  cases hdue : e.dueTimer i with
  | none => exact alone_strides (strides_handle e hrelay hdue)
  | some t =>
    obtain ⟨env, event⟩ := i
    cases event with
    | timer =>
      rw [handle, fireDueTimer_due hdue]
      exact alone_fireTimer env (dueTimer_mem hdue).1
    | _ => cases hdue

theorem alone_run (d : DisplayId) (e : RulesEngine) {m : DisplayStateMachine}
    (hm : e.machines d = some m) (events : List (Env × Event))
    (hrelay : ∀ i ∈ events, i.2.relaysState = false) :
    ∃ turns, Timely d (e.pending d, m) turns ∧
      (engine.run e events).machines d = some ((wheel d).run (e.pending d, m) turns).2 ∧
      (engine.run e events).pending d = ((wheel d).run (e.pending d, m) turns).1 ∧
      signs d (engine.outputs e events) =
        e.signsOf d ((wheel d).outputs (e.pending d, m) turns) := by
  induction events generalizing e m with
  | nil => exact ⟨[], trivial, hm, rfl, rfl⟩
  | cons i events ih =>
    have hstep := alone_handle (d := d) { e with outbox := [] } (hrelay i List.mem_cons_self)
    obtain ⟨turns, m', hm', htimely, hrun, hsigns⟩ := hstep.ran m hm
    obtain ⟨more, htimely', hmachine, hpending, hsigns'⟩ :=
      ih (engine.next e i).1 hm' fun j hj => hrelay j (List.mem_cons_of_mem _ hj)
    have hof : (engine.next e i).1.signsOf d = e.signsOf d := by
      funext effects
      rw [signsOf, signsOf]
      exact congrArg₂ (fun x r => effects.filterMap
        (Effect.sign? (decide (d ∈ x)) (decide (d ∈ r)))) hstep.executors hstep.renderSinks
    have hrun' : (wheel d).run (e.pending d, m) turns = ((engine.next e i).1.pending d, m') := hrun
    refine ⟨turns ++ more, ?_, ?_, ?_, ?_⟩
    · refine (Runs.System.steps_append _ _ _).mpr ⟨htimely, ?_⟩
      rw [hrun']
      exact htimely'
    · rw [Runs.System.run_append, hrun', Runs.System.run_cons, hmachine]
    · rw [Runs.System.run_append, hrun', Runs.System.run_cons, hpending]
    · have hfirst : signs d (engine.next e i).2 =
          e.signsOf d ((wheel d).outputs (e.pending d, m) turns) := hsigns
      rw [Runs.System.outputs, signs, List.filterMap_append, Runs.System.outputs_append, hrun']
      rw [signs] at hfirst hsigns'
      rw [hfirst, hsigns', hof, signsOf, signsOf, signsOf, List.filterMap_append]

end RulesEngine
end Dormant
