import Dormant.StateMachine.Traffic
import Dormant.Rules.Presence

/-!
# What reaches one machine

For one display, a handler does no more than feed the display's machine and send on the commands
that the machine issues. `Fed` says so for a given list of inputs, and `Feeds` for some list of
inputs of a kind, as long as the display does not change hands.
-/

namespace Dormant
set_option autoImplicit false

def Output.commandTo (d : DisplayId) : Output → Option Command
  | .blank display gen _ => if display = d then some (.blank gen) else none
  | .wake display gen => if display = d then some (.wake gen) else none
  | _ => none

def commandsTo (d : DisplayId) (outputs : List Output) : List Command :=
  outputs.filterMap (Output.commandTo d)

/-- What presence and requests for a lit panel feed to a machine. -/
def Feed.gentle : Feed → Prop
  | .hold _ => True
  | .input (.zonePresent _) _ | .input .forceWake _ | .input .inputWake _ => True
  | _ => False

/-- A timer that is no tick of the display. -/
def TimerEntry.spares (d : DisplayId) : TimerEntry → Prop
  | .displayTick display | .displayStageTick display _ => display ≠ d
  | _ => True

/-- The display that a result is for, and what its machine hears. -/
def InternalResult.told? : InternalResult → Option (DisplayId × Input)
  | .blank display gen result => some (display, .blankResult gen result)
  | .wake display gen result => some (display, .wakeResult gen result)
  | .render display gen result => some (display, .renderResult gen result)
  | .exerciseResume _ _ _ => none

namespace RulesEngine

structure Fed (d : DisplayId) (feeds : List Feed) (e e' : RulesEngine) : Prop where
  ran : e'.machines d = (e.machines d).map (machine.run · feeds)
  sent : ∀ m, e.machines d = some m → commandsTo d e'.outbox =
    commandsTo d e.outbox ++ if d ∈ e.executors then commands (machine.outputs m feeds) else []
  executors : e'.executors = e.executors
  lastOwned : e'.lastOwned d = e.lastOwned d

/-- While the gate says of the display what it said last, the handler feeds its machine inputs of
one kind. -/
def Feeds (env : Env) (d : DisplayId) (P : Feed → Prop) (e e' : RulesEngine) : Prop :=
  e.lastOwned d = some (env.owns d) → ∃ feeds, (∀ f ∈ feeds, P f) ∧ Fed d feeds e e'

variable {d : DisplayId} {P : Feed → Prop} {e e' e'' : RulesEngine} {env : Env}
  {feeds more : List Feed}

theorem commandsTo_append (d : DisplayId) (a b : List Output) :
    commandsTo d (a ++ b) = commandsTo d a ++ commandsTo d b :=
  List.filterMap_append

theorem commandsTo_send (e : RulesEngine) {o : Output} (h : o.commandTo d = none) :
    commandsTo d (e.send o).outbox = commandsTo d e.outbox := by
  simp [commandsTo, send, h]

theorem Fed.of_frame (hm : e'.machines d = e.machines d)
    (ho : commandsTo d e'.outbox = commandsTo d e.outbox) (hx : e'.executors = e.executors)
    (hl : e'.lastOwned d = e.lastOwned d) : Fed d [] e e' := by
  refine ⟨?_, fun m _ => ?_, hx, hl⟩
  · rw [hm]
    cases e.machines d <;> rfl
  · rw [ho, Runs.System.outputs]
    simp [commands]

theorem Fed.refl (e : RulesEngine) : Fed d [] e e := .of_frame rfl rfl rfl rfl

theorem Fed.trans (h : Fed d feeds e e') (h' : Fed d more e' e'') :
    Fed d (feeds ++ more) e e'' := by
  refine ⟨?_, fun m hm => ?_, h'.executors.trans h.executors, h'.lastOwned.trans h.lastOwned⟩
  · rw [h'.ran, h.ran, Option.map_map]
    congr 1
    funext m
    exact (Runs.System.run_append m feeds more).symm
  · have hm' : e'.machines d = some (machine.run m feeds) := by rw [h.ran, hm]; rfl
    rw [h'.sent _ hm', h.sent m hm, h.executors, Runs.System.outputs_append, List.append_assoc]
    split
    · rw [commands_append]
    · simp

/-- What comes after does not concern the display. -/
theorem Fed.before (h : Fed d feeds e e') (h' : Fed d [] e' e'') : Fed d feeds e e'' := by
  simpa using h.trans h'

theorem Feeds.of_frame (hm : e'.machines d = e.machines d)
    (ho : commandsTo d e'.outbox = commandsTo d e.outbox) (hx : e'.executors = e.executors)
    (hl : e'.lastOwned d = e.lastOwned d) : Feeds env d P e e' :=
  fun _ => ⟨[], List.forall_mem_nil _, .of_frame hm ho hx hl⟩

theorem Feeds.refl (e : RulesEngine) : Feeds env d P e e := .of_frame rfl rfl rfl rfl

theorem Feeds.trans (h : Feeds env d P e e') (h' : Feeds env d P e' e'') :
    Feeds env d P e e'' := by
  intro howned
  obtain ⟨feeds, hfeeds, hfed⟩ := h howned
  obtain ⟨more, hmore, hfed'⟩ := h' (hfed.lastOwned.trans howned)
  refine ⟨feeds ++ more, fun f hf => ?_, hfed.trans hfed'⟩
  rcases List.mem_append.mp hf with hf | hf
  · exact hfeeds f hf
  · exact hmore f hf

theorem Feeds.foldl {α : Type} {f : RulesEngine → α → RulesEngine}
    (hf : ∀ e a, Feeds env d P e (f e a)) (l : List α) (e : RulesEngine) :
    Feeds env d P e (l.foldl f e) := by
  induction l generalizing e with
  | nil => exact .refl e
  | cons a l ih => exact (hf e a).trans (ih (f e a))

/-! ## One step of a machine -/

theorem commandsTo_noteTransition (e : RulesEngine) (display : DisplayId)
    (oldPhase newPhase : Phase) : commandsTo d (e.noteTransition display oldPhase newPhase).outbox =
      commandsTo d e.outbox := by
  unfold noteTransition emitPhaseTransition
  split
  · rfl
  · split
    · rfl
    · exact commandsTo_send e rfl

theorem commandsTo_notePause (e : RulesEngine) (display : DisplayId) (wasPaused isPaused : Bool) :
    commandsTo d (e.notePause display wasPaused isPaused).outbox = commandsTo d e.outbox := by
  unfold notePause emitPauseChanged
  split
  · rfl
  · dsimp only
    split <;> exact commandsTo_send e rfl

theorem commandsTo_outputOf (e : RulesEngine) (display : DisplayId) (effects : List Effect) :
    commandsTo d (effects.filterMap (e.outputOf display)) =
      if display = d ∧ display ∈ e.executors then commands effects else [] := by
  unfold commandsTo commands
  rw [List.filterMap_filterMap]
  by_cases h : display = d ∧ display ∈ e.executors
  · rw [if_pos h]
    obtain ⟨rfl, hx⟩ := h
    congr 1
    funext effect
    cases effect with
    | showRender =>
      simp only [outputOf, Effect.command?]
      split <;> rfl
    | teardownRender =>
      simp only [outputOf, Effect.command?]
      split <;> rfl
    | _ => simp [outputOf, Output.commandTo, Effect.command?, hx]
  · rw [if_neg h, List.filterMap_eq_nil_iff]
    intro effect _
    cases effect with
    | issueBlank | issueWake =>
      simp only [outputOf]
      split
      · rename_i hx
        exact if_neg fun hd => h ⟨hd, hx⟩
      · rfl
    | showRender | teardownRender =>
      simp only [outputOf]
      split <;> rfl
    | _ => rfl

theorem commandsTo_stepMachine {display : DisplayId} {m : DisplayStateMachine}
    (h : e.machines display = some m) (input : Input) (now : ℕ) :
    commandsTo d (e.stepMachine display input now).outbox = commandsTo d e.outbox ++
      if display = d ∧ display ∈ e.executors then commands (m.step input now).2 else [] := by
  simp only [stepMachine, h, processEffects_eq, commandsTo_append, commandsTo_outputOf,
    commandsTo_notePause, commandsTo_noteTransition]
  have hx : ((e.setMachine display (m.step input now).1).noteTransition display m.phase
      (m.step input now).1.phase |>.notePause display m.overlays.paused.isSome
        (m.step input now).1.overlays.paused.isSome).executors = e.executors := by
    have hnoted := (neutral_noteTransition (e.setMachine display (m.step input now).1) display
      m.phase (m.step input now).1.phase).static.executors
    exact (neutral_notePause _ display _ _).static.executors.trans hnoted
  rw [hx]
  rfl

theorem lastOwned_stepMachine (e : RulesEngine) (display : DisplayId) (input : Input) (now : ℕ) :
    (e.stepMachine display input now).lastOwned = e.lastOwned := by
  cases h : e.machines display with
  | none => rw [stepMachine_none e display now h]
  | some m =>
    obtain ⟨notes, scopes, -, hstep⟩ := stepMachine_eq h input now
    rw [hstep]

theorem machines_stepMachine (e : RulesEngine) (display : DisplayId) (input : Input) (now : ℕ) :
    (e.stepMachine display input now).machines = Function.update e.machines display
      ((e.machines display).map fun m => (m.step input now).1) := by
  cases h : e.machines display with
  | none =>
    rw [stepMachine_none e display now h, Option.map_none, ← h, Function.update_eq_self]
  | some m =>
    obtain ⟨notes, scopes, -, hstep⟩ := stepMachine_eq h input now
    rw [hstep]
    rfl

theorem fed_stepMachine (e : RulesEngine) (input : Input) (now : ℕ) :
    Fed d [.input input now] e (e.stepMachine d input now) := by
  refine ⟨?_, fun m hm => ?_, (kept_stepMachine e d now input).static.executors,
    congrFun (lastOwned_stepMachine e d input now) d⟩
  · rw [machines_stepMachine, Function.update_self]
    rfl
  · rw [commandsTo_stepMachine hm]
    simp [Runs.System.outputs, machine]

theorem fed_stepMachine_of_ne {display : DisplayId} (hne : display ≠ d) (e : RulesEngine)
    (input : Input) (now : ℕ) : Fed d [] e (e.stepMachine display input now) := by
  refine .of_frame ?_ ?_ (kept_stepMachine e display now input).static.executors
    (congrFun (lastOwned_stepMachine e display input now) d)
  · rw [machines_stepMachine, Function.update_of_ne (Ne.symm hne)]
  · cases h : e.machines display with
    | none => rw [stepMachine_none e display now h]
    | some m =>
      rw [commandsTo_stepMachine h, if_neg fun hd => hne hd.1, List.append_nil]

theorem feeds_stepMachine (e : RulesEngine) (display : DisplayId) {input : Input} {now : ℕ}
    (hP : P (.input input now)) : Feeds env d P e (e.stepMachine display input now) := by
  intro _
  by_cases hd : display = d
  · subst hd
    exact ⟨_, by simpa using hP, fed_stepMachine e input now⟩
  · exact ⟨[], by simp, fed_stepMachine_of_ne hd e input now⟩

theorem feeds_setHoldFlag (e : RulesEngine) (display : DisplayId) {active : Bool}
    (hP : P (.hold active)) : Feeds env d P e (e.setHoldFlag display active) := by
  intro _
  unfold setHoldFlag
  split
  · exact ⟨[], by simp, .refl e⟩
  · rename_i m hm
    by_cases hd : display = d
    · subst hd
      refine ⟨[.hold active], by simpa using hP, ?_, fun m' _ => ?_, rfl, rfl⟩
      · simp [setMachine, hm, machine]
      · simp [setMachine, Runs.System.outputs, machine, commands]
    · refine ⟨[], by simp, .of_frame ?_ rfl rfl rfl⟩
      exact Function.update_of_ne (Ne.symm hd) _ _

theorem feeds_feedOwnership (e : RulesEngine) (display : DisplayId) (now : ℕ) :
    Feeds env d P e (e.feedOwnership env display now) := by
  intro howned
  refine ⟨[], by simp, ?_⟩
  unfold feedOwnership
  dsimp only
  by_cases hd : display = d
  · subst hd
    rw [if_pos howned]
    exact .refl e
  · have hset (owns : Bool) :
        Fed d [] e { e with lastOwned := Function.update e.lastOwned display (some owns) } :=
      .of_frame rfl rfl rfl (Function.update_of_ne (Ne.symm hd) _ _)
    split
    · exact .refl e
    · split
      · exact hset true
      · exact (hset _).trans (fed_stepMachine_of_ne hd _ _ now)

theorem feeds_stepOne (e : RulesEngine) (display : DisplayId) {input : Input}
    (hP : P (.input input env.now)) : Feeds env d P e (e.stepOne env display input) :=
  (feeds_feedOwnership e display env.now).trans (feeds_stepMachine _ display hP)

theorem feeds_send (e : RulesEngine) {o : Output} (h : o.commandTo d = none) :
    Feeds env d P e (e.send o) :=
  .of_frame rfl (commandsTo_send e h) rfl rfl

/-! ## Presence -/

theorem feeds_clearInputWakeHold (e : RulesEngine) (display : DisplayId) :
    Feeds env d Feed.gentle e (e.clearInputWakeHold display) := by
  have hcleared : Feeds env d Feed.gentle e
      { e with inputWakeHolds := Function.update e.inputWakeHolds display none } :=
    .of_frame rfl rfl rfl rfl
  exact hcleared.trans (feeds_setHoldFlag _ display trivial)

theorem feeds_fanToDisplay (e : RulesEngine) (display : DisplayId) :
    Feeds env d Feed.gentle e (e.fanToDisplay env display) := by
  have told (e : RulesEngine) (present : Bool) : Feeds env d Feed.gentle e
      ((e.feedOwnership env display env.now).stepMachine display (.zonePresent present) env.now) :=
    (feeds_feedOwnership e display env.now).trans (feeds_stepMachine _ display trivial)
  unfold fanToDisplay
  dsimp only
  split
  · exact (feeds_clearInputWakeHold e display).trans (told _ _)
  · exact told e _

theorem feeds_fanZoneChangeToDisplays (e : RulesEngine) (zone : ZoneId) :
    Feeds env d Feed.gentle e (e.fanZoneChangeToDisplays env zone) :=
  .foldl (fun e _ => .foldl (fun e display => feeds_fanToDisplay e display) _ e) _ e

theorem feeds_applyHoldFilter (e : RulesEngine) (ev : PresenceEvent) :
    Feeds env d P e (e.applyHoldFilter env ev).1 := by
  cases h : e.holds ev.sensorId with
  | none =>
    rw [applyHoldFilter_none env h]
    exact .refl e
  | some hold =>
    rw [applyHoldFilter_some env h]
    exact .of_frame rfl rfl rfl rfl

theorem feeds_applyPresence (e : RulesEngine) (ev : PresenceEvent) :
    Feeds env d Feed.gentle e (e.applyPresence env ev) := by
  have hregistered : Feeds env d Feed.gentle e (e.registered env ev) := by
    unfold registered
    dsimp only
    split
    · exact .of_frame rfl rfl rfl rfl
    · exact (feeds_send e rfl).trans (.of_frame rfl rfl rfl rfl)
  rw [applyPresence_eq]
  apply hregistered.trans
  apply Feeds.foldl
  intro e change
  exact (feeds_send e rfl).trans (feeds_fanZoneChangeToDisplays _ change.zone)

theorem feeds_handlePresenceEvent (e : RulesEngine) (ev : PresenceEvent) :
    Feeds env d Feed.gentle e (e.handlePresenceEvent env ev) := by
  have hfiltered : Feeds env d Feed.gentle e (e.filtered env ev) := by
    unfold filtered
    refine Feeds.trans ?_ (feeds_applyHoldFilter _ ev)
    exact .of_frame rfl rfl rfl rfl
  rw [handlePresenceEvent_eq]
  split
  · exact hfiltered.trans (feeds_applyPresence _ ev)
  · exact hfiltered

theorem feeds_handleSensorAvailability (e : RulesEngine) (ev : SensorAvailabilityEvent) :
    Feeds env d Feed.gentle e (e.handleSensorAvailability env ev) := by
  unfold handleSensorAvailability
  split
  · exact .of_frame rfl rfl rfl rfl
  · refine Feeds.trans ?_ (feeds_handlePresenceEvent _ _)
    exact .of_frame rfl rfl rfl rfl

theorem feeds_sweepStaleSensors (e : RulesEngine) :
    Feeds env d Feed.gentle e (e.sweepStaleSensors env) := by
  have expired (e : RulesEngine) (sensor : SensorId) (staleTimeout : ℕ) :
      Feeds env d Feed.gentle e (e.expireSensor env sensor staleTimeout) := by
    unfold expireSensor
    split
    · exact .refl e
    · split
      · exact feeds_handlePresenceEvent e _
      · exact .refl e
  apply Feeds.foldl
  intro e scfg
  unfold sweepSensor
  split
  · exact .refl e
  · exact .refl e
  · split
    · exact expired e _ _
    · split
      · refine Feeds.trans ?_ (expired _ _ _)
        exact .of_frame rfl rfl rfl rfl
      · exact .refl e

/-! ## Requests, holds and timers -/

theorem feeds_handleInputWake (e : RulesEngine) (display : DisplayId) :
    Feeds env d Feed.gentle e (e.handleInputWake env display) := by
  unfold handleInputWake
  dsimp only
  split
  · split
    · refine Feeds.trans ?_ (feeds_stepOne _ display trivial)
      refine Feeds.trans ?_ (feeds_setHoldFlag _ display trivial)
      exact .of_frame rfl rfl rfl rfl
    · exact feeds_stepOne e display trivial
  · exact feeds_stepOne e display trivial

theorem feeds_fireHoldExpiry (e : RulesEngine) (sensor : SensorId) (now : ℕ) :
    Feeds env d Feed.gentle e (e.fireHoldExpiry env sensor now) := by
  unfold fireHoldExpiry
  split
  · exact .refl e
  · dsimp only
    split
    · exact .of_frame rfl rfl rfl rfl
    · split
      · exact .refl e
      · split
        · exact .of_frame rfl rfl rfl rfl
        · refine Feeds.trans ?_ (feeds_handlePresenceEvent _ _)
          exact .of_frame rfl rfl rfl rfl

theorem feeds_fireInputWakeHoldExpiry (e : RulesEngine) (display : DisplayId) (now : ℕ) :
    Feeds env d Feed.gentle e (e.fireInputWakeHoldExpiry env display now) := by
  have hfed : Feeds env d Feed.gentle e
      ((e.clearInputWakeHold display).feedOwnership env display now) :=
    (feeds_clearInputWakeHold e display).trans (feeds_feedOwnership _ display now)
  unfold fireInputWakeHoldExpiry
  split
  · exact .refl e
  · split
    · exact .refl e
    · dsimp only
      split
      · exact hfed.trans (feeds_stepMachine _ display trivial)
      · exact hfed

theorem fed_displayTick (howned : e.lastOwned d = some (env.owns d)) (deadline : ℕ) :
    Fed d [.input .tick deadline] e (e.fireTimer env deadline (.displayTick d)) := by
  have hsame : e.feedOwnership env d deadline = e := if_pos howned
  rw [fireTimer, hsame]
  exact fed_stepMachine e .tick deadline

theorem feeds_fireTimer {entry : TimerEntry} (h : TimerEntry.spares d entry) (e : RulesEngine)
    (deadline : ℕ) : Feeds env d Feed.gentle e (e.fireTimer env deadline entry) := by
  have other {display : DisplayId} (hne : display ≠ d) (input : Input) :
      Feeds env d Feed.gentle e ((e.feedOwnership env display deadline).stepMachine display input
        deadline) :=
    (feeds_feedOwnership e display deadline).trans
      fun _ => ⟨[], by simp, fed_stepMachine_of_ne hne _ input deadline⟩
  cases entry with
  | displayTick display => exact other h .tick
  | displayStageTick display gen => exact other h (.stageTick gen)
  | holdExpiry sensor => exact feeds_fireHoldExpiry e sensor deadline
  | inputWakeHoldExpiry display => exact feeds_fireInputWakeHoldExpiry e display deadline

/-! ## Results and pauses -/

theorem fed_handleInternalResult (e : RulesEngine) {res : InternalResult} {display : DisplayId}
    {input : Input} (h : res.told? = some (display, input)) :
    Fed d [] (e.stepMachine display input env.nowTick) (e.handleInternalResult env res) := by
  cases res with
  | blank target gen result =>
    obtain ⟨rfl, rfl⟩ := Prod.mk.inj (Option.some.inj h)
    simp only [handleInternalResult]
    split
    · exact .of_frame rfl (commandsTo_send _ rfl) rfl rfl
    · split
      · exact .of_frame rfl (commandsTo_send _ rfl) rfl rfl
      · exact .refl _
  | wake target gen result =>
    obtain ⟨rfl, rfl⟩ := Prod.mk.inj (Option.some.inj h)
    simp only [handleInternalResult]
    split
    · split
      · exact .refl _
      · split
        · exact .of_frame rfl (commandsTo_send _ rfl) rfl rfl
        · exact .of_frame rfl rfl rfl rfl
    · exact .of_frame rfl (commandsTo_send _ rfl) rfl rfl
  | render target gen result =>
    obtain ⟨rfl, rfl⟩ := Prod.mk.inj (Option.some.inj h)
    exact .refl _
  | exerciseResume rules operationId generation => cases h

theorem feeds_handlePause (e : RulesEngine) (rule : Option RuleId)
    (hP : P (.input (.pause none) env.now)) : Feeds env d P e (e.handlePause env rule none) := by
  apply Feeds.foldl
  intro e display
  unfold pauseDisplay
  refine Feeds.trans ?_ (feeds_stepOne _ display hP)
  split <;> exact .of_frame rfl rfl rfl rfl

theorem feeds_handleResume (e : RulesEngine) (rule : Option RuleId)
    (hP : P (.input .resume env.now)) : Feeds env d P e (e.handleResume env rule) :=
  .foldl (fun e display => feeds_stepOne e display hP) _ e

theorem feeds_exerciseResume (e : RulesEngine) (rules : List RuleId) (operationId : UInt64)
    (generation : GenerationId) (hP : P (.input .resume env.now)) :
    Feeds env d P e (e.handleInternalResult env (.exerciseResume rules operationId generation)) := by
  simp only [handleInternalResult]
  split
  · exact .foldl (fun e r => feeds_handleResume e (some r) hP) _ e
  · exact .refl e

end RulesEngine
end Dormant
