import Dormant.Rules.Frames
import Mathlib.Logic.Relation

/-!
# What the handlers are made of

Most of the engine's work is bookkeeping, sending, and telling machines of inputs other than
presence: a chain of `Chore`s. `Deed` adds what the presence path, the holds and the timers
write. Each handler is such a chain, at one instant, so a property of the engine is proved for
each kind of link and follows for every handler. `stepMachine_eq` says all that one step of a
machine writes.
-/

namespace Dormant
set_option autoImplicit false

/-- A report of a failed command, or of the end of its failures. -/
def DaemonEvent.isReport : DaemonEvent → Bool
  | .wakeRetry _ _ | .blankFailure _ _ _ | .blankRecovered _ | .wakeRecovered _ _ => true
  | _ => false

def Output.report? : Output → Option DaemonEvent
  | .event ev => if ev.isReport then some ev else none
  | _ => none

/-- The display a wake command goes to. -/
def Output.wakes? : Output → Option DisplayId
  | .wake display _ => some display
  | _ => none

/-- Neither a failure report nor a wake command. -/
def Output.aside (o : Output) : Bool := o.report?.isNone && o.wakes?.isNone

def Input.isPresence : Input → Bool
  | .zonePresent _ => true
  | _ => false

/-- The messages that reach neither a sensor nor an input-wake hold, and relay no report. -/
def ControlMsg.isChore : ControlMsg → Bool
  | .inputWake _ | .sensorAvailability _ => false
  | .publishDaemonEvent event => !event.isReport
  | _ => true

def timerOf (display : DisplayId) : Effect → Option Timer
  | .scheduleTickAt tick => some (tick, .displayTick display)
  | .scheduleStageTickAt gen tick => some (tick, .displayStageTick display gen)
  | _ => none

namespace RulesEngine

/-! ## One step of a machine -/

def outputOf (e : RulesEngine) (display : DisplayId) : Effect → Option Output
  | .issueBlank gen mode => if display ∈ e.executors then some (.blank display gen mode) else none
  | .issueWake gen => if display ∈ e.executors then some (.wake display gen) else none
  | .showRender gen idx kind =>
    if display ∈ e.renderSinks then some (.showRender display gen idx kind)
    else some (.renderUnavailable display gen
      { controller := "render-none", error := "E_RENDER_UNAVAILABLE: no render backend" })
  | .teardownRender gen =>
    if display ∈ e.renderSinks then some (.teardownRender display gen) else none
  | .logTransition _ dest cause =>
    let confirmed :=
      if cause = "presence_detected" then some ((e.displayConfirmedPresence display).getD false)
      else none
    some (.event (.displayPhase display dest cause confirmed))
  | .scheduleTickAt _ | .scheduleStageTickAt _ _ => none

variable {e e' : RulesEngine}

theorem processEffect_eq (e : RulesEngine) (display : DisplayId) (effect : Effect) :
    e.processEffect display effect =
      { e with
        timers := (timerOf display effect).toList ++ e.timers
        outbox := e.outbox ++ (e.outputOf display effect).toList } := by
  cases effect <;> simp only [processEffect, outputOf, timerOf]
  case scheduleTickAt => simp [pushTimer]
  case scheduleStageTickAt => simp [pushTimer]
  case logTransition => simp [send]
  all_goals split <;> simp [send]

theorem outputOf_with (e : RulesEngine) (machines : DisplayId → Option DisplayStateMachine)
    (timers : List Timer) (outbox : List Output)
    (pausedScopes : DisplayId → Option (Option RuleId)) :
    ({ e with machines := machines, timers := timers, outbox := outbox,
              pausedScopes := pausedScopes } : RulesEngine).outputOf = e.outputOf := by
  funext display effect
  cases effect <;> rfl

theorem processEffects_eq (e : RulesEngine) (display : DisplayId) (effects : List Effect) :
    effects.foldl (fun e effect => e.processEffect display effect) e =
      { e with
        timers := (effects.filterMap (timerOf display)).reverse ++ e.timers
        outbox := e.outbox ++ effects.filterMap (e.outputOf display) } := by
  induction effects generalizing e with
  | nil => simp
  | cons effect effects ih =>
    rw [List.foldl_cons, processEffect_eq, ih]
    rw [outputOf_with e _ ((timerOf display effect).toList ++ e.timers)]
    cases ht : timerOf display effect <;> cases ho : e.outputOf display effect <;> simp [ht, ho]

theorem noteTransition_eq (e : RulesEngine) (display : DisplayId) (oldPhase newPhase : Phase) :
    ∃ notes : List Output, (∀ o ∈ notes, o.aside = true) ∧
      e.noteTransition display oldPhase newPhase = { e with outbox := e.outbox ++ notes } := by
  unfold noteTransition emitPhaseTransition
  split
  · exact ⟨[], by simp, by simp⟩
  · split
    · exact ⟨[], by simp, by simp⟩
    · exact ⟨[_], by simp [Output.aside, Output.report?, Output.wakes?], rfl⟩

theorem notePause_eq (e : RulesEngine) (display : DisplayId) (wasPaused isPaused : Bool) :
    ∃ (notes : List Output) (scopes : DisplayId → Option (Option RuleId)),
      (∀ o ∈ notes, o.aside = true) ∧ e.notePause display wasPaused isPaused =
        { e with outbox := e.outbox ++ notes, pausedScopes := scopes } := by
  unfold notePause emitPauseChanged
  split
  · exact ⟨[], e.pausedScopes, by simp, by simp⟩
  · have hnote (scope : Option RuleId) : Output.aside
        (.event (.pauseChanged display isPaused scope)) = true := rfl
    dsimp only
    split
    · exact ⟨[_], e.pausedScopes, by simp [hnote], rfl⟩
    · exact ⟨[_], _, by simp [hnote], rfl⟩

/-- All that a step of a machine writes: the machine, the timers and the commands of its
effects, remarks, and the scope of a pause that ended. -/
theorem stepMachine_eq {display : DisplayId} {machine : DisplayStateMachine}
    (h : e.machines display = some machine) (input : Input) (now : ℕ) :
    ∃ (notes : List Output) (scopes : DisplayId → Option (Option RuleId)),
      (∀ o ∈ notes, o.aside = true) ∧ e.stepMachine display input now =
        { e with
          machines := Function.update e.machines display (some (machine.step input now).1)
          timers := ((machine.step input now).2.filterMap (timerOf display)).reverse ++ e.timers
          outbox := e.outbox ++ (notes ++
            (machine.step input now).2.filterMap (e.outputOf display))
          pausedScopes := scopes } := by
  simp only [stepMachine, h]
  obtain ⟨notes, hnotes, htransition⟩ := noteTransition_eq
    (e.setMachine display (machine.step input now).1) display machine.phase
    (machine.step input now).1.phase
  rw [htransition]
  obtain ⟨remarks, scopes, hremarks, hpause⟩ := notePause_eq
    { e.setMachine display (machine.step input now).1 with
      outbox := (e.setMachine display (machine.step input now).1).outbox ++ notes } display
    machine.overlays.paused.isSome (machine.step input now).1.overlays.paused.isSome
  rw [hpause, processEffects_eq]
  refine ⟨notes ++ remarks, scopes, fun o ho => ?_, ?_⟩
  · rcases List.mem_append.mp ho with ho | ho
    · exact hnotes o ho
    · exact hremarks o ho
  · rw [setMachine, outputOf_with e]
    simp only [List.append_assoc]

/-! ## Chores -/

inductive Chore (now : ℕ) : RulesEngine → RulesEngine → Prop
  /-- Notes that no machine and no timer depends on. -/
  | book (e : RulesEngine) (lastOwned : DisplayId → Option Bool)
      (pausedScopes : DisplayId → Option (Option RuleId))
      (inhibitorState : RuleId → InhibitorSet) (availabilityOnline : SensorId → Option ℕ)
      (claimSuppression : DisplayId → Option ℕ) :
      Chore now e { e with
        lastOwned := lastOwned, pausedScopes := pausedScopes, inhibitorState := inhibitorState,
        availabilityOnline := availabilityOnline, claimSuppression := claimSuppression }
  | send (e : RulesEngine) {o : Output} (h : o.aside = true) : Chore now e (e.send o)
  | tell (e : RulesEngine) (display : DisplayId) {input : Input} (h : input.isPresence = false) :
      Chore now e (e.stepMachine display input now)

def Chores (now : ℕ) : RulesEngine → RulesEngine → Prop := Relation.ReflTransGen (Chore now)

variable {now : ℕ}

theorem Chore.chores (h : Chore now e e') : Chores now e e' := .single h

theorem Chores.refl (e : RulesEngine) : Chores now e e := Relation.ReflTransGen.refl

theorem Chores.trans {e'' : RulesEngine} (h : Chores now e e') (h' : Chores now e' e'') :
    Chores now e e'' :=
  Relation.ReflTransGen.trans h h'

theorem Chores.foldl {α : Type} {f : RulesEngine → α → RulesEngine}
    (hf : ∀ e a, Chores now e (f e a)) (l : List α) (e : RulesEngine) :
    Chores now e (l.foldl f e) := by
  induction l generalizing e with
  | nil => exact .refl e
  | cons a l ih => exact (hf e a).trans (ih (f e a))

/-- What every chore keeps, a chain of them keeps. -/
theorem Chores.keeps {P : RulesEngine → Prop}
    (hP : ∀ e e', Chore now e e' → P e → P e') (h : Chores now e e') (h0 : P e) : P e' := by
  induction h with
  | refl => exact h0
  | tail _ hlast ih => exact hP _ _ hlast ih

variable (e) (env : Env) (display : DisplayId)

theorem chores_tell (now : ℕ) {input : Input} (h : input.isPresence = false) :
    Chores now e (e.stepMachine display input now) :=
  (Chore.tell e display h).chores

theorem chores_send (now : ℕ) {o : Output} (h : o.aside = true) : Chores now e (e.send o) :=
  (Chore.send e h).chores

theorem chores_feedOwnership (now : ℕ) : Chores now e (e.feedOwnership env display now) := by
  unfold feedOwnership
  dsimp only
  split
  · exact .refl e
  · split
    · exact (Chore.book e _ _ _ _ _).chores
    · apply Chores.trans (Chore.book e _ _ _ _ _).chores
      exact chores_tell _ display now rfl

theorem chores_stepOne {input : Input} (h : input.isPresence = false) :
    Chores env.now e (e.stepOne env display input) :=
  (chores_feedOwnership e env display env.now).trans (chores_tell _ display env.now h)

theorem chores_handlePause (rule : Option RuleId) (untilStamp : Option ℕ) :
    Chores env.now e (e.handlePause env rule untilStamp) := by
  apply Chores.foldl
  intro e d
  have hscope : Chores env.now e (if (e.machines d).isSome then
      { e with pausedScopes := Function.update e.pausedScopes d (some rule) } else e) := by
    split
    · exact (Chore.book e _ _ _ _ _).chores
    · exact .refl e
  exact hscope.trans (chores_stepOne _ env d rfl)

theorem chores_handleResume (rule : Option RuleId) :
    Chores env.now e (e.handleResume env rule) :=
  Chores.foldl (fun e d => chores_stepOne e env d rfl) _ e

theorem chores_handleEmergencyWake : Chores env.now e (e.handleEmergencyWake env) :=
  (chores_handlePause e env none none).trans
    (Chores.foldl (fun e _ => chores_send e env.now rfl) _ _)

theorem chores_applyInhibitor (r : RuleId) (kind : InhibitorKind) (inhibited : Bool) :
    Chores env.now e (e.applyInhibitor env r kind inhibited) := by
  unfold applyInhibitor
  dsimp only
  have hset : Chores env.now e (e.setInhibitors r
      { kinds := Function.update (e.inhibitorState r).kinds kind inhibited,
        effective := anyEngaged (Function.update (e.inhibitorState r).kinds kind inhibited) }) :=
    (Chore.book e _ _ _ _ _).chores
  split
  · exact hset
  · exact hset.trans (Chores.foldl (fun e d => chores_stepOne e env d rfl) _ _)

theorem chores_handleSetInhibited (rule : Option RuleId) (kind : InhibitorKind)
    (inhibited : Bool) : Chores env.now e (e.handleSetInhibited env rule kind inhibited) := by
  cases rule with
  | none => exact Chores.foldl (fun e r => chores_applyInhibitor e env r kind inhibited) _ e
  | some r => exact chores_applyInhibitor e env r kind inhibited

theorem chores_handleExercise (target : DisplayId) (accepted : Option AcceptedOperation) :
    Chores env.now e (e.handleExercise env target accepted) := by
  unfold handleExercise
  split
  · exact chores_send e env.now rfl
  · rename_i operation _
    have hpaused : Chores env.now e ((e.rulesOf target).foldl
        (fun e r => e.handlePause env (some r) none) e) :=
      Chores.foldl (fun e r => chores_handlePause e env (some r) none) _ e
    dsimp only
    split
    · exact hpaused.trans (chores_send _ env.now rfl)
    · apply hpaused.trans
      apply Chores.trans (Chores.foldl (fun e r => chores_handleResume e env (some r)) _ _)
      exact chores_send _ env.now rfl


/-! ## Deeds -/

/-- A chore, a write of the presence path or of an input-wake hold, or a timer that is no tick
of a display. -/
inductive Deed (now : ℕ) : RulesEngine → RulesEngine → Prop
  | chore {e e' : RulesEngine} (h : Chore now e e') : Deed now e e'
  | see (e : RulesEngine) (display : DisplayId) (present : Bool) :
      Deed now e (e.stepMachine display (.zonePresent present) now)
  | write (e : RulesEngine) (zoneEngine : ZoneEngine) (holds : SensorId → Option HoldState)
      (sensorLastSeenVirtual : SensorId → Option ℕ) (inputWakeHolds : DisplayId → Option ℕ) :
      Deed now e { e with
        zoneEngine := zoneEngine, holds := holds,
        sensorLastSeenVirtual := sensorLastSeenVirtual, inputWakeHolds := inputWakeHolds }
  | arm (e : RulesEngine) (tick : ℕ) {entry : TimerEntry} (h : entry.passes = true) :
      Deed now e (e.pushTimer tick entry)
  | flag (e : RulesEngine) (display : DisplayId) (active : Bool) :
      Deed now e (e.setHoldFlag display active)

def Deeds (now : ℕ) : RulesEngine → RulesEngine → Prop := Relation.ReflTransGen (Deed now)

variable {e e' : RulesEngine} {now : ℕ}

theorem Deed.deeds (h : Deed now e e') : Deeds now e e' := .single h

theorem Deeds.refl (e : RulesEngine) : Deeds now e e := Relation.ReflTransGen.refl

theorem Deeds.trans {e'' : RulesEngine} (h : Deeds now e e') (h' : Deeds now e' e'') :
    Deeds now e e'' :=
  Relation.ReflTransGen.trans h h'

theorem Chores.deeds (h : Chores now e e') : Deeds now e e' :=
  Relation.ReflTransGen.mono (fun _ _ => .chore) _ _ h

theorem Deeds.foldl {α : Type} {f : RulesEngine → α → RulesEngine}
    (hf : ∀ e a, Deeds now e (f e a)) (l : List α) (e : RulesEngine) :
    Deeds now e (l.foldl f e) := by
  induction l generalizing e with
  | nil => exact .refl e
  | cons a l ih => exact (hf e a).trans (ih (f e a))

/-- What every deed keeps, a chain of them keeps. -/
theorem Deeds.keeps {P : RulesEngine → Prop}
    (hP : ∀ e e', Deed now e e' → P e → P e') (h : Deeds now e e') (h0 : P e) : P e' := by
  induction h with
  | refl => exact h0
  | tail _ hlast ih => exact hP _ _ hlast ih

variable (e) (env : Env) (display : DisplayId)

theorem deeds_clearInputWakeHold (now : ℕ) : Deeds now e (e.clearInputWakeHold display) :=
  (Deed.write e _ _ _ _).deeds.trans (Deed.flag _ display false).deeds

theorem deeds_fanToDisplay : Deeds env.now e (e.fanToDisplay env display) := by
  unfold fanToDisplay
  dsimp only
  have told (e : RulesEngine) (present : Bool) : Deeds env.now e
      ((e.feedOwnership env display env.now).stepMachine display (.zonePresent present) env.now) :=
    (chores_feedOwnership e env display _).deeds.trans (Deed.see _ display present).deeds
  split
  · exact (deeds_clearInputWakeHold e display env.now).trans (told _ _)
  · exact told _ _

theorem deeds_fanZoneChangeToDisplays (zone : ZoneId) :
    Deeds env.now e (e.fanZoneChangeToDisplays env zone) :=
  Deeds.foldl (fun e _ => Deeds.foldl (fun e d => deeds_fanToDisplay e env d) _ e) _ e

theorem deeds_applyHoldFilter (ev : PresenceEvent) (now : ℕ) :
    Deeds now e (e.applyHoldFilter env ev).1 := by
  unfold applyHoldFilter
  split
  · exact .refl e
  · split
    · split
      · exact .refl e
      · exact (Deed.write e _ _ _ _).deeds.trans (Deed.arm _ _ rfl).deeds
    · split
      · exact (Deed.write e _ _ _ _).deeds
      · exact .refl e
    · exact (Deed.write e _ _ _ _).deeds

theorem deeds_applyPresence (ev : PresenceEvent) : Deeds env.now e (e.applyPresence env ev) := by
  unfold applyPresence
  dsimp only
  have told (e : RulesEngine) (zoneEngine : ZoneEngine) (changes : List ZoneChange) :
      Deeds env.now e (changes.foldl
        (fun e change => (e.send (.event (.zoneChanged change.zone change.present change.cause)))
          |>.fanZoneChangeToDisplays env change.zone) { e with zoneEngine := zoneEngine }) := by
    apply Deeds.trans (Deed.write e _ _ _ _).deeds
    apply Deeds.foldl
    intro e change
    exact (chores_send e env.now rfl).deeds.trans
      (deeds_fanZoneChangeToDisplays _ env change.zone)
  apply Deeds.trans (Deed.write e _ _ _ _).deeds
  split
  · exact told _ _ _
  · exact (chores_send _ env.now rfl).deeds.trans (told _ _ _)

theorem deeds_handlePresenceEvent (ev : PresenceEvent) :
    Deeds env.now e (e.handlePresenceEvent env ev) := by
  unfold handlePresenceEvent
  dsimp only
  have hmarked : Deeds env.now e (if ev.state = .unavailable then
      { e with availabilityOnline := Function.update e.availabilityOnline ev.sensorId none }
    else e) := by
    split
    · exact (Chore.book e _ _ _ _ _).chores.deeds
    · exact .refl e
  apply hmarked.trans
  generalize (if ev.state = .unavailable then _ else e) = e'
  split
  · exact deeds_applyHoldFilter e' env ev _
  · exact (deeds_applyHoldFilter e' env ev _).trans (deeds_applyPresence _ env _)

theorem deeds_handleSensorAvailability (ev : SensorAvailabilityEvent) :
    Deeds env.now e (e.handleSensorAvailability env ev) := by
  unfold handleSensorAvailability
  split
  · exact (Chore.book e _ _ _ _ _).chores.deeds
  · apply Deeds.trans (Chore.book e _ _ _ _ _).chores.deeds
    exact deeds_handlePresenceEvent _ env _

theorem deeds_sweepSensor (sensor : SensorId) (staleTimeout : ℕ) :
    Deeds env.now e (e.sweepSensor env sensor staleTimeout) := by
  have hexpire (e : RulesEngine) : Deeds env.now e (e.expireSensor env sensor staleTimeout) := by
    unfold expireSensor
    split
    · exact .refl e
    · split
      · exact deeds_handlePresenceEvent e env _
      · exact .refl e
  unfold sweepSensor
  split
  · exact .refl e
  · exact .refl e
  · split
    · exact hexpire e
    · split
      · exact (Chore.book e _ _ _ _ _).chores.deeds.trans (hexpire _)
      · exact .refl e

theorem deeds_sweepStaleSensors : Deeds env.now e (e.sweepStaleSensors env) := by
  apply Deeds.foldl
  intro e scfg
  exact deeds_sweepSensor e env scfg.sensor scfg.staleTimeout

theorem deeds_handleInputWake : Deeds env.now e (e.handleInputWake env display) := by
  unfold handleInputWake
  dsimp only
  have hasked (e : RulesEngine) : Deeds env.now e (e.stepOne env display .inputWake) :=
    (chores_stepOne e env display rfl).deeds
  split
  · split
    · refine Deeds.trans ?_ (hasked _)
      refine Deeds.trans ?_ (Deed.flag _ display true).deeds
      exact (Deed.write e _ _ _ _).deeds.trans (Deed.arm _ _ rfl).deeds
    · exact hasked e
  · exact hasked e

theorem deeds_fireHoldExpiry (sensor : SensorId) (deadline : ℕ) :
    Deeds env.now e (e.fireHoldExpiry env sensor deadline) := by
  unfold fireHoldExpiry
  split
  · exact .refl e
  · dsimp only
    split
    · exact (Deed.write e _ _ _ _).deeds
    · split
      · exact .refl e
      · split
        · exact (Deed.write e _ _ _ _).deeds
        · exact (Deed.write e _ _ _ _).deeds.trans (deeds_handlePresenceEvent _ env _)

theorem deeds_fireInputWakeHoldExpiry (now : ℕ) :
    Deeds now e (e.fireInputWakeHoldExpiry env display now) := by
  unfold fireInputWakeHoldExpiry
  split
  · exact .refl e
  · split
    · exact .refl e
    · have hfed : Deeds now e ((e.clearInputWakeHold display).feedOwnership env display now) :=
        (deeds_clearInputWakeHold e display now).trans
          (chores_feedOwnership _ env display now).deeds
      dsimp only
      split
      · exact hfed.trans (Deed.see _ display false).deeds
      · exact hfed

/-! ## The arms of the run loop -/

/-- The timer that an event pops. -/
def dueTimer (e : RulesEngine) (i : Env × Event) : Option Timer :=
  match i.2 with
  | .timer => (earliest e.timers).filter fun t => decide (t.1 ≤ i.1.nowTick)
  | _ => none

theorem earliest_mem {timers : List Timer} {t : Timer} (h : earliest timers = some t) :
    t ∈ timers := by
  induction timers generalizing t with
  | nil => cases h
  | cons u timers ih =>
    unfold earliest at h
    split at h
    · obtain rfl := Option.some.inj h
      exact List.mem_cons_self
    · rename_i least hleast
      split at h
      · obtain rfl := Option.some.inj h
        exact List.mem_cons_self
      · obtain rfl := Option.some.inj h
        exact List.mem_cons_of_mem _ (ih hleast)

theorem dueTimer_mem {e : RulesEngine} {i : Env × Event} {t : Timer} (h : e.dueTimer i = some t) :
    t ∈ e.timers ∧ t.1 ≤ i.1.nowTick := by
  unfold dueTimer at h
  split at h
  · simp only [Option.filter_eq_some_iff, decide_eq_true_eq] at h
    exact ⟨earliest_mem h.1, h.2⟩
  · cases h

theorem fireDueTimer_idle {e : RulesEngine} {env : Env} (h : e.dueTimer (env, .timer) = none) :
    e.fireDueTimer env = e := by
  unfold fireDueTimer
  split
  · rfl
  · rename_i deadline entry hearliest
    rw [if_pos]
    simpa [dueTimer, hearliest, Option.filter] using h

theorem fireDueTimer_due {e : RulesEngine} {env : Env} {t : Timer}
    (h : e.dueTimer (env, .timer) = some t) :
    e.fireDueTimer env = (e.popTimer t).fireTimer env t.1 t.2 := by
  simp only [dueTimer, Option.filter_eq_some_iff, decide_eq_true_eq] at h
  obtain ⟨hearliest, hdue⟩ := h
  unfold fireDueTimer
  rw [hearliest]
  exact if_neg (Nat.not_lt.mpr hdue)

/-- The instant at which a timer's handler steps machines. -/
def timerInstant (env : Env) (t : Timer) : ℕ :=
  match t.2 with
  | .holdExpiry _ => env.now
  | _ => t.1

theorem chores_displayTick (deadline : ℕ) :
    Chores deadline e (e.fireTimer env deadline (.displayTick display)) :=
  (chores_feedOwnership e env display deadline).trans (chores_tell _ display deadline rfl)

theorem deeds_fireTimer (t : Timer) : Deeds (timerInstant env t) e (e.fireTimer env t.1 t.2) := by
  obtain ⟨deadline, entry⟩ := t
  cases entry with
  | displayTick display => exact (chores_displayTick e env display deadline).deeds
  | displayStageTick display gen =>
    exact ((chores_feedOwnership e env display deadline).trans
      (chores_tell _ display deadline rfl)).deeds
  | holdExpiry sensor => exact deeds_fireHoldExpiry e env sensor deadline
  | inputWakeHoldExpiry display => exact deeds_fireInputWakeHoldExpiry e env display deadline

theorem chores_handleControl {msg : ControlMsg} (h : msg.isChore = true) :
    Chores env.now e (e.handleControl env msg) := by
  cases msg with
  | pause rule untilStamp => exact chores_handlePause e env rule untilStamp
  | resume rule => exact chores_handleResume e env rule
  | forceBlank display => exact chores_stepOne e env display rfl
  | forceWake display => exact chores_stepOne e env display rfl
  | softBlank display => exact chores_stepOne e env display rfl
  | setInhibited rule kind inhibited => exact chores_handleSetInhibited e env rule kind inhibited
  | setClaimSuppression display deadline => exact (Chore.book e _ _ _ _ _).chores
  | ownershipPoll display => exact chores_feedOwnership e env display env.now
  | publishDaemonEvent event =>
    have hreport : event.isReport = false := by simpa [ControlMsg.isChore] using h
    have haside : (Output.event event).aside = true := by
      simp [Output.aside, Output.report?, Output.wakes?, hreport]
    exact chores_send e env.now haside
  | emergencyWake => exact chores_handleEmergencyWake e env
  | emergencyWakeAccepted operation => exact chores_handleEmergencyWake e env
  | exercise display => exact chores_handleExercise e env display none
  | exerciseAccepted operation =>
    simp only [handleControl]
    split
    · exact chores_handleExercise e env _ (some operation)
    · exact chores_send e env.now rfl
  | queryPresenceConfirmed display => exact chores_send e env.now rfl
  | passive => exact .refl e
  | inputWake display => cases h
  | sensorAvailability event => cases h

/-- Every message but the relay of a failure report is handled by deeds. -/
theorem deeds_handleControl {msg : ControlMsg}
    (h : ∀ event, msg = .publishDaemonEvent event → event.isReport = false) :
    Deeds env.now e (e.handleControl env msg) := by
  cases hc : msg.isChore with
  | true => exact (chores_handleControl e env hc).deeds
  | false =>
    cases msg with
    | inputWake display => exact deeds_handleInputWake e env display
    | sensorAvailability event => exact deeds_handleSensorAvailability e env event
    | publishDaemonEvent event => simp [ControlMsg.isChore, h event rfl] at hc
    | _ => cases hc

/-! ## What no event changes -/

/-- What an engine is built from: its configuration and the indices made of it. -/
structure Wiring where
  cfg : RulesEngineConfig
  executors : List DisplayId
  renderSinks : List DisplayId
  ruleDisplays : RuleId → Option (List DisplayId)
  ruleOrder : List RuleId
  zoneRules : ZoneId → List RuleId
  generation : Option GenerationId

/-- What is known of the sensors and zones, with the input-wake holds. -/
structure Sensing where
  zoneEngine : ZoneEngine
  holds : SensorId → Option HoldState
  sensorLastSeenVirtual : SensorId → Option ℕ
  inputWakeHolds : DisplayId → Option ℕ

omit e in
def wiring (e : RulesEngine) : Wiring :=
  { cfg := e.cfg, executors := e.executors, renderSinks := e.renderSinks,
    ruleDisplays := e.ruleDisplays, ruleOrder := e.ruleOrder, zoneRules := e.zoneRules,
    generation := e.generation }

omit e in
def sensing (e : RulesEngine) : Sensing :=
  { zoneEngine := e.zoneEngine, holds := e.holds,
    sensorLastSeenVirtual := e.sensorLastSeenVirtual, inputWakeHolds := e.inputWakeHolds }

theorem stepMachine_frame (input : Input) (now : ℕ) :
    (e.stepMachine display input now).wiring = e.wiring ∧
      (e.stepMachine display input now).sensing = e.sensing := by
  cases hm : e.machines display with
  | none =>
    rw [stepMachine_none e display now hm]
    exact ⟨rfl, rfl⟩
  | some machine =>
    obtain ⟨notes, scopes, -, hstep⟩ := stepMachine_eq hm input now
    rw [hstep]
    exact ⟨rfl, rfl⟩

variable {e}

theorem chores_frame (h : Chores now e e') : e'.wiring = e.wiring ∧ e'.sensing = e.sensing := by
  apply h.keeps (P := fun e' => e'.wiring = e.wiring ∧ e'.sensing = e.sensing) ?_ ⟨rfl, rfl⟩
  intro e₁ e₂ hchore hframe
  cases hchore with
  | book => exact hframe
  | send => exact hframe
  | @tell display input h =>
    have hstep := stepMachine_frame e₁ display input now
    exact ⟨hstep.1.trans hframe.1, hstep.2.trans hframe.2⟩

theorem setHoldFlag_frame (active : Bool) : (e.setHoldFlag display active).wiring = e.wiring ∧
    (e.setHoldFlag display active).sensing = e.sensing := by
  unfold setHoldFlag
  split
  · exact ⟨rfl, rfl⟩
  · exact ⟨rfl, rfl⟩

theorem deeds_wiring (h : Deeds now e e') : e'.wiring = e.wiring := by
  apply h.keeps (P := fun e' => e'.wiring = e.wiring) ?_ rfl
  intro e₁ e₂ hdeed hframe
  cases hdeed with
  | chore h => exact (chores_frame h.chores).1.trans hframe
  | see display present => exact (stepMachine_frame e₁ display _ now).1.trans hframe
  | write => exact hframe
  | arm => exact hframe
  | flag display active => exact (setHoldFlag_frame display active).1.trans hframe

/-- A result is told to the machine; then the failure books and the reports are written. -/
theorem handleInternalResult_eq (e : RulesEngine) (res : InternalResult) :
    ∃ (now : ℕ) (e' : RulesEngine), Chores now e e' ∧
      ∃ (wakeAttempts : DisplayId → Option UInt64) (lastBlankFailed : DisplayId → Bool)
        (outbox : List Output), e.handleInternalResult env res =
          { e' with
            wakeAttempts := wakeAttempts, lastBlankFailed := lastBlankFailed, outbox := outbox } := by
  cases res with
  | blank display gen result =>
    refine ⟨env.nowTick, _, (Chore.tell e display (by rfl : (Input.blankResult gen result).isPresence = false)).chores, ?_⟩
    simp only [handleInternalResult]
    split
    · exact ⟨_, _, _, rfl⟩
    · split
      · exact ⟨_, _, _, rfl⟩
      · exact ⟨_, _, _, rfl⟩
  | wake display gen result =>
    refine ⟨env.nowTick, _, (Chore.tell e display (by rfl : (Input.wakeResult gen result).isPresence = false)).chores, ?_⟩
    simp only [handleInternalResult]
    split
    · split
      · exact ⟨_, _, _, rfl⟩
      · split
        · exact ⟨_, _, _, rfl⟩
        · exact ⟨_, _, _, rfl⟩
    · exact ⟨_, _, _, rfl⟩
  | render display gen result =>
    exact ⟨env.nowTick, _, (Chore.tell e display (by rfl : (Input.renderResult gen result).isPresence = false)).chores,
      _, _, _, rfl⟩
  | exerciseResume rules operationId generation =>
    simp only [handleInternalResult]
    split
    · exact ⟨env.now, _, Chores.foldl (fun e r => chores_handleResume e env (some r)) _ e,
        _, _, _, rfl⟩
    · exact ⟨env.now, _, .refl e, _, _, _, rfl⟩

theorem handleInternalResult_frame (e : RulesEngine) (res : InternalResult) :
    (e.handleInternalResult env res).wiring = e.wiring ∧
      (e.handleInternalResult env res).sensing = e.sensing := by
  obtain ⟨now, e', hchores, attempts, failed, outbox, heq⟩ := handleInternalResult_eq env e res
  have hframe := chores_frame hchores
  rw [heq]
  exact hframe

theorem fireDueTimer_wiring : (e.fireDueTimer env).wiring = e.wiring := by
  unfold fireDueTimer
  split
  · rfl
  · rename_i deadline entry _
    split
    · rfl
    · have hfired := deeds_wiring
        (deeds_fireTimer (e.popTimer (deadline, entry)) env (deadline, entry))
      exact hfired

theorem handle_wiring (e : RulesEngine) (env : Env) (event : Event) :
    (e.handle env event).wiring = e.wiring := by
  cases event with
  | presence ev => exact deeds_wiring (deeds_handlePresenceEvent e env ev)
  | result res => exact (handleInternalResult_frame env e res).1
  | timer => exact fireDueTimer_wiring env
  | sweep => exact deeds_wiring (deeds_sweepStaleSensors e env)
  | control msg =>
    by_cases h : ∀ event, msg = .publishDaemonEvent event → event.isReport = false
    · exact deeds_wiring (deeds_handleControl e env h)
    · push Not at h
      obtain ⟨event, rfl, -⟩ := h
      rfl

theorem wiring_next (e : RulesEngine) (i : Env × Event) : (engine.next e i).1.wiring = e.wiring := by
  have h := handle_wiring { e with outbox := [] } i.1 i.2
  exact h

end RulesEngine
end Dormant
