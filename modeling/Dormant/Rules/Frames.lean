import Dormant.Foundations.Checks
import Dormant.Rules.Engine

/-!
# What the handlers leave alone

`Kept` says that a handler leaves the configuration, the rule index and the inhibitor
bookkeeping alone, drops no timer and spawns no exercise, and `Neutral` that it leaves the
overlays of every machine alone as well. Overlays change through `step_machine` only, by
`Overlays.after`, whatever the phase.
-/

namespace Dormant
set_option autoImplicit false

/-- The overlays after an input, whatever the phase of the machine. -/
def Overlays.after (o : Overlays) (input : Input) (now : ℕ) : Overlays :=
  match input with
  | .tick => o.resumedAt now
  | .inhibitorChanged inhibited => { o with inhibited := inhibited }
  | .pause untilTick => { o with paused := some ⟨untilTick⟩ }
  | .resume => { o with paused := none }
  | _ => o

def Input.passes : Input → Bool
  | .tick | .inhibitorChanged _ | .pause _ | .resume => false
  | _ => true

theorem Overlays.after_passes {input : Input} (h : input.passes = true) (o : Overlays) (now : ℕ) :
    o.after input now = o := by
  cases input <;> first | rfl | exact absurd h Bool.false_ne_true

theorem DisplayStateMachine.step_overlays_after (s : DisplayStateMachine) (input : Input)
    (now : ℕ) : (s.step input now).1.overlays = s.overlays.after input now := by
  rw [step_overlays]
  cases input <;> rfl

def Output.task? : Output → Option ExerciseTask
  | .exercise task => some task
  | _ => none

def ControlMsg.passes : ControlMsg → Bool
  | .pause _ _ | .resume _ | .setInhibited _ _ _ | .emergencyWake | .emergencyWakeAccepted _
  | .exercise _ => false
  | .exerciseAccepted operation => operation.kind == .emergencyWake
  | _ => true

def InternalResult.passes : InternalResult → Bool
  | .exerciseResume _ _ _ => false
  | _ => true

def TimerEntry.passes : TimerEntry → Bool
  | .displayTick _ => false
  | _ => true

namespace RulesEngine

def overlays (e : RulesEngine) (display : DisplayId) : Option Overlays :=
  (e.machines display).map (·.overlays)

def tasks (e : RulesEngine) : List ExerciseTask := e.outbox.filterMap Output.task?

structure Frame where
  cfg : RulesEngineConfig
  ruleDisplays : RuleId → Option (List DisplayId)
  ruleOrder : List RuleId
  executors : List DisplayId
  generation : Option GenerationId

def frame (e : RulesEngine) : Frame :=
  { cfg := e.cfg, ruleDisplays := e.ruleDisplays, ruleOrder := e.ruleOrder,
    executors := e.executors, generation := e.generation }

def Static (e e' : RulesEngine) : Prop := e'.frame = e.frame

structure Kept (e e' : RulesEngine) : Prop where
  static : Static e e'
  inhibitorState : e'.inhibitorState = e.inhibitorState
  timers : ∀ t ∈ e.timers, t ∈ e'.timers
  tasks : e'.tasks = e.tasks

structure Neutral (e e' : RulesEngine) : Prop extends Kept e e' where
  overlays : e'.overlays = e.overlays

/-- The handler maps the overlays of some displays, and keeps the rest. -/
structure Touched (T : DisplayId → Prop) (g : Overlays → Overlays) (e e' : RulesEngine) :
    Prop extends Kept e e' where
  hit : ∀ d, T d → e'.overlays d = (e.overlays d).map g
  miss : ∀ d, ¬ T d → e'.overlays d = e.overlays d

variable {e e' e'' : RulesEngine}

theorem Static.trans (h : Static e e') (h' : Static e' e'') : Static e e'' := Eq.trans h' h

theorem Static.displaysOf (h : Static e e') (r : RuleId) : e'.displaysOf r = e.displaysOf r :=
  congrArg (fun f : Frame => (f.ruleDisplays r).getD []) h

theorem Static.targets (h : Static e e') (rule : Option RuleId) :
    e'.targets rule = e.targets rule := by
  cases rule with
  | none => exact congrArg (fun f : Frame => f.cfg.displays.map (·.display)) h
  | some r => exact h.displaysOf r

theorem Static.executors (h : Static e e') : e'.executors = e.executors :=
  congrArg Frame.executors h

theorem Kept.refl (e : RulesEngine) : Kept e e := ⟨rfl, rfl, fun _ h => h, rfl⟩

theorem Kept.trans (h : Kept e e') (h' : Kept e' e'') : Kept e e'' where
  static := h.static.trans h'.static
  inhibitorState := h'.inhibitorState.trans h.inhibitorState
  timers t ht := h'.timers t (h.timers t ht)
  tasks := h'.tasks.trans h.tasks

theorem Neutral.refl (e : RulesEngine) : Neutral e e := ⟨.refl e, rfl⟩

def view (e : RulesEngine) :=
  (e.frame, e.inhibitorState, e.timers, e.tasks, e.overlays)

theorem Neutral.of_view (h : e'.view = e.view) : Neutral e e' := by
  simp only [view, Prod.mk.injEq] at h
  obtain ⟨hframe, hstate, htimers, htasks, hover⟩ := h
  exact ⟨⟨hframe, hstate, fun t ht => htimers ▸ ht, htasks⟩, hover⟩

theorem Neutral.trans (h : Neutral e e') (h' : Neutral e' e'') : Neutral e e'' where
  toKept := h.toKept.trans h'.toKept
  overlays := h'.overlays.trans h.overlays

theorem Neutral.foldl {α : Type} {f : RulesEngine → α → RulesEngine}
    (hf : ∀ e a, Neutral e (f e a)) (l : List α) (e : RulesEngine) : Neutral e (l.foldl f e) := by
  induction l generalizing e with
  | nil => exact .refl e
  | cons a l ih => exact (hf e a).trans (ih (f e a))

variable {T T' : DisplayId → Prop} {g : Overlays → Overlays}

theorem Touched.after (h : Touched T g e' e'') (h0 : Neutral e e') : Touched T g e e'' where
  toKept := h0.toKept.trans h.toKept
  hit d hd := (h.hit d hd).trans (by rw [h0.overlays])
  miss d hd := (h.miss d hd).trans (by rw [h0.overlays])

theorem Touched.before (h : Touched T g e e') (h' : Neutral e' e'') : Touched T g e e'' where
  toKept := h.toKept.trans h'.toKept
  hit d hd := (congrFun h'.overlays d).trans (h.hit d hd)
  miss d hd := (congrFun h'.overlays d).trans (h.miss d hd)

theorem Touched.congr (h : Touched T g e e') (hT : ∀ d, T d ↔ T' d) : Touched T' g e e' where
  toKept := h.toKept
  hit d hd := h.hit d ((hT d).mpr hd)
  miss d hd := h.miss d fun hd' => hd ((hT d).mp hd')

theorem Touched.neutral (h : Touched T g e e') (hT : ∀ d, ¬ T d) : Neutral e e' where
  toKept := h.toKept
  overlays := funext fun d => h.miss d (hT d)

/-- A loop of handlers that do the same to their displays. Doing it twice is doing it once, so
a display that several of them touch is no different. -/
theorem Touched.foldl {α : Type} {f : RulesEngine → α → RulesEngine} {T : α → DisplayId → Prop}
    (hg : ∀ o, g (g o) = g o)
    (hf : ∀ e' a, Static e e' → Touched (T a) g e' (f e' a)) (l : List α) :
    Touched (fun d => ∃ a ∈ l, T a d) g e (l.foldl f e) := by
  have loop (l : List α) (e' : RulesEngine) (he : Static e e') :
      Touched (fun d => ∃ a ∈ l, T a d) g e' (l.foldl f e') := by
    induction l generalizing e' with
    | nil =>
      refine { toKept := .refl e', hit := fun d hd => ?_, miss := fun _ _ => rfl }
      obtain ⟨a, ha, -⟩ := hd
      exact nomatch ha
    | cons a l ih =>
      have ha := hf e' a he
      have hl := ih (f e' a) (he.trans ha.static)
      refine { toKept := ha.toKept.trans hl.toKept, hit := fun d hd => ?_, miss := fun d hd => ?_ }
      · by_cases hlast : ∃ b ∈ l, T b d
        · refine (hl.hit d hlast).trans ?_
          by_cases had : T a d
          · rw [ha.hit d had, Option.map_map]
            exact congrArg (fun g' => (e'.overlays d).map g') (funext hg)
          · rw [ha.miss d had]
        · have had : T a d := by
            obtain ⟨b, hb, hbd⟩ := hd
            rcases List.mem_cons.mp hb with rfl | hb
            · exact hbd
            · exact absurd ⟨b, hb, hbd⟩ hlast
          exact (hl.miss d hlast).trans (ha.hit d had)
      · have hlast : ¬ ∃ b ∈ l, T b d := fun ⟨b, hb, hbd⟩ => hd ⟨b, List.mem_cons_of_mem _ hb, hbd⟩
        exact (hl.miss d hlast).trans (ha.miss d fun had => hd ⟨a, List.mem_cons_self, had⟩)
  exact loop l e rfl

/-! ## Sending, timers and effects -/

variable (e) (env : Env) (display : DisplayId) (now : ℕ)

theorem neutral_send {o : Output} (h : o.task? = none) : Neutral e (e.send o) where
  static := rfl
  inhibitorState := rfl
  timers _ ht := ht
  tasks := by simp [RulesEngine.tasks, send, h]
  overlays := rfl

theorem neutral_pushTimer (tick : ℕ) (entry : TimerEntry) : Neutral e (e.pushTimer tick entry) :=
  ⟨⟨rfl, rfl, fun _ h => List.mem_cons_of_mem _ h, rfl⟩, rfl⟩

theorem neutral_processEffect (effect : Effect) : Neutral e (e.processEffect display effect) := by
  cases effect <;> simp only [processEffect]
  case scheduleTickAt => exact neutral_pushTimer e _ _
  case scheduleStageTickAt => exact neutral_pushTimer e _ _
  case logTransition => exact neutral_send e rfl
  all_goals
    split
    · exact neutral_send e rfl
    · first
      | exact .refl e
      | exact neutral_send e rfl

theorem neutral_noteTransition (oldPhase newPhase : Phase) :
    Neutral e (e.noteTransition display oldPhase newPhase) := by
  unfold noteTransition emitPhaseTransition
  split
  · exact .refl e
  · split
    · exact .refl e
    · exact neutral_send e rfl

theorem neutral_notePause (wasPaused isPaused : Bool) :
    Neutral e (e.notePause display wasPaused isPaused) := by
  unfold notePause emitPauseChanged
  split
  · exact .refl e
  · dsimp only
    split
    · exact neutral_send e rfl
    · exact (neutral_send e rfl).trans (.of_view (by rfl))

theorem kept_setMachine (machine : DisplayStateMachine) : Kept e (e.setMachine display machine) :=
  ⟨rfl, rfl, fun _ h => h, rfl⟩

/-! ## One step of a machine -/

theorem stepMachine_none (h : e.machines display = none) (input : Input) :
    e.stepMachine display input now = e := by
  simp [stepMachine, h]

/-- A step writes the machine, and everything after it is neutral. -/
theorem stepMachine_some {machine : DisplayStateMachine} (h : e.machines display = some machine)
    (input : Input) : Neutral (e.setMachine display (machine.step input now).1)
      (e.stepMachine display input now) := by
  simp only [stepMachine, h]
  exact ((neutral_noteTransition _ display _ _).trans (neutral_notePause _ display _ _)).trans
    (Neutral.foldl (fun e effect => neutral_processEffect e display effect) _ _)

theorem kept_stepMachine (input : Input) : Kept e (e.stepMachine display input now) := by
  cases h : e.machines display with
  | none =>
    rw [stepMachine_none e display now h]
    exact .refl e
  | some machine =>
    exact (kept_setMachine e display _).trans (stepMachine_some e display now h input).toKept

theorem overlays_stepMachine (input : Input) : (e.stepMachine display input now).overlays =
    Function.update e.overlays display ((e.overlays display).map (·.after input now)) := by
  cases h : e.machines display with
  | none =>
    have hnone : e.overlays display = none := by simp [overlays, h]
    rw [stepMachine_none e display now h, hnone, Option.map_none, ← hnone,
      Function.update_eq_self]
  | some machine =>
    rw [(stepMachine_some e display now h input).overlays]
    funext d
    by_cases hd : d = display
    · subst hd
      simp [overlays, setMachine, h, DisplayStateMachine.step_overlays_after]
    · simp [overlays, setMachine, hd]

theorem neutral_stepMachine {input : Input} (h : input.passes = true) :
    Neutral e (e.stepMachine display input now) where
  toKept := kept_stepMachine e display now input
  overlays := by
    have hid : (fun o : Overlays => o.after input now) = id :=
      funext fun o => Overlays.after_passes h o now
    rw [overlays_stepMachine, hid, Option.map_id_apply, Function.update_eq_self]

theorem neutral_feedOwnership : Neutral e (e.feedOwnership env display now) := by
  unfold feedOwnership
  dsimp only
  split
  · exact .refl e
  · split
    · exact .of_view rfl
    · have hset : Neutral e
          { e with lastOwned := Function.update e.lastOwned display (some (env.owns display)) } := .of_view rfl
      exact hset.trans (neutral_stepMachine _ display now rfl)

theorem touched_stepMachine (input : Input) :
    Touched (· = display) (·.after input now) e (e.stepMachine display input now) where
  toKept := kept_stepMachine e display now input
  hit d hd := by rw [overlays_stepMachine, hd, Function.update_self]
  miss d hd := by rw [overlays_stepMachine, Function.update_of_ne hd]

theorem touched_stepOne (input : Input) :
    Touched (· = display) (·.after input env.now) e (e.stepOne env display input) :=
  (touched_stepMachine _ display env.now input).after (neutral_feedOwnership e env display _)

theorem neutral_stepOne {input : Input} (h : input.passes = true) :
    Neutral e (e.stepOne env display input) :=
  (neutral_feedOwnership e env display env.now).trans (neutral_stepMachine _ display _ h)

/-! ## Presence and the holds -/

theorem neutral_setHoldFlag (active : Bool) : Neutral e (e.setHoldFlag display active) := by
  unfold setHoldFlag
  split
  · exact .refl e
  · rename_i machine h
    refine { toKept := kept_setMachine e display _, overlays := funext fun d => ?_ }
    by_cases hd : d = display
    · subst hd
      simp [overlays, setMachine, h, DisplayStateMachine.setInputWakeHoldActive]
    · simp [overlays, setMachine, hd]

theorem neutral_clearInputWakeHold : Neutral e (e.clearInputWakeHold display) := by
  have hset : Neutral e
      { e with inputWakeHolds := Function.update e.inputWakeHolds display none } := .of_view rfl
  exact hset.trans (neutral_setHoldFlag _ display false)

theorem neutral_fanToDisplay : Neutral e (e.fanToDisplay env display) := by
  unfold fanToDisplay
  dsimp only
  have told (e : RulesEngine) (present : Bool) : Neutral e
      ((e.feedOwnership env display env.now).stepMachine display (.zonePresent present) env.now) :=
    (neutral_feedOwnership e env display _).trans (neutral_stepMachine _ display _ rfl)
  split
  · exact (neutral_clearInputWakeHold e display).trans (told _ _)
  · exact told _ _

theorem neutral_fanZoneChangeToDisplays (zone : ZoneId) :
    Neutral e (e.fanZoneChangeToDisplays env zone) :=
  Neutral.foldl (fun e _ => Neutral.foldl (fun e d => neutral_fanToDisplay e env d) _ e) _ e

theorem neutral_applyHoldFilter (ev : PresenceEvent) : Neutral e (e.applyHoldFilter env ev).1 := by
  unfold applyHoldFilter
  split
  · exact .refl e
  · split
    · split
      · exact .refl e
      · dsimp only
        exact Neutral.trans (.of_view (by rfl)) (neutral_pushTimer _ _ _)
    · split
      · exact .of_view rfl
      · exact .refl e
    · exact .of_view rfl

theorem neutral_applyPresence (ev : PresenceEvent) : Neutral e (e.applyPresence env ev) := by
  unfold applyPresence
  dsimp only
  have seen : Neutral e { e with
      sensorLastSeenVirtual := Function.update e.sensorLastSeenVirtual ev.sensorId (some env.now) } :=
    .of_view rfl
  have told (e : RulesEngine) (changes : List ZoneChange) (zoneEngine : ZoneEngine) :
      Neutral e (changes.foldl
        (fun e change => (e.send (.event (.zoneChanged change.zone change.present change.cause)))
          |>.fanZoneChangeToDisplays env change.zone) { e with zoneEngine := zoneEngine }) := by
    have hset : Neutral e { e with zoneEngine := zoneEngine } := .of_view rfl
    refine hset.trans (Neutral.foldl (fun e change => ?_) _ _)
    exact (neutral_send e rfl).trans (neutral_fanZoneChangeToDisplays _ env change.zone)
  split
  · exact seen.trans (told _ _ _)
  · exact (seen.trans (neutral_send _ rfl)).trans (told _ _ _)

theorem neutral_handlePresenceEvent (ev : PresenceEvent) :
    Neutral e (e.handlePresenceEvent env ev) := by
  unfold handlePresenceEvent
  dsimp only
  have hmarked : Neutral e (if ev.state = .unavailable then
      { e with availabilityOnline := Function.update e.availabilityOnline ev.sensorId none }
    else e) := by
    split
    · exact .of_view rfl
    · exact .refl e
  refine hmarked.trans ?_
  generalize (if ev.state = .unavailable then _ else e) = e'
  split
  · exact neutral_applyHoldFilter e' env ev
  · exact (neutral_applyHoldFilter e' env ev).trans (neutral_applyPresence _ env _)

theorem neutral_handleSensorAvailability (ev : SensorAvailabilityEvent) :
    Neutral e (e.handleSensorAvailability env ev) := by
  unfold handleSensorAvailability
  split
  · exact .of_view rfl
  · have hset : Neutral e
        { e with availabilityOnline := Function.update e.availabilityOnline ev.sensor none } := .of_view rfl
    exact hset.trans (neutral_handlePresenceEvent _ env _)

theorem neutral_expireSensor (sensor : SensorId) (staleTimeout : ℕ) :
    Neutral e (e.expireSensor env sensor staleTimeout) := by
  unfold expireSensor
  split
  · exact .refl e
  · split
    · exact neutral_handlePresenceEvent e env _
    · exact .refl e

theorem neutral_sweepStaleSensors : Neutral e (e.sweepStaleSensors env) := by
  refine Neutral.foldl (fun e scfg => ?_) _ e
  unfold sweepSensor
  split
  · exact .refl e
  · exact .refl e
  · split
    · exact neutral_expireSensor e env _ _
    · split
      · have hset : Neutral e { e with
            availabilityOnline := Function.update e.availabilityOnline scfg.sensor none } := .of_view rfl
        exact hset.trans (neutral_expireSensor _ env _ _)
      · exact .refl e

/-! ## Timers, results and the other messages -/

theorem neutral_fireHoldExpiry (sensor : SensorId) : Neutral e (e.fireHoldExpiry env sensor now) := by
  unfold fireHoldExpiry
  split
  · exact .refl e
  · dsimp only
    split
    · exact .of_view rfl
    · split
      · exact .refl e
      · split
        · exact .of_view rfl
        · exact Neutral.trans (.of_view (by rfl)) (neutral_handlePresenceEvent _ env _)

theorem neutral_fireInputWakeHoldExpiry :
    Neutral e (e.fireInputWakeHoldExpiry env display now) := by
  unfold fireInputWakeHoldExpiry
  split
  · exact .refl e
  · split
    · exact .refl e
    · have hfed : Neutral e ((e.clearInputWakeHold display).feedOwnership env display now) :=
        (neutral_clearInputWakeHold e display).trans (neutral_feedOwnership _ env display now)
      dsimp only
      split
      · exact hfed.trans (neutral_stepMachine _ display now rfl)
      · exact hfed

theorem neutral_handleInputWake : Neutral e (e.handleInputWake env display) := by
  unfold handleInputWake
  dsimp only
  split
  · split
    · refine Neutral.trans ?_ (neutral_stepOne _ env display rfl)
      refine Neutral.trans ?_ (neutral_setHoldFlag _ display true)
      exact Neutral.trans (.of_view (by rfl)) (neutral_pushTimer _ _ _)
    · exact neutral_stepOne e env display rfl
  · exact neutral_stepOne e env display rfl

/-! ## Pauses, resumes and exercises -/

theorem touched_handlePause (rule : Option RuleId) (untilStamp : Option ℕ) :
    Touched (· ∈ e.targets rule)
      (·.after (.pause (untilStamp.map (mapTimestampToTick env))) env.now) e
      (e.handlePause env rule untilStamp) := by
  have loop : Touched (fun d => ∃ a ∈ e.targets rule, d = a)
      (·.after (.pause (untilStamp.map (mapTimestampToTick env))) env.now) e
      (e.handlePause env rule untilStamp) := by
    refine Touched.foldl (fun _ => by rfl) (fun e' d _ => ?_) (e.targets rule)
    refine (touched_stepOne _ env d _).after ?_
    split <;> exact .of_view rfl
  exact loop.congr fun d => by simp

theorem touched_handleResume (rule : Option RuleId) :
    Touched (· ∈ e.targets rule) (·.after .resume env.now) e (e.handleResume env rule) := by
  have loop : Touched (fun d => ∃ a ∈ e.targets rule, d = a) (·.after .resume env.now) e
      (e.handleResume env rule) :=
    Touched.foldl (fun _ => by rfl) (fun e' d _ => touched_stepOne e' env d .resume) (e.targets rule)
  exact loop.congr fun d => by simp

theorem touched_handleEmergencyWake :
    Touched (· ∈ e.targets none) (·.after (.pause none) env.now) e (e.handleEmergencyWake env) :=
  (touched_handlePause e env none none).before
    (Neutral.foldl (fun e _ => neutral_send e (by rfl)) _ _)

theorem touched_pauseRules (rules : List RuleId) :
    Touched (fun d => ∃ r ∈ rules, d ∈ e.displaysOf r) (·.after (.pause none) env.now) e
      (rules.foldl (fun e r => e.handlePause env (some r) none) e) :=
  Touched.foldl (fun _ => by rfl)
    (fun e' r he => by
      have h := touched_handlePause e' env (some r) none
      rwa [he.targets] at h) rules

theorem touched_resumeRules (rules : List RuleId) :
    Touched (fun d => ∃ r ∈ rules, d ∈ e.displaysOf r) (·.after .resume env.now) e
      (rules.foldl (fun e r => e.handleResume env (some r)) e) :=
  Touched.foldl (fun _ => by rfl)
    (fun e' r he => by
      have h := touched_handleResume e' env (some r)
      rwa [he.targets] at h) rules

theorem handleExercise_spawned {target : DisplayId} {accepted : Option AcceptedOperation}
    {operation : AcceptedOperation} (h : e.acquireExercise env target accepted = some operation)
    (hx : target ∈ e.executors) :
    ∃ e', Touched (fun d => ∃ r ∈ e.rulesOf target, d ∈ e.displaysOf r)
        (·.after (.pause none) env.now) e e' ∧
      e.handleExercise env target accepted =
        e'.send (.exercise (e'.exerciseTask target (e.rulesOf target) operation)) := by
  have hp := touched_pauseRules e env (e.rulesOf target)
  refine ⟨_, hp, ?_⟩
  simp only [handleExercise, h]
  rw [if_pos (hp.static.executors ▸ hx)]

theorem handleExercise_rejected {target : DisplayId} {accepted : Option AcceptedOperation}
    (h : e.acquireExercise env target accepted = none) :
    Neutral e (e.handleExercise env target accepted) := by
  simp only [handleExercise, h]
  exact neutral_send e rfl

theorem handleExercise_sinkless {target : DisplayId} {accepted : Option AcceptedOperation}
    {operation : AcceptedOperation} (h : e.acquireExercise env target accepted = some operation)
    (hx : target ∉ e.executors) :
    ∃ e' e'', Touched (fun d => ∃ r ∈ e.rulesOf target, d ∈ e.displaysOf r)
        (·.after (.pause none) env.now) e e' ∧
      Touched (fun d => ∃ r ∈ e.rulesOf target, d ∈ e.displaysOf r)
        (·.after .resume env.now) e' e'' ∧
      Neutral e'' (e.handleExercise env target accepted) := by
  have hp := touched_pauseRules e env (e.rulesOf target)
  have hr := touched_resumeRules
    ((e.rulesOf target).foldl (fun e r => e.handlePause env (some r) none) e) env (e.rulesOf target)
  simp only [hp.static.displaysOf] at hr
  refine ⟨_, _, hp, hr, ?_⟩
  simp only [handleExercise, h]
  rw [if_neg (hp.static.executors ▸ hx)]
  exact neutral_send _ rfl

/-! ## Results and timers -/

theorem neutral_handleInternalResult {res : InternalResult} (h : res.passes = true) :
    Neutral e (e.handleInternalResult env res) := by
  cases res with
  | blank display gen result =>
    refine (neutral_stepMachine e display env.nowTick
      (by rfl : (Input.blankResult gen result).passes = true)).trans ?_
    simp only [handleInternalResult]
    split
    · exact Neutral.trans (.of_view (by rfl)) (neutral_send _ rfl)
    · split
      · exact Neutral.trans (.of_view (by rfl)) (neutral_send _ rfl)
      · exact .refl _
  | wake display gen result =>
    refine (neutral_stepMachine e display env.nowTick
      (by rfl : (Input.wakeResult gen result).passes = true)).trans ?_
    simp only [handleInternalResult]
    split
    · split
      · exact .refl _
      · split
        · exact Neutral.trans (.of_view (by rfl)) (neutral_send _ rfl)
        · exact .of_view rfl
    · exact Neutral.trans (.of_view (by rfl)) (neutral_send _ rfl)
  | render display gen result => exact neutral_stepMachine e display env.nowTick rfl
  | exerciseResume rules operationId generation => exact absurd h Bool.false_ne_true

theorem touched_displayTick (deadline : ℕ) :
    Touched (· = display) (·.after .tick deadline) e (e.fireTimer env deadline (.displayTick display)) :=
  (touched_stepMachine _ display deadline .tick).after (neutral_feedOwnership e env display _)

theorem neutral_fireTimer (deadline : ℕ) {entry : TimerEntry} (h : entry.passes = true) :
    Neutral e (e.fireTimer env deadline entry) := by
  cases entry with
  | displayTick display => exact absurd h Bool.false_ne_true
  | displayStageTick display gen =>
    exact (neutral_feedOwnership e env display _).trans (neutral_stepMachine _ display _ rfl)
  | holdExpiry sensor => exact neutral_fireHoldExpiry e env deadline sensor
  | inputWakeHoldExpiry display => exact neutral_fireInputWakeHoldExpiry e env display deadline

theorem neutral_handleControl {msg : ControlMsg} (h : msg.passes = true) :
    Neutral e (e.handleControl env msg) := by
  cases msg with
  | forceBlank display => exact neutral_stepOne e env display rfl
  | forceWake display => exact neutral_stepOne e env display rfl
  | softBlank display => exact neutral_stepOne e env display rfl
  | setClaimSuppression display deadline => exact .of_view rfl
  | inputWake display => exact neutral_handleInputWake e env display
  | ownershipPoll display => exact neutral_feedOwnership e env display _
  | publishDaemonEvent event => exact neutral_send e rfl
  | exerciseAccepted operation =>
    have hk : operation.kind = .emergencyWake := by simpa [ControlMsg.passes] using h
    simp only [handleControl, hk]
    exact neutral_send e rfl
  | sensorAvailability event => exact neutral_handleSensorAvailability e env event
  | queryPresenceConfirmed display => exact neutral_send e rfl
  | passive => exact .refl e
  | pause | resume | setInhibited | emergencyWake | emergencyWakeAccepted | exercise =>
    exact absurd h Bool.false_ne_true

/-! ## A new engine -/

section New
variable {setup : Setup} {owns : DisplayId → Bool} {start : ℕ} {e : RulesEngine}

theorem new_ok (h : new setup owns start = .ok e) :
    e.cfg = setup.cfg ∧ e.machines = newMachine setup.cfg owns start ∧
      e.executors = setup.executors ∧
      e.ruleDisplays = (fun r => (setup.cfg.rules.reverse.find? (·.rule == r)).map (·.displays)) ∧
      e.inhibitorState = (fun _ => InhibitorSet.default) ∧
      ∀ rule ∈ setup.cfg.rules, ∀ d ∈ rule.displays, checkRuleDisplay setup rule d = .ok () := by
  unfold new at h
  split at h
  · exact nomatch h
  · rename_i u hu
    obtain rfl := Except.ok.inj h
    refine ⟨rfl, rfl, rfl, rfl, rfl, fun rule hrule => ?_⟩
    exact Checks.forM_eq_ok.mp (Checks.forM_eq_ok.mp hu rule hrule)

theorem overlays_new (h : new setup owns start = .ok e) {d : DisplayId} {o : Overlays}
    (ho : e.overlays d = some o) : o = Overlays.default ∧ d ∈ e.targets none := by
  obtain ⟨hcfg, hm, -⟩ := new_ok h
  simp only [overlays, hm, newMachine, Option.map_map] at ho
  obtain ⟨dcfg, hfind, rfl⟩ := Option.map_eq_some_iff.mp ho
  refine ⟨by simp [DisplayStateMachine.step_overlays_after, Overlays.after,
    DisplayStateMachine.new], ?_⟩
  have hd : dcfg.display = d := by simpa using List.find?_some hfind
  have hmem := List.mem_of_find?_eq_some hfind
  simp only [targets, hcfg]
  exact List.mem_map.mpr ⟨dcfg, List.mem_reverse.mp hmem, hd⟩

/-- Every display that a rule of a new engine drives has an executor. -/
theorem executor_new (h : new setup owns start = .ok e) {r : RuleId} {d : DisplayId}
    (hd : d ∈ e.displaysOf r) : d ∈ e.executors := by
  obtain ⟨-, -, hx, hr, -, hcheck⟩ := new_ok h
  simp only [displaysOf, hr] at hd
  cases hfind : setup.cfg.rules.reverse.find? (·.rule == r) with
  | none => simp [hfind] at hd
  | some rule =>
    have hmem := List.mem_reverse.mp (List.mem_of_find?_eq_some hfind)
    have hok := hcheck rule hmem d (by simpa [hfind] using hd)
    unfold checkRuleDisplay at hok
    split at hok
    · exact nomatch hok
    · split at hok
      · exact nomatch hok
      · rename_i hin
        exact hx ▸ not_not.mp hin

end New
end RulesEngine
end Dormant
