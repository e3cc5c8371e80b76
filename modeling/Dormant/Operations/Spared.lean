import Dormant.Operations.Restore

/-!
# The room is spared

A request pauses the machine and captures its phase; from then on presence and the exercise step
in any order. `Orderly` holds after every step of such a run: what is under way fits the machine
once the exercise has its last command behind it.
-/

namespace Dormant
set_option autoImplicit false

open Tasks DisplayStateMachine Exercise

/-! ## The request -/

/-- The display that a request is to exercise, and the operation that it was accepted as. -/
def Event.exerciseOf : Event → Option (DisplayId × Option AcceptedOperation)
  | .control (.exercise display) => some (display, none)
  | .control (.exerciseAccepted operation) =>
    match operation.kind with
    | .exercise display => some (display, some operation)
    | .emergencyWake => none
  | _ => none

namespace RulesEngine
variable {d : DisplayId} {e : RulesEngine} {env : Env} {event : Event}

theorem handle_exerciseOf {target : DisplayId} {accepted : Option AcceptedOperation}
    (h : event.exerciseOf = some (target, accepted)) :
    e.handle env event = e.handleExercise env target accepted := by
  cases event with
  | control msg =>
    cases msg with
    | exercise display =>
      obtain ⟨rfl, rfl⟩ := Prod.mk.inj (Option.some.inj h)
      rfl
    | exerciseAccepted operation =>
      unfold Event.exerciseOf at h
      cases hk : operation.kind with
      | exercise display =>
        simp only [hk] at h
        obtain ⟨rfl, rfl⟩ := Prod.mk.inj (Option.some.inj h)
        simp only [handle, handleControl, hk]
      | emergencyWake => simp [hk] at h
    | _ => cases h
  | _ => cases h

/-- Only a request for an exercise spawns one. -/
theorem tasks_handle (h : event.exerciseOf = none) : (e.handle env event).tasks = e.tasks := by
  cases event with
  | presence ev => exact (neutral_handlePresenceEvent e env ev).tasks
  | sweep => exact (neutral_sweepStaleSensors e env).tasks
  | timer =>
    simp only [handle, fireDueTimer]
    split
    · rfl
    · split
      · rfl
      · rename_i deadline entry _ _
        have hpop : (e.popTimer (deadline, entry)).tasks = e.tasks := rfl
        rw [← hpop]
        cases entry with
        | displayTick display => exact (touched_displayTick _ env display deadline).tasks
        | _ => exact (neutral_fireTimer _ env deadline (by rfl)).tasks
  | result res =>
    cases res with
    | exerciseResume rules operationId generation =>
      simp only [handle, handleInternalResult]
      split
      · exact (touched_resumeRules e env rules).tasks
      · rfl
    | _ => exact (neutral_handleInternalResult e env (by rfl)).tasks
  | control msg =>
    cases msg with
    | pause rule untilStamp => exact (touched_handlePause e env rule untilStamp).tasks
    | resume rule => exact (touched_handleResume e env rule).tasks
    | setInhibited rule kind inhibited =>
      exact (steady_handleSetInhibited e env rule kind inhibited).tasks
    | emergencyWake => exact (touched_handleEmergencyWake e env).tasks
    | emergencyWakeAccepted operation => exact (touched_handleEmergencyWake e env).tasks
    | exercise display => cases h
    | exerciseAccepted operation =>
      refine (neutral_handleControl e env ?_).tasks
      unfold Event.exerciseOf at h
      cases hk : operation.kind with
      | exercise display => simp [hk] at h
      | emergencyWake => simp [ControlMsg.passes, hk]
    | _ => exact (neutral_handleControl e env (by rfl)).tasks

end RulesEngine

theorem startedBy_eq (d : DisplayId) (e : RulesEngine) :
    startedBy d e.outbox = (e.tasks.find? (·.display == d)).map Exercise.new := rfl

/-- A pause keeps the phase, and issues nothing. -/
theorem DisplayStateMachine.step_pause (s : DisplayStateMachine) (untilTick : Option ℕ) (now : ℕ) :
    (s.step (.pause untilTick) now).1.phase = s.phase ∧
      commands (s.step (.pause untilTick) now).2 = [] := by
  have silent : commands (s.recordPause untilTick).2 = [] := by cases untilTick <;> rfl
  have frozen (t : DisplayStateMachine) (u : ℕ) : (t.freezeGrace u now).phase = t.phase := by
    unfold freezeGrace
    split <;> rfl
  cases hp : s.phase with
  | grace u =>
    simp only [step, hp, stepGrace]
    refine ⟨?_, silent⟩
    split
    · exact hp
    · exact (frozen _ u).trans hp
  | staged idx gen =>
    simp only [step, hp, stepStaged]
    refine ⟨?_, silent⟩
    split <;> exact hp
  | _ =>
    simp only [step, hp]
    exact ⟨hp, silent⟩

theorem DisplayStateMachine.run_pauses {feeds : List Feed} {untilTick : Option ℕ} {now : ℕ}
    (h : ∀ f ∈ feeds, f = .input (.pause untilTick) now) (s : DisplayStateMachine) :
    (machine.run s feeds).phase = s.phase ∧ commands (machine.outputs s feeds) = [] := by
  induction feeds generalizing s with
  | nil => exact ⟨rfl, rfl⟩
  | cons f feeds ih =>
    obtain rfl := h f List.mem_cons_self
    obtain ⟨hphase, hsilent⟩ := s.step_pause untilTick now
    obtain ⟨hphases, hsilents⟩ := ih (fun g hg => h g (List.mem_cons_of_mem _ hg))
      (s.step (.pause untilTick) now).1
    refine ⟨hphases.trans hphase, ?_⟩
    rw [Runs.System.outputs, commands_append]
    exact List.append_eq_nil_iff.mpr ⟨hsilent, hsilents⟩

/-- A request has spawned an exercise: the machine is paused in the phase that was captured. -/
structure Started (d : DisplayId) (e e' : RulesEngine) (x : Exercise) : Prop where
  new : x = .new x.task
  executor : d ∈ e'.executors
  captured : ∀ m' ∈ e'.machines d, m'.overlays.paused = some ⟨none⟩ ∧
    x.task.prePhase = m'.phaseName ∧ commandsTo d e'.outbox = [] ∧
    ∃ m ∈ e.machines d, m'.phase = m.phase

namespace RulesEngine
variable {d : DisplayId} {e : RulesEngine} {env : Env} {event : Event}

theorem started_handleExercise {target : DisplayId} {accepted : Option AcceptedOperation}
    {x : Exercise} (h0 : e.outbox = [])
    (hready : target = d → e.lastOwned d = some (env.owns d) ∧ e.rulesOf d ≠ [])
    (hx : startedBy d (e.handleExercise env target accepted).outbox = some x) :
    target = d ∧ Started d e (e.handleExercise env target accepted) x := by
  have htasks : e.tasks = [] := by rw [tasks, h0]; rfl
  have absent (h : (e.handleExercise env target accepted).tasks = []) :
      target = d ∧ Started d e (e.handleExercise env target accepted) x := by
    rw [startedBy_eq, h] at hx
    cases hx
  cases hacq : e.acquireExercise env target accepted with
  | none => exact absent ((handleExercise_rejected e env hacq).tasks.trans htasks)
  | some operation =>
    by_cases hin : target ∈ e.executors
    · have ht := touched_pauseRules e env (e.rulesOf target)
      have hfeeds : Feeds env d (· = .input (.pause none) env.now) e
          ((e.rulesOf target).foldl (fun e r => e.handlePause env (some r) none) e) :=
        .foldl (fun e r => feeds_handlePause (P := (· = .input (.pause none) env.now)) e (some r) rfl)
          _ e
      have hspawned : e.handleExercise env target accepted =
          ((e.rulesOf target).foldl (fun e r => e.handlePause env (some r) none) e).send
            (.exercise (((e.rulesOf target).foldl (fun e r => e.handlePause env (some r) none)
              e).exerciseTask target (e.rulesOf target) operation)) := by
        simp only [handleExercise, hacq]
        rw [if_pos (ht.static.executors ▸ hin)]
      generalize (e.rulesOf target).foldl (fun e r => e.handlePause env (some r) none) e = e' at *
      have hnone : e'.tasks = [] := ht.tasks.trans htasks
      have hone : (e'.send (.exercise (e'.exerciseTask target (e.rulesOf target) operation))).tasks =
          [e'.exerciseTask target (e.rulesOf target) operation] := by
        simp only [tasks, send, List.filterMap_append] at hnone ⊢
        rw [hnone]
        rfl
      rw [hspawned, startedBy_eq, hone, Option.map_eq_some_iff] at hx
      obtain ⟨task, htask, rfl⟩ := hx
      obtain rfl : task = e'.exerciseTask target (e.rulesOf target) operation :=
        List.mem_singleton.mp (List.mem_of_find?_eq_some htask)
      obtain rfl : target = d := by simpa [exerciseTask] using List.find?_some htask
      obtain ⟨howned, hdriven⟩ := hready rfl
      obtain ⟨feeds, hpauses, hfed⟩ := hfeeds howned
      obtain ⟨r, hr⟩ := List.exists_mem_of_ne_nil _ hdriven
      have hhit : ∃ r ∈ e.rulesOf target, target ∈ e.displaysOf r :=
        ⟨r, hr, by simpa [rulesOf] using (List.mem_filter.mp hr).2⟩
      rw [hspawned]
      refine ⟨rfl, rfl, ht.static.executors ▸ hin, fun m' hm' => ?_⟩
      have hm' : e'.machines target = some m' := hm'
      have hran := hfed.ran
      rw [hm'] at hran
      obtain ⟨m, hm, hrun⟩ := Option.map_eq_some_iff.mp hran.symm
      obtain ⟨hphase, hsilent⟩ := run_pauses hpauses m
      have hover := ht.hit target hhit
      simp only [overlays, hm', hm, Option.map_some, Option.some.injEq] at hover
      refine ⟨by rw [hover]; rfl, ?_, ?_, m, hm, hrun ▸ hphase⟩
      · simp only [Exercise.new, exerciseTask, prePhase, hm', Option.map_some, Option.getD_some]
      · rw [commandsTo_send e' rfl, hfed.sent m hm, h0, hsilent]
        simp [commandsTo]
    · obtain ⟨e₁, e₂, ht₁, ht₂, hn⟩ := handleExercise_sinkless e env hacq hin
      exact absent ((hn.tasks.trans (ht₂.tasks.trans ht₁.tasks)).trans htasks)

end RulesEngine

/-! ## The condition -/

namespace Room

/-- What a request has to find: the display as its machine was told, a rule that drives it, and
no blank under way but the one that the machine waits for. -/
structure Ready (d : DisplayId) (r : Room) (env : Env) : Prop where
  owned : r.engine.lastOwned d = some (env.owns d)
  driven : r.engine.rulesOf d ≠ []
  single : r.traffic.blanks ≤ 1
  blanking : ∀ m ∈ r.engine.machines d, 0 < r.traffic.blanks → m.stance = .blanking

/-- What the machine is fed leads to no blank while a wake is under way. -/
def Undue (d : DisplayId) (r : Room) (input : Input) (now : ℕ) : Prop :=
  ∀ m ∈ r.engine.machines d, m.blankDue input now → ¬ r.traffic.UnderWay .wake

/-- Presence, wakes, the results of other displays, and timers other than the stage ticks. -/
def Heard (d : DisplayId) (r : Room) (env : Env) : Event → Prop
  | .presence _ | .sweep => True
  | .control (.forceWake _) | .control (.inputWake _) | .control (.sensorAvailability _) => True
  | .result (.blank display _ _) | .result (.wake display _ _) => display ≠ d
  | .result (.render display gen result) =>
    display ≠ d ∨ r.Undue d (.renderResult gen result) env.nowTick
  | .timer => ∀ deadline entry, earliest r.engine.timers = some (deadline, entry) →
      entry.spares d ∨ entry = .displayTick d ∧ r.Undue d .tick deadline
  | _ => False

/-- The last command of the exercise wakes a panel that was taken to be on, or leaves the panel
as the machine now takes it to be. -/
def Restored (d : DisplayId) (r : Room) (x : Exercise) (i : ExerciseEvent) : Prop :=
  (x.carries i).isSome ∧ isBlankedFamilyPhase x.task.prePhase = false ∨
    ∀ m ∈ r.engine.machines d, Fits m r.traffic ((x.carries i).or r.last)

def Keeps (d : DisplayId) (r : Room) : RoomEvent → Prop
  | .engine env event =>
    match r.exercise with
    | none => ∀ accepted, event.exerciseOf = some (d, accepted) → r.Ready d env
    | some _ => r.engine.lastOwned d = some (env.owns d) ∧ r.Heard d env event
  | .resume env => r.engine.lastOwned d = some (env.owns d)
  | .exercise i => ∀ x ∈ r.exercise, x.takesLate i ∧ (x.closes i → r.Restored d x i)
  | .land _ _ | .hear _ _ _ => True

/-! ## The invariant -/

end Room

/-- The pause is still on, and its display was taken to be lit. -/
def Exercise.Shelters (x : Exercise) : Prop :=
  x.released = false ∧ isBlankedFamilyPhase x.task.prePhase = false

namespace Room

structure Orderly (d : DisplayId) (r : Room) (x : Exercise) : Prop where
  executor : d ∈ r.engine.executors
  resumes : x.released = false → r.resumes = []
  course : x.Course
  concord : ∀ m ∈ r.engine.machines d, Concord x.Shelters x.Settled m r.traffic r.last

variable {d : DisplayId} {r : Room} {x : Exercise} {env : Env} {event : Event}

/-- The handler feeds the machine what keeps the concord. -/
theorem Orderly.fed (h : Orderly d r x) {e' : RulesEngine} {feeds : List Feed} {t : Traffic}
    (hfed : RulesEngine.Fed d feeds { r.engine with outbox := [] } e')
    (hrun : ∀ m ∈ r.engine.machines d, Concord x.Shelters x.Settled m r.traffic r.last →
      Concord x.Shelters x.Settled (machine.run m feeds)
        (t.send (commands (machine.outputs m feeds))) r.last) :
    Orderly d { r with engine := e', traffic := t.send (commandsTo d e'.outbox) } x := by
  refine ⟨hfed.executors ▸ h.executor, h.resumes, h.course, fun m' hm' => ?_⟩
  have hran := hfed.ran
  rw [show e'.machines d = some m' from hm'] at hran
  obtain ⟨m, hm, rfl⟩ := Option.map_eq_some_iff.mp hran.symm
  have hsent : commandsTo d e'.outbox = commands (machine.outputs m feeds) := by
    rw [hfed.sent m hm, if_pos h.executor]
    rfl
  show Concord _ _ _ (t.send (commandsTo d e'.outbox)) r.last
  rw [hsent]
  exact hrun m hm (h.concord m hm)

theorem Orderly.feeds (h : Orderly d r x) {e' : RulesEngine} {P : Feed → Prop}
    (howned : r.engine.lastOwned d = some (env.owns d))
    (hfeeds : RulesEngine.Feeds env d P { r.engine with outbox := [] } e')
    (hP : ∀ s t f, P f → Concord x.Shelters x.Settled s t r.last →
      Concord x.Shelters x.Settled (machine.next s f).1
        (t.send (commands (machine.next s f).2)) r.last) :
    Orderly d { r with engine := e', traffic := r.traffic.send (commandsTo d e'.outbox) } x := by
  obtain ⟨feeds, hall, hfed⟩ := hfeeds howned
  exact h.fed hfed fun m _ hm => Concord.run hP hall hm

/-- One input that is neither a result, a blank nor a change of owner. -/
theorem concord_input {S C : Prop} {s : DisplayStateMachine} {t : Traffic}
    {last : Option CommandKind} {input : Input} {now : ℕ} (h : Concord S C s t last)
    (hin : input.disturbs = false) (hans : input.answers? = none) (hres : input = .resume → ¬ S)
    (hdue : s.blankDue input now → ¬ t.UnderWay .wake) :
    Concord S C (machine.next s (.input input now)).1
      (t.send (commands (machine.next s (.input input now)).2)) last :=
  h.step hin hans hres hdue

theorem concord_gentle {S C : Prop} {s : DisplayStateMachine} {t : Traffic}
    {last : Option CommandKind} {f : Feed} (hf : f.gentle) (h : Concord S C s t last) :
    Concord S C (machine.next s f).1 (t.send (commands (machine.next s f).2)) last := by
  cases f with
  | hold active =>
    have hsame : t.send (commands (machine.next s (.hold active)).2) = t := t.send_nil
    rw [hsame]
    exact h.hold active
  | input input now =>
    cases input with
    | zonePresent | forceWake | inputWake =>
      refine concord_input h rfl rfl (by simp) fun hdue => ?_
      rcases hdue with ⟨htick, -⟩ | ⟨idx, gen, failure, -, hrender⟩
      · cases htick
      · cases hrender
    | _ => exact hf.elim

theorem handle_eq (h : r.exercise = some x) : r.handle d env event =
    { r with
      engine := { r.engine with outbox := [] }.handle env event
      traffic := r.traffic.send
        (commandsTo d ({ r.engine with outbox := [] }.handle env event).outbox) } := by
  simp only [Room.handle, h, Option.some_or]
  rw [← h]
  rfl

/-- A tick, or a result of a surface, of the display itself. -/
theorem Orderly.single (h : Orderly d r x) {e' : RulesEngine} {input : Input} {now : ℕ}
    (hfed : RulesEngine.Fed d [.input input now] { r.engine with outbox := [] } e')
    (hin : input.disturbs = false) (hans : input.answers? = none) (hres : input ≠ .resume)
    (hdue : r.Undue d input now) :
    Orderly d { r with engine := e', traffic := r.traffic.send (commandsTo d e'.outbox) } x := by
  refine h.fed hfed fun m hm hc => ?_
  have hnext := concord_input hc hin hans (fun heq => absurd heq hres) (hdue m hm)
  rw [Runs.System.outputs, Runs.System.outputs, List.append_nil]
  exact hnext

theorem orderly_heard (hx : r.exercise = some x) (h : Orderly d r x)
    (howned : r.engine.lastOwned d = some (env.owns d)) (hev : r.Heard d env event) :
    Orderly d (r.handle d env event) x := by
  have gentle (hf : RulesEngine.Feeds env d Feed.gentle { r.engine with outbox := [] }
      ({ r.engine with outbox := [] }.handle env event)) : Orderly d (r.handle d env event) x := by
    rw [handle_eq hx]
    exact h.feeds howned hf fun s t f hg hc => concord_gentle hg hc
  have other {display : DisplayId} {input : Input} {res : InternalResult} (hne : display ≠ d)
      (htold : res.told? = some (display, input)) (hres : event = .result res) :
      Orderly d (r.handle d env event) x := by
    subst hres
    refine gentle fun _ => ⟨[], by simp, ?_⟩
    exact (RulesEngine.fed_stepMachine_of_ne hne _ input env.nowTick).before
      (RulesEngine.fed_handleInternalResult _ htold)
  cases event with
  | presence ev => exact gentle (RulesEngine.feeds_handlePresenceEvent _ ev)
  | sweep => exact gentle (RulesEngine.feeds_sweepStaleSensors _)
  | control msg =>
    cases msg with
    | forceWake display => exact gentle (RulesEngine.feeds_stepOne _ display trivial)
    | inputWake display => exact gentle (RulesEngine.feeds_handleInputWake _ display)
    | sensorAvailability ev => exact gentle (RulesEngine.feeds_handleSensorAvailability _ ev)
    | _ => exact hev.elim
  | result res =>
    cases res with
    | blank display gen result => exact other hev rfl rfl
    | wake display gen result => exact other hev rfl rfl
    | render display gen result =>
      by_cases hd : display = d
      · subst hd
        rw [handle_eq hx]
        exact h.single (RulesEngine.fed_stepMachine _ _ env.nowTick) rfl rfl (by simp)
          (hev.resolve_left fun hne => hne rfl)
      · exact other hd rfl rfl
    | exerciseResume rules operationId generation => exact hev.elim
  | timer =>
    have idle (hfire : { r.engine with outbox := [] }.fireDueTimer env =
        { r.engine with outbox := [] }) : Orderly d (r.handle d env .timer) x :=
      gentle (by rw [RulesEngine.handle, hfire]; exact .refl _)
    cases htop : earliest r.engine.timers with
    | none => exact idle (by simp only [RulesEngine.fireDueTimer, htop])
    | some t =>
      obtain ⟨deadline, entry⟩ := t
      by_cases hdue : env.nowTick < deadline
      · exact idle (by simp only [RulesEngine.fireDueTimer, htop, if_pos hdue])
      have hfire : { r.engine with outbox := [] }.handle env .timer =
          ({ r.engine with outbox := [] }.popTimer (deadline, entry)).fireTimer env deadline
            entry := by
        simp only [RulesEngine.handle, RulesEngine.fireDueTimer, htop, if_neg hdue]
      have hpop : RulesEngine.Fed d [] { r.engine with outbox := [] }
          ({ r.engine with outbox := [] }.popTimer (deadline, entry)) := .of_frame rfl rfl rfl rfl
      rcases hev deadline entry htop with hspares | ⟨rfl, hundue⟩
      · have hpopped : RulesEngine.Feeds env d Feed.gentle { r.engine with outbox := [] }
            ({ r.engine with outbox := [] }.popTimer (deadline, entry)) := .of_frame rfl rfl rfl rfl
        apply gentle
        rw [hfire]
        exact hpopped.trans (RulesEngine.feeds_fireTimer hspares _ deadline)
      · rw [handle_eq hx, hfire]
        have htick := RulesEngine.fed_displayTick
          (e := { r.engine with outbox := [] }.popTimer (deadline, .displayTick d)) howned deadline
        exact h.single (hpop.trans htick) rfl rfl (by simp) hundue

/-- The machine hears how a command went. -/
theorem orderly_hear (hx : r.exercise = some x) (h : Orderly d r x) (env : Env) (c : Command)
    (result : Except CmdFailure Unit) : Orderly d (r.next d (.hear env c result)) x := by
  unfold Room.next
  dsimp only
  split
  · rename_i hmem
    rw [handle_eq (r := { r with traffic := r.traffic.hear c result }) hx]
    have htold : (c.result d result).told? = some (d, c.answer result) := by cases c <;> rfl
    have hfed : RulesEngine.Fed d [.input (c.answer result) env.nowTick]
        { r.engine with outbox := [] }
        ({ r.engine with outbox := [] }.handle env (.result (c.result d result))) :=
      (RulesEngine.fed_stepMachine _ _ env.nowTick).before
        (RulesEngine.fed_handleInternalResult _ htold)
    refine h.fed hfed fun m hm hc => ?_
    have hnext := hc.hear hmem env.nowTick
    rw [Runs.System.outputs, Runs.System.outputs, List.append_nil]
    exact hnext
  · exact h

/-- The engine hears of the end of an exercise. -/
theorem orderly_resume (hx : r.exercise = some x) (h : Orderly d r x)
    (howned : r.engine.lastOwned d = some (env.owns d)) : Orderly d (r.next d (.resume env)) x := by
  unfold Room.next
  dsimp only
  split
  · exact h
  · rename_i rules operationId generation rest hresumes
    have hreleased : x.released ≠ false := fun hr => by simp [h.resumes hr] at hresumes
    have hrest : Orderly d { r with resumes := rest } x :=
      ⟨h.executor, fun hr => absurd hr hreleased, h.course, h.concord⟩
    rw [handle_eq (r := { r with resumes := rest }) hx]
    refine hrest.feeds (P := (· = .input .resume env.now)) howned
      (RulesEngine.feeds_exerciseResume _ rules operationId generation rfl) ?_
    rintro s t f rfl hc
    refine concord_input hc rfl rfl (fun _ hs => hreleased hs.1) fun hdue => ?_
    rcases hdue with ⟨htick, -⟩ | ⟨idx, gen, failure, -, hrender⟩
    · cases htick
    · cases hrender

theorem orderly_land (h : Orderly d r x) (c : Command) (result : Except CmdFailure Unit) :
    Orderly d (r.next d (.land c result)) x := by
  unfold Room.next
  dsimp only
  split
  · rename_i hmem
    exact ⟨h.executor, h.resumes, h.course, fun m hm => (h.concord m hm).land hmem result⟩
  · exact h

/-! ## A step of the exercise -/

theorem orderly_exercise (h : Orderly d r x) {i : ExerciseEvent} (hlate : x.takesLate i)
    (hrestored : x.closes i → r.Restored d x i) :
    Orderly d
      { r with
        exercise := some (x.step i).1
        resumes := r.resumes ++ (x.step i).2.filterMap ExerciseOutput.resume?
        last := (x.carries i).or r.last } (x.step i).1 := by
  obtain ⟨hcourse, hsettled⟩ := x.course_next h.course hlate
  have hresumes (hr : (x.step i).1.released = false) := x.resumes_step hr
  refine ⟨h.executor, fun hr => ?_, hcourse, fun m hm => ?_⟩
  · rw [h.resumes (hresumes hr).1, (hresumes hr).2, List.append_nil]
  · have hm : m ∈ r.engine.machines d := hm
    have hc := h.concord m hm
    have hshelters (hs : (x.step i).1.Shelters) : x.Shelters :=
      ⟨(hresumes hs.1).1, by rw [← x.task_next i]; exact hs.2⟩
    refine ⟨hc.awaited, fun hs => hc.sheltered (hshelters hs), fun hs => ?_⟩
    rcases hsettled hs with ⟨hx, hnone⟩ | hcloses
    · rw [hnone, Option.none_or]
      exact hc.fits hx
    · rcases hrestored hcloses with ⟨hsome, hfamily⟩ | hfits
      · obtain ⟨k, hk⟩ := Option.isSome_iff_exists.mp hsome
        obtain rfl := x.carries_wake h.course hcloses hfamily hk
        rw [hk]
        exact (hc.sheltered ⟨x.not_released_of_closes h.course hcloses, hfamily⟩).fits _
      · exact hfits m hm

/-! ## The law -/

/-- The room with an exercise is in order, and without one no exercise has ended. -/
def InOrder (d : DisplayId) (r : Room) : Prop :=
  match r.exercise with
  | none => r.resumes = []
  | some x => Orderly d r x

theorem orderly_started (hx : r.exercise = none) (h : r.resumes = []) {env : Env} {event : Event}
    (hready : ∀ accepted, event.exerciseOf = some (d, accepted) → r.Ready d env) :
    InOrder d (r.handle d env event) := by
  have hhandle : r.handle d env event =
      { r with
        engine := { r.engine with outbox := [] }.handle env event
        traffic := r.traffic.send
          (commandsTo d ({ r.engine with outbox := [] }.handle env event).outbox)
        exercise := startedBy d ({ r.engine with outbox := [] }.handle env event).outbox } := by
    simp only [Room.handle, hx, Option.none_or]
    rfl
  rw [hhandle, InOrder]
  cases hs : startedBy d ({ r.engine with outbox := [] }.handle env event).outbox with
  | none => exact h
  | some x =>
    cases hof : event.exerciseOf with
    | none =>
      rw [startedBy_eq, RulesEngine.tasks_handle hof] at hs
      cases hs
    | some request =>
      obtain ⟨target, accepted⟩ := request
      rw [RulesEngine.handle_exerciseOf hof] at hs ⊢
      have found (htarget : target = d) : r.Ready d env :=
        hready accepted (by rw [hof, htarget])
      obtain ⟨rfl, hstarted⟩ := RulesEngine.started_handleExercise
        (e := { r.engine with outbox := [] }) rfl
        (fun htarget => ⟨(found htarget).owned, (found htarget).driven⟩) hs
      have hr := found rfl
      refine ⟨hstarted.executor, fun _ => h, ?_, fun m' hm' => ?_⟩
      · rw [hstarted.new]
        exact course_new _
      · obtain ⟨hpaused, hpre, hsilent, m, hm, hphase⟩ := hstarted.captured m' hm'
        have hstance := (stance_of_phase hphase).1
        show Concord _ _ m' (r.traffic.send (commandsTo target _)) r.last
        rw [hsilent, Traffic.send_nil]
        refine ⟨⟨hr.single, fun hpos => hstance.trans (hr.blanking m hm hpos), by simp [hpaused]⟩,
          fun hs => ⟨hpaused, ?_⟩, fun hs => ?_⟩
        · have hfamily := hs.2
          rw [hpre] at hfamily
          cases hp : m'.phase <;>
            simp [phaseName, isBlankedFamilyPhase, stance, onRender, hp] at hfamily ⊢
        · rw [hstarted.new] at hs
          exact absurd hs (not_settled_new _)

theorem inOrder_next (d : DisplayId) (r : Room) (i : RoomEvent) (h : InOrder d r)
    (hi : r.Keeps d i) : InOrder d (r.next d i) := by
  cases hx : r.exercise with
  | none =>
    rw [InOrder, hx] at h
    have calm (r' : Room) (he : r'.exercise = none) (hr : r'.resumes = []) : InOrder d r' := by
      rw [InOrder, he]
      exact hr
    cases i with
    | engine env event =>
      rw [Keeps, hx] at hi
      exact orderly_started hx h hi
    | land c result =>
      unfold Room.next
      dsimp only
      split
      · exact calm _ hx h
      · exact calm r hx h
    | hear env c result =>
      unfold Room.next
      dsimp only
      split
      · refine orderly_started (r := { r with traffic := r.traffic.hear c result }) hx h ?_
        intro accepted hof
        cases c <;> cases hof
      · exact calm r hx h
    | resume env =>
      simp only [Room.next, h]
      exact calm r hx h
    | exercise i =>
      simp only [Room.next, hx]
      exact calm r hx h
  | some x =>
    rw [InOrder, hx] at h
    have kept (r' : Room) (he : r'.exercise = some x) (ho : Orderly d r' x) : InOrder d r' := by
      rw [InOrder, he]
      exact ho
    cases i with
    | engine env event =>
      rw [Keeps, hx] at hi
      exact kept _ (by simp [Room.next, Room.handle, hx]) (orderly_heard hx h hi.1 hi.2)
    | land c result =>
      refine kept _ ?_ (orderly_land h c result)
      unfold Room.next
      dsimp only
      split <;> exact hx
    | hear env c result =>
      refine kept _ ?_ (orderly_hear hx h env c result)
      unfold Room.next
      dsimp only
      split
      · simp [Room.handle, hx]
      · exact hx
    | resume env =>
      refine kept _ ?_ (orderly_resume hx h hi)
      unfold Room.next
      dsimp only
      split
      · exact hx
      · simp [Room.handle, hx]
    | exercise i =>
      obtain ⟨hlate, hrestored⟩ := hi x hx
      have hnext : r.next d (.exercise i) =
          { r with
            exercise := some (x.step i).1
            resumes := r.resumes ++ (x.step i).2.filterMap ExerciseOutput.resume?
            last := (x.carries i).or r.last } := by
        simp only [Room.next, hx]
        rfl
      rw [hnext]
      exact orderly_exercise h hlate hrestored

theorem InOrder.spared (h : InOrder d r) : Spared d r := by
  intro x hx hover _ m hm
  have hx : r.exercise = some x := hx
  rw [InOrder, hx] at h
  obtain ⟨outcome, hlet⟩ := Option.isSome_iff_exists.mp hover
  have hs : x.supervisor = .over outcome := by
    unfold Exercise.letGo at hlet
    split at hlet
    · rename_i hs
      rw [hs, Option.some.inj hlet]
    · cases hlet
  have hsettled : x.Settled :=
    ⟨h.course.decided (by simp [Exercise.decided, hs]), fun _ => by simp [Exercise.relinquished, hs]⟩
  have hfits := (h.concord m hm).fits hsettled
  unfold Fits at hfits
  refine ⟨fun hp => ?_, fun hp => ?_⟩
  · simpa [stance, hp] using hfits
  · have hboth : r.last ≠ some .wake ∧ ¬ r.traffic.UnderWay .wake := by
      simpa [stance, hp] using hfits
    exact hboth.1

/-- An exercise leaves the panel as the machine takes it to be, when its last command wakes a
display that was taken to be on, or fits what presence has made of the machine. -/
theorem exercise_spares (d : DisplayId) (e : RulesEngine) (t : Traffic)
    (last : Option CommandKind) (events : List RoomEvent)
    (h : (room d).Steps (fun r i => r.Keeps d i) (Room.before e t last) events) :
    (room d).Throughout (Room.Spared d) (Room.before e t last) events := by
  have hbefore : InOrder d (Room.before e t last) := rfl
  have hstep (r : Room) (i : RoomEvent) (hr : InOrder d r) (hi : r.Keeps d i) :
      InOrder d ((room d).next r i).1 := inOrder_next d r i hr hi
  exact h.throughout _ hstep (fun _ hr => hr.spared) hbefore

/-- An exercise of the monitor, which presence finds before its last command. -/
def exerciseRun (restore : SinkCall) (reply : restore.Reply) : List RoomEvent :=
  [.engine (Env.plain 3) (.control (.exercise ⟨"monitor"⟩)), .exercise .start, .exercise .poll,
    .exercise (.answer (.sink .readState) none),
    .exercise (.answer (.sink (.blank .powerOff)) (.ok ())),
    .exercise (.answer (.sink .readState) none), .exercise (.answer (.sink .wake) (.ok ())),
    .exercise (.answer (.sink .readState) (some { power := some .on, brightness := none })),
    .engine (Env.plain 4) (.presence ⟨⟨"mmwave"⟩, .present, 4⟩),
    .land (.wake 2) (.ok ()), .hear (Env.plain 5) (.wake 2) (.ok ()),
    .exercise (.answer (.sink restore) reply), .exercise (.answer (.sink .readState) none),
    .exercise .join, .exercise .dropGuard, .exercise .dropLease, .resume (Env.plain 6)]

theorem exercise_spares_lit : ∃ e, RulesEngine.new RulesEngine.emptyRoom (fun _ => true) 0 = .ok e ∧
    (room ⟨"monitor"⟩).Throughout (Room.Spared ⟨"monitor"⟩) (Room.before e ⟨[], []⟩ none)
      (exerciseRun .wakeOnce (.ok () : Except CmdFailure Unit)) := by
  refine ⟨_, rfl, exercise_spares _ _ _ _ _ ?_⟩
  have early {r : Room} {i : ExerciseEvent} (hi : i ≠ .takeCancelled)
      (h : ∀ x ∈ r.exercise, x.closes i → r.Restored ⟨"monitor"⟩ x i) :
      r.Keeps ⟨"monitor"⟩ (.exercise i) := fun x hx => ⟨fun htake => absurd htake hi, h x hx⟩
  have other {r : Room} {i : ExerciseEvent} (hi : i ≠ .takeCancelled)
      (h : ∀ x : Exercise, ¬ x.closes i) : r.Keeps ⟨"monitor"⟩ (.exercise i) :=
    early hi fun x _ hc => absurd hc (h x)
  have read {r : Room} (state : Option PanelState) :
      r.Keeps ⟨"monitor"⟩ (.exercise (.answer (.sink .readState) state)) :=
    other (by simp) fun x hc => absurd hc.2.1 (by simp [SequenceCall.Commands,
      SequenceCall.sinkCall, SinkCall.isCommand])
  refine ⟨?_, ?_, ?_, ?_, ?_, ?_, ?_, ?_, ?_, ?_, ?_, ?_, ?_, ?_, ?_, ?_, ?_, trivial⟩
  case refine_1 =>
    intro accepted _
    exact ⟨rfl, by decide, by decide, fun m _ hpos => absurd hpos (by decide)⟩
  case refine_4 => exact read _
  case refine_6 => exact read _
  case refine_8 => exact read _
  case refine_13 => exact read _
  case refine_5 => exact early (by simp) fun x hx _ => .inl (by cases hx; decide)
  case refine_7 => exact early (by simp) fun x hx _ => .inl (by cases hx; decide)
  case refine_12 => exact early (by simp) fun x hx _ => .inl (by cases hx; decide)
  case refine_9 => exact ⟨rfl, trivial⟩
  case refine_10 => trivial
  case refine_11 => trivial
  case refine_17 => exact rfl
  all_goals exact other (by simp) fun x hc => hc

/-- An exercise of a dark panel that someone walks up to: it puts the panel back to dark, and
the machine, awake and active, does not wake it again. -/
theorem exercise_darkens_active :
    ∃ e, RulesEngine.new RulesEngine.emptyRoom (fun _ => true) 0 = .ok e ∧
      let r := (room ⟨"monitor"⟩).run (Room.before e ⟨[], []⟩ none)
        ([.engine (Env.plain 1) (.control (.forceBlank ⟨"monitor"⟩)), .land (.blank 1) (.ok ()),
            .hear (Env.plain 2) (.blank 1) (.ok ())] ++
          exerciseRun (.blank .powerOff) (.ok () : Except CmdFailure Unit))
      (r.traffic.flying = [] ∧ r.traffic.landed = [] ∧ r.resumes = []) ∧
        ¬ Room.Spared ⟨"monitor"⟩ r := by
  refine ⟨_, rfl, by decide, fun h => ?_⟩
  have hend := h _ rfl (by decide)
    ⟨by decide, fun x hx call hcall => by cases hx; cases hcall⟩ _ rfl
  exact hend.1 (by decide) (by decide)

end Room
end Dormant
