import Dormant.Foundations.Slot
import Dormant.Rules.Frames
import Dormant.StateMachine.Wakeups

/-!
# The pauses of a display

Pauses of a rule or of everything, emergency wakes and exercises all pause a display through
one slot of its machine. `Ledger` is what an onlooker keeps of them, and `Standing` says what
the slots show of the ledger. It holds along every run in which a pause is lifted from a
display only when nothing else in the ledger keeps the display paused.
-/

namespace Dormant
set_option autoImplicit false

def Overlays.slot (o : Overlays) : Option (Option ℕ) := o.paused.map (·.untilTick)

theorem Overlays.slot_eq {o : Overlays} {w : Option ℕ} (h : o.paused = some ⟨w⟩) :
    o.slot = some w := by
  simp [slot, h]

theorem Overlays.paused_eq {o : Overlays} {w : Option ℕ} (h : o.slot = some w) :
    o.paused = some ⟨w⟩ := by
  obtain ⟨p, hp, rfl⟩ := Option.map_eq_some_iff.mp h
  exact hp

/-- A tick at or after the deadline of a pause empties the slot. -/
theorem Overlays.slot_resumedAt (o : Overlays) (now : ℕ) :
    (o.resumedAt now).slot = none ∧ (∃ deadline ≤ now, o.slot = some (some deadline)) ∨
      (o.resumedAt now).slot = o.slot := by
  unfold resumedAt
  split
  · rename_i deadline hp
    split
    · exact .inl ⟨rfl, deadline, by assumption, slot_eq hp⟩
    · exact .inr rfl
  · exact .inr rfl

/-! ## The ledger -/

structure PauseEntry where
  scope : Option RuleId
  deadline : Option ℕ
  deriving DecidableEq, Repr

/-- The pauses that were not lifted, the exercises that did not end, and the latest instant
that was read. -/
structure Ledger where
  clock : ℕ
  pauses : List PauseEntry
  exercises : List ExerciseTask

def Ledger.empty (start : ℕ) : Ledger := { clock := start, pauses := [], exercises := [] }

structure Ledger.Aged (g g' : Ledger) : Prop where
  clock : g.clock ≤ g'.clock
  pauses : g'.pauses = g.pauses
  exercises : g'.exercises = g.exercises

def ExerciseTask.ends (task : ExerciseTask) (rules : List RuleId) (operationId : UInt64)
    (generation : GenerationId) : Bool :=
  task.rulesToResume == rules && task.operationId == operationId && task.generation == generation

namespace RulesEngine

/-- What a message says of the pauses. A resume is for the entries of its own scope, and a
global one for all of them. -/
def heardPauses (env : Env) (event : Event) (pauses : List PauseEntry) : List PauseEntry :=
  match event with
  | .control (.pause rule untilStamp) =>
    ⟨rule, untilStamp.map (mapTimestampToTick env)⟩ :: pauses
  | .control .emergencyWake | .control (.emergencyWakeAccepted _) => ⟨none, none⟩ :: pauses
  | .control (.resume none) => []
  | .control (.resume (some r)) => pauses.filter (·.scope ≠ some r)
  | _ => pauses

def heardExercises (event : Event) (exercises : List ExerciseTask) : List ExerciseTask :=
  match event with
  | .result (.exerciseResume rules operationId generation) =>
    exercises.eraseP (·.ends rules operationId generation)
  | _ => exercises

def watchPauses (g : Ledger) (_ : RulesEngine) (i : Env × Event) (r : RulesEngine × List Output) :
    Ledger where
  clock := max g.clock (max i.1.now i.1.nowTick)
  pauses := heardPauses i.1 i.2 g.pauses
  exercises := heardExercises i.2 g.exercises ++ r.2.filterMap Output.task?

def pausedBy (e : RulesEngine) (d : DisplayId) (task : ExerciseTask) : Prop :=
  ∃ r ∈ task.rulesToResume, d ∈ e.displaysOf r

instance (e : RulesEngine) (d : DisplayId) : DecidablePred (e.pausedBy d) :=
  fun task => inferInstanceAs (Decidable (∃ r ∈ task.rulesToResume, d ∈ e.displaysOf r))

/-- The deadlines of everything in the ledger that pauses a display. -/
def sources (e : RulesEngine) (g : Ledger) (d : DisplayId) : List (Option ℕ) :=
  (g.pauses.filter fun p => d ∈ e.targets p.scope).map (·.deadline) ++
    (g.exercises.filter (e.pausedBy d)).map fun _ => none

variable {e e' e'' : RulesEngine} {g g' : Ledger} {d : DisplayId}

theorem mem_sources {w : Option ℕ} : w ∈ e.sources g d ↔
    (∃ p ∈ g.pauses, d ∈ e.targets p.scope ∧ p.deadline = w) ∨
      w = none ∧ ∃ task ∈ g.exercises, e.pausedBy d task := by
  simp only [sources, List.mem_append, List.mem_map, List.mem_filter, decide_eq_true_eq, and_assoc]
  refine or_congr Iff.rfl ⟨fun ⟨task, ht, hp, hw⟩ => ⟨hw.symm, task, ht, hp⟩, ?_⟩
  rintro ⟨rfl, task, ht, hp⟩
  exact ⟨task, ht, hp, rfl⟩

theorem Static.sources (h : Static e e') (g : Ledger) (d : DisplayId) :
    e'.sources g d = e.sources g d := by
  have hp : e'.pausedBy d = e.pausedBy d := by
    funext task
    simp only [pausedBy, h.displaysOf]
  simp only [RulesEngine.sources, h.targets]
  congr 3
  simp only [hp]

/-! ## The condition on a step -/

/-- The displays that an event lifts a pause from. -/
def lifts (e : RulesEngine) (env : Env) (event : Event) (d : DisplayId) : Prop :=
  match event with
  | .control (.resume rule) => d ∈ e.targets rule
  | .result (.exerciseResume rules _ _) => ∃ r ∈ rules, d ∈ e.displaysOf r
  | .timer => ∃ t ∈ earliest e.timers, t.1 ≤ env.nowTick ∧ t.2 = .displayTick d ∧
      ∃ o ∈ e.overlays d, ∃ w ∈ o.slot, ∃ deadline ∈ w, deadline ≤ t.1
  | _ => False

instance (e : RulesEngine) (env : Env) (event : Event) : DecidablePred (e.lifts env event) :=
  fun d => by unfold lifts; split <;> infer_instance

/-- A completion is of the generation that the engine runs under. -/
def ownGeneration (e : RulesEngine) (event : Event) : Prop :=
  match event with
  | .result (.exerciseResume _ _ generation) => generation = e.generation.getD ⟨0⟩
  | _ => True

instance (e : RulesEngine) : DecidablePred e.ownGeneration :=
  fun event => by unfold ownGeneration; split <;> infer_instance

def ledgerAfter (g : Ledger) (e : RulesEngine) (env : Env) (event : Event) : Ledger :=
  watchPauses g e (env, event) (e.handle env event, (e.handle env event).outbox)

/-- The event lifts a pause from a display only when nothing on the ledger holds it after. -/
def liftsLast (g : Ledger) (e : RulesEngine) (env : Env) (event : Event) : Prop :=
  ∀ d ∈ e.targets none, e.lifts env event d →
    ¬ Slot.Live (ledgerAfter g e env event).clock (e.sources (ledgerAfter g e env event) d)

instance (g : Ledger) (e : RulesEngine) (env : Env) : DecidablePred (liftsLast g e env) :=
  fun event => inferInstanceAs (Decidable (∀ d ∈ e.targets none, e.lifts env event d → ¬ _))

def Orderly (x : Ledger × RulesEngine) (i : Env × Event) : Prop :=
  x.2.ownGeneration i.2 ∧ liftsLast x.1 { x.2 with outbox := [] } i.1 i.2

instance (x : Ledger × RulesEngine) : DecidablePred (Orderly x) := fun _ => instDecidableAnd

/-! ## Timed pauses have their tick -/

def Armed (e : RulesEngine) : Prop :=
  ∀ d o u, e.overlays d = some o → o.slot = some (some u) → (u, TimerEntry.displayTick d) ∈ e.timers

/-- Every slot stays, no timer is dropped and no exercise is spawned. -/
structure Steady (e e' : RulesEngine) : Prop where
  static : Static e e'
  timers : ∀ t ∈ e.timers, t ∈ e'.timers
  tasks : e'.tasks = e.tasks
  slots : ∀ d, (e'.overlays d).map (·.slot) = (e.overlays d).map (·.slot)

theorem Steady.trans (h : Steady e e') (h' : Steady e' e'') : Steady e e'' where
  static := h.static.trans h'.static
  timers t ht := h'.timers t (h.timers t ht)
  tasks := h'.tasks.trans h.tasks
  slots d := (h'.slots d).trans (h.slots d)

theorem Neutral.steady (h : Neutral e e') : Steady e e' where
  static := h.static
  timers := h.timers
  tasks := h.tasks
  slots _ := by rw [h.overlays]

theorem Touched.steady {T : DisplayId → Prop} {f : Overlays → Overlays} (h : Touched T f e e')
    (hf : ∀ o, (f o).slot = o.slot) : Steady e e' where
  static := h.static
  timers := h.timers
  tasks := h.tasks
  slots d := by
    by_cases hd : T d
    · rw [h.hit d hd, Option.map_map]
      exact congrArg (fun f => (e.overlays d).map f) (funext hf)
    · rw [h.miss d hd]

theorem Steady.slot (h : Steady e e') {o : Overlays} (ho : e'.overlays d = some o) :
    ∃ o', e.overlays d = some o' ∧ o'.slot = o.slot := by
  have hd := h.slots d
  rw [ho] at hd
  exact Option.map_eq_some_iff.mp hd.symm

theorem Steady.armed (h : Steady e e') (ha : Armed e) : Armed e' := by
  intro d o u ho hs
  obtain ⟨o', ho', hs'⟩ := h.slot ho
  exact h.timers _ (ha d o' u ho' (hs'.trans hs))

theorem steady_applyInhibitor (e : RulesEngine) (env : Env) (r : RuleId) (kind : InhibitorKind)
    (inhibited : Bool) : Steady e (e.applyInhibitor env r kind inhibited) := by
  have hset (set : InhibitorSet) : Steady e (e.setInhibitors r set) :=
    ⟨rfl, fun _ ht => ht, rfl, fun _ => rfl⟩
  have hfan (e : RulesEngine) (inhibited : Bool) : Steady e (e.fanInhibitor env r inhibited) :=
    (Touched.foldl (fun _ => by rfl) (fun e' d _ => touched_stepOne e' env d _)
      (e.displaysOf r)).steady fun _ => rfl
  unfold applyInhibitor
  dsimp only
  split
  · exact hset _
  · exact (hset _).trans (hfan _ _)

theorem steady_handleSetInhibited (e : RulesEngine) (env : Env) (rule : Option RuleId)
    (kind : InhibitorKind) (inhibited : Bool) :
    Steady e (e.handleSetInhibited env rule kind inhibited) := by
  cases rule with
  | some r => exact steady_applyInhibitor e env r kind inhibited
  | none =>
    refine List.foldlRecOn e.ruleOrder _ (motive := Steady e) (Neutral.refl e).steady ?_
    exact fun e' h r _ => h.trans (steady_applyInhibitor e' env r kind inhibited)

theorem timers_effects (display : DisplayId) {effects : List Effect} {tick : ℕ}
    (h : tick ∈ ticks effects) (e : RulesEngine) :
    (tick, TimerEntry.displayTick display) ∈
      (effects.foldl (fun e effect => e.processEffect display effect) e).timers := by
  rw [mem_ticks] at h
  obtain ⟨pre, post, rfl⟩ := List.append_of_mem h
  rw [List.foldl_append, List.foldl_cons]
  have hrest := Neutral.foldl (fun e effect => neutral_processEffect e display effect) post
    ((pre.foldl (fun e effect => e.processEffect display effect) e).processEffect display
      (.scheduleTickAt tick))
  exact hrest.timers _ List.mem_cons_self

/-- After a step the tick of a timed pause is pending, when it was before, or when the step
is a tick that the pause outlasts. -/
theorem armed_stepMachine (display : DisplayId) (input : Input) (now : ℕ)
    (h : ∀ d o u, e.overlays d = some o → o.slot = some (some u) →
      (d = display → input = .tick → now < u) → (u, TimerEntry.displayTick d) ∈ e.timers) :
    Armed (e.stepMachine display input now) := by
  intro d o u ho hs
  have hkept := (kept_stepMachine e display now input).timers
  rw [overlays_stepMachine] at ho
  by_cases hd : d = display
  · subst hd
    rw [Function.update_self] at ho
    cases hm : e.machines d with
    | none => simp [overlays, hm] at ho
    | some machine =>
      have hover : e.overlays d = some machine.overlays := by simp [overlays, hm]
      have hafter : (machine.step input now).1.overlays.paused = some ⟨some u⟩ := by
        rw [hover, Option.map_some] at ho
        obtain rfl := Option.some.inj ho
        rw [DisplayStateMachine.step_overlays_after]
        exact Overlays.paused_eq hs
      rcases DisplayStateMachine.pause_driven hafter with hnew | ⟨hold, hdue⟩
      · simp only [stepMachine, hm]
        exact timers_effects d hnew _
      · exact hkept _ (h d _ u hover (Overlays.slot_eq hold) fun _ ht => hdue ht)
  · rw [Function.update_of_ne hd] at ho
    exact hkept _ (h d o u ho hs fun heq => absurd heq hd)

theorem armed_stepOne (ha : Armed e) (env : Env) (display : DisplayId) (input : Input) :
    Armed (e.stepOne env display input) :=
  armed_stepMachine display input env.now fun d o u ho hs _ =>
    (neutral_feedOwnership e env display env.now).steady.armed ha d o u ho hs

theorem armed_foldl {α : Type} {f : RulesEngine → α → RulesEngine}
    (hf : ∀ e a, Armed e → Armed (f e a)) (l : List α) (ha : Armed e) : Armed (l.foldl f e) := by
  induction l generalizing e with
  | nil => exact ha
  | cons a l ih => exact ih (hf e a ha)

theorem armed_handlePause (ha : Armed e) (env : Env) (rule : Option RuleId)
    (untilStamp : Option ℕ) : Armed (e.handlePause env rule untilStamp) := by
  refine armed_foldl (fun e d ha => armed_stepOne ?_ env d _) _ ha
  split
  · exact ha
  · exact ha

theorem armed_handleResume (ha : Armed e) (env : Env) (rule : Option RuleId) :
    Armed (e.handleResume env rule) :=
  armed_foldl (fun _ d ha => armed_stepOne ha env d .resume) _ ha

theorem armed_handleEmergencyWake (ha : Armed e) (env : Env) : Armed (e.handleEmergencyWake env) :=
  (Neutral.foldl (fun e _ => neutral_send e (by rfl)) _ _).steady.armed
    (armed_handlePause ha env none none)

theorem armed_handleExercise (ha : Armed e) (env : Env) (target : DisplayId)
    (accepted : Option AcceptedOperation) : Armed (e.handleExercise env target accepted) := by
  have hpaused (rules : List RuleId) :
      Armed (rules.foldl (fun e r => e.handlePause env (some r) none) e) :=
    armed_foldl (fun _ r ha => armed_handlePause ha env (some r) none) rules ha
  unfold handleExercise
  split
  · exact ha
  · dsimp only
    split
    · exact hpaused _
    · exact armed_foldl (fun _ r ha => armed_handleResume ha env (some r)) _ (hpaused _)

theorem armed_fireDueTimer (ha : Armed e) (env : Env) : Armed (e.fireDueTimer env) := by
  unfold fireDueTimer
  split
  · exact ha
  · rename_i deadline entry _
    split
    · exact ha
    · have hleft (d : DisplayId) (o : Overlays) (u : ℕ) (ho : e.overlays d = some o)
          (hs : o.slot = some (some u)) (hne : (u, TimerEntry.displayTick d) ≠ (deadline, entry)) :
          (u, TimerEntry.displayTick d) ∈ (e.popTimer (deadline, entry)).timers :=
        (List.mem_erase_of_ne hne).mpr (ha d o u ho hs)
      cases entry with
      | displayTick display =>
        have hfed := neutral_feedOwnership (e.popTimer (deadline, .displayTick display)) env display
          deadline
        refine armed_stepMachine display .tick deadline fun d o u ho hs hlast => ?_
        refine hfed.timers _ (hleft d o u (hfed.overlays ▸ ho) hs fun heq => ?_)
        obtain ⟨rfl, hd⟩ := Prod.mk.inj heq
        exact absurd (hlast (TimerEntry.displayTick.inj hd) rfl) (Nat.lt_irrefl _)
      | _ =>
        refine (neutral_fireTimer _ env deadline (by rfl)).steady.armed fun d o u ho hs => ?_
        exact hleft d o u ho hs fun heq => nomatch (Prod.mk.inj heq).2

/-! ## What the slots show -/

/-- The slots of the machines show the ledger. `base` is the engine the run starts with. -/
structure Standing (base : RulesEngine) (g : Ledger) (e : RulesEngine) : Prop where
  static : Static base e
  executors : ∀ r, ∀ d ∈ e.displaysOf r, d ∈ e.executors
  listed : ∀ d o, e.overlays d = some o → d ∈ e.targets none
  shown : ∀ d o, e.overlays d = some o → Slot.Shows (e.sources g d) g.clock o.slot

variable {base : RulesEngine} {T : DisplayId → Prop} {f : Overlays → Overlays}

theorem Standing.touched (h : Standing base g e) (ht : Touched T f e e') (hle : g.clock ≤ g'.clock)
    (hmiss : ∀ d o, ¬ T d → e.overlays d = some o → ∀ w, w ∈ e.sources g' d ↔ w ∈ e.sources g d)
    (hhit : ∀ d o, T d → e.overlays d = some o →
      Slot.Shows (e.sources g' d) g'.clock (f o).slot) : Standing base g' e' where
  static := h.static.trans ht.static
  executors r d hd := by
    rw [ht.static.executors]
    exact h.executors r d (ht.static.displaysOf r ▸ hd)
  listed d o ho := by
    rw [ht.static.targets]
    by_cases hd : T d
    · obtain ⟨o', ho', -⟩ := Option.map_eq_some_iff.mp (ht.hit d hd ▸ ho)
      exact h.listed d o' ho'
    · exact h.listed d o (ht.miss d hd ▸ ho)
  shown d o ho := by
    rw [ht.static.sources]
    by_cases hd : T d
    · obtain ⟨o', ho', rfl⟩ := Option.map_eq_some_iff.mp (ht.hit d hd ▸ ho)
      exact hhit d o' hd ho'
    · rw [ht.miss d hd] at ho
      exact (h.shown d o ho).pass hle (hmiss d o hd ho)

theorem mem_sources_aged (hg : g.Aged g') (e : RulesEngine) (d : DisplayId) (w : Option ℕ) :
    w ∈ e.sources g' d ↔ w ∈ e.sources g d := by
  rw [mem_sources, mem_sources, hg.pauses, hg.exercises]

theorem Standing.steady (h : Standing base g e) (hs : Steady e e') (hg : g.Aged g') :
    Standing base g' e' where
  static := h.static.trans hs.static
  executors r d hd := by
    rw [hs.static.executors]
    exact h.executors r d (hs.static.displaysOf r ▸ hd)
  listed d o ho := by
    obtain ⟨o', ho', -⟩ := hs.slot ho
    exact hs.static.targets none ▸ h.listed d o' ho'
  shown d o ho := by
    obtain ⟨o', ho', hslot⟩ := hs.slot ho
    rw [hs.static.sources, ← hslot]
    exact (h.shown d o' ho').pass hg.clock (mem_sources_aged hg e d)

theorem Standing.paused (h : Standing base g e) {rule : Option RuleId} {w : Option ℕ} {now : ℕ}
    (ht : Touched (· ∈ e.targets rule) (·.after (.pause w) now) e e') (hle : g.clock ≤ g'.clock)
    (hp : g'.pauses = ⟨rule, w⟩ :: g.pauses) (hx : g'.exercises = g.exercises) :
    Standing base g' e' := by
  refine h.touched ht hle (fun d _ hd _ w' => ?_) fun d _ hd _ => Slot.Shows.placed ?_
  · simp only [mem_sources, hp, hx, List.exists_mem_cons_iff]
    refine or_congr (or_iff_right ?_) Iff.rfl
    exact fun hc => hd hc.1
  · exact mem_sources.mpr (.inl ⟨⟨rule, w⟩, hp ▸ List.mem_cons_self, hd, rfl⟩)

theorem Standing.lifted (h : Standing base g e) {now : ℕ}
    (ht : Touched T (·.after .resume now) e e') (hle : g.clock ≤ g'.clock)
    (hmiss : ∀ d o, ¬ T d → e.overlays d = some o → ∀ w, w ∈ e.sources g' d ↔ w ∈ e.sources g d)
    (hlast : ∀ d ∈ e.targets none, T d → ¬ Slot.Live g'.clock (e.sources g' d)) :
    Standing base g' e' :=
  h.touched ht hle hmiss fun d o hd ho => Slot.Shows.lifted (hlast d (h.listed d o ho) hd)

/-- A resume of one rule takes no source from the other displays, and a global one reaches all
of them. -/
theorem standing_handleResume (h : Standing base g e) (env : Env) (rule : Option RuleId)
    (hle : g.clock ≤ g'.clock) (hp : g'.pauses = heardPauses env (.control (.resume rule)) g.pauses)
    (hx : g'.exercises = g.exercises)
    (hlast : ∀ d ∈ e.targets none, d ∈ e.targets rule →
      ¬ Slot.Live g'.clock (e.sources g' d)) : Standing base g' (e.handleResume env rule) := by
  refine h.lifted (touched_handleResume e env rule) hle (fun d o hd ho w => ?_) hlast
  cases rule with
  | none => exact absurd (h.listed d o ho) hd
  | some r =>
    rw [mem_sources, mem_sources, hp, hx]
    refine or_congr ⟨fun ⟨p, hm, hc⟩ => ⟨p, List.mem_of_mem_filter hm, hc⟩, ?_⟩ Iff.rfl
    rintro ⟨p, hm, hc, hw⟩
    refine ⟨p, List.mem_filter.mpr ⟨hm, ?_⟩, hc, hw⟩
    simp only [ne_eq, decide_not, Bool.not_eq_true', decide_eq_false_iff_not]
    exact fun heq => hd (heq ▸ hc)

theorem standing_exerciseResume (h : Standing base g e) (env : Env) (rules : List RuleId)
    (operationId : UInt64) (generation : GenerationId) (hle : g.clock ≤ g'.clock)
    (hp : g'.pauses = g.pauses)
    (hx : g'.exercises = g.exercises.eraseP (·.ends rules operationId generation))
    (hlast : ∀ d ∈ e.targets none, (∃ r ∈ rules, d ∈ e.displaysOf r) →
      ¬ Slot.Live g'.clock (e.sources g' d)) :
    Standing base g' (rules.foldl (fun e r => e.handleResume env (some r)) e) := by
  refine h.lifted (touched_resumeRules e env rules) hle (fun d o hd _ w => ?_) hlast
  rw [mem_sources, mem_sources, hp, hx]
  refine or_congr Iff.rfl (and_congr_right fun _ => exists_congr fun task => and_congr_left ?_)
  intro hby
  refine List.mem_eraseP_of_neg fun hends => hd ?_
  have hrules : task.rulesToResume = rules := by
    simp only [ExerciseTask.ends, Bool.and_eq_true, beq_iff_eq] at hends
    exact hends.1.1
  exact hrules ▸ hby

theorem Standing.send (h : Standing base g e) (o : Output) : Standing base g (e.send o) :=
  ⟨h.static, h.executors, h.listed, h.shown⟩

/-- An exercise puts its task on the ledger. Without an executor nothing drives the display,
so nothing is paused. -/
theorem standing_handleExercise (h : Standing base g e) (env : Env) (target : DisplayId)
    (accepted : Option AcceptedOperation) (hle : g.clock ≤ g'.clock) (hp : g'.pauses = g.pauses)
    (hx : g'.exercises = g.exercises ++ (e.handleExercise env target accepted).tasks)
    (h0 : e.tasks = []) : Standing base g' (e.handleExercise env target accepted) := by
  have calm (hn : Neutral e (e.handleExercise env target accepted)) :
      Standing base g' (e.handleExercise env target accepted) :=
    h.steady hn.steady ⟨hle, hp, by rw [hx, hn.tasks, h0, List.append_nil]⟩
  cases hacq : e.acquireExercise env target accepted with
  | none => exact calm (handleExercise_rejected e env hacq)
  | some operation =>
    by_cases hin : target ∈ e.executors
    · obtain ⟨e'', ht, he⟩ := handleExercise_spawned e env hacq hin
      have htasks : (e.handleExercise env target accepted).tasks =
          [e''.exerciseTask target (e.rulesOf target) operation] := by
        have h0'' := ht.tasks.trans h0
        simp only [tasks] at h0''
        simp only [he, tasks, RulesEngine.send, List.filterMap_append, h0'']
        rfl
      rw [htasks] at hx
      rw [he]
      refine Standing.send (h.touched ht hle (fun d _ hd _ w => ?_) fun d _ hd _ => ?_) _
      · simp only [mem_sources, hp, hx, List.mem_append, List.mem_singleton]
        refine or_congr Iff.rfl (and_congr_right fun _ => exists_congr fun task =>
          and_congr_left fun hby => or_iff_left ?_)
        rintro rfl
        exact hd hby
      · have hmem : e''.exerciseTask target (e.rulesOf target) operation ∈ g'.exercises :=
          hx ▸ List.mem_append_right _ List.mem_cons_self
        exact Slot.Shows.placed (mem_sources.mpr (.inr ⟨rfl, _, hmem, hd⟩))
    · obtain ⟨e₁, e₂, ht₁, ht₂, hn⟩ := handleExercise_sinkless e env hacq hin
      have hnone (d : DisplayId) : ¬ ∃ r ∈ e.rulesOf target, d ∈ e.displaysOf r := by
        rintro ⟨r, hr, -⟩
        have hr : target ∈ e.displaysOf r := by simpa [rulesOf] using (List.mem_filter.mp hr).2
        exact hin (h.executors r target hr)
      exact calm (((ht₁.neutral hnone).trans (ht₂.neutral hnone)).trans hn)

/-! ## Runs -/

theorem clock_ledgerAfter (g : Ledger) (e : RulesEngine) (env : Env) (event : Event) :
    g.clock ≤ (ledgerAfter g e env event).clock := Nat.le_max_left ..

theorem exercises_ledgerAfter {env : Env} {event : Event} (h : (e.handle env event).tasks = []) :
    (ledgerAfter g e env event).exercises = heardExercises event g.exercises := by
  show heardExercises event g.exercises ++ (e.handle env event).tasks = _
  rw [h, List.append_nil]

theorem aged_ledgerAfter {env : Env} {event : Event} (hs : Steady e (e.handle env event))
    (h0 : e.tasks = []) (hp : heardPauses env event g.pauses = g.pauses)
    (hx : heardExercises event g.exercises = g.exercises) : g.Aged (ledgerAfter g e env event) where
  clock := clock_ledgerAfter g e env event
  pauses := hp
  exercises := (exercises_ledgerAfter (hs.tasks.trans h0)).trans hx

section Step
variable (h : Standing base g e) (h0 : e.tasks = []) (env : Env)
include h h0

theorem standing_control (msg : ControlMsg)
    (hlast : liftsLast g e env (.control msg)) :
    Standing base (ledgerAfter g e env (.control msg)) (e.handleControl env msg) := by
  have hle := clock_ledgerAfter g e env (.control msg)
  have calm (hs : Steady e (e.handleControl env msg))
      (hp : heardPauses env (.control msg) g.pauses = g.pauses) :
      Standing base (ledgerAfter g e env (.control msg)) (e.handleControl env msg) :=
    h.steady hs (aged_ledgerAfter hs h0 hp rfl)
  cases msg with
  | pause rule untilStamp =>
    have ht := touched_handlePause e env rule untilStamp
    exact h.paused ht hle rfl (exercises_ledgerAfter (ht.tasks.trans h0))
  | resume rule =>
    have ht := touched_handleResume e env rule
    exact standing_handleResume h env rule hle rfl (exercises_ledgerAfter (ht.tasks.trans h0)) hlast
  | setInhibited rule kind inhibited =>
    exact calm (steady_handleSetInhibited e env rule kind inhibited) rfl
  | emergencyWake =>
    have ht := touched_handleEmergencyWake e env
    exact h.paused ht hle rfl (exercises_ledgerAfter (ht.tasks.trans h0))
  | emergencyWakeAccepted operation =>
    have ht := touched_handleEmergencyWake e env
    exact h.paused ht hle rfl (exercises_ledgerAfter (ht.tasks.trans h0))
  | exercise display => exact standing_handleExercise h env display none hle rfl rfl h0
  | exerciseAccepted operation =>
    cases hk : operation.kind with
    | exercise display =>
      have hhandle : e.handleControl env (.exerciseAccepted operation) =
          e.handleExercise env display (some operation) := by simp only [handleControl, hk]
      have hx : (ledgerAfter g e env (.control (.exerciseAccepted operation))).exercises =
          g.exercises ++ (e.handleControl env (.exerciseAccepted operation)).tasks := rfl
      rw [hhandle] at hx ⊢
      exact standing_handleExercise h env display (some operation) hle rfl hx h0
    | emergencyWake =>
      exact calm (neutral_handleControl e env (by simpa [ControlMsg.passes] using hk)).steady rfl
  | _ => exact calm (Neutral.steady (neutral_handleControl e env (by rfl))) rfl

theorem standing_result (res : InternalResult)
    (hown : e.ownGeneration (.result res)) (hlast : liftsLast g e env (.result res)) :
    Standing base (ledgerAfter g e env (.result res)) (e.handleInternalResult env res) := by
  cases res with
  | exerciseResume rules operationId generation =>
    have hhandle : e.handleInternalResult env (.exerciseResume rules operationId generation) =
        rules.foldl (fun e r => e.handleResume env (some r)) e :=
      if_pos hown
    have ht := touched_resumeRules e env rules
    rw [hhandle]
    refine standing_exerciseResume h env rules operationId generation
      (clock_ledgerAfter g e env _) rfl (exercises_ledgerAfter ?_) hlast
    exact (congrArg tasks hhandle).trans (ht.tasks.trans h0)
  | _ =>
    have calm {res : InternalResult} (hs : Steady e (e.handleInternalResult env res))
        (hx : heardExercises (.result res) g.exercises = g.exercises) :
        Standing base (ledgerAfter g e env (.result res)) (e.handleInternalResult env res) :=
      h.steady hs (aged_ledgerAfter hs h0 rfl hx)
    exact calm (Neutral.steady (neutral_handleInternalResult e env (by rfl))) rfl

theorem standing_timer (hlast : liftsLast g e env .timer) :
    Standing base (ledgerAfter g e env .timer) (e.fireDueTimer env) := by
  have aged (htasks : (e.fireDueTimer env).tasks = e.tasks) : g.Aged (ledgerAfter g e env .timer) :=
    ⟨clock_ledgerAfter g e env .timer, rfl, exercises_ledgerAfter (htasks.trans h0)⟩
  cases htop : earliest e.timers with
  | none =>
    have hfire : e.fireDueTimer env = e := by simp only [fireDueTimer, htop]
    rw [hfire] at aged ⊢
    exact h.steady (Neutral.refl e).steady (aged rfl)
  | some t =>
    obtain ⟨deadline, entry⟩ := t
    by_cases hdue : env.nowTick < deadline
    · have hfire : e.fireDueTimer env = e := by simp only [fireDueTimer, htop, if_pos hdue]
      rw [hfire] at aged ⊢
      exact h.steady (Neutral.refl e).steady (aged rfl)
    have hfire : e.fireDueTimer env = (e.popTimer (deadline, entry)).fireTimer env deadline entry := by
      simp only [fireDueTimer, htop, if_neg hdue]
    have hpop : Standing base g (e.popTimer (deadline, entry)) :=
      ⟨h.static, h.executors, h.listed, h.shown⟩
    rw [hfire] at aged ⊢
    cases entry with
    | displayTick display =>
      have ht := touched_displayTick (e.popTimer (deadline, .displayTick display)) env display deadline
      have hg := aged ht.tasks
      refine hpop.touched ht hg.clock (fun d _ _ _ => mem_sources_aged hg _ d) fun d o hd ho => ?_
      subst hd
      rcases o.slot_resumedAt deadline with ⟨hnone, u, hu, hslot⟩ | hsame
      · have hlive := hlast d (h.listed d o ho)
          ⟨_, htop, Nat.not_lt.mp hdue, rfl, o, ho, _, hslot, u, rfl, hu⟩
        show Slot.Shows _ _ (o.resumedAt deadline).slot
        rw [hnone]
        exact Slot.Shows.lifted hlive
      · show Slot.Shows _ _ (o.resumedAt deadline).slot
        rw [hsame]
        exact (hpop.shown d o ho).pass hg.clock (mem_sources_aged hg _ d)
    | _ =>
      have calm {entry : TimerEntry} (hp : entry.passes = true) :=
        (neutral_fireTimer (e.popTimer (deadline, entry)) env deadline hp).steady
      exact hpop.steady (calm (by rfl)) (aged (calm (by rfl)).tasks)

end Step

theorem standing_handle (h : Standing base g e) (h0 : e.tasks = []) (env : Env) (event : Event)
    (hown : e.ownGeneration event) (hlast : liftsLast g e env event) :
    Standing base (ledgerAfter g e env event) (e.handle env event) := by
  cases event with
  | presence ev =>
    have hs := (neutral_handlePresenceEvent e env ev).steady
    exact h.steady hs (aged_ledgerAfter hs h0 rfl rfl)
  | control msg => exact standing_control h h0 env msg hlast
  | result res => exact standing_result h h0 env res hown hlast
  | timer => exact standing_timer h h0 env hlast
  | sweep =>
    have hs := (neutral_sweepStaleSensors e env).steady
    exact h.steady hs (aged_ledgerAfter hs h0 rfl rfl)

theorem armed_handleControl (ha : Armed e) (env : Env) (msg : ControlMsg) :
    Armed (e.handleControl env msg) := by
  have calm (hs : Steady e (e.handleControl env msg)) : Armed (e.handleControl env msg) := hs.armed ha
  cases msg with
  | pause rule untilStamp => exact armed_handlePause ha env rule untilStamp
  | resume rule => exact armed_handleResume ha env rule
  | setInhibited rule kind inhibited =>
    exact calm (steady_handleSetInhibited e env rule kind inhibited)
  | emergencyWake => exact armed_handleEmergencyWake ha env
  | emergencyWakeAccepted _ => exact armed_handleEmergencyWake ha env
  | exercise display => exact armed_handleExercise ha env display none
  | exerciseAccepted operation =>
    cases hk : operation.kind with
    | exercise display =>
      simp only [handleControl, hk]
      exact armed_handleExercise ha env display (some operation)
    | emergencyWake =>
      exact calm (neutral_handleControl e env (by simpa [ControlMsg.passes] using hk)).steady
  | _ => exact calm (Neutral.steady (neutral_handleControl e env (by rfl)))

theorem armed_handleInternalResult (ha : Armed e) (env : Env) (res : InternalResult) :
    Armed (e.handleInternalResult env res) := by
  have calm (hs : Steady e (e.handleInternalResult env res)) :
      Armed (e.handleInternalResult env res) := hs.armed ha
  cases res with
  | exerciseResume rules operationId generation =>
    simp only [handleInternalResult]
    split
    · exact armed_foldl (fun _ r ha => armed_handleResume ha env (some r)) rules ha
    · exact ha
  | _ => exact calm (Neutral.steady (neutral_handleInternalResult e env (by rfl)))

theorem armed_handle (ha : Armed e) (env : Env) (event : Event) : Armed (e.handle env event) := by
  cases event with
  | presence ev => exact (neutral_handlePresenceEvent e env ev).steady.armed ha
  | control msg => exact armed_handleControl ha env msg
  | result res => exact armed_handleInternalResult ha env res
  | timer => exact armed_fireDueTimer ha env
  | sweep => exact (neutral_sweepStaleSensors e env).steady.armed ha

def ledgered : Runs.System (Ledger × RulesEngine) (Env × Event) Output :=
  engine.observed watchPauses

theorem standing_next {base : RulesEngine} (x : Ledger × RulesEngine) (i : Env × Event)
    (h : Standing base x.1 x.2 ∧ Armed x.2) (ho : Orderly x i) :
    Standing base (ledgered.next x i).1.1 (ledgered.next x i).1.2 ∧
      Armed (ledgered.next x i).1.2 := by
  obtain ⟨g, e⟩ := x
  obtain ⟨env, event⟩ := i
  have hs : Standing base g { e with outbox := [] } :=
    ⟨h.1.static, h.1.executors, h.1.listed, h.1.shown⟩
  have ha : Armed { e with outbox := [] } := h.2
  exact ⟨standing_handle hs rfl env event ho.1 ho.2, armed_handle ha env event⟩

theorem standing_new {setup : Setup} {owns : DisplayId → Bool} {start : ℕ}
    (h : new setup owns start = .ok e) : Standing e (Ledger.empty start) e ∧ Armed e := by
  refine ⟨⟨rfl, fun _ _ hd => executor_new h hd, fun d o ho => (overlays_new h ho).2,
    fun d o ho => ?_⟩, fun d o u ho hs => ?_⟩
  · rw [(overlays_new h ho).1]
    exact Slot.shows_nil start
  · rw [(overlays_new h ho).1] at hs
    exact nomatch hs

/-- In every run of such steps, and at every instant whose ticks were all dispatched, a display
is paused just when something on the ledger still pauses it, and its pause is one of these. -/
theorem paused_iff_covered (setup : Setup) (owns : DisplayId → Bool) (start : ℕ)
    (h : new setup owns start = .ok e) (events : List (Env × Event))
    (hrun : ledgered.Steps Orderly (Ledger.empty start, e) events) (d : DisplayId)
    (machine : DisplayStateMachine)
    (hm : (ledgered.run (Ledger.empty start, e) events).2.machines d = some machine) (now : ℕ)
    (hclock : (ledgered.run (Ledger.empty start, e) events).1.clock ≤ now)
    (hdue : ∀ t ∈ (ledgered.run (Ledger.empty start, e) events).2.timers,
      t.2 = .displayTick d → now < t.1) :
    (machine.overlays.paused.isSome = true ↔
      Slot.Live now (e.sources (ledgered.run (Ledger.empty start, e) events).1 d)) ∧
    ∀ p, machine.overlays.paused = some p →
      p.untilTick ∈ e.sources (ledgered.run (Ledger.empty start, e) events).1 d := by
  have hinv := hrun.invariant
    (fun x i (hx : Standing e x.1 x.2 ∧ Armed x.2) ho => standing_next x i hx ho) (standing_new h)
  generalize ledgered.run (Ledger.empty start, e) events = x at hinv hm hclock hdue
  obtain ⟨hstand, harmed⟩ := hinv
  have ho : x.2.overlays d = some machine.overlays := by simp [overlays, hm]
  have hshown := hstand.shown d machine.overlays ho
  rw [hstand.static.sources] at hshown
  have hlater (u : ℕ) (hu : machine.overlays.slot = some (some u)) : now < u :=
    hdue (u, .displayTick d) (harmed d machine.overlays u ho hu) rfl
  refine ⟨?_, fun p hp => hshown.shown p.untilTick (Overlays.slot_eq hp)⟩
  have hiff := hshown.isSome_iff hclock hlater
  rwa [Overlays.slot, Option.isSome_map] at hiff

/-- Pauses of two rules that end apart, an exercise, and one more pause. -/
def deskEvents : List (Env × Event) :=
  [(Env.plain 1, .control (.pause (some ⟨"desk"⟩) (some 19))),
    (Env.plain 2, .control (.pause (some ⟨"sofa"⟩) none)),
    (Env.plain 20, .timer),
    (Env.plain 25, .control (.resume (some ⟨"sofa"⟩))),
    (Env.plain 26, .control (.exercise ⟨"monitor"⟩)),
    (Env.plain 30, .result (.exerciseResume [⟨"desk"⟩, ⟨"sofa"⟩] 0 ⟨0⟩)),
    (Env.plain 31, .control (.pause (some ⟨"desk"⟩) (some 9)))]

theorem paused_iff_covered_desk :
    ∃ e machine, new sharedSetup (fun _ => true) 0 = .ok e ∧
      (ledgered.run (Ledger.empty 0, e) deskEvents).2.machines ⟨"monitor"⟩ = some machine ∧
      machine.overlays.paused.isSome = true := by
  obtain ⟨e, he⟩ : ∃ e, new sharedSetup (fun _ => true) 0 = .ok e := ⟨_, rfl⟩
  obtain ⟨machine, hm⟩ : ∃ machine,
      (ledgered.run (Ledger.empty 0, e) deskEvents).2.machines ⟨"monitor"⟩ = some machine := by
    obtain rfl := Except.ok.inj he
    exact ⟨_, rfl⟩
  refine ⟨e, machine, he, hm, ?_⟩
  refine (paused_iff_covered sharedSetup _ 0 he deskEvents ?_ _ machine hm 35 ?_ ?_).1.mpr ?_ <;>
    obtain rfl := Except.ok.inj he <;> decide

def wideSetup : Setup where
  cfg := {
    rules := [⟨⟨"desk"⟩, ⟨"desk"⟩, [⟨"left"⟩, ⟨"right"⟩], 0⟩]
    displays := [⟨⟨"left"⟩, .powerOff, [⟨.controller .powerOff, none⟩], ⟨60, 0, 0, 0, 5⟩⟩,
      ⟨⟨"right"⟩, .powerOff, [⟨.controller .powerOff, none⟩], ⟨60, 0, 0, 0, 5⟩⟩]
    sensors := []
    doctorWakeSettle := 3 }
  zoneEngine := { sensorStates := fun _ => none, evalOrder := [], zonePresence := fun _ => none }
  executors := [⟨"left"⟩, ⟨"right"⟩]
  renderSinks := []
  generation := none
  ruleOrder := [⟨"desk"⟩]
  ruleOrder_perm := by decide

/-- An exercise of one monitor pauses the other one of its rule. -/
theorem exercise_pauses_sibling :
    ∃ e, new wideSetup (fun _ => true) 0 = .ok e ∧
      let x := ledgered.run (Ledger.empty 0, e) [(Env.plain 1, .control (.exercise ⟨"left"⟩))]
      (x.2.machines ⟨"right"⟩).map (·.overlays.paused.isSome) = some true ∧
        x.1.pauses = [] ∧ ∀ task ∈ x.1.exercises, task.display ≠ ⟨"right"⟩ :=
  ⟨_, rfl, by decide, by decide, by decide⟩

end RulesEngine
end Dormant
