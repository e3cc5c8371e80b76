import Dormant.Rules.Wheel
import Dormant.Rules.WakeRetries
import Dormant.StateMachine.Wakeups
import Dormant.StateMachine.StageTicks

/-!
# What the engine promises a machine

The machine's own guarantees ask that its ticks come when they were asked for. The engine's wheel
keeps that promise: seen from one display, a run of the engine is a run of `ticker`, and of
`stageTicker`, with timely deliveries. So the commands of a display are numbered along a whole run
of the engine, and no display waits for a tick that nobody holds.
-/

namespace Dormant
set_option autoImplicit false

def Spin.delivery : Spin → Delivery
  | .fed feed => .feed feed
  | .ticked deadline => .due deadline deadline
  | .stageTicked deadline gen => .feed (.input (.stageTick gen) deadline)

def Spin.stageDelivery : Spin → StageDelivery
  | .fed feed => .feed feed
  | .ticked deadline => .feed (.input .tick deadline)
  | .stageTicked deadline gen => .due gen deadline deadline

def Sign.command? : Sign → Option Command
  | .blank gen _ => some (.blank gen)
  | .wake gen => some (.wake gen)
  | _ => none

variable {d : DisplayId}

/-! ## The wheel and the machine -/

theorem wheel_machine (x : Multiset Timer × DisplayStateMachine) (turns : List Spin) :
    ((wheel d).run x turns).2 = machine.run x.2 (turns.map Spin.feed) ∧
      (wheel d).outputs x turns = machine.outputs x.2 (turns.map Spin.feed) := by
  induction turns generalizing x with
  | nil => exact ⟨rfl, rfl⟩
  | cons turn turns ih =>
    obtain ⟨hrun, houtputs⟩ := ih ((wheel d).next x turn).1
    refine ⟨hrun, ?_⟩
    rw [Runs.System.outputs, houtputs]
    rfl

theorem command_sign (o : Output) : (o.sign? d).bind Sign.command? = o.commandTo d := by
  cases o with
  | blank display gen mode =>
    simp only [Output.sign?, Output.commandTo]
    split <;> rfl
  | wake display gen =>
    simp only [Output.sign?, Output.commandTo]
    split <;> rfl
  | showRender display gen idx kind =>
    simp only [Output.sign?, Output.commandTo]
    split <;> rfl
  | teardownRender display gen =>
    simp only [Output.sign?, Output.commandTo]
    split <;> rfl
  | event ev =>
    cases ev with
    | displayPhase display dest cause confirmed =>
      simp only [Output.sign?, Output.commandTo]
      split <;> rfl
    | _ => rfl
  | _ => rfl

theorem commands_signs (outputs : List Output) :
    (signs d outputs).filterMap Sign.command? = commandsTo d outputs := by
  rw [signs, commandsTo, List.filterMap_filterMap]
  congr 1
  funext o
  exact command_sign o

theorem commands_signsOf {e : RulesEngine} (hx : d ∈ e.executors) (effects : List Effect) :
    (e.signsOf d effects).filterMap Sign.command? = commands effects := by
  rw [RulesEngine.signsOf, commands, List.filterMap_filterMap]
  congr 1
  funext effect
  cases effect <;> simp only [Effect.sign?, Effect.command?, hx, decide_true, if_true] <;>
    (try split) <;> rfl

/-! ## The ticks -/

theorem count_stageTimerOf (effects : List Effect) (gen : UInt64) (tick : ℕ) :
    (effects.filterMap (timerOf d)).count (tick, .displayStageTick d gen) =
      (stageTicks effects).count (gen, tick) := by
  rw [stageTicks, List.count_filterMap, List.count_filterMap]
  apply List.countP_congr
  intro effect _
  cases effect with
  | scheduleStageTickAt g t =>
    simp only [timerOf, Effect.stageTick?, Option.some_beq_some, beq_iff_eq, Prod.mk.injEq,
      TimerEntry.displayStageTick.injEq, true_and]
    exact and_comm
  | _ => simp [timerOf, Effect.stageTick?]

/-- The ticks of `ticker` are those of the wheel. -/
theorem ticker_turn {out : List ℕ} {x : Multiset Timer × DisplayStateMachine} {turn : Spin}
    (hcount : ∀ t, out.count t = x.1.count (t, .displayTick d)) (h : turn.timely d x.1) :
    turn.delivery.timely out ∧
      (ticker.next (out, x.2) turn.delivery).1.2 = ((wheel d).next x turn).1.2 ∧
      ∀ t, (ticker.next (out, x.2) turn.delivery).1.1.count t =
        ((wheel d).next x turn).1.1.count (t, .displayTick d) := by
  have hmade (effects : List Effect) (t : ℕ) : (ticks effects).count t =
      (effects.filterMap (timerOf d) : Multiset Timer).count (t, .displayTick d) := by
    rw [Multiset.coe_count, ← RulesEngine.count_timerOf d effects t]
    congr 1
    exact lawful_beq_subsingleton _ _
  cases turn with
  | fed feed =>
    refine ⟨trivial, rfl, fun t => ?_⟩
    simp only [ticker, wheel, Spin.delivery, Spin.feed, Spin.take, Spin.timer?,
      List.count_append, Multiset.count_add, hcount, hmade]
    exact Nat.add_comm _ _
  | ticked deadline =>
    have hmem : deadline ∈ out := by
      rw [← List.count_pos_iff, hcount, Multiset.count_pos]
      exact h
    refine ⟨⟨hmem, Nat.le_refl _⟩, rfl, fun t => ?_⟩
    simp only [ticker, wheel, Spin.delivery, Spin.feed, Spin.take, Spin.timer?, machine_input,
      List.count_append, Multiset.count_add, hmade]
    rw [Nat.add_comm]
    congr 1
    by_cases ht : t = deadline
    · subst ht
      rw [List.count_erase_self, Multiset.count_erase_self, hcount]
    · rw [List.count_erase_of_ne ht, Multiset.count_erase_of_ne (by simpa using ht), hcount]
  | stageTicked deadline gen =>
    refine ⟨trivial, rfl, fun t => ?_⟩
    simp only [ticker, wheel, Spin.delivery, Spin.feed, Spin.take, Spin.timer?, machine_input,
      List.count_append, Multiset.count_add, hmade]
    rw [Multiset.count_erase_of_ne (by simp), hcount]
    exact Nat.add_comm _ _

theorem stageTicker_turn {out : List (UInt64 × ℕ)} {x : Multiset Timer × DisplayStateMachine}
    {turn : Spin}
    (hcount : ∀ gen t, out.count (gen, t) = x.1.count (t, .displayStageTick d gen))
    (h : turn.timely d x.1) :
    turn.stageDelivery.known out ∧
      (stageTicker.next (out, x.2) turn.stageDelivery).1.2 = ((wheel d).next x turn).1.2 ∧
      ∀ gen t, (stageTicker.next (out, x.2) turn.stageDelivery).1.1.count (gen, t) =
        ((wheel d).next x turn).1.1.count (t, .displayStageTick d gen) := by
  have hmade (effects : List Effect) (gen : UInt64) (t : ℕ) : (stageTicks effects).count (gen, t) =
      (effects.filterMap (timerOf d) : Multiset Timer).count (t, .displayStageTick d gen) := by
    rw [Multiset.coe_count, ← count_stageTimerOf effects gen t]
    congr 1
    exact lawful_beq_subsingleton _ _
  cases turn with
  | fed feed =>
    refine ⟨trivial, rfl, fun gen t => ?_⟩
    simp only [stageTicker, wheel, Spin.stageDelivery, Spin.feed, Spin.take, Spin.timer?,
      List.count_append, Multiset.count_add, hcount, hmade]
    exact Nat.add_comm _ _
  | ticked deadline =>
    refine ⟨trivial, rfl, fun gen t => ?_⟩
    simp only [stageTicker, wheel, Spin.stageDelivery, Spin.feed, Spin.take, Spin.timer?,
      machine_input, List.count_append, Multiset.count_add, hmade]
    rw [Multiset.count_erase_of_ne (by simp), hcount]
    exact Nat.add_comm _ _
  | stageTicked deadline g =>
    have hmem : (g, deadline) ∈ out := by
      rw [← List.count_pos_iff, hcount, Multiset.count_pos]
      exact h
    refine ⟨hmem, rfl, fun gen t => ?_⟩
    simp only [stageTicker, wheel, Spin.stageDelivery, Spin.feed, Spin.take, Spin.timer?,
      machine_input, List.count_append, Multiset.count_add, hmade]
    rw [Nat.add_comm]
    congr 1
    by_cases ht : (gen, t) = (g, deadline)
    · obtain ⟨rfl, rfl⟩ := Prod.mk.inj ht
      rw [List.count_erase_self, Multiset.count_erase_self, hcount]
    · rw [List.count_erase_of_ne ht, Multiset.count_erase_of_ne, hcount]
      intro heq
      simp only [Prod.mk.injEq, TimerEntry.displayStageTick.injEq, true_and] at heq
      exact ht (by rw [heq.1, heq.2])

/-! ## Runs of the wheel -/

theorem ticker_wheel (out : List ℕ) {x : Multiset Timer × DisplayStateMachine} {turns : List Spin}
    (hcount : ∀ t, out.count t = x.1.count (t, .displayTick d)) (h : Timely d x turns) :
    ticker.Steps (fun y delivery => delivery.timely y.1) (out, x.2) (turns.map Spin.delivery) ∧
      (ticker.run (out, x.2) (turns.map Spin.delivery)).2 = ((wheel d).run x turns).2 ∧
      ∀ t, (ticker.run (out, x.2) (turns.map Spin.delivery)).1.count t =
        ((wheel d).run x turns).1.count (t, .displayTick d) := by
  induction turns generalizing out x with
  | nil => exact ⟨trivial, rfl, hcount⟩
  | cons turn turns ih =>
    obtain ⟨htimely, hmachine, hcount'⟩ := ticker_turn hcount h.1
    obtain ⟨hsteps, hrun, hleft⟩ := ih _ hcount' h.2
    rw [← hmachine] at hsteps hrun hleft
    exact ⟨⟨htimely, hsteps⟩, hrun, hleft⟩

theorem stageTicker_wheel (out : List (UInt64 × ℕ)) {x : Multiset Timer × DisplayStateMachine}
    {turns : List Spin}
    (hcount : ∀ gen t, out.count (gen, t) = x.1.count (t, .displayStageTick d gen))
    (h : Timely d x turns) :
    stageTicker.Steps (fun y delivery => delivery.known y.1) (out, x.2)
        (turns.map Spin.stageDelivery) ∧
      (stageTicker.run (out, x.2) (turns.map Spin.stageDelivery)).2 = ((wheel d).run x turns).2 ∧
      ∀ gen t, (stageTicker.run (out, x.2) (turns.map Spin.stageDelivery)).1.count (gen, t) =
        ((wheel d).run x turns).1.count (t, .displayStageTick d gen) := by
  induction turns generalizing out x with
  | nil => exact ⟨trivial, rfl, hcount⟩
  | cons turn turns ih =>
    obtain ⟨hknown, hmachine, hcount'⟩ := stageTicker_turn hcount h.1
    obtain ⟨hsteps, hrun, hleft⟩ := ih _ hcount' h.2
    rw [← hmachine] at hsteps hrun hleft
    exact ⟨⟨hknown, hsteps⟩, hrun, hleft⟩

/-- A wait that only a tick can end has its tick in the wheel. -/
structure Awaiting (d : DisplayId) (x : Multiset Timer × DisplayStateMachine) : Prop where
  waking : x.2.phase = .waking → ∃ t, (t, .displayTick d) ∈ x.1
  paused : ∀ deadline, x.2.overlays.paused = some ⟨some deadline⟩ →
    (deadline, .displayTick d) ∈ x.1

theorem awaiting_turn {x : Multiset Timer × DisplayStateMachine} (h : Awaiting d x) (turn : Spin) :
    Awaiting d ((wheel d).next x turn).1 := by
  obtain ⟨timers, s⟩ := x
  have made {input : Input} {now t : ℕ} (ht : t ∈ ticks (s.step input now).2) :
      ((t, .displayTick d) : Timer) ∈ (s.step input now).2.filterMap (timerOf d) :=
    List.mem_filterMap.mpr ⟨_, mem_ticks.mp ht, rfl⟩
  have kept {t : ℕ} (ht : (t, .displayTick d) ∈ timers) (hne : turn ≠ .ticked t) :
      (t, .displayTick d) ∈ turn.take d timers := by
    cases turn with
    | fed feed => exact ht
    | ticked deadline =>
      have hne' : t ≠ deadline := fun heq => hne (heq ▸ rfl)
      exact (Multiset.mem_erase_of_ne (by simpa using hne')).mpr ht
    | stageTicked deadline gen => exact (Multiset.mem_erase_of_ne (by simp)).mpr ht
  have step {input : Input} {now : ℕ} (hturn : turn.feed = .input input now)
      (htick : ∀ deadline, turn = .ticked deadline → input = .tick ∧ now = deadline) :
      Awaiting d ((wheel d).next (timers, s) turn).1 := by
    simp only [wheel, hturn, machine_input]
    constructor
    · intro hp
      rcases DisplayStateMachine.waking_driven hp with ⟨hw, hne⟩ | ⟨t, ht⟩
      · obtain ⟨t, ht⟩ := h.waking hw
        refine ⟨t, Multiset.mem_add.mpr (.inr (kept ht ?_))⟩
        intro heq
        exact hne (htick t heq).1
      · exact ⟨t, Multiset.mem_add.mpr (.inl (Multiset.mem_coe.mpr (made ht)))⟩
    · intro deadline hp
      rcases DisplayStateMachine.pause_driven hp with ht | ⟨hs, hup⟩
      · exact Multiset.mem_add.mpr (.inl (Multiset.mem_coe.mpr (made ht)))
      · refine Multiset.mem_add.mpr (.inr (kept (h.paused deadline hs) ?_))
        intro heq
        obtain ⟨hin, hnow⟩ := htick deadline heq
        have := hup hin
        omega
  cases turn with
  | fed feed =>
    cases feed with
    | input input now => exact step rfl (by simp)
    | hold active =>
      have hsame : ((wheel d).next (timers, s) (.fed (.hold active))).1 =
          (timers, s.setInputWakeHoldActive active) := by
        simp [wheel, Spin.feed, Spin.take, Spin.timer?]
      rw [hsame]
      exact ⟨h.waking, h.paused⟩
  | ticked deadline => exact step rfl fun t ht => ⟨rfl, Spin.ticked.inj ht⟩
  | stageTicked deadline gen => exact step rfl (by simp)

namespace RulesEngine

/-! ## Runs of the engine -/

section New
variable {setup : Setup} {owns : DisplayId → Bool} {start : ℕ} {e : RulesEngine}
  {m : DisplayStateMachine}

/-- A new engine has told the machine of a display who owns it, and nothing else. -/
theorem new_turn (h : new setup owns start = .ok e) (hm : e.machines d = some m) :
    e.pending d = 0 ∧ ∃ dcfg ∈ setup.cfg.displays, dcfg.display = d ∧
      (wheel d).next (0, .new dcfg.timings dcfg.ladder start)
        (.fed (.input (.ownershipChanged (owns d)) start)) = ((0, m), []) := by
  obtain ⟨-, hmachines, -⟩ := new_ok h
  have htimers : e.timers = [] := by
    unfold new at h
    split at h
    · cases h
    · rw [← Except.ok.inj h]
  refine ⟨by rw [pending, htimers]; rfl, ?_⟩
  rw [hmachines, newMachine, Option.map_eq_some_iff] at hm
  obtain ⟨dcfg, hfind, rfl⟩ := hm
  refine ⟨dcfg, List.mem_reverse.mp (List.mem_of_find?_eq_some hfind), ?_, ?_⟩
  · simpa using List.find?_some hfind
  · cases howns : owns d <;> rfl

/-- A run of a new engine is, for each display, a run of a new machine with its wheel. -/
theorem new_alone (h : new setup owns start = .ok e) (hm : e.machines d = some m)
    (events : List (Env × Event)) (hrelay : ∀ i ∈ events, i.2.relaysState = false) :
    ∃ dcfg ∈ setup.cfg.displays, dcfg.display = d ∧ ∃ turns,
      Timely d (0, .new dcfg.timings dcfg.ladder start) turns ∧
      (engine.run e events).machines d =
        some ((wheel d).run (0, .new dcfg.timings dcfg.ladder start) turns).2 ∧
      (engine.run e events).pending d =
        ((wheel d).run (0, .new dcfg.timings dcfg.ladder start) turns).1 ∧
      signs d (engine.outputs e events) =
        e.signsOf d ((wheel d).outputs (0, .new dcfg.timings dcfg.ladder start) turns) := by
  obtain ⟨hpending, dcfg, hmem, hd, hnext⟩ := new_turn h hm
  have hpart := alone_run d e hm events hrelay
  rw [hpending] at hpart
  obtain ⟨turns, htimely, hmachine, htimers, hsigns⟩ := hpart
  refine ⟨dcfg, hmem, hd, .fed (.input (.ownershipChanged (owns d)) start) :: turns, ⟨rfl, ?_⟩,
    ?_, ?_, ?_⟩
  · rw [hnext]
    exact htimely
  · rw [Runs.System.run_cons, hnext, hmachine]
  · rw [Runs.System.run_cons, hnext, htimers]
  · rw [Runs.System.outputs, hnext, hsigns]
    rfl

/-- What a machine relies on, the engine keeps: each tick comes once, when it was asked for. The
commands, surfaces and remarks of the display are those of its machine. -/
theorem engine_keeps_promises (h : new setup owns start = .ok e) (hm : e.machines d = some m)
    (events : List (Env × Event)) (hrelay : ∀ i ∈ events, i.2.relaysState = false) :
    ∃ dcfg ∈ setup.cfg.displays, dcfg.display = d ∧ ∃ turns : List Spin,
      let s := DisplayStateMachine.new dcfg.timings dcfg.ladder start
      let ticked := ticker.run ([], s) (turns.map Spin.delivery)
      let staged := stageTicker.run ([], s) (turns.map Spin.stageDelivery)
      let e' := engine.run e events
      signs d (engine.outputs e events) =
          e.signsOf d (machine.outputs s (turns.map Spin.feed)) ∧
        e'.machines d = some (machine.run s (turns.map Spin.feed)) ∧
        ticker.Steps (fun x delivery => delivery.timely x.1) ([], s) (turns.map Spin.delivery) ∧
        stageTicker.Steps (fun x delivery => delivery.known x.1) ([], s)
          (turns.map Spin.stageDelivery) ∧
        e'.machines d = some ticked.2 ∧ e'.machines d = some staged.2 ∧
        (∀ t, e'.timers.count (t, .displayTick d) = ticked.1.count t) ∧
        ∀ gen t, e'.timers.count (t, .displayStageTick d gen) = staged.1.count (gen, t) := by
  obtain ⟨dcfg, hmem, hd, turns, htimely, hmachine, hpending, hsigns⟩ := new_alone h hm events hrelay
  refine ⟨dcfg, hmem, hd, turns, ?_⟩
  obtain ⟨hrun, houtputs⟩ := wheel_machine (d := d) (0, .new dcfg.timings dcfg.ladder start) turns
  obtain ⟨hticks, hticked, hticksLeft⟩ := ticker_wheel [] (fun t => by simp) htimely
  obtain ⟨hstages, hstaged, hstagesLeft⟩ :=
    stageTicker_wheel [] (fun gen t => by simp) htimely
  have hcount {t : Timer} (ht : t.2.tickOf? = some d) : (engine.run e events).timers.count t =
      ((engine.run e events).pending d).count t := by
    rw [pending, Multiset.coe_count]
    have hp : decide (t.2.tickOf? = some d) = true := by simpa using ht
    refine (List.count_filter (p := fun t : Timer => decide (t.2.tickOf? = some d)) hp).symm.trans ?_
    congr 1
    exact lawful_beq_subsingleton _ _
  refine ⟨?_, ?_, hticks, hstages, ?_, ?_, fun t => ?_, fun gen t => ?_⟩
  · rw [hsigns, houtputs]
  · rw [hmachine, hrun]
  · rw [hmachine, hticked]
  · rw [hmachine, hstaged]
  · rw [hcount rfl, hpending, hticksLeft]
  · rw [hcount rfl, hpending, hstagesLeft]

/-- A forced blank, a wake, and the tick that retries it. -/
def retriedWake : List (Env × Event) :=
  [(Env.plain 1, .control (.forceBlank ⟨"monitor"⟩)),
    (Env.plain 2, .result (.blank ⟨"monitor"⟩ 1 (.ok ()))),
    (Env.plain 3, .control (.forceWake ⟨"monitor"⟩)), (Env.plain 8, .timer)]

theorem new_shared : ∃ e m, new sharedSetup (fun _ => true) 0 = .ok e ∧
    e.machines ⟨"monitor"⟩ = some m ∧ ⟨"monitor"⟩ ∈ e.executors :=
  ⟨_, _, rfl, rfl, by decide⟩

theorem engine_keeps_promises_retried :
    ∃ e, new sharedSetup (fun _ => true) 0 = .ok e ∧ ∃ s deliveries,
      ticker.Steps (fun x delivery => delivery.timely x.1) ([], s) deliveries ∧
      (engine.run e retriedWake).machines ⟨"monitor"⟩ =
        some (ticker.run ([], s) deliveries).2 ∧
      ∀ t, (engine.run e retriedWake).timers.count (t, .displayTick ⟨"monitor"⟩) =
        (ticker.run ([], s) deliveries).1.count t := by
  obtain ⟨e, m, he, hm, -⟩ := new_shared
  obtain ⟨dcfg, -, -, turns, -, -, hsteps, -, hticked, -, hcount, -⟩ :=
    engine_keeps_promises he hm retriedWake (by decide)
  exact ⟨e, he, _, _, hsteps, hticked, hcount⟩

/-- Along every run of the engine the commands of a display carry the generations from one upward,
in the order in which they are sent, and a machine that waits for a result waits for the last of
them. -/
theorem engine_numbers_commands (h : new setup owns start = .ok e) (hm : e.machines d = some m)
    (hx : d ∈ e.executors) (events : List (Env × Event))
    (hrelay : ∀ i ∈ events, i.2.relaysState = false) :
    ∃ m', (engine.run e events).machines d = some m' ∧
      let sent := commandsTo d (engine.outputs e events)
      sent.map Command.gen = (List.range sent.length).map (fun k => UInt64.ofNat (k + 1)) ∧
        m'.cmdGen = UInt64.ofNat sent.length ∧
        (m'.phase = .blanking →
          m'.lastBlankGen = some m'.cmdGen ∧ sent.getLast? = some (.blank m'.cmdGen)) ∧
        (m'.phase = .waking →
          m'.lastWakeGen = some m'.cmdGen ∧ sent.getLast? = some (.wake m'.cmdGen)) := by
  obtain ⟨dcfg, -, -, turns, -, hmachine, -, hsigns⟩ := new_alone h hm events hrelay
  obtain ⟨hrun, houtputs⟩ := wheel_machine (d := d) (0, .new dcfg.timings dcfg.ladder start) turns
  have hnumbered := DisplayStateMachine.numbered_run dcfg.timings dcfg.ladder start
    (turns.map Spin.feed)
  rw [hrun] at hmachine
  refine ⟨_, hmachine, ?_⟩
  have hsent : commandsTo d (engine.outputs e events) = commands
      (machine.outputs (.new dcfg.timings dcfg.ladder start) (turns.map Spin.feed)) := by
    rw [← commands_signs, hsigns, commands_signsOf hx, houtputs]
  dsimp only
  rw [hsent]
  exact ⟨hnumbered.gens, hnumbered.count, hnumbered.blanking, hnumbered.waking⟩

theorem engine_numbers_commands_retried :
    ∃ e, new sharedSetup (fun _ => true) 0 = .ok e ∧
      commandsTo ⟨"monitor"⟩ (engine.outputs e retriedWake) = [.blank 1, .wake 2, .wake 3] ∧
      ∃ m', (engine.run e retriedWake).machines ⟨"monitor"⟩ = some m' ∧ m'.cmdGen = 3 := by
  obtain ⟨e, m, he, hm, hx⟩ := new_shared
  obtain ⟨m', hm', -, hgen, -⟩ := engine_numbers_commands he hm hx retriedWake (by decide)
  have hsent : commandsTo ⟨"monitor"⟩ (engine.outputs e retriedWake) =
      [.blank 1, .wake 2, .wake 3] := by
    obtain rfl := Except.ok.inj he
    decide
  rw [hsent] at hgen
  exact ⟨e, he, hsent, m', hm', hgen⟩

/-- In every state of every run, a display that waits for a wake has a tick in the wheel that
retries it, and a pause with a deadline has the tick that ends it. -/
theorem no_wait_without_timer (h : new setup owns start = .ok e) (hm : e.machines d = some m)
    (events : List (Env × Event)) (hrelay : ∀ i ∈ events, i.2.relaysState = false) :
    ∃ m', (engine.run e events).machines d = some m' ∧
      (m'.phase = .waking → ∃ t, (t, .displayTick d) ∈ (engine.run e events).timers) ∧
      ∀ deadline, m'.overlays.paused = some ⟨some deadline⟩ →
        (deadline, .displayTick d) ∈ (engine.run e events).timers := by
  obtain ⟨dcfg, -, -, turns, -, hmachine, hpending, -⟩ := new_alone h hm events hrelay
  have hnew : Awaiting d (0, .new dcfg.timings dcfg.ladder start) := by
    constructor
    · intro hp
      cases hp
    · intro deadline hp
      cases hp
  have hstep (x : Multiset Timer × DisplayStateMachine) (turn : Spin) (hx : Awaiting d x) :
      Awaiting d ((wheel d).next x turn).1 := awaiting_turn hx turn
  have hawaiting := Runs.System.invariant hstep hnew turns
  have hwheel {t : Timer} (ht : t ∈ (engine.run e events).pending d) :
      t ∈ (engine.run e events).timers := (List.mem_filter.mp (Multiset.mem_coe.mp ht)).1
  refine ⟨_, hmachine, fun hp => ?_, fun deadline hp => ?_⟩
  · obtain ⟨t, ht⟩ := hawaiting.waking hp
    rw [← hpending] at ht
    exact ⟨t, hwheel ht⟩
  · have ht := hawaiting.paused deadline hp
    rw [← hpending] at ht
    exact hwheel ht

theorem no_wait_without_timer_retried :
    ∃ e, new sharedSetup (fun _ => true) 0 = .ok e ∧
      ∃ t, (t, .displayTick ⟨"monitor"⟩) ∈ (engine.run e retriedWake).timers := by
  obtain ⟨e, m, he, hm, -⟩ := new_shared
  obtain ⟨m', hm', hwaking, -⟩ := no_wait_without_timer he hm retriedWake (by decide)
  refine ⟨e, he, hwaking ?_⟩
  obtain rfl := Except.ok.inj he
  obtain rfl := Option.some.inj hm'
  rfl

end New
end RulesEngine
end Dormant
