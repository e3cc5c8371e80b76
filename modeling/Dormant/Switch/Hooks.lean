import Mathlib.Data.List.Basic

/-!
# Hook slots

`run_slot_with_probe` of `hooks.rs`: the entries of a slot in their order, up to the deadline of the
display switch. What the clock, the probe and the runner say is given from outside.
-/

namespace Dormant
set_option autoImplicit false

namespace Hooks

inductive Phase where
  | before
  | after
  deriving DecidableEq, Repr

def defaultBlockingFor (phase : Phase) : Bool := phase = .before

structure HookAction where
  command : Option (List String)
  mqtt : Option (String × String)
  timeout : ℕ
  blocking : Option Bool
  abortOnFailure : Bool
  skipIfDisplayAwake : Bool

structure HookSlot where
  phase : Phase
  actions : List HookAction
  deadline : ℕ

structure HookDecision where
  index : ℕ
  blocking : Bool
  timeout : ℕ
  abortOnFailure : Bool
  action : HookAction

inductive HookOutcome where
  | completed (started failed spawned : ℕ)
  | aborted (atIndex : ℕ) (reason : String)
  deriving DecidableEq, Repr

def decideSlot (slot : HookSlot) : List HookDecision :=
  slot.actions.mapIdx fun index action =>
    { index := index
      blocking := action.blocking.getD (defaultBlockingFor slot.phase)
      timeout := action.timeout
      abortOnFailure := action.abortOnFailure
      action := action }

def eHookTimeout : String := "E_HOOK_TIMEOUT"

def isTimeoutError (reason : String) : Bool := eHookTimeout.toList.isPrefixOf reason.toList

/-- What a run meets at each entry: the clock when the loop comes to it, behind the probe and behind
the runner, and what the probe and the runner answer. -/
structure Surroundings where
  check : ℕ → ℕ
  start : ℕ → ℕ
  finish : ℕ → ℕ
  onlineSleepStates : ℕ → Except String (List Bool)
  runCommand : ℕ → List String → ℕ → Except String Unit
  publishMqtt : ℕ → String → String → ℕ → Except String Unit
  check_le_start : ∀ i, check i ≤ start i
  start_le_finish : ∀ i, start i ≤ finish i
  finish_le_check : ∀ i, finish i ≤ check (i + 1)

/-- What the slot does, in its order. -/
inductive HookEvent where
  | skipped (index now : ℕ)
  | started (index now given : ℕ) (blocking : Bool)
  | finished (index now : ℕ) (outcome : Except String Unit)

section
variable (sur : Surroundings)

def skipAwakeAction (decision : HookDecision) : Bool :=
  if decision.action.skipIfDisplayAwake then
    match sur.onlineSleepStates decision.index with
    | .error _ => false
    | .ok states => !(states.isEmpty || states.any id)
  else false

def dispatchAction (decision : HookDecision) (timeout : ℕ) : Except String Unit :=
  match decision.action.command, decision.action.mqtt with
  | some argv, _ => sur.runCommand decision.index argv timeout
  | none, some (topic, payload) => sur.publishMqtt decision.index topic payload timeout
  | none, none => .error "neither command nor mqtt set"

def finishAtSlotDeadline :
    List HookDecision → ℕ → ℕ → ℕ → HookOutcome
  | [], started, failed, spawned => .completed started failed spawned
  | decision :: expired, started, failed, spawned =>
    if decision.blocking && decision.abortOnFailure then
      .aborted decision.index (eHookTimeout ++ ": total hook timeout elapsed")
    else finishAtSlotDeadline expired started (failed + 1) spawned

/-- The loop over the decisions, with its counters. -/
def runFrom (deadline : ℕ) :
    List HookDecision → ℕ → ℕ → ℕ → HookOutcome × List HookEvent
  | [], started, failed, spawned => (.completed started failed spawned, [])
  | decision :: decisions, started, failed, spawned =>
    if deadline ≤ sur.check decision.index then
      (finishAtSlotDeadline (decision :: decisions) started failed spawned, [])
    else if skipAwakeAction sur decision then
      let rest := runFrom deadline decisions (started + 1) failed spawned
      (rest.1, .skipped decision.index (sur.start decision.index) :: rest.2)
    else
      let now := sur.start decision.index
      let timeout := min decision.timeout (deadline - now)
      if decision.blocking then
        let outcome := dispatchAction sur decision timeout
        let events := [.started decision.index now timeout true,
          .finished decision.index (sur.finish decision.index) outcome]
        match outcome with
        | .ok () =>
          let rest := runFrom deadline decisions (started + 1) failed spawned
          (rest.1, events ++ rest.2)
        | .error reason =>
          if isTimeoutError reason = true ∧ deadline ≤ sur.finish decision.index then
            (finishAtSlotDeadline (decision :: decisions) (started + 1) failed spawned, events)
          else if decision.abortOnFailure then (.aborted decision.index reason, events)
          else
            let rest := runFrom deadline decisions (started + 1) (failed + 1) spawned
            (rest.1, events ++ rest.2)
      else
        let rest := runFrom deadline decisions (started + 1) failed (spawned + 1)
        (rest.1, .started decision.index now timeout false :: rest.2)

def runSlot (slot : HookSlot) : HookOutcome × List HookEvent :=
  runFrom sur slot.deadline (decideSlot slot) 0 0 0

end

/-! ## What a slot has to keep to -/

def HookEvent.index : HookEvent → ℕ
  | .skipped index _ => index
  | .started index _ _ _ => index
  | .finished index _ _ => index

def HookEvent.isStart : HookEvent → Bool
  | .started _ _ _ _ => true
  | _ => false

def HookEvent.isSpawn : HookEvent → Bool
  | .started _ _ _ blocking => !blocking
  | _ => false

def HookEvent.isFailure : HookEvent → Bool
  | .finished _ _ (.error _) => true
  | _ => false

def HookDecision.aborting (decision : HookDecision) : Bool :=
  decision.blocking && decision.abortOnFailure

/-- The entry failed or was cut off, or the deadline was reached before its turn. -/
def lost (sur : Surroundings) (deadline : ℕ) (events : List HookEvent) (decision : HookDecision) :
    Bool :=
  events.any (fun e => e.isFailure && e.index == decision.index) ||
    (!events.any (fun e => e.index == decision.index) &&
      decide (deadline ≤ sur.check decision.index))

/-- What a slot has to keep to, but for its deadline. -/
structure Orderly (sur : Surroundings) (deadline : ℕ) (decisions : List HookDecision)
    (outcome : HookOutcome) (events : List HookEvent) : Prop where
  inOrder : (events.filter HookEvent.isStart).Pairwise fun a b => a.index < b.index
  oneAtATime : ∀ k index now given, events[k]? = some (.started index now given true) →
    ∃ finish result, events[k + 1]? = some (.finished index finish result)
  bounded : ∀ index now given blocking, .started index now given blocking ∈ events →
    ∃ decision ∈ decisions, decision.index = index ∧ decision.blocking = blocking ∧
      given ≤ min decision.timeout (deadline - now)
  aborts_iff : ∀ i, (∃ reason, outcome = .aborted i reason) ↔
    ∃ decision ∈ decisions, decision.index = i ∧
      (decision.aborting = true ∧ lost sur deadline events decision = true) ∧
      ∀ earlier ∈ decisions, earlier.index < i →
        ¬ (earlier.aborting = true ∧ lost sur deadline events earlier = true)
  stops : ∀ i reason, outcome = .aborted i reason → ∀ e ∈ events, e.index ≤ i
  counts : ∀ started failed spawned, outcome = .completed started failed spawned →
    failed = decisions.countP (lost sur deadline events) ∧
      spawned = events.countP HookEvent.isSpawn ∧ started ≤ decisions.length

/-- No entry is started at or after the deadline. -/
def Timely (deadline : ℕ) (events : List HookEvent) : Prop :=
  ∀ index now given blocking, HookEvent.started index now given blocking ∈ events → now < deadline

/-- The entry fails when it is run, and its failure ends the slot. -/
def stopsSlot (sur : Surroundings) (deadline : ℕ) (decision : HookDecision) : Prop :=
  decision.aborting = true ∧ skipAwakeAction sur decision = false ∧
    ∃ reason, dispatchAction sur decision
      (min decision.timeout (deadline - sur.start decision.index)) = .error reason

/-- For each entry that is tested in time and run, the probe is back before the deadline. -/
def ProbedInTime (sur : Surroundings) (deadline : ℕ) (decisions : List HookDecision) : Prop :=
  ∀ decision ∈ decisions, sur.check decision.index < deadline →
    skipAwakeAction sur decision = false →
    (∀ earlier ∈ decisions, earlier.index < decision.index → ¬ stopsSlot sur deadline earlier) →
    sur.start decision.index < deadline

/-! ## One entry -/

def startEvent (sur : Surroundings) (deadline : ℕ) (decision : HookDecision) (blocking : Bool) :
    HookEvent :=
  .started decision.index (sur.start decision.index)
    (min decision.timeout (deadline - sur.start decision.index)) blocking

def finishEvent (sur : Surroundings) (decision : HookDecision) (outcome : Except String Unit) :
    HookEvent :=
  .finished decision.index (sur.finish decision.index) outcome

/-- The blocking entry is run and fails. -/
def FailsWith (sur : Surroundings) (deadline : ℕ) (decision : HookDecision) (reason : String) :
    Prop :=
  skipAwakeAction sur decision = false ∧ decision.blocking = true ∧
    dispatchAction sur decision
      (min decision.timeout (deadline - sur.start decision.index)) = .error reason

/-- An entry that the loop leaves behind: its events, and what it adds to the counters. -/
inductive Passes (sur : Surroundings) (deadline : ℕ) (decision : HookDecision) :
    List HookEvent → ℕ → ℕ → Prop where
  | skipped : skipAwakeAction sur decision = true →
      Passes sur deadline decision [.skipped decision.index (sur.start decision.index)] 0 0
  | spawned : skipAwakeAction sur decision = false → decision.blocking = false →
      Passes sur deadline decision [startEvent sur deadline decision false] 0 1
  | succeeded : skipAwakeAction sur decision = false → decision.blocking = true →
      dispatchAction sur decision
        (min decision.timeout (deadline - sur.start decision.index)) = .ok () →
      Passes sur deadline decision
        [startEvent sur deadline decision true, finishEvent sur decision (.ok ())] 0 0
  | failed (reason : String) : FailsWith sur deadline decision reason →
      decision.abortOnFailure = false →
      Passes sur deadline decision
        [startEvent sur deadline decision true, finishEvent sur decision (.error reason)] 1 0

/-- What the loop does with its first entry. -/
inductive Meets (sur : Surroundings) (deadline : ℕ) (decision : HookDecision)
    (decisions : List HookDecision) (started failed spawned : ℕ) :
    HookOutcome × List HookEvent → Prop where
  | expired : deadline ≤ sur.check decision.index →
      Meets sur deadline decision decisions started failed spawned
        (finishAtSlotDeadline (decision :: decisions) started failed spawned, [])
  | passes (events : List HookEvent) (f s : ℕ) (rest : HookOutcome × List HookEvent) :
      sur.check decision.index < deadline → Passes sur deadline decision events f s →
      rest = runFrom sur deadline decisions (started + 1) (failed + f) (spawned + s) →
      Meets sur deadline decision decisions started failed spawned (rest.1, events ++ rest.2)
  | cutOff (reason : String) : sur.check decision.index < deadline →
      FailsWith sur deadline decision reason → deadline ≤ sur.finish decision.index →
      Meets sur deadline decision decisions started failed spawned
        (finishAtSlotDeadline (decision :: decisions) (started + 1) failed spawned,
          [startEvent sur deadline decision true, finishEvent sur decision (.error reason)])
  | aborts (reason : String) : sur.check decision.index < deadline →
      FailsWith sur deadline decision reason → decision.abortOnFailure = true →
      Meets sur deadline decision decisions started failed spawned
        (.aborted decision.index reason,
          [startEvent sur deadline decision true, finishEvent sur decision (.error reason)])

theorem runFrom_cons (sur : Surroundings) (deadline : ℕ) (decision : HookDecision)
    (decisions : List HookDecision) (started failed spawned : ℕ) :
    Meets sur deadline decision decisions started failed spawned
      (runFrom sur deadline (decision :: decisions) started failed spawned) := by
  rw [runFrom]
  split
  · rename_i hdue
    exact .expired hdue
  rename_i hdue
  have hcheck : sur.check decision.index < deadline := by omega
  split
  · rename_i hskip
    exact .passes _ 0 0 _ hcheck (.skipped hskip) rfl
  rename_i hskip
  rw [Bool.not_eq_true] at hskip
  dsimp only
  split
  · rename_i hblocking
    split
    · rename_i houtcome
      rw [houtcome]
      exact .passes _ 0 0 _ hcheck (.succeeded hskip hblocking houtcome) rfl
    · rename_i reason houtcome
      have hfails : FailsWith sur deadline decision reason := ⟨hskip, hblocking, houtcome⟩
      rw [houtcome]
      split
      · rename_i hcut
        exact .cutOff reason hcheck hfails hcut.2
      · split
        · rename_i habort
          exact .aborts reason hcheck hfails habort
        · rename_i habort
          exact .passes _ 1 0 _ hcheck (.failed reason hfails (by simpa using habort)) rfl
  · rename_i hblocking
    exact .passes _ 0 1 _ hcheck (.spawned hskip (by simpa using hblocking)) rfl

/-! ## The events of an entry -/

theorem run_index (sur : Surroundings) (deadline : ℕ) (decision : HookDecision)
    (outcome : Except String Unit) :
    ∀ e ∈ [startEvent sur deadline decision true, finishEvent sur decision outcome],
      e.index = decision.index := by
  simp [startEvent, finishEvent, HookEvent.index]

theorem passes_index {sur : Surroundings} {deadline : ℕ} {decision : HookDecision}
    {events : List HookEvent} {f s : ℕ} (h : Passes sur deadline decision events f s) :
    events ≠ [] ∧ ∀ e ∈ events, e.index = decision.index := by
  induction h <;> simp [startEvent, finishEvent, HookEvent.index]

theorem passes_failure {sur : Surroundings} {deadline : ℕ} {decision : HookDecision}
    {events : List HookEvent} {f s : ℕ} (h : Passes sur deadline decision events f s) :
    f = (if events.any HookEvent.isFailure then 1 else 0) ∧ s = events.countP HookEvent.isSpawn ∧
      (events.any HookEvent.isFailure = true → decision.aborting = false) := by
  induction h with
  | skipped => simp [HookEvent.isFailure, HookEvent.isSpawn]
  | spawned => simp [startEvent, HookEvent.isFailure, HookEvent.isSpawn]
  | succeeded => simp [startEvent, finishEvent, HookEvent.isFailure, HookEvent.isSpawn]
  | failed reason hfails habort =>
    simp [startEvent, finishEvent, HookEvent.isFailure, HookEvent.isSpawn, HookDecision.aborting,
      habort]

theorem runFrom_index (sur : Surroundings) (deadline : ℕ) (decisions : List HookDecision) :
    ∀ started failed spawned, ∀ e ∈ (runFrom sur deadline decisions started failed spawned).2,
      ∃ decision ∈ decisions, decision.index = e.index := by
  induction decisions with
  | nil => simp [runFrom]
  | cons decision decisions ih =>
    intro started failed spawned e he
    have hmeets := runFrom_cons sur deadline decision decisions started failed spawned
    generalize runFrom sur deadline (decision :: decisions) started failed spawned = r at hmeets he
    induction hmeets with
    | expired hdue => simp at he
    | passes events f s rest hcheck hpasses hrest =>
      subst hrest
      rcases List.mem_append.mp he with he | he
      · exact ⟨decision, by simp, ((passes_index hpasses).2 e he).symm⟩
      · obtain ⟨other, hother, hindex⟩ := ih _ _ _ e he
        exact ⟨other, List.mem_cons_of_mem _ hother, hindex⟩
    | cutOff reason hcheck hfails hfinish =>
      exact ⟨decision, by simp, (run_index sur deadline decision (.error reason) e he).symm⟩
    | aborts reason hcheck hfails habort =>
      exact ⟨decision, by simp, (run_index sur deadline decision (.error reason) e he).symm⟩

/-! ## Which entries are lost -/

theorem lost_append (sur : Surroundings) (deadline : ℕ) (events tail : List HookEvent)
    (decision : HookDecision) (h : ∀ e ∈ events, e.index ≠ decision.index) :
    lost sur deadline (events ++ tail) decision = lost sur deadline tail decision := by
  have hany (p : HookEvent → Bool) :
      events.any (fun e => p e && e.index == decision.index) = false := by
    rw [List.any_eq_false]
    intro e he
    simp [h e he]
  have hnone : events.any (fun e => e.index == decision.index) = false := by
    simpa using hany (fun _ => true)
  unfold lost
  rw [List.any_append, List.any_append, hany, hnone, Bool.false_or, Bool.false_or]

theorem lost_of_passes {sur : Surroundings} {deadline : ℕ} {decision : HookDecision}
    {events : List HookEvent} {f s : ℕ} (h : Passes sur deadline decision events f s)
    (tail : List HookEvent) (htail : ∀ e ∈ tail, e.index ≠ decision.index) :
    lost sur deadline (events ++ tail) decision = events.any HookEvent.isFailure := by
  obtain ⟨hne, hindex⟩ := passes_index h
  have hfailures : events.any (fun e => e.isFailure && e.index == decision.index) =
      events.any HookEvent.isFailure := by
    rw [Bool.eq_iff_iff, List.any_eq_true, List.any_eq_true]
    constructor
    · intro ⟨e, he, hfailure⟩
      exact ⟨e, he, (Bool.and_eq_true_iff.mp hfailure).1⟩
    · intro ⟨e, he, hfailure⟩
      exact ⟨e, he, by simp [hfailure, hindex e he]⟩
  have htailless : tail.any (fun e => e.isFailure && e.index == decision.index) = false := by
    rw [List.any_eq_false]
    intro e he
    simp [htail e he]
  have hsome : events.any (fun e => e.index == decision.index) = true := by
    obtain ⟨e, he⟩ := List.exists_mem_of_ne_nil events hne
    exact List.any_eq_true.mpr ⟨e, he, by simp [hindex e he]⟩
  unfold lost
  rw [List.any_append, List.any_append, hfailures, htailless, hsome]
  simp

theorem lost_of_expired {sur : Surroundings} {deadline : ℕ} {decision : HookDecision}
    {events : List HookEvent} (hnone : ∀ e ∈ events, e.index ≠ decision.index)
    (hdue : deadline ≤ sur.check decision.index) :
    lost sur deadline events decision = true := by
  have := lost_append sur deadline events [] decision hnone
  rw [List.append_nil] at this
  rw [this]
  simp [lost, hdue]

theorem lost_of_failure (sur : Surroundings) (deadline : ℕ) (decision : HookDecision)
    (reason : String) :
    lost sur deadline
      [startEvent sur deadline decision true, finishEvent sur decision (.error reason)]
      decision = true := by
  simp [lost, startEvent, finishEvent, HookEvent.isFailure, HookEvent.index]

/-! ## The clock -/

theorem finish_le_check_of_lt (sur : Surroundings) {i j : ℕ} (h : i < j) :
    sur.finish i ≤ sur.check j := by
  induction j with
  | zero => omega
  | succ j ih =>
    rcases Nat.lt_succ_iff_lt_or_eq.mp h with hlt | heq
    · have := ih hlt
      have := sur.check_le_start j
      have := sur.start_le_finish j
      have := sur.finish_le_check j
      omega
    · subst heq
      exact sur.finish_le_check i

theorem check_le_check_of_lt (sur : Surroundings) {i j : ℕ} (h : i < j) :
    sur.check i ≤ sur.check j := by
  have := sur.check_le_start i
  have := sur.start_le_finish i
  have := finish_le_check_of_lt sur h
  omega

/-! ## The counters -/

/-- The entry's failure is one that ends the slot. -/
def Fatal (sur : Surroundings) (deadline : ℕ) (events : List HookEvent) (decision : HookDecision) :
    Prop :=
  decision.aborting = true ∧ lost sur deadline events decision = true

/-- The outcome is the one that the entries and their events ask for. -/
def Accounted (sur : Surroundings) (deadline : ℕ) (decisions : List HookDecision)
    (events : List HookEvent) (limit failed spawned : ℕ) : HookOutcome → Prop
  | .completed started' failed' spawned' =>
    started' ≤ limit ∧ failed' = failed + decisions.countP (lost sur deadline events) ∧
      spawned' = spawned + events.countP HookEvent.isSpawn ∧
      ∀ decision ∈ decisions, ¬ Fatal sur deadline events decision
  | .aborted i _ =>
    (∃ decision ∈ decisions, decision.index = i ∧ Fatal sur deadline events decision) ∧
      (∀ earlier ∈ decisions, earlier.index < i → ¬ Fatal sur deadline events earlier) ∧
      ∀ e ∈ events, e.index ≤ i

def Increasing (decisions : List HookDecision) : Prop :=
  decisions.Pairwise fun a b => a.index < b.index

theorem finish_accounted (sur : Surroundings) (deadline : ℕ) (events : List HookEvent)
    (expired : List HookDecision) (started limit spawned : ℕ) (hstarted : started ≤ limit)
    (hspawn : events.countP HookEvent.isSpawn = 0) :
    ∀ failed, Increasing expired →
      (∀ decision ∈ expired, lost sur deadline events decision = true ∧
        ∀ e ∈ events, e.index ≤ decision.index) →
      Accounted sur deadline expired events limit failed spawned
        (finishAtSlotDeadline expired started failed spawned) := by
  induction expired with
  | nil =>
    intro failed _ _
    exact ⟨hstarted, by simp, by omega, by simp⟩
  | cons decision expired ih =>
    intro failed hinc hlost
    have ⟨hhead, htail⟩ := List.pairwise_cons.mp hinc
    have hthis := hlost decision (by simp)
    rw [finishAtSlotDeadline]
    split
    · rename_i habort
      refine ⟨⟨decision, by simp, rfl, habort, hthis.1⟩, ?_, hthis.2⟩
      intro earlier hearlier hlt
      rcases List.mem_cons.mp hearlier with heq | hmem
      · subst heq
        omega
      · have := hhead earlier hmem
        omega
    · rename_i habort
      have hrest := ih (failed + 1) htail (fun d hd => hlost d (List.mem_cons_of_mem _ hd))
      have hnot : ¬ Fatal sur deadline events decision := fun h => habort h.1
      generalize finishAtSlotDeadline expired started (failed + 1) spawned = outcome at hrest ⊢
      cases outcome with
      | completed started' failed' spawned' =>
        obtain ⟨hlimit, hfailed, hspawned, hnone⟩ := hrest
        refine ⟨hlimit, ?_, hspawned, ?_⟩
        · rw [List.countP_cons, hthis.1]
          simp only [if_true]
          omega
        · exact List.forall_mem_cons.mpr ⟨hnot, hnone⟩
      | aborted i reason =>
        obtain ⟨⟨d, hd, hindex, hfatal⟩, hfirst, hlast⟩ := hrest
        exact ⟨⟨d, List.mem_cons_of_mem _ hd, hindex, hfatal⟩,
          List.forall_mem_cons.mpr ⟨fun _ => hnot, hfirst⟩, hlast⟩

theorem fatal_append (sur : Surroundings) (deadline : ℕ) (events tail : List HookEvent)
    (decision : HookDecision) (h : ∀ e ∈ events, e.index ≠ decision.index) :
    Fatal sur deadline (events ++ tail) decision ↔ Fatal sur deadline tail decision := by
  unfold Fatal
  rw [lost_append sur deadline events tail decision h]

/-- The events that come later belong to later entries. -/
theorem later_index (sur : Surroundings) (deadline : ℕ) (decision : HookDecision)
    (decisions : List HookDecision) (hinc : Increasing (decision :: decisions))
    (started failed spawned : ℕ) :
    ∀ e ∈ (runFrom sur deadline decisions started failed spawned).2,
      decision.index < e.index := by
  intro e he
  obtain ⟨other, hother, hindex⟩ := runFrom_index sur deadline decisions _ _ _ e he
  rw [← hindex]
  exact (List.pairwise_cons.mp hinc).1 other hother

theorem passes_accounted {sur : Surroundings} {deadline : ℕ} {decision : HookDecision}
    {decisions : List HookDecision} {events tail : List HookEvent} {f s : ℕ}
    (hinc : Increasing (decision :: decisions)) (hpasses : Passes sur deadline decision events f s)
    (htail : ∀ e ∈ tail, decision.index < e.index) (limit failed spawned : ℕ)
    (outcome : HookOutcome)
    (h : Accounted sur deadline decisions tail limit (failed + f) (spawned + s) outcome) :
    Accounted sur deadline (decision :: decisions) (events ++ tail) limit failed spawned
      outcome := by
  have hhead := (List.pairwise_cons.mp hinc).1
  obtain ⟨hf, hs, hharmless⟩ := passes_failure hpasses
  have hlost : lost sur deadline (events ++ tail) decision = events.any HookEvent.isFailure := by
    refine lost_of_passes hpasses tail ?_
    intro e he
    have := htail e he
    omega
  have hnot : ¬ Fatal sur deadline (events ++ tail) decision := by
    intro hfatal
    have haborting := hharmless (hlost ▸ hfatal.2)
    rw [hfatal.1] at haborting
    cases haborting
  have hother : ∀ d ∈ decisions, ∀ e ∈ events, e.index ≠ d.index := by
    intro d hd e he
    have := (passes_index hpasses).2 e he
    have := hhead d hd
    omega
  cases outcome with
  | completed started' failed' spawned' =>
    obtain ⟨hlimit, hfailed, hspawned, hnone⟩ := h
    have hcount : decisions.countP (lost sur deadline (events ++ tail)) =
        decisions.countP (lost sur deadline tail) := by
      apply List.countP_congr
      intro d hd
      rw [lost_append sur deadline events tail d (hother d hd)]
    refine ⟨hlimit, ?_, ?_, List.forall_mem_cons.mpr ⟨hnot, ?_⟩⟩
    · rw [List.countP_cons, hcount, hlost]
      omega
    · rw [List.countP_append]
      omega
    · intro d hd hfatal
      exact hnone d hd ((fatal_append sur deadline events tail d (hother d hd)).mp hfatal)
  | aborted i reason =>
    obtain ⟨⟨d, hd, hindex, hfatal⟩, hfirst, hlast⟩ := h
    refine ⟨⟨d, List.mem_cons_of_mem _ hd, hindex,
      (fatal_append sur deadline events tail d (hother d hd)).mpr hfatal⟩,
      List.forall_mem_cons.mpr ⟨fun _ => hnot, ?_⟩, ?_⟩
    · intro earlier hearlier hlt hfatal'
      exact hfirst earlier hearlier hlt
        ((fatal_append sur deadline events tail earlier (hother earlier hearlier)).mp hfatal')
    · intro e he
      rcases List.mem_append.mp he with he | he
      · have := (passes_index hpasses).2 e he
        have := hhead d hd
        omega
      · exact hlast e he

theorem runFrom_accounted (sur : Surroundings) (deadline : ℕ) (decisions : List HookDecision) :
    Increasing decisions → ∀ started failed spawned,
      Accounted sur deadline decisions (runFrom sur deadline decisions started failed spawned).2
        (started + decisions.length) failed spawned
        (runFrom sur deadline decisions started failed spawned).1 := by
  induction decisions with
  | nil =>
    intro _ started failed spawned
    simp [runFrom, Accounted]
  | cons decision decisions ih =>
    intro hinc started failed spawned
    have hhead := (List.pairwise_cons.mp hinc).1
    have hmeets := runFrom_cons sur deadline decision decisions started failed spawned
    generalize runFrom sur deadline (decision :: decisions) started failed spawned = r at hmeets ⊢
    -- behind the deadline, every later entry is due as well
    have hlate (hdue : ∀ d ∈ decisions, deadline ≤ sur.check d.index)
        (events : List HookEvent) (hevents : ∀ e ∈ events, e.index = decision.index) :
        ∀ d ∈ decisions, lost sur deadline events d = true ∧ ∀ e ∈ events, e.index ≤ d.index := by
      intro d hd
      have := hhead d hd
      refine ⟨lost_of_expired ?_ (hdue d hd), ?_⟩
      · intro e he
        have := hevents e he
        omega
      · intro e he
        have := hevents e he
        omega
    induction hmeets with
    | expired hdue =>
      apply finish_accounted
      · omega
      · rfl
      · exact hinc
      · refine List.forall_mem_cons.mpr ⟨⟨lost_of_expired (by simp) hdue, by simp⟩, ?_⟩
        refine hlate ?_ [] (by simp)
        intro d hd
        exact Nat.le_trans hdue (check_le_check_of_lt sur (hhead d hd))
    | passes events f s rest hcheck hpasses hrest =>
      subst hrest
      refine passes_accounted hinc hpasses (later_index sur deadline decision decisions hinc _ _ _)
        _ _ _ _ ?_
      have hlength : started + (decision :: decisions).length =
          started + 1 + decisions.length := by
        rw [List.length_cons]
        omega
      rw [hlength]
      exact ih (List.pairwise_cons.mp hinc).2 (started + 1) (failed + f) (spawned + s)
    | cutOff reason hcheck hfails hfinish =>
      have hindex := run_index sur deadline decision (.error reason)
      apply finish_accounted
      · rw [List.length_cons]
        omega
      · simp [startEvent, finishEvent, HookEvent.isSpawn]
      · exact hinc
      · refine List.forall_mem_cons.mpr
          ⟨⟨lost_of_failure sur deadline decision reason,
            fun e he => Nat.le_of_eq (hindex e he)⟩, ?_⟩
        refine hlate ?_ _ hindex
        intro d hd
        exact Nat.le_trans hfinish (finish_le_check_of_lt sur (hhead d hd))
    | aborts reason hcheck hfails habort =>
      refine ⟨⟨decision, by simp, rfl, ?_, lost_of_failure sur deadline decision reason⟩, ?_, ?_⟩
      · rw [HookDecision.aborting, hfails.2.1, habort]
        rfl
      · intro earlier hearlier hlt
        rcases List.mem_cons.mp hearlier with heq | hmem
        · subst heq
          omega
        · have := hhead earlier hmem
          omega
      · intro e he
        exact Nat.le_of_eq (run_index sur deadline decision (.error reason) e he)

/-! ## The events -/

/-- The events of a run, entry by entry. -/
theorem events_induct (sur : Surroundings) (deadline : ℕ)
    (P : List HookDecision → List HookEvent → Prop)
    (expired : ∀ decisions : List HookDecision,
      (∀ d ∈ decisions, deadline ≤ sur.check d.index) → P decisions [])
    (passes : ∀ decision decisions events f s tail,
      (∀ d ∈ decisions, decision.index < d.index) → (∀ e ∈ tail, decision.index < e.index) →
      sur.check decision.index < deadline → Passes sur deadline decision events f s →
      P decisions tail → P (decision :: decisions) (events ++ tail))
    (fails : ∀ decision decisions reason,
      (∀ d ∈ decisions, decision.index < d.index) →
      sur.check decision.index < deadline → FailsWith sur deadline decision reason →
      deadline ≤ sur.finish decision.index ∨ decision.abortOnFailure = true →
      P (decision :: decisions)
        [startEvent sur deadline decision true, finishEvent sur decision (.error reason)])
    (decisions : List HookDecision) (hinc : Increasing decisions) :
    ∀ started failed spawned,
      P decisions (runFrom sur deadline decisions started failed spawned).2 := by
  induction decisions with
  | nil =>
    intro started failed spawned
    exact expired [] (by simp)
  | cons decision decisions ih =>
    intro started failed spawned
    have ⟨hhead, htail⟩ := List.pairwise_cons.mp hinc
    have hmeets := runFrom_cons sur deadline decision decisions started failed spawned
    generalize runFrom sur deadline (decision :: decisions) started failed spawned = r at hmeets ⊢
    induction hmeets with
    | expired hdue =>
      refine expired _ (List.forall_mem_cons.mpr ⟨hdue, ?_⟩)
      intro d hd
      exact Nat.le_trans hdue (check_le_check_of_lt sur (hhead d hd))
    | passes events f s rest hcheck hpasses hrest =>
      subst hrest
      exact passes decision decisions events f s _ hhead
        (later_index sur deadline decision decisions hinc _ _ _) hcheck hpasses (ih htail _ _ _)
    | cutOff reason hcheck hfails hfinish =>
      exact fails decision decisions reason hhead hcheck hfails (.inl hfinish)
    | aborts reason hcheck hfails habort =>
      exact fails decision decisions reason hhead hcheck hfails (.inr habort)

section
variable (sur : Surroundings) (deadline : ℕ) (decisions : List HookDecision)
  (hinc : Increasing decisions) (started failed spawned : ℕ)
include hinc

theorem runFrom_inOrder :
    ((runFrom sur deadline decisions started failed spawned).2.filter HookEvent.isStart).Pairwise
      fun a b => a.index < b.index := by
  refine events_induct sur deadline
    (fun _ events => (events.filter HookEvent.isStart).Pairwise fun a b => a.index < b.index)
    ?_ ?_ ?_ decisions hinc started failed spawned
  · intro _ _
    exact List.Pairwise.nil
  · intro decision decisions events f s tail _ hlater _ hpasses ih
    rw [List.filter_append, List.pairwise_append]
    refine ⟨?_, ih, ?_⟩
    · induction hpasses <;> simp [startEvent, finishEvent, List.filter_cons, HookEvent.isStart]
    · intro a ha b hb
      rw [(passes_index hpasses).2 a (List.mem_filter.mp ha).1]
      exact hlater b (List.mem_filter.mp hb).1
  · intro decision decisions reason _ _ _ _
    simp [startEvent, finishEvent, List.filter_cons, HookEvent.isStart]

theorem runFrom_oneAtATime (k index now given : ℕ)
    (h : (runFrom sur deadline decisions started failed spawned).2[k]? =
      some (.started index now given true)) :
    ∃ finish result, (runFrom sur deadline decisions started failed spawned).2[k + 1]? =
      some (.finished index finish result) := by
  revert k
  refine events_induct sur deadline
    (fun _ events => ∀ k, events[k]? = some (.started index now given true) →
      ∃ finish result, events[k + 1]? = some (.finished index finish result))
    ?_ ?_ ?_ decisions hinc started failed spawned
  · intro _ _ k h
    simp at h
  · intro decision decisions events f s tail _ _ _ hpasses ih k h
    by_cases hk : k < events.length
    · rw [List.getElem?_append_left hk] at h
      induction hpasses with
      | skipped =>
        obtain rfl : k = 0 := by simpa using hk
        cases h
      | spawned =>
        obtain rfl : k = 0 := by simpa using hk
        cases h
      | succeeded =>
        match k, h with
        | 0, h =>
          cases h
          exact ⟨_, _, rfl⟩
        | 1, h => cases h
      | failed reason =>
        match k, h with
        | 0, h =>
          cases h
          exact ⟨_, _, rfl⟩
        | 1, h => cases h
    · rw [List.getElem?_append_right (by omega)] at h
      rw [List.getElem?_append_right (by omega)]
      have hsub : k + 1 - events.length = k - events.length + 1 := by omega
      rw [hsub]
      exact ih _ h
  · intro decision decisions reason _ _ _ _ k h
    match k, h with
    | 0, h =>
      cases h
      exact ⟨_, _, rfl⟩
    | 1, h => cases h

theorem runFrom_started (index now given : ℕ) (blocking : Bool)
    (h : .started index now given blocking ∈
      (runFrom sur deadline decisions started failed spawned).2) :
    ∃ decision ∈ decisions, decision.index = index ∧ decision.blocking = blocking ∧
      now = sur.start index ∧ given = min decision.timeout (deadline - now) := by
  revert h
  refine events_induct sur deadline
    (fun decisions events => .started index now given blocking ∈ events →
      ∃ decision ∈ decisions, decision.index = index ∧ decision.blocking = blocking ∧
        now = sur.start index ∧ given = min decision.timeout (deadline - now))
    ?_ ?_ ?_ decisions hinc started failed spawned
  · intro _ _ h
    simp at h
  · intro decision decisions events f s tail _ _ _ hpasses ih h
    rcases List.mem_append.mp h with h | h
    · refine ⟨decision, by simp, ?_⟩
      induction hpasses with
      | skipped => simp at h
      | spawned _ hblocking =>
        obtain ⟨rfl, rfl, rfl, rfl⟩ : _ ∧ _ ∧ _ ∧ _ := by simpa [startEvent] using h
        exact ⟨rfl, hblocking, rfl, rfl⟩
      | succeeded _ hblocking =>
        obtain ⟨rfl, rfl, rfl, rfl⟩ : _ ∧ _ ∧ _ ∧ _ := by
          simpa [startEvent, finishEvent] using h
        exact ⟨rfl, hblocking, rfl, rfl⟩
      | failed reason hfails =>
        obtain ⟨rfl, rfl, rfl, rfl⟩ : _ ∧ _ ∧ _ ∧ _ := by
          simpa [startEvent, finishEvent] using h
        exact ⟨rfl, hfails.2.1, rfl, rfl⟩
    · obtain ⟨other, hother, hfits⟩ := ih h
      exact ⟨other, List.mem_cons_of_mem _ hother, hfits⟩
  · intro decision decisions reason _ _ hfails _ h
    obtain ⟨rfl, rfl, rfl, rfl⟩ : _ ∧ _ ∧ _ ∧ _ := by simpa [startEvent, finishEvent] using h
    exact ⟨decision, by simp, rfl, hfails.2.1, rfl, rfl⟩

/-- What decides that an entry is run. -/
def Reached (sur : Surroundings) (deadline : ℕ) (decisions : List HookDecision)
    (decision : HookDecision) : Prop :=
  sur.check decision.index < deadline ∧ skipAwakeAction sur decision = false ∧
    ∀ earlier ∈ decisions, earlier.index < decision.index → ¬ stopsSlot sur deadline earlier

omit hinc in
theorem passes_started {decision : HookDecision} {events : List HookEvent} {f s : ℕ}
    (h : Passes sur deadline decision events f s) :
    ((∃ now given blocking, .started decision.index now given blocking ∈ events) ↔
      skipAwakeAction sur decision = false) ∧ ¬ stopsSlot sur deadline decision := by
  induction h with
  | skipped hskip => simp [hskip, stopsSlot]
  | spawned hskip hblocking =>
    simp [hskip, startEvent, stopsSlot, HookDecision.aborting, hblocking]
  | succeeded hskip _ houtcome => simp [hskip, startEvent, finishEvent, stopsSlot, houtcome]
  | failed reason hfails habort =>
    simp [hfails.1, startEvent, finishEvent, stopsSlot, HookDecision.aborting, habort]

theorem runFrom_started_iff : ∀ decision ∈ decisions,
    (∃ now given blocking, .started decision.index now given blocking ∈
        (runFrom sur deadline decisions started failed spawned).2) ↔
      Reached sur deadline decisions decision := by
  refine events_induct sur deadline
    (fun decisions events => ∀ d ∈ decisions,
      (∃ now given blocking, .started d.index now given blocking ∈ events) ↔
        Reached sur deadline decisions d)
    ?_ ?_ ?_ decisions hinc started failed spawned
  · intro decisions hdue d hd
    have := hdue d hd
    simp [Reached]
    omega
  · intro decision decisions events f s tail hhead hlater hcheck hpasses ih
    have ⟨hstarted, hgoesOn⟩ := passes_started sur deadline hpasses
    refine List.forall_mem_cons.mpr ⟨?_, ?_⟩
    · have hfirst : ∀ earlier ∈ decision :: decisions, earlier.index < decision.index →
          ¬ stopsSlot sur deadline earlier := by
        refine List.forall_mem_cons.mpr ⟨fun h => by omega, ?_⟩
        intro d hd hlt
        have := hhead d hd
        omega
      have hnot (now given : ℕ) (blocking : Bool) :
          HookEvent.started decision.index now given blocking ∉ tail :=
        fun h => Nat.lt_irrefl _ (hlater _ h)
      simp only [List.mem_append, hnot, or_false, hstarted]
      exact ⟨fun h => ⟨hcheck, h, hfirst⟩, fun h => h.2.1⟩
    · intro d hd
      have hnot (now given : ℕ) (blocking : Bool) :
          HookEvent.started d.index now given blocking ∉ events := by
        intro h
        have : d.index = decision.index := (passes_index hpasses).2 _ h
        have := hhead d hd
        omega
      simp only [List.mem_append, hnot, false_or, ih d hd, Reached, List.forall_mem_cons,
        hgoesOn, not_false_eq_true, implies_true, true_and]
  · intro decision decisions reason hhead hcheck hfails hends
    refine List.forall_mem_cons.mpr ⟨?_, ?_⟩
    · refine iff_of_true ⟨_, _, _, List.mem_cons_self⟩ ⟨hcheck, hfails.1, ?_⟩
      refine List.forall_mem_cons.mpr ⟨fun h => by omega, ?_⟩
      intro d hd hlt
      have := hhead d hd
      omega
    · intro d hd
      have hlt := hhead d hd
      refine iff_of_false ?_ ?_
      · intro ⟨now, given, blocking, h⟩
        have : d.index = decision.index :=
          run_index sur deadline decision (.error reason) _ h
        omega
      · intro ⟨hdue, _, hgoesOn⟩
        -- either the runner came back too late for the next test, or its failure is fatal
        rcases hends with hfinish | habort
        · have := finish_le_check_of_lt sur hlt
          omega
        · refine hgoesOn decision (by simp) hlt ⟨?_, hfails.1, reason, hfails.2.2⟩
          rw [HookDecision.aborting, hfails.2.1, habort]
          rfl

end

/-! ## The slot -/

theorem decideSlot_increasing (slot : HookSlot) : Increasing (decideSlot slot) := by
  rw [Increasing, List.pairwise_iff_getElem]
  intro i j hi hj hij
  simpa [decideSlot] using hij

/-- The first fatal entry is the one that the slot is aborted at. -/
theorem aborted_iff (sur : Surroundings) (deadline : ℕ) (decisions : List HookDecision)
    (events : List HookEvent) (limit failed spawned : ℕ) (outcome : HookOutcome)
    (h : Accounted sur deadline decisions events limit failed spawned outcome) (i : ℕ) :
    (∃ reason, outcome = .aborted i reason) ↔
      ∃ decision ∈ decisions, decision.index = i ∧ Fatal sur deadline events decision ∧
        ∀ earlier ∈ decisions, earlier.index < i → ¬ Fatal sur deadline events earlier := by
  cases outcome with
  | completed started' failed' spawned' =>
    refine iff_of_false (by simp) ?_
    intro ⟨d, hd, _, hfatal, _⟩
    exact h.2.2.2 d hd hfatal
  | aborted j reason =>
    obtain ⟨⟨d, hd, hindex, hfatal⟩, hfirst, _⟩ := h
    constructor
    · intro ⟨reason', heq⟩
      cases heq
      exact ⟨d, hd, hindex, hfatal, hfirst⟩
    · intro ⟨d', hd', hindex', hfatal', hfirst'⟩
      have hle : ¬ d.index < i := fun hlt => hfirst' d hd hlt hfatal
      have hge : ¬ d'.index < j := fun hlt => hfirst d' hd' hlt hfatal'
      obtain rfl : i = j := by omega
      exact ⟨reason, rfl⟩

theorem runSlot_orderly (sur : Surroundings) (slot : HookSlot) :
    Orderly sur slot.deadline (decideSlot slot) (runSlot sur slot).1 (runSlot sur slot).2 := by
  have hinc := decideSlot_increasing slot
  have haccounted := runFrom_accounted sur slot.deadline (decideSlot slot) hinc 0 0 0
  refine ⟨runFrom_inOrder sur slot.deadline _ hinc 0 0 0,
    runFrom_oneAtATime sur slot.deadline _ hinc 0 0 0, ?_, ?_, ?_, ?_⟩
  · intro index now given blocking h
    obtain ⟨d, hd, hindex, hblocking, _, hgiven⟩ :=
      runFrom_started sur slot.deadline _ hinc 0 0 0 index now given blocking h
    exact ⟨d, hd, hindex, hblocking, Nat.le_of_eq hgiven⟩
  · exact aborted_iff sur slot.deadline _ _ _ _ _ _ haccounted
  · intro i reason houtcome
    rw [runSlot] at houtcome
    rw [houtcome] at haccounted
    exact haccounted.2.2
  · intro started failed spawned houtcome
    unfold runSlot at houtcome ⊢
    rw [houtcome] at haccounted
    obtain ⟨hlimit, hfailed, hspawned, _⟩ := haccounted
    exact ⟨by simpa using hfailed, by simpa using hspawned, by simpa using hlimit⟩

theorem runSlot_timely_iff (sur : Surroundings) (slot : HookSlot) :
    Timely slot.deadline (runSlot sur slot).2 ↔
      ProbedInTime sur slot.deadline (decideSlot slot) := by
  have hinc := decideSlot_increasing slot
  have hstarted := runFrom_started sur slot.deadline _ hinc 0 0 0
  have hiff := runFrom_started_iff sur slot.deadline _ hinc 0 0 0
  constructor
  · intro htimely d hd hcheck hskip hgoesOn
    obtain ⟨now, given, blocking, h⟩ := (hiff d hd).mpr ⟨hcheck, hskip, hgoesOn⟩
    have hnow := htimely _ _ _ _ h
    obtain ⟨_, _, _, _, heq, _⟩ := hstarted _ _ _ _ h
    rwa [← heq]
  · intro hprobed index now given blocking h
    obtain ⟨d, hd, rfl, _, rfl, _⟩ := hstarted _ _ _ _ h
    obtain ⟨hcheck, hskip, hgoesOn⟩ := (hiff d hd).mp ⟨_, _, _, h⟩
    exact hprobed d hd hcheck hskip hgoesOn

/-- A slot keeps its order, its counts and its aborts in any case, and its deadline exactly when no
probe runs past it. -/
theorem slot_kept_iff (sur : Surroundings) (slot : HookSlot) :
    (Orderly sur slot.deadline (decideSlot slot) (runSlot sur slot).1 (runSlot sur slot).2 ∧
        Timely slot.deadline (runSlot sur slot).2) ↔
      ProbedInTime sur slot.deadline (decideSlot slot) := by
  constructor
  · intro h
    exact (runSlot_timely_iff sur slot).mp h.2
  · intro h
    exact ⟨runSlot_orderly sur slot, (runSlot_timely_iff sur slot).mpr h⟩

/-- A probe that takes seven units and fails. -/
def slowProbe : Surroundings where
  check i := 5 + 8 * i
  start i := 12 + 8 * i
  finish i := 13 + 8 * i
  onlineSleepStates _ := .error "display sleep-state probe unsupported on this platform"
  runCommand _ _ _ := .ok ()
  publishMqtt _ _ _ _ := .ok ()
  check_le_start := by
    intro i
    omega
  start_le_finish := by
    intro i
    omega
  finish_le_check := by
    intro i
    omega

def wakeAction : HookAction where
  command := some ["/usr/bin/caffeinate", "-u"]
  mqtt := none
  timeout := 5000
  blocking := none
  abortOnFailure := false
  skipIfDisplayAwake := true

def wakeSlot : HookSlot where
  phase := .before
  actions := [wakeAction]
  deadline := 10

theorem late_probe_starts_late :
    ¬ ∀ (sur : Surroundings) (slot : HookSlot),
      Orderly sur slot.deadline (decideSlot slot) (runSlot sur slot).1 (runSlot sur slot).2 ∧
        Timely slot.deadline (runSlot sur slot).2 := by
  intro h
  have hlate : HookEvent.started 0 12 0 true ∈ (runSlot slowProbe wakeSlot).2 :=
    List.mem_cons_self
  have := (h slowProbe wakeSlot).2 0 12 0 true hlate
  exact absurd this (by decide)

end Hooks
end Dormant
