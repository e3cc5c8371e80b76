import Mathlib.Data.List.Induction
import Dormant.Foundations.Runs
import Dormant.Rules.Types

/-!
# The audio inhibitor

`audio_policy.rs`: what the poller publishes of playback and calls. Times are in nanoseconds.
-/

namespace Dormant
set_option autoImplicit false

namespace Audio

def failureThreshold : ℕ := 2

inductive ProbeOutcome where
  | classified (playback call : Bool)
  | failure
  | reapCapReached
  deriving DecidableEq, Repr

inductive AudioTransition where
  | assert (kind : InhibitorKind)
  | deassert (kind : InhibitorKind)
  | openBreaker
  | closeBreaker
  | noChange
  deriving DecidableEq, Repr

structure KindDebounce where
  activeSince : Option ℕ := none
  effective : Bool := false
  deriving DecidableEq, Repr

structure AudioPolicy where
  minActive : ℕ
  breakerCooldown : ℕ
  playback : KindDebounce
  call : KindDebounce
  consecutiveFailures : ℕ
  startupGrace : Bool
  breakerOpen : Bool
  cooldownUntil : Option ℕ
  deriving DecidableEq, Repr

/-- An outcome and when it came. -/
structure Probe where
  now : ℕ
  outcome : ProbeOutcome
  deriving DecidableEq, Repr

def updateKind (now : ℕ) (active : Bool) (debounce : KindDebounce) (kind : InhibitorKind)
    (startupGrace : Bool) (minActive : ℕ) : KindDebounce × AudioTransition :=
  if active then
    let since := debounce.activeSince.getD now
    let effective := debounce.effective || startupGrace || decide (minActive ≤ now - since)
    ({ activeSince := some since, effective := effective },
      if effective then .assert kind else .deassert kind)
  else ({}, .deassert kind)

def deassertAll : List AudioTransition := [.deassert .audioPlayback, .deassert .call]

namespace AudioPolicy

def new (minActive breakerCooldown : ℕ) : AudioPolicy where
  minActive := minActive
  breakerCooldown := breakerCooldown
  playback := {}
  call := {}
  consecutiveFailures := 0
  startupGrace := true
  breakerOpen := false
  cooldownUntil := none

def cooldownRemaining (policy : AudioPolicy) (now : ℕ) : Option ℕ :=
  policy.cooldownUntil.map (· - now)

def resetDebounce (policy : AudioPolicy) : AudioPolicy := { policy with playback := {}, call := {} }

/-- The first branch of the step: nothing is folded in while the breaker cools down. -/
def ignores (policy : AudioPolicy) (probe : Probe) : Bool :=
  policy.breakerOpen && decide (probe.outcome ≠ .reapCapReached) &&
    (policy.cooldownRemaining probe.now).any (· ≠ 0)

/-- The match of the step. -/
def fold (policy : AudioPolicy) (probe : Probe) : AudioPolicy × List AudioTransition :=
  match probe.outcome with
  | .classified playback call =>
    let played := updateKind probe.now playback policy.playback .audioPlayback policy.startupGrace
      policy.minActive
    let called := updateKind probe.now call policy.call .call policy.startupGrace policy.minActive
    ({ policy with
        consecutiveFailures := 0
        playback := played.1
        call := called.1
        startupGrace := false }, [played.2, called.2])
  | .failure =>
    -- `saturating_add` on 32 bits
    let failed := { policy with
      consecutiveFailures := min (policy.consecutiveFailures + 1) (UInt32.size - 1) }
    if failureThreshold ≤ failed.consecutiveFailures then (failed.resetDebounce, deassertAll)
    else (failed, [])
  | .reapCapReached =>
    ({ policy.resetDebounce with
        cooldownUntil := some (probe.now + policy.breakerCooldown)
        breakerOpen := true },
      deassertAll ++ if policy.breakerOpen then [] else [.openBreaker])

def closes (policy : AudioPolicy) (probe : Probe) : Bool :=
  policy.breakerOpen && decide (probe.outcome ≠ .reapCapReached)

def closed (policy : AudioPolicy) (probe : Probe) : AudioPolicy :=
  if policy.closes probe then { policy with breakerOpen := false, cooldownUntil := none }
  else policy

def step (policy : AudioPolicy) (probe : Probe) : AudioPolicy × List AudioTransition :=
  if policy.ignores probe then (policy, [.noChange])
  else
    let folded := (policy.closed probe).fold probe
    let transitions := (if policy.closes probe then [.closeBreaker] else []) ++ folded.2
    (folded.1, if transitions.isEmpty then [.noChange] else transitions)

end AudioPolicy

/-- The policy, fed with the outcomes of the poller. -/
def poller : Runs.System AudioPolicy Probe AudioTransition where
  next := AudioPolicy.step

/-! ## Purpose -/

/-- The state of a kind by its last assertion or deassertion. -/
def publish (kind : InhibitorKind) (shown : Bool) (transition : AudioTransition) : Bool :=
  if transition = .assert kind then true
  else if transition = .deassert kind then false
  else shown

/-! ## The breaker -/

/-- The breaker as its transitions move it, and nothing asserted while it is open. -/
def gate (isOpen : Bool) : AudioTransition → Option Bool
  | .openBreaker => if isOpen then none else some true
  | .closeBreaker => if isOpen then some false else none
  | .assert _ => if isOpen then none else some isOpen
  | _ => some isOpen

/-- The transition that turns the breaker. -/
def turn : Bool → AudioTransition
  | true => .closeBreaker
  | false => .openBreaker

theorem gate_same {isOpen now : Bool} {transition : AudioTransition}
    (h : gate isOpen transition = some now) (hother : turn isOpen ≠ transition) :
    now = isOpen := by
  cases transition with
  | assert kind =>
    cases isOpen with
    | true => cases h
    | false => exact (Option.some.inj h).symm
  | deassert kind => exact (Option.some.inj h).symm
  | openBreaker =>
    cases isOpen with
    | true => cases h
    | false => exact absurd rfl hother
  | closeBreaker =>
    cases isOpen with
    | true => exact absurd rfl hother
    | false => cases h
  | noChange => exact (Option.some.inj h).symm

/-- The breaker stays while nothing turns it. -/
theorem gate_stays {log : List AudioTransition} {isOpen final : Bool}
    (h : log.foldlM gate isOpen = some final) (hlog : turn isOpen ∉ log) : final = isOpen := by
  induction log with
  | nil => exact (Option.some.inj h).symm
  | cons transition log ih =>
    rw [List.mem_cons, not_or] at hlog
    rw [List.foldlM_cons] at h
    obtain ⟨now, hnow, hrest⟩ := Option.bind_eq_some_iff.mp h
    obtain rfl := gate_same hnow hlog.1
    exact ih hrest hlog.2

theorem gate_split {before after : List AudioTransition} {transition : AudioTransition}
    {isOpen final : Bool} (h : (before ++ transition :: after).foldlM gate isOpen = some final) :
    ∃ m n, before.foldlM gate isOpen = some m ∧ gate m transition = some n ∧
      after.foldlM gate n = some final := by
  rw [List.foldlM_append] at h
  obtain ⟨m, hm, h⟩ := Option.bind_eq_some_iff.mp h
  rw [List.foldlM_cons] at h
  obtain ⟨n, hn, h⟩ := Option.bind_eq_some_iff.mp h
  exact ⟨m, n, hm, hn, h⟩

/-- What an open breaker forbids comes after it is closed. -/
theorem closed_between {before between after : List AudioTransition} {forbidden : AudioTransition}
    {final : Bool}
    (h : (before ++ .openBreaker :: (between ++ forbidden :: after)).foldlM gate false = some final)
    (hforbidden : gate true forbidden = none) : .closeBreaker ∈ between := by
  by_contra hbetween
  obtain ⟨m, n, -, hopen, hrest⟩ := gate_split h
  have hn : n = true := by
    cases m with
    | true => cases hopen
    | false => exact (Option.some.inj hopen).symm
  rw [hn] at hrest
  obtain ⟨m', n', hm', hstep, -⟩ := gate_split hrest
  rw [gate_stays hm' hbetween, hforbidden] at hstep
  cases hstep

/-- It is closed only after it is opened. -/
theorem opened_before {before after : List AudioTransition} {final : Bool}
    (h : (before ++ .closeBreaker :: after).foldlM gate false = some final) :
    .openBreaker ∈ before := by
  by_contra hbefore
  obtain ⟨m, n, hm, hstep, -⟩ := gate_split h
  rw [gate_stays hm hbefore] at hstep
  cases hstep

theorem opened_between {before between after : List AudioTransition} {final : Bool}
    (h : (before ++ .closeBreaker :: (between ++ .closeBreaker :: after)).foldlM gate false =
      some final) : .openBreaker ∈ between := by
  obtain ⟨m, n, -, hclose, hrest⟩ := gate_split h
  have hn : n = false := by
    cases m with
    | true => exact (Option.some.inj hclose).symm
    | false => cases hclose
  rw [hn] at hrest
  exact opened_before hrest

/-! ## One step -/

/-- A kind is told as it is. -/
theorem updateKind_transition (now : ℕ) (active : Bool) (debounce : KindDebounce)
    (kind : InhibitorKind) (startupGrace : Bool) (minActive : ℕ) :
    (updateKind now active debounce kind startupGrace minActive).2 =
      if (updateKind now active debounce kind startupGrace minActive).1.effective then .assert kind
      else .deassert kind := by
  unfold updateKind
  cases active <;> rfl

theorem gate_transition (kind : InhibitorKind) (effective : Bool) :
    gate false (if effective then .assert kind else .deassert kind) = some false := by
  cases effective <;> rfl

theorem publish_transition (kind : InhibitorKind) (effective shown : Bool) :
    publish kind shown (if effective then .assert kind else .deassert kind) = effective := by
  unfold publish
  cases effective <;> simp

theorem publish_other {kind other : InhibitorKind} (h : other ≠ kind) (effective shown : Bool) :
    publish kind shown (if effective then .assert other else .deassert other) = shown := by
  unfold publish
  cases effective <;> simp [h]

namespace AudioPolicy

theorem ignores_open {policy : AudioPolicy} {probe : Probe} (h : policy.ignores probe = true) :
    policy.breakerOpen = true := by
  unfold ignores at h
  rw [Bool.and_eq_true, Bool.and_eq_true] at h
  exact h.1.1

theorem closes_eq_false {policy : AudioPolicy} {probe : Probe} (h : policy.closes probe = false) :
    policy.breakerOpen = true → probe.outcome = .reapCapReached := by
  intro hopen
  unfold closes at h
  rw [hopen, Bool.true_and] at h
  exact not_not.mp (of_decide_eq_false h)

theorem closed_breakerOpen (policy : AudioPolicy) (probe : Probe) :
    (policy.closed probe).breakerOpen = true → probe.outcome = .reapCapReached := by
  unfold closed
  cases hcloses : policy.closes probe with
  | true => exact fun h => absurd h Bool.false_ne_true
  | false => exact closes_eq_false hcloses

theorem closed_of_cap {policy : AudioPolicy} {probe : Probe}
    (h : probe.outcome = .reapCapReached) : policy.closed probe = policy := by
  unfold closed closes
  rw [h, decide_eq_false (not_not.mpr rfl), Bool.and_false, if_neg Bool.false_ne_true]

theorem step_ignored {policy : AudioPolicy} {probe : Probe} (h : policy.ignores probe = true) :
    policy.step probe = (policy, [.noChange]) := if_pos h

theorem step_folded {policy : AudioPolicy} {probe : Probe} (h : policy.ignores probe = false) :
    (policy.step probe).1 = ((policy.closed probe).fold probe).1 := by
  unfold step
  rw [h]
  rfl

theorem step_published {policy : AudioPolicy} {probe : Probe} (h : policy.ignores probe = false) :
    (policy.step probe).2 =
      let published := (if policy.closes probe then [.closeBreaker] else []) ++
        ((policy.closed probe).fold probe).2
      if published.isEmpty then [.noChange] else published := by
  unfold step
  rw [h]
  rfl

/-- A cap opens the breaker, and anything else that is folded in leaves it closed. -/
theorem step_breakerOpen {policy : AudioPolicy} {probe : Probe}
    (h : policy.ignores probe = false) :
    (policy.step probe).1.breakerOpen = decide (probe.outcome = .reapCapReached) := by
  have hclosed := policy.closed_breakerOpen probe
  rw [step_folded h]
  generalize policy.closed probe = policy' at hclosed
  obtain ⟨now, outcome⟩ := probe
  unfold fold
  cases outcome with
  | classified playback call => exact Bool.eq_false_iff.mpr fun hopen => by cases hclosed hopen
  | failure =>
    dsimp only
    split <;> exact Bool.eq_false_iff.mpr fun hopen => by cases hclosed hopen
  | reapCapReached => rfl

/-- The settings stay. -/
theorem step_settings (policy : AudioPolicy) (probe : Probe) :
    (policy.step probe).1.minActive = policy.minActive ∧
      (policy.step probe).1.breakerCooldown = policy.breakerCooldown := by
  cases hignores : policy.ignores probe with
  | true =>
    rw [step_ignored hignores]
    exact ⟨rfl, rfl⟩
  | false =>
    have hclosed : (policy.closed probe).minActive = policy.minActive ∧
        (policy.closed probe).breakerCooldown = policy.breakerCooldown := by
      unfold closed
      split <;> exact ⟨rfl, rfl⟩
    rw [step_folded hignores, ← hclosed.1, ← hclosed.2]
    unfold fold
    split
    · exact ⟨rfl, rfl⟩
    · dsimp only
      split <;> exact ⟨rfl, rfl⟩
    · exact ⟨rfl, rfl⟩

/-- Saying that nothing changes changes nothing. -/
theorem foldlM_noChange (log : List AudioTransition) (isOpen : Bool) :
    (if log.isEmpty then [.noChange] else log).foldlM gate isOpen = log.foldlM gate isOpen := by
  cases log <;> rfl

/-- A cap opens the breaker, and anything else that is folded in finds it closed. -/
theorem fold_gate (policy : AudioPolicy) (probe : Probe)
    (h : policy.breakerOpen = true → probe.outcome = .reapCapReached) :
    (policy.fold probe).2.foldlM gate policy.breakerOpen =
      some (policy.fold probe).1.breakerOpen := by
  obtain ⟨now, outcome⟩ := probe
  cases hopen : policy.breakerOpen with
  | true =>
    obtain rfl : outcome = .reapCapReached := h hopen
    unfold fold
    dsimp only
    rw [hopen]
    rfl
  | false =>
    unfold fold
    cases outcome with
    | classified playback call =>
      dsimp only
      rw [updateKind_transition, updateKind_transition, List.foldlM_cons, gate_transition,
        Option.bind_eq_bind, Option.bind_some, List.foldlM_cons, gate_transition, hopen]
      rfl
    | failure =>
      dsimp only
      split <;> exact congrArg some hopen.symm
    | reapCapReached =>
      dsimp only
      rw [hopen]
      rfl

theorem step_gate (policy : AudioPolicy) (probe : Probe) :
    (policy.step probe).2.foldlM gate policy.breakerOpen =
      some (policy.step probe).1.breakerOpen := by
  cases hignores : policy.ignores probe with
  | true =>
    rw [step_ignored hignores]
    rfl
  | false =>
    have hfold := fold_gate (policy.closed probe) probe (policy.closed_breakerOpen probe)
    rw [step_published hignores, step_folded hignores, foldlM_noChange, ← hfold]
    unfold closed
    cases hcloses : policy.closes probe with
    | true =>
      have hopen : policy.breakerOpen = true := by
        unfold closes at hcloses
        exact (Bool.and_eq_true _ _ ▸ hcloses).1
      rw [hopen]
      rfl
    | false => rfl

theorem closeBreaker_notMem_fold (policy : AudioPolicy) (probe : Probe) :
    .closeBreaker ∉ (policy.fold probe).2 := by
  obtain ⟨now, outcome⟩ := probe
  unfold fold
  cases outcome with
  | classified playback call =>
    dsimp only
    rw [updateKind_transition, updateKind_transition]
    generalize KindDebounce.effective _ = played
    generalize KindDebounce.effective _ = called
    cases played <;> cases called <;> decide
  | failure =>
    dsimp only
    split
    · have hnone : .closeBreaker ∉ deassertAll := by decide
      exact hnone
    · exact List.not_mem_nil
  | reapCapReached =>
    dsimp only
    cases policy.breakerOpen <;> decide

/-- The breaker is closed by what is folded in and is no cap. -/
theorem closes_of_mem {policy : AudioPolicy} {probe : Probe}
    (h : .closeBreaker ∈ (policy.step probe).2) :
    policy.ignores probe = false ∧ probe.outcome ≠ .reapCapReached := by
  cases hignores : policy.ignores probe with
  | true =>
    rw [step_ignored hignores] at h
    cases List.mem_singleton.mp h
  | false =>
    refine ⟨rfl, fun hcap => ?_⟩
    have hcloses : policy.closes probe = false := by
      unfold closes
      rw [hcap, decide_eq_false (not_not.mpr rfl), Bool.and_false]
    rw [step_published hignores, hcloses, if_neg Bool.false_ne_true, List.nil_append] at h
    dsimp only at h
    by_cases hempty : ((policy.closed probe).fold probe).2.isEmpty = true
    · rw [if_pos hempty] at h
      cases List.mem_singleton.mp h
    · rw [if_neg hempty] at h
      exact closeBreaker_notMem_fold _ probe h

/-! ## A run -/

theorem run_concat (policy : AudioPolicy) (probes : List Probe) (probe : Probe) :
    poller.run policy (probes ++ [probe]) = ((poller.run policy probes).step probe).1 :=
  Runs.System.run_append policy probes [probe]

theorem outputs_concat (policy : AudioPolicy) (probes : List Probe) (probe : Probe) :
    poller.outputs policy (probes ++ [probe]) =
      poller.outputs policy probes ++ ((poller.run policy probes).step probe).2 := by
  rw [Runs.System.outputs_append]
  exact congrArg (_ ++ ·) (List.append_nil _)

theorem outputs_gate (policy : AudioPolicy) (probes : List Probe) :
    (poller.outputs policy probes).foldlM gate policy.breakerOpen =
      some (poller.run policy probes).breakerOpen := by
  induction probes using List.reverseRecOn with
  | nil => rfl
  | append_singleton probes probe ih =>
    rw [outputs_concat, run_concat, List.foldlM_append, ih]
    exact step_gate _ probe

/-! ## What is shown of a kind -/

def debounce (policy : AudioPolicy) : InhibitorKind → KindDebounce
  | .audioPlayback => policy.playback
  | .call => policy.call
  | .userActivity => {}

theorem closed_debounce (policy : AudioPolicy) (probe : Probe) (kind : InhibitorKind) :
    (policy.closed probe).debounce kind = policy.debounce kind := by
  unfold closed
  split
  · cases kind <;> rfl
  · rfl

theorem foldl_noChange (kind : InhibitorKind) (shown : Bool) (log : List AudioTransition) :
    (if log.isEmpty then [.noChange] else log).foldl (publish kind) shown =
      log.foldl (publish kind) shown := by
  cases log <;> rfl

theorem fold_publish (policy : AudioPolicy) (probe : Probe) (kind : InhibitorKind) :
    (policy.fold probe).2.foldl (publish kind) (policy.debounce kind).effective =
      ((policy.fold probe).1.debounce kind).effective := by
  obtain ⟨now, outcome⟩ := probe
  unfold fold
  cases outcome with
  | classified playback call =>
    dsimp only
    rw [updateKind_transition, updateKind_transition, List.foldl_cons, List.foldl_cons,
      List.foldl_nil]
    cases kind with
    | userActivity => rw [publish_other (by decide), publish_other (by decide)]; rfl
    | audioPlayback => rw [publish_other (by decide), publish_transition]; rfl
    | call => rw [publish_transition]; rfl
  | failure =>
    dsimp only
    split
    · cases kind <;> rfl
    · cases kind <;> rfl
  | reapCapReached =>
    dsimp only
    cases policy.breakerOpen <;> cases kind <;> rfl

theorem step_publish (policy : AudioPolicy) (probe : Probe) (kind : InhibitorKind) :
    (policy.step probe).2.foldl (publish kind) (policy.debounce kind).effective =
      ((policy.step probe).1.debounce kind).effective := by
  cases hignores : policy.ignores probe with
  | true =>
    rw [step_ignored hignores]
    rfl
  | false =>
    rw [step_published hignores, step_folded hignores, foldl_noChange, ← fold_publish,
      closed_debounce]
    cases policy.closes probe <;> rfl

theorem outputs_publish (policy : AudioPolicy) (probes : List Probe) (kind : InhibitorKind) :
    (poller.outputs policy probes).foldl (publish kind) (policy.debounce kind).effective =
      ((poller.run policy probes).debounce kind).effective := by
  induction probes using List.reverseRecOn with
  | nil => rfl
  | append_singleton probes probe ih =>
    rw [outputs_concat, run_concat, List.foldl_append, ih]
    exact step_publish _ probe kind

end AudioPolicy
end Audio
end Dormant
