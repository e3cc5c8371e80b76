import Mathlib.Data.List.Chain
import Dormant.Input.AudioPolicy

/-!
# What the audio inhibitor follows

The transitions of a run, against the streams that were seen.
-/

namespace Dormant
set_option autoImplicit false

namespace Audio

def ProbeOutcome.active (kind : InhibitorKind) : ProbeOutcome → Bool
  | .classified playback call =>
    match kind with
    | .audioPlayback => playback
    | .call => call
    | .userActivity => false
  | _ => false

/-- The outcome without the streams of the other kinds. -/
def ProbeOutcome.only (kind : InhibitorKind) : ProbeOutcome → ProbeOutcome
  | .classified playback call =>
    .classified (playback && decide (kind = .audioPlayback)) (call && decide (kind = .call))
  | outcome => outcome

def Probe.only (kind : InhibitorKind) (probe : Probe) : Probe :=
  { probe with outcome := probe.outcome.only kind }

/-- Whether a transition is about the kind or about the breaker. -/
def AudioTransition.concerns (kind : InhibitorKind) : AudioTransition → Bool
  | .assert other => decide (other = kind)
  | .deassert other => decide (other = kind)
  | _ => true

/-- A classification that no cap keeps out. -/
structure Accepted (cooldown : ℕ) (before : List Probe) (probe : Probe) : Prop where
  classified : ∃ playback call, probe.outcome = .classified playback call
  cooled : ∀ cap ∈ before, cap.outcome = .reapCapReached → cap.now + cooldown ≤ probe.now

/-- From its first classification on, a kind's streams go on: no inactive classification, no two
failures in a row and no cap. -/
structure ActivityRun (cooldown : ℕ) (kind : InhibitorKind) (probes before : List Probe)
    (first : Probe) (rest : List Probe) : Prop where
  split : probes = before ++ first :: rest
  accepted : Accepted cooldown before first
  active : first.outcome.active kind = true
  goesOn : ∀ probe ∈ rest, probe.outcome.active kind = true ∨ probe.outcome = .failure
  single : rest.IsChain fun probe next => ¬ (probe.outcome = .failure ∧ next.outcome = .failure)

/-- Why a kind may be on: its run began in the first accepted classification, or has lasted. -/
def Justified (minActive cooldown : ℕ) (kind : InhibitorKind) (before : List Probe) (first : Probe)
    (rest : List Probe) : Prop :=
  (∀ earlier probe between, before = earlier ++ probe :: between →
      ¬ Accepted cooldown earlier probe) ∨
    ∃ latest ∈ first :: rest, latest.outcome.active kind = true ∧
      first.now + minActive ≤ latest.now

namespace AudioPolicy

/-! ## The cooldown -/

/-- What the breaker knows of the caps. -/
structure Cools (cooldown : ℕ) (policy : AudioPolicy) (probes : List Probe) : Prop where
  breakerCooldown : policy.breakerCooldown = cooldown
  whileOpen : policy.breakerOpen = true → ∃ last ∈ probes, last.outcome = .reapCapReached ∧
    policy.cooldownUntil = some (last.now + cooldown) ∧
    ∀ cap ∈ probes, cap.outcome = .reapCapReached → cap.now ≤ last.now
  whileClosed : policy.breakerOpen = false → ∀ cap ∈ probes, cap.outcome = .reapCapReached →
    ∃ later ∈ probes, cap.now + cooldown ≤ later.now

namespace Cools
variable {cooldown : ℕ} {policy : AudioPolicy} {probes : List Probe} {probe : Probe}
  (h : Cools cooldown policy probes) (hsorted : ∀ earlier ∈ probes, earlier.now ≤ probe.now)
include h hsorted

/-- Just what comes in a cooldown is ignored. -/
theorem ignores_iff (hprobe : probe.outcome ≠ .reapCapReached) :
    policy.ignores probe = false ↔
      ∀ cap ∈ probes, cap.outcome = .reapCapReached → cap.now + cooldown ≤ probe.now := by
  unfold ignores cooldownRemaining
  cases hopen : policy.breakerOpen with
  | true =>
    obtain ⟨last, hlast, hcap, hdeadline, hmax⟩ := h.whileOpen hopen
    rw [hdeadline, decide_eq_true hprobe, Option.map_some, Option.any_some, Bool.true_and,
      Bool.true_and, decide_eq_false_iff_not, not_not, Nat.sub_eq_zero_iff_le]
    constructor
    · intro hcooled cap hmem hother
      have hle := hmax cap hmem hother
      omega
    · intro hall
      exact hall last hlast hcap
  | false =>
    rw [Bool.false_and, Bool.false_and, eq_self, true_iff]
    intro cap hmem hcap
    obtain ⟨later, hlater, hle⟩ := h.whileClosed hopen cap hmem hcap
    exact hle.trans (hsorted later hlater)

theorem step : Cools cooldown (policy.step probe).1 (probes ++ [probe]) := by
  cases hignores : policy.ignores probe with
  | true =>
    have hopen := ignores_open hignores
    have hprobe : probe.outcome ≠ .reapCapReached := by
      unfold ignores at hignores
      rw [Bool.and_eq_true, Bool.and_eq_true] at hignores
      exact of_decide_eq_true hignores.1.2
    rw [step_ignored hignores]
    obtain ⟨last, hlast, hcap, hdeadline, hmax⟩ := h.whileOpen hopen
    refine ⟨h.breakerCooldown, fun _ => ⟨last, List.mem_append_left _ hlast, hcap, hdeadline,
      fun cap hmem hother => ?_⟩, fun hclosed => ?_⟩
    · rcases List.mem_append.mp hmem with hmem | hmem
      · exact hmax cap hmem hother
      · rw [List.mem_singleton.mp hmem] at hother
        exact absurd hother hprobe
    · rw [hopen] at hclosed
      cases hclosed
  | false =>
    have hbreaker := step_breakerOpen hignores
    have hcooldown := (policy.step_settings probe).2.trans h.breakerCooldown
    by_cases hprobe : probe.outcome = .reapCapReached
    · refine ⟨hcooldown, fun _ => ⟨probe, List.mem_append_right _ List.mem_cons_self, hprobe, ?_,
        fun cap hmem _ => ?_⟩, fun hclosed => ?_⟩
      · rw [step_folded hignores, closed_of_cap hprobe, ← h.breakerCooldown]
        unfold fold
        rw [hprobe]
      · rcases List.mem_append.mp hmem with hmem | hmem
        · exact hsorted cap hmem
        · rw [List.mem_singleton.mp hmem]
      · rw [hbreaker, decide_eq_true hprobe] at hclosed
        cases hclosed
    · refine ⟨hcooldown, fun hopen => ?_, fun _ cap hmem hcap => ?_⟩
      · rw [hbreaker, decide_eq_false hprobe] at hopen
        cases hopen
      · refine ⟨probe, List.mem_append_right _ List.mem_cons_self, ?_⟩
        rcases List.mem_append.mp hmem with hmem | hmem
        · exact (h.ignores_iff hsorted hprobe).mp hignores cap hmem hcap
        · rw [List.mem_singleton.mp hmem] at hcap
          exact absurd hcap hprobe

end Cools

/-! ## Activity -/

theorem closed_kept (policy : AudioPolicy) (probe : Probe) :
    (policy.closed probe).startupGrace = policy.startupGrace ∧
      (policy.closed probe).minActive = policy.minActive ∧
      (policy.closed probe).consecutiveFailures = policy.consecutiveFailures := by
  unfold closed
  split <;> exact ⟨rfl, rfl, rfl⟩

theorem debounce_classified (policy : AudioPolicy) {probe : Probe} (kind : InhibitorKind)
    (h : ∃ playback call, probe.outcome = .classified playback call) :
    ((policy.fold probe).1.debounce kind =
        (updateKind probe.now (probe.outcome.active kind) (policy.debounce kind) kind
          policy.startupGrace policy.minActive).1 ∧
      (policy.fold probe).1.startupGrace = false) := by
  obtain ⟨playback, call, hprobe⟩ := h
  unfold fold
  rw [hprobe]
  cases kind <;> exact ⟨rfl, rfl⟩

/-- A failure is counted, and the second takes the kinds back. -/
theorem debounce_failure (policy : AudioPolicy) {probe : Probe} (kind : InhibitorKind)
    (h : probe.outcome = .failure) :
    ((policy.fold probe).1.debounce kind = {} ∨
        policy.consecutiveFailures = 0 ∧ (policy.fold probe).1.consecutiveFailures = 1 ∧
          (policy.fold probe).1.debounce kind = policy.debounce kind) ∧
      (policy.fold probe).1.startupGrace = policy.startupGrace := by
  unfold fold
  rw [h]
  dsimp only
  split
  · refine ⟨.inl ?_, rfl⟩
    cases kind <;> rfl
  · rename_i hfew
    have hsize : UInt32.size - 1 = 4294967295 := rfl
    have hzero : policy.consecutiveFailures = 0 := by
      unfold failureThreshold at hfew
      rw [hsize] at hfew
      omega
    refine ⟨.inr ⟨hzero, ?_, ?_⟩, rfl⟩
    · dsimp only
      rw [hzero]
      rfl
    · cases kind <;> rfl

theorem debounce_cap (policy : AudioPolicy) {probe : Probe} (kind : InhibitorKind)
    (h : probe.outcome = .reapCapReached) :
    (policy.fold probe).1.debounce kind = {} ∧
      (policy.fold probe).1.startupGrace = policy.startupGrace := by
  unfold fold
  rw [h]
  cases kind <;> exact ⟨rfl, rfl⟩

end AudioPolicy

namespace ActivityRun
variable {cooldown : ℕ} {kind : InhibitorKind} {probes before rest : List Probe}
  {first probe : Probe}

/-- A run starts. -/
theorem start (haccepted : Accepted cooldown probes probe)
    (hactive : probe.outcome.active kind = true) :
    ActivityRun cooldown kind (probes ++ [probe]) probes probe [] where
  split := rfl
  accepted := haccepted
  active := hactive
  goesOn := fun _ hmem => absurd hmem List.not_mem_nil
  single := .nil

/-- And goes on. -/
theorem extend (h : ActivityRun cooldown kind probes before first rest)
    (hprobe : probe.outcome.active kind = true ∨ probe.outcome = .failure)
    (hsingle : ∀ last ∈ rest.getLast?, last.outcome = .failure → probe.outcome ≠ .failure) :
    ActivityRun cooldown kind (probes ++ [probe]) before first (rest ++ [probe]) where
  split := by rw [h.split, List.append_assoc, List.cons_append]
  accepted := h.accepted
  active := h.active
  goesOn := fun p hp => by
    rcases List.mem_append.mp hp with hp | hp
    · exact h.goesOn p hp
    · rw [List.mem_singleton.mp hp]
      exact hprobe
  single := by
    refine List.isChain_append.mpr ⟨h.single, .singleton _, fun last hlast next hnext hboth => ?_⟩
    obtain rfl : probe = next := Option.some.inj hnext
    exact hsingle last hlast hboth.1 hboth.2

end ActivityRun

theorem Justified.extend {minActive cooldown : ℕ} {kind : InhibitorKind}
    {before rest : List Probe} {first : Probe}
    (h : Justified minActive cooldown kind before first rest) (probe : Probe) :
    Justified minActive cooldown kind before first (rest ++ [probe]) := by
  refine h.imp_right fun hlasted => ?_
  obtain ⟨latest, hmem, hactive, hlong⟩ := hlasted
  exact ⟨latest, List.mem_append_left [probe] hmem, hactive, hlong⟩

/-- Each debounce is a run that has a reason where the kind is shown. -/
structure Sound (minActive cooldown : ℕ) (kind : InhibitorKind) (policy : AudioPolicy)
    (probes : List Probe) : Prop where
  setting : policy.minActive = minActive
  grace : policy.startupGrace = true → ∀ earlier probe between,
    probes = earlier ++ probe :: between → ¬ Accepted cooldown earlier probe
  running : ∀ since, (policy.debounce kind).activeSince = some since →
    policy.breakerOpen = false ∧ ∃ before first rest,
      ActivityRun cooldown kind probes before first rest ∧ first.now = since ∧
        (∀ last ∈ rest.getLast?, last.outcome = .failure → 0 < policy.consecutiveFailures) ∧
        ((policy.debounce kind).effective = true →
          Justified minActive cooldown kind before first rest)
  shown : (policy.debounce kind).effective = true →
    ∃ since, (policy.debounce kind).activeSince = some since

namespace Sound
variable {minActive cooldown : ℕ} {kind : InhibitorKind} {policy : AudioPolicy}
  {probes : List Probe} {probe : Probe}

theorem not_accepted_concat (hgrace : ∀ earlier probe between,
      probes = earlier ++ probe :: between → ¬ Accepted cooldown earlier probe)
    (hprobe : ¬ Accepted cooldown probes probe) (earlier : List Probe) (other : Probe)
    (between : List Probe) (h : probes ++ [probe] = earlier ++ other :: between) :
    ¬ Accepted cooldown earlier other := by
  rcases List.eq_nil_or_concat between with rfl | ⟨between, last, rfl⟩
  · obtain ⟨rfl, hother⟩ := List.append_inj' h rfl
    rw [← (List.cons.inj hother).1]
    exact hprobe
  · rw [List.concat_eq_append, ← List.cons_append, ← List.append_assoc] at h
    exact hgrace earlier other between (List.append_inj' h rfl).1

/-- A step that leaves the kind off is sound. -/
theorem off {policy : AudioPolicy} (hsetting : policy.minActive = minActive)
    (hgrace : policy.startupGrace = true → ∀ earlier probe between,
      probes = earlier ++ probe :: between → ¬ Accepted cooldown earlier probe)
    (hoff : policy.debounce kind = {}) : Sound minActive cooldown kind policy probes where
  setting := hsetting
  grace := hgrace
  running := fun since h => by rw [hoff] at h; cases h
  shown := fun h => by rw [hoff] at h; cases h

/-- A classification starts a run, goes on with one or ends it. -/
theorem step_classified (h : Sound minActive cooldown kind policy probes)
    (hsorted : ∀ earlier ∈ probes, earlier.now ≤ probe.now)
    (hignores : policy.ignores probe = false) (haccepted : Accepted cooldown probes probe) :
    Sound minActive cooldown kind (policy.step probe).1 (probes ++ [probe]) := by
  obtain ⟨playback, call, hprobe⟩ := haccepted.classified
  obtain ⟨hgrace, hmin, -⟩ := policy.closed_kept probe
  have hsetting := (policy.step_settings probe).1.trans h.setting
  have hbreaker := AudioPolicy.step_breakerOpen hignores
  rw [hprobe, decide_eq_false ProbeOutcome.noConfusion] at hbreaker
  obtain ⟨hdebounce, hover⟩ :=
    AudioPolicy.debounce_classified (policy.closed probe) kind ⟨playback, call, hprobe⟩
  rw [← AudioPolicy.step_folded hignores] at hdebounce hover
  rw [AudioPolicy.closed_debounce, hgrace, hmin, h.setting] at hdebounce
  have hgrace' : (policy.step probe).1.startupGrace = true → ∀ earlier other between,
      probes ++ [probe] = earlier ++ other :: between → ¬ Accepted cooldown earlier other := by
    intro hstill
    rw [hover] at hstill
    cases hstill
  cases hactive : probe.outcome.active kind with
  | false =>
    rw [hactive] at hdebounce
    exact off hsetting hgrace' hdebounce
  | true =>
    rw [hactive] at hdebounce
    unfold updateKind at hdebounce
    rw [if_pos rfl] at hdebounce
    dsimp only at hdebounce
    refine ⟨hsetting, hgrace', fun since hsince => ⟨hbreaker, ?_⟩, fun _ => ?_⟩
    swap
    · rw [hdebounce]
      exact ⟨_, rfl⟩
    rw [hdebounce] at hsince ⊢
    have hnotFailure : probe.outcome ≠ .failure := by
      rw [hprobe]
      exact ProbeOutcome.noConfusion
    cases hbegun : (policy.debounce kind).activeSince with
    | none =>
      rw [hbegun] at hsince
      refine ⟨probes, probe, [], .start haccepted hactive, Option.some.inj hsince,
        fun _ hlast => absurd hlast (Option.not_mem_none _), fun heffective => ?_⟩
      dsimp only at heffective
      rw [Bool.or_eq_true, Bool.or_eq_true, decide_eq_true_eq] at heffective
      rcases heffective with (hshown | hstill) | hlong
      · obtain ⟨since, hsome⟩ := h.shown hshown
        rw [hbegun] at hsome
        cases hsome
      · exact .inl (h.grace hstill)
      · rw [Option.getD_none, Nat.sub_self, Nat.le_zero] at hlong
        refine .inr ⟨probe, List.mem_cons_self, hactive, ?_⟩
        omega
    | some begun =>
      obtain ⟨-, before, first, rest, hrun, hfirst, -, hjustified⟩ := h.running begun hbegun
      rw [hbegun] at hsince
      refine ⟨before, first, rest ++ [probe], hrun.extend (.inl hactive) fun _ _ _ => hnotFailure,
        hfirst.trans (Option.some.inj hsince), fun last hlast hfailure => ?_, fun heffective => ?_⟩
      · rw [List.getLast?_append, List.getLast?_singleton] at hlast
        obtain rfl : probe = last := Option.some.inj hlast
        exact absurd hfailure hnotFailure
      · dsimp only at heffective
        rw [Bool.or_eq_true, Bool.or_eq_true, decide_eq_true_eq] at heffective
        rcases heffective with (hshown | hstill) | hlong
        · exact (hjustified hshown).extend probe
        · exact absurd hrun.accepted (h.grace hstill before first rest hrun.split)
        · rw [Option.getD_some] at hlong
          have hle := hsorted first (by
            rw [hrun.split]
            exact List.mem_append_right _ List.mem_cons_self)
          refine .inr ⟨probe, List.mem_cons_of_mem _ (List.mem_append_right _ List.mem_cons_self),
            hactive, ?_⟩
          omega

/-- A first failure leaves the runs as they are. -/
theorem step_failure (h : Sound minActive cooldown kind policy probes)
    (hignores : policy.ignores probe = false) (hprobe : probe.outcome = .failure) :
    Sound minActive cooldown kind (policy.step probe).1 (probes ++ [probe]) := by
  obtain ⟨hgrace, -, hfailures⟩ := policy.closed_kept probe
  have hsetting := (policy.step_settings probe).1.trans h.setting
  have hbreaker := AudioPolicy.step_breakerOpen hignores
  rw [hprobe, decide_eq_false ProbeOutcome.noConfusion] at hbreaker
  obtain ⟨hdebounce, hover⟩ :=
    AudioPolicy.debounce_failure (policy.closed probe) kind hprobe
  rw [← AudioPolicy.step_folded hignores] at hdebounce hover
  have hout : ¬ Accepted cooldown probes probe := by
    intro haccepted
    obtain ⟨playback, call, hclassified⟩ := haccepted.classified
    rw [hprobe] at hclassified
    cases hclassified
  have hgrace' : (policy.step probe).1.startupGrace = true → ∀ earlier other between,
      probes ++ [probe] = earlier ++ other :: between → ¬ Accepted cooldown earlier other := by
    intro hstill
    rw [hover, hgrace] at hstill
    exact not_accepted_concat (h.grace hstill) hout
  rcases hdebounce with hoff | ⟨hzero, hone, hsame⟩
  · exact off hsetting hgrace' hoff
  rw [hfailures] at hzero
  rw [AudioPolicy.closed_debounce] at hsame
  refine ⟨hsetting, hgrace', fun since hsince => ⟨hbreaker, ?_⟩, fun hshown => ?_⟩
  · rw [hsame] at hsince ⊢
    obtain ⟨-, before, first, rest, hrun, hfirst, hlast, hjustified⟩ := h.running since hsince
    refine ⟨before, first, rest ++ [probe], hrun.extend (.inr hprobe) fun last hmem hfailure => ?_,
      hfirst, fun _ _ _ => ?_, fun hshown => (hjustified hshown).extend probe⟩
    · have hpos := hlast last hmem hfailure
      omega
    · rw [hone]
      exact Nat.one_pos
  · rw [hsame] at hshown ⊢
    exact h.shown hshown

theorem step_cap (h : Sound minActive cooldown kind policy probes)
    (hignores : policy.ignores probe = false) (hprobe : probe.outcome = .reapCapReached) :
    Sound minActive cooldown kind (policy.step probe).1 (probes ++ [probe]) := by
  have hsetting := (policy.step_settings probe).1.trans h.setting
  obtain ⟨hdebounce, hover⟩ := AudioPolicy.debounce_cap (policy.closed probe) kind hprobe
  rw [← AudioPolicy.step_folded hignores] at hdebounce hover
  refine off hsetting (fun hstill => ?_) hdebounce
  rw [hover, (policy.closed_kept probe).1] at hstill
  refine not_accepted_concat (h.grace hstill) fun haccepted => ?_
  obtain ⟨playback, call, hclassified⟩ := haccepted.classified
  rw [hprobe] at hclassified
  cases hclassified

theorem step_ignored (h : Sound minActive cooldown kind policy probes)
    (hignores : policy.ignores probe = true) (hout : ¬ Accepted cooldown probes probe) :
    Sound minActive cooldown kind (policy.step probe).1 (probes ++ [probe]) := by
  have hopen := AudioPolicy.ignores_open hignores
  rw [AudioPolicy.step_ignored hignores]
  exact {
    setting := h.setting
    grace := fun hstill => not_accepted_concat (h.grace hstill) hout
    running := fun since hsince => by
      have hclosed := (h.running since hsince).1
      rw [hopen] at hclosed
      cases hclosed
    shown := h.shown }

theorem step (h : Sound minActive cooldown kind policy probes)
    (hcools : AudioPolicy.Cools cooldown policy probes)
    (hsorted : ∀ earlier ∈ probes, earlier.now ≤ probe.now) :
    Sound minActive cooldown kind (policy.step probe).1 (probes ++ [probe]) := by
  cases hignores : policy.ignores probe with
  | true =>
    refine h.step_ignored hignores fun haccepted => ?_
    obtain ⟨playback, call, hprobe⟩ := haccepted.classified
    have hcap : probe.outcome ≠ .reapCapReached := by
      rw [hprobe]
      exact ProbeOutcome.noConfusion
    rw [(hcools.ignores_iff hsorted hcap).mpr haccepted.cooled] at hignores
    cases hignores
  | false =>
    cases hprobe : probe.outcome with
    | classified playback call =>
      have hcap : probe.outcome ≠ .reapCapReached := by
        rw [hprobe]
        exact ProbeOutcome.noConfusion
      exact h.step_classified hsorted hignores
        ⟨⟨playback, call, hprobe⟩, (hcools.ignores_iff hsorted hcap).mp hignores⟩
    | failure => exact h.step_failure hignores hprobe
    | reapCapReached => exact h.step_cap hignores hprobe

end Sound

/-! ## One kind at a time -/

namespace AudioPolicy

/-- The policy without the other kinds. -/
def only (kind : InhibitorKind) (policy : AudioPolicy) : AudioPolicy :=
  { policy with
    playback := if kind = .audioPlayback then policy.playback else {}
    call := if kind = .call then policy.call else {} }

variable (kind : InhibitorKind) (policy : AudioPolicy) (probe : Probe)

theorem only_cap : decide ((probe.only kind).outcome ≠ .reapCapReached) =
    decide (probe.outcome ≠ .reapCapReached) := by
  unfold Probe.only ProbeOutcome.only
  cases probe.outcome <;> rfl

theorem only_ignores : (policy.only kind).ignores (probe.only kind) = policy.ignores probe := by
  unfold ignores
  rw [only_cap]
  rfl

theorem only_closes : (policy.only kind).closes (probe.only kind) = policy.closes probe := by
  unfold closes
  rw [only_cap]
  rfl

theorem only_closed :
    (policy.only kind).closed (probe.only kind) = (policy.closed probe).only kind := by
  unfold closed
  rw [only_closes]
  split <;> rfl

theorem updateKind_only (other : InhibitorKind) (now : ℕ) (active : Bool) (debounce : KindDebounce)
    (startupGrace : Bool) (minActive : ℕ) :
    updateKind now (active && decide (kind = other)) (if kind = other then debounce else {}) other
        startupGrace minActive =
      if kind = other then updateKind now active debounce other startupGrace minActive
      else ({}, .deassert other) := by
  by_cases h : kind = other
  · rw [if_pos h, if_pos h, decide_eq_true h, Bool.and_true]
  · rw [if_neg h, if_neg h, decide_eq_false h, Bool.and_false]
    rfl

theorem only_fold :
    ((policy.only kind).fold (probe.only kind)).1 = (policy.fold probe).1.only kind ∧
      ((policy.only kind).fold (probe.only kind)).2.filter (·.concerns kind) =
        (policy.fold probe).2.filter (·.concerns kind) ∧
      ((policy.only kind).fold (probe.only kind)).2.isEmpty = (policy.fold probe).2.isEmpty := by
  obtain ⟨now, outcome⟩ := probe
  cases outcome with
  | classified playback call =>
    have hplayed := updateKind_only kind .audioPlayback now playback policy.playback
      policy.startupGrace policy.minActive
    have hcalled := updateKind_only kind .call now call policy.call policy.startupGrace
      policy.minActive
    have hplayback := updateKind_transition now playback policy.playback .audioPlayback
      policy.startupGrace policy.minActive
    have hcall := updateKind_transition now call policy.call .call policy.startupGrace
      policy.minActive
    unfold fold Probe.only ProbeOutcome.only only
    dsimp only
    rw [hplayed, hcalled]
    generalize updateKind now playback policy.playback _ _ _ = played at hplayback ⊢
    generalize updateKind now call policy.call _ _ _ = called at hcall ⊢
    refine ⟨by cases kind <;> rfl, ?_, rfl⟩
    obtain ⟨debounce, transition⟩ := played
    obtain ⟨debounce', transition'⟩ := called
    dsimp only at hplayback hcall
    rw [hplayback, hcall]
    cases debounce.effective <;> cases debounce'.effective <;> cases kind <;> rfl
  | failure =>
    have hfailures : (policy.only kind).consecutiveFailures = policy.consecutiveFailures := rfl
    unfold fold Probe.only ProbeOutcome.only
    dsimp only
    rw [hfailures]
    split
    · cases kind <;> exact ⟨rfl, rfl, rfl⟩
    · exact ⟨rfl, rfl, rfl⟩
  | reapCapReached => cases kind <;> exact ⟨rfl, rfl, rfl⟩

theorem filter_noChange {log log' : List AudioTransition}
    (h : log.filter (·.concerns kind) = log'.filter (·.concerns kind))
    (hempty : log.isEmpty = log'.isEmpty) :
    (if log.isEmpty then [.noChange] else log).filter (·.concerns kind) =
      (if log'.isEmpty then [.noChange] else log').filter (·.concerns kind) := by
  rw [hempty]
  split
  · rfl
  · exact h

theorem only_step :
    ((policy.only kind).step (probe.only kind)).1 = (policy.step probe).1.only kind ∧
      ((policy.only kind).step (probe.only kind)).2.filter (·.concerns kind) =
        (policy.step probe).2.filter (·.concerns kind) := by
  cases hignores : policy.ignores probe with
  | true =>
    rw [step_ignored hignores, step_ignored ((only_ignores kind policy probe).trans hignores)]
    exact ⟨rfl, rfl⟩
  | false =>
    have hignores' := (only_ignores kind policy probe).trans hignores
    obtain ⟨hfold, hpublished, hempty⟩ := only_fold kind (policy.closed probe) probe
    rw [step_folded hignores, step_folded hignores', step_published hignores,
      step_published hignores', only_closed, only_closes]
    refine ⟨hfold, ?_⟩
    cases policy.closes probe with
    | true => exact congrArg (.closeBreaker :: ·) hpublished
    | false => exact filter_noChange kind hpublished hempty

theorem only_outputs (probes : List Probe) :
    (poller.outputs (policy.only kind) (probes.map (·.only kind))).filter (·.concerns kind) =
      (poller.outputs policy probes).filter (·.concerns kind) := by
  induction probes generalizing policy with
  | nil => rfl
  | cons probe probes ih =>
    obtain ⟨hpolicy, hpublished⟩ := only_step kind policy probe
    rw [List.map_cons]
    unfold Runs.System.outputs
    rw [List.filter_append, List.filter_append]
    unfold poller at ih ⊢
    rw [hpublished, hpolicy, ih]

end AudioPolicy

/-! ## The poller's log -/

theorem run_sound (minActive cooldown : ℕ) (kind : InhibitorKind) {probes : List Probe}
    (hsorted : probes.Pairwise (·.now ≤ ·.now)) :
    let policy := poller.run (AudioPolicy.new minActive cooldown) probes
    policy.Cools cooldown probes ∧ Sound minActive cooldown kind policy probes := by
  induction probes using List.reverseRecOn with
  | nil =>
    refine ⟨⟨rfl, fun h => absurd h Bool.false_ne_true,
      fun _ cap hmem => absurd hmem List.not_mem_nil⟩,
      .off rfl (fun _ earlier probe between h => ?_) ?_⟩
    · exact absurd h.symm (List.append_ne_nil_of_right_ne_nil _ (List.cons_ne_nil _ _))
    · cases kind <;> rfl
  | append_singleton probes probe ih =>
    rw [List.pairwise_append] at hsorted
    have hbefore (earlier : Probe) (hmem : earlier ∈ probes) : earlier.now ≤ probe.now :=
      hsorted.2.2 earlier hmem probe List.mem_cons_self
    obtain ⟨hcools, hsound⟩ := ih hsorted.1
    dsimp only
    rw [AudioPolicy.run_concat]
    exact ⟨hcools.step hbefore, hsound.step hcools hbefore⟩

/-- The breaker's transitions alternate and nothing is asserted between; a kind is on for a run of
its streams that began in the first classification or has lasted; and the other kind's streams make
no difference. -/
theorem audio_follows_streams (minActive cooldown : ℕ) (probes : List Probe)
    (hsorted : probes.Pairwise (·.now ≤ ·.now)) :
    let start := AudioPolicy.new minActive cooldown
    let log := poller.outputs start probes
    (∀ before after, log = before ++ .closeBreaker :: after → .openBreaker ∈ before) ∧
      (∀ before between after,
        log = before ++ .closeBreaker :: (between ++ .closeBreaker :: after) →
          .openBreaker ∈ between) ∧
      (∀ before between after,
        log = before ++ .openBreaker :: (between ++ .openBreaker :: after) →
          .closeBreaker ∈ between) ∧
      (∀ before between after kind,
        log = before ++ .openBreaker :: (between ++ .assert kind :: after) →
          .closeBreaker ∈ between) ∧
      (∀ before probe after, probes = before ++ probe :: after →
        .closeBreaker ∈ ((poller.run start before).step probe).2 →
          ∀ cap ∈ before, cap.outcome = .reapCapReached → cap.now + cooldown ≤ probe.now) ∧
      (∀ kind, log.foldl (publish kind) false = true → ∃ before first rest,
        ActivityRun cooldown kind probes before first rest ∧
          Justified minActive cooldown kind before first rest) ∧
      ∀ kind, (poller.outputs start (probes.map (·.only kind))).filter (·.concerns kind) =
        log.filter (·.concerns kind) := by
  intro start log
  have hgate : log.foldlM gate false = some (poller.run start probes).breakerOpen :=
    start.outputs_gate probes
  refine ⟨fun before after hlog => ?_, fun before between after hlog => ?_,
    fun before between after hlog => ?_, fun before between after kind hlog => ?_,
    fun before probe after hsplit hcloses => ?_, fun kind hon => ?_, fun kind => ?_⟩
  · rw [hlog] at hgate
    exact opened_before hgate
  · rw [hlog] at hgate
    exact opened_between hgate
  · rw [hlog] at hgate
    exact closed_between hgate rfl
  · rw [hlog] at hgate
    exact closed_between hgate rfl
  · rw [hsplit, List.pairwise_append] at hsorted
    have hbefore (earlier : Probe) (hmem : earlier ∈ before) : earlier.now ≤ probe.now :=
      hsorted.2.2 earlier hmem probe List.mem_cons_self
    have hcools := (run_sound minActive cooldown .call hsorted.1).1
    obtain ⟨hignores, hcap⟩ := AudioPolicy.closes_of_mem hcloses
    exact (hcools.ignores_iff hbefore hcap).mp hignores
  · have hshown := start.outputs_publish probes kind
    have hoff : (start.debounce kind).effective = false := by cases kind <;> rfl
    obtain ⟨-, hsound⟩ := run_sound minActive cooldown kind hsorted
    rw [hoff, hon] at hshown
    obtain ⟨since, hsince⟩ := hsound.shown hshown.symm
    obtain ⟨-, before, first, rest, hrun, -, -, hjustified⟩ := hsound.running since hsince
    exact ⟨before, first, rest, hrun, hjustified hshown.symm⟩
  · have honly : start.only kind = start := by cases kind <;> rfl
    have houtputs := AudioPolicy.only_outputs kind start probes
    rw [honly] at houtputs
    exact houtputs

/-- An inactive probe, then an activity that has not lasted. -/
theorem audio_follows_streams_quiet :
    let probes : List Probe := [⟨0, .classified false false⟩, ⟨5, .classified true false⟩]
    let start := AudioPolicy.new 10 60
    probes.Pairwise (·.now ≤ ·.now) ∧
      (poller.outputs start (probes.map (·.only .call))).filter (·.concerns .call) =
        (poller.outputs start probes).filter (·.concerns .call) := by
  intro probes start
  have hsorted : probes.Pairwise (·.now ≤ ·.now) := by decide
  exact ⟨hsorted, (audio_follows_streams 10 60 probes hsorted).2.2.2.2.2.2 .call⟩

end Audio
end Dormant
