import Dormant.Coordination.Evidence
import Mathlib.Data.List.TakeWhile

/-!
# The flap limiter

A display whose ownership the reads change too often within a window is contested: not owned, until
a verified local write or until its input has been silent for a while. The record prunes its list
of transitions only when one is added, so the law is about a history of its own.
-/

namespace Dormant
set_option autoImplicit false

/-- What a bystander writes down of the events. -/
structure Churn where
  /-- When the last observation was. -/
  clock : ℕ
  /-- When reads changed the verdict since the last settle or local write. -/
  transitions : List ℕ
  /-- When the hold began, or the last read in it that differed from the one before. -/
  quietFrom : ℕ
  /-- What was read since the last settle or local write, the newest first. -/
  reads : List UInt8
  deriving DecidableEq

def Churn.none : Churn := { clock := 0, transitions := [], quietFrom := 0, reads := [] }

/-- When the hold has been quiet from, the read of `observed` included. -/
def Churn.quietAt (c : Churn) (observed : UInt8) (now : ℕ) : ℕ :=
  if c.reads.head? = some observed then c.quietFrom else now

/-- A read that took the record from `k` to `k'`. -/
def Churn.hear (c : Churn) (k k' : CoordRecord.Core) (observed : UInt8) (now : ℕ) : Churn :=
  if k.contested = true ∧ k'.contested = false then
    { clock := now, transitions := [], quietFrom := now, reads := [] }
  else
    { clock := now
      transitions := if k'.owned = k.owned then c.transitions else c.transitions ++ [now]
      quietFrom := if k.contested = true then c.quietAt observed now else now
      reads := observed :: c.reads }

def noteChurn (c : Churn) (r : CoordRecord) (event : CoordEvent)
    (result : CoordRecord × List InputObservationOutcome) : Churn :=
  match event with
  | .observation (some input) _ _ now => c.hear r.core result.1.core input.observed now
  | .observation .none _ _ now => { c with clock := now }
  | .failure => c
  | .ownedImmediate _ => { c with transitions := [], reads := [] }

def flapping : Runs.System (Churn × CoordRecord) CoordEvent InputObservationOutcome :=
  coordination.observed noteChurn

namespace CoordEvent

/-- A read is under the policy. -/
def limitedBy (policy : OwnershipFlapPolicy) : CoordEvent → Prop
  | .observation (some _) _ used _ => used = policy
  | _ => True

/-- Time does not go back. -/
def after (clock : ℕ) : CoordEvent → Prop
  | .observation _ _ _ now => clock ≤ now
  | _ => True

instance decidableAfter (clock : ℕ) : ∀ event : CoordEvent, Decidable (event.after clock)
  | .observation _ _ _ now => inferInstanceAs (Decidable (clock ≤ now))
  | .failure => isTrue trivial
  | .ownedImmediate _ => isTrue trivial

end CoordEvent

/-! ## The law -/

/-- How many transitions in one window make a display contested. -/
def OwnershipFlapPolicy.limit (policy : OwnershipFlapPolicy) : ℕ := max policy.threshold.toNat 2

/-- Uncontested, the window that ends at the latest transition has fewer than the limit. -/
def Paced (policy : OwnershipFlapPolicy) (x : Churn × CoordRecord) : Prop :=
  x.2.contested = false → ∀ latest ∈ x.1.transitions.getLast?,
    x.1.transitions.countP (fun t => latest - t ≤ policy.window) < policy.limit

/-- Contested, the display is not owned until a local write, or a read after a silence. -/
def Latched (policy : OwnershipFlapPolicy) (x : Churn × CoordRecord) (event : CoordEvent) : Prop :=
  x.2.contested = true → event.isLocalWrite = true ∨
    (flapping.next x event).1.2.owned = false ∧
      ((flapping.next x event).1.2.contested = false →
        ∃ input confirmations now, event = .observation (some input) confirmations policy now ∧
          x.1.quietAt input.observed now + policy.settle ≤ now)

/-- An observation gives the display back only on as many reads in a row of one local code as it
takes, all of them since the last settle or local write. -/
def Regained (x : Churn × CoordRecord) : CoordEvent → Prop
  | event@(.observation observation confirmations _ _) =>
    x.2.owned = false → (flapping.next x event).1.2.owned = true → ∃ input ∈ observation,
      input.aliases.classify input.observed = .localInput ∧
        (flapping.next x event).1.1.reads.take (max confirmations 1).toNat =
          List.replicate (max confirmations 1).toNat input.observed
  | _ => True

/-! ## The invariant -/

/-- The list of the record is what is left of the transitions, and the rest has expired. -/
structure Pruned (policy : OwnershipFlapPolicy) (c : Churn) (k : CoordRecord.Core)
    (old : List ℕ) : Prop where
  split : c.transitions = old ++ k.transitionTimes
  past : ∀ t ∈ c.transitions, t ≤ c.clock
  expired : ∀ t ∈ old, ∀ latest ∈ c.transitions.getLast?, policy.window < latest - t
  few : k.transitionTimes.length < policy.limit

/-- What is pending toward a gain is counted by the last reads. -/
def Counted (reads : List UInt8) (k : CoordRecord.Core) : Prop :=
  k.owned = false → ∀ pending ∈ k.pendingCode,
    reads.take k.pendingCount.toNat = List.replicate k.pendingCount.toNat pending

structure Limited (policy : OwnershipFlapPolicy) (c : Churn) (k : CoordRecord.Core) : Prop where
  safe : k.contested = true → k.owned = false
  quiet : c.quietFrom ≤ c.clock
  held : k.contested = true → k.pendingCode = none ∧ k.lastRawChange = some c.quietFrom ∧
    c.reads.head? = k.lastObservedCode
  pruned : k.contested = false → ∃ old, Pruned policy c k old
  counted : Counted c.reads k

theorem pruned_nil {policy : OwnershipFlapPolicy} {c : Churn} {k : CoordRecord.Core}
    (hc : c.transitions = []) (hk : k.transitionTimes = []) : Pruned policy c k [] where
  split := by rw [hc, hk]; rfl
  past t ht := by rw [hc] at ht; cases ht
  expired t ht := by cases ht
  few := by rw [hk]; exact lt_of_lt_of_le Nat.two_pos (Nat.le_max_right _ _)

theorem recent_few {k : CoordRecord.Core} {policy : OwnershipFlapPolicy} {now : ℕ}
    (h : ¬ k.flaps policy now) : (k.recent policy now).length < policy.limit := by
  have hthreshold : policy.threshold.toNat < UInt32.size := policy.threshold.toNat_lt
  unfold CoordRecord.Core.flaps at h
  unfold OwnershipFlapPolicy.limit
  have htwo : 2 < UInt32.size := by decide
  omega

theorem recent_split (k : CoordRecord.Core) (policy : OwnershipFlapPolicy) (now : ℕ) :
    ∃ gone, gone ++ k.recent policy now = k.transitionTimes ++ [now] ∧
      ∀ t ∈ gone, policy.window < now - t := by
  refine ⟨_, List.takeWhile_append_dropWhile, fun t ht => ?_⟩
  have hpast := List.mem_takeWhile_imp ht
  exact of_decide_eq_true hpast

/-- A transition is added, and what has expired by then is dropped. -/
theorem Pruned.add {policy : OwnershipFlapPolicy} {c c' : Churn} {k k' k'' : CoordRecord.Core}
    {old : List ℕ} {now : ℕ} (h : Pruned policy c k old) (hclock : c.clock ≤ now)
    (htimes : k'.transitionTimes = k.transitionTimes) (hf : ¬ k'.flaps policy now)
    (hc : c'.transitions = c.transitions ++ [now]) (hnow : c'.clock = now)
    (hk : k''.transitionTimes = k'.recent policy now) :
    ∃ old', Pruned policy c' k'' old' := by
  obtain ⟨gone, hall, hgone⟩ := recent_split k' policy now
  have hsplit : c'.transitions = (old ++ gone) ++ k''.transitionTimes := by
    rw [hc, h.split, List.append_assoc, List.append_assoc, ← htimes, hk]
    exact congrArg (old ++ ·) hall.symm
  refine ⟨old ++ gone, hsplit, fun t ht => ?_, fun t ht latest hlatest => ?_, ?_⟩
  · rw [hc] at ht
    rw [hnow]
    rcases List.mem_append.mp ht with ht | ht
    · exact (h.past t ht).trans hclock
    · exact (List.mem_singleton.mp ht).le
  · rw [hc, List.getLast?_concat] at hlatest
    obtain rfl := Option.some.inj hlatest
    rcases List.mem_append.mp ht with ht | ht
    · have hmem : c.transitions ≠ [] := by
        rw [h.split]
        exact List.append_ne_nil_of_left_ne_nil (List.ne_nil_of_mem ht) _
      have hlast := List.getLast?_eq_some_getLast hmem
      have hexpired := h.expired t ht _ hlast
      have hpast := h.past _ (List.getLast_mem hmem)
      omega
    · exact hgone t ht
  · rw [hk]
    exact recent_few hf

theorem Pruned.paced {policy : OwnershipFlapPolicy} {c : Churn} {k : CoordRecord.Core}
    {old : List ℕ} (h : Pruned policy c k old) : ∀ latest ∈ c.transitions.getLast?,
      c.transitions.countP (fun t => latest - t ≤ policy.window) < policy.limit := by
  intro latest hlatest
  have hold : old.countP (fun t => decide (latest - t ≤ policy.window)) = 0 := by
    refine List.countP_eq_zero.mpr fun t ht => ?_
    have hexpired := h.expired t ht latest hlatest
    simpa using Nat.lt_sub_iff_add_lt.mp hexpired
  calc c.transitions.countP (fun t => decide (latest - t ≤ policy.window))
    _ = k.transitionTimes.countP (fun t => decide (latest - t ≤ policy.window)) := by
      rw [h.split, List.countP_append, hold, Nat.zero_add]
    _ ≤ k.transitionTimes.length := List.countP_le_length
    _ < policy.limit := h.few

/-! ## One event -/

open CoordRecord

theorem CoordRecord.Debounced.times {k k' : Core} {code : UInt8} {confirmations : UInt32} {side : Bool}
    {committed : Option Bool} (h : Debounced k code confirmations side k' committed) :
    k'.transitionTimes = k.transitionTimes := by
  cases h <;> rfl

theorem times_check (k : Core) (code : UInt8) :
    (k.check code).transitionTimes = k.transitionTimes := by
  unfold Core.check
  split <;> rfl

theorem counted_debounced {k k' : Core} {code : UInt8} {confirmations : UInt32} {side : Bool}
    {committed : Option Bool} {reads : List UInt8} (hk : Counted reads k)
    (h : Debounced k code confirmations side k' committed) :
    Counted (code :: reads) k' ∧ (k.owned = false → k'.owned = true → side = true ∧
      (code :: reads).take (max confirmations 1).toNat =
        List.replicate (max confirmations 1).toNat code) := by
  have hnote (howned : k.owned = false) : (code :: reads).take (k.note code).pendingCount.toNat =
      List.replicate (k.note code).pendingCount.toNat code :=
    take_note fun hp => hk howned code hp
  cases h with
  | agrees hside =>
    refine ⟨fun _ pending hp => (by cases hp), fun hlost howned => ?_⟩
    rw [show k.clearPending.owned = k.owned from rfl, hlost] at howned
    cases howned
  | defers hside hlt =>
    refine ⟨fun hlost pending hp => ?_, fun hlost howned => ?_⟩
    · obtain rfl := Option.some.inj hp
      exact hnote hlost
    · rw [show (k.note code).owned = k.owned from rfl, hlost] at howned
      cases howned
  | commits hside hle =>
    refine ⟨fun _ pending hp => (by cases hp), fun hlost howned => ⟨howned, ?_⟩⟩
    exact take_replicate_le (hnote hlost) (UInt32.le_iff_toNat_le.mp hle)

theorem counted_nothing {reads : List UInt8} {k : Core} (h : k.pendingCode = none) :
    Counted reads k := by
  intro _ pending hp
  rw [h] at hp
  cases hp

theorem counted_check {k : Core} {code : UInt8} {reads : List UInt8} (h : Counted reads k) :
    Counted reads (k.check code) := by
  unfold Core.check
  split
  · exact h
  · exact counted_nothing rfl

/-- A read keeps the invariant, and meets the law. -/
structure Heard (policy : OwnershipFlapPolicy) (c : Churn) (k k' : Core)
    (input : InputObservation) (confirmations : UInt32) (now : ℕ) : Prop where
  limited : Limited policy (c.hear k k' input.observed now) k'
  latched : k.contested = true → k'.owned = false ∧ (k'.contested = false →
    c.quietAt input.observed now + policy.settle ≤ now)
  regained : k.owned = false → k'.owned = true →
    input.aliases.classify input.observed = .localInput ∧
      (c.hear k k' input.observed now).reads.take (max confirmations 1).toNat =
        List.replicate (max confirmations 1).toNat input.observed

theorem hear_counts (c : Churn) {k k' : Core} (observed : UInt8) (now : ℕ)
    (h : k.contested = true → k'.contested = true) : c.hear k k' observed now =
      { clock := now
        transitions := if k'.owned = k.owned then c.transitions else c.transitions ++ [now]
        quietFrom := if k.contested = true then c.quietAt observed now else now
        reads := observed :: c.reads } := by
  refine if_neg fun hsettled => ?_
  rw [h hsettled.1] at hsettled
  cases hsettled.2

/-- A read of an uncontested record that leaves it so. -/
theorem heard_uncontested {policy : OwnershipFlapPolicy} {c : Churn} {k k₁ k' : Core}
    {input : InputObservation} {confirmations : UInt32} {now : ℕ} {committed : Option Bool}
    (h : Limited policy c k) (hc : k.contested = false)
    (hd : Debounced (k.check input.observed) input.observed confirmations
      (decide (input.aliases.classify input.observed = .localInput)) k₁ committed)
    (howned : k'.owned = k₁.owned) (hcode : k'.pendingCode = k₁.pendingCode)
    (hcount : k'.pendingCount = k₁.pendingCount) (hc' : k'.contested = false)
    (hpruned : ∃ old, Pruned policy (c.hear k k' input.observed now) k' old) :
    Heard policy c k k' input confirmations now := by
  obtain ⟨hcounted, hgained⟩ := counted_debounced (counted_check h.counted) hd
  have hhear := hear_counts c input.observed now fun hcontested : k.contested = true =>
    absurd hcontested (by simp [hc]) (b := k'.contested = true)
  refine ⟨⟨fun hcontested => ?_, ?_, fun hcontested => ?_, fun _ => hpruned, ?_⟩, fun hcontested => ?_,
    fun hlost hgain => ?_⟩
  · rw [hc'] at hcontested
    cases hcontested
  · rw [hhear]
    dsimp only
    rw [if_neg (by simp [hc])]
  · rw [hc'] at hcontested
    cases hcontested
  · rw [hhear]
    intro hlost pending hp
    rw [howned] at hlost
    rw [hcode] at hp
    rw [hcount]
    exact hcounted hlost pending hp
  · rw [hc] at hcontested
    cases hcontested
  · rw [howned] at hgain
    obtain ⟨hside, htake⟩ := hgained (by rw [owned_check]; exact hlost) hgain
    rw [hhear]
    exact ⟨of_decide_eq_true hside, htake⟩

theorem Limited.changedAt {policy : OwnershipFlapPolicy} {c : Churn} {k : Core}
    (h : Limited policy c k) (hc : k.contested = true) (observed : UInt8) (now : ℕ) :
    k.changedAt observed now = some (c.quietAt observed now) := by
  obtain ⟨-, hlast, hhead⟩ := h.held hc
  unfold Core.changedAt Churn.quietAt
  rw [hhead, hlast]
  split <;> rfl

theorem Limited.quietAt_le {policy : OwnershipFlapPolicy} {c : Churn} {k : Core}
    (h : Limited policy c k) {now : ℕ} (hclock : c.clock ≤ now) (observed : UInt8) :
    c.quietAt observed now ≤ now := by
  unfold Churn.quietAt
  split
  · exact h.quiet.trans hclock
  · exact le_rfl

/-- A read of a contested record that leaves it so. -/
theorem heard_contested {policy : OwnershipFlapPolicy} {c : Churn} {k k' : Core}
    {input : InputObservation} {confirmations : UInt32} {now : ℕ} (h : Limited policy c k)
    (hclock : c.clock ≤ now) (hc : k.contested = true) (hc' : k'.contested = true)
    (howned : k'.owned = false) (hcode : k'.pendingCode = k.pendingCode)
    (hraw : k'.lastRawChange = k.changedAt input.observed now)
    (hlast : k'.lastObservedCode = some input.observed) :
    Heard policy c k k' input confirmations now := by
  have hhear := hear_counts c input.observed now fun _ : k.contested = true => hc'
  rw [if_pos hc] at hhear
  have hpending : k'.pendingCode = none := hcode.trans (h.held hc).1
  refine ⟨⟨fun _ => howned, ?_, fun _ => ⟨hpending, ?_, ?_⟩, fun hloud => ?_,
    counted_nothing hpending⟩, fun _ => ⟨howned, fun hloud => ?_⟩, fun _ hgain => ?_⟩
  · rw [hhear]
    exact h.quietAt_le hclock input.observed
  · rw [hhear, hraw, h.changedAt hc]
  · rw [hhear, hlast]
    rfl
  · rw [hc'] at hloud
    cases hloud
  · rw [hc'] at hloud
    cases hloud
  · rw [howned] at hgain
    cases hgain

theorem heard_recorded {policy : OwnershipFlapPolicy} {c : Churn} {k k' : Core}
    {input : InputObservation} {confirmations : UInt32} {now : ℕ} {report : Report}
    (h : Limited policy c k) (hclock : c.clock ≤ now)
    (hr : Recorded k confirmations policy now (some input) k' report) :
    Heard policy c k k' input confirmations now := by
  cases hr with
  | held hc hloud => exact heard_contested h hclock hc hc rfl rfl rfl rfl
  | fellSilent hc hsilent =>
    have hsilent := hsilent _ (h.changedAt hc input.observed now)
    have hhear : ∀ k' : Core, k'.contested = false → c.hear k k' input.observed now =
      { clock := now, transitions := [], quietFrom := now, reads := [] } :=
        fun k' hc' => if_pos ⟨hc, hc'⟩
    refine ⟨⟨fun _ => rfl, ?_, fun hc' => (by cases hc'), fun _ => ⟨[], pruned_nil ?_ rfl⟩,
      counted_nothing rfl⟩, fun _ => ⟨rfl, fun _ => ?_⟩, fun _ howned => by cases howned⟩
    · rw [hhear _ rfl]
    · rw [hhear _ rfl]
    · exact Nat.add_le_of_le_sub' (h.quietAt_le hclock input.observed) hsilent
  | @read _ k₁ hc hd =>
    have hc₁ : k₁.contested = false := by rw [hd.owned.1, contested_check, hc]
    refine heard_uncontested h hc hd rfl rfl rfl hc₁ ?_
    obtain ⟨old, hold⟩ := h.pruned hc
    have hsame : k₁.owned = k.owned := by
      by_contra hne
      rw [← owned_check k input.observed] at hne
      cases (hd.owned.2 _).mpr ⟨rfl, hne⟩
    have htimes : k₁.transitionTimes = k.transitionTimes := by rw [hd.times, times_check]
    rw [hear_counts c _ _ fun hc' => by simp [hc] at hc', if_pos hsame]
    refine ⟨old, ?_, fun t ht => (hold.past t ht).trans hclock, hold.expired, ?_⟩
    · rw [htimes]
      exact hold.split
    · rw [htimes]
      exact hold.few
  | @changed _ k₁ prior hc hd hf =>
    have hc₁ : k₁.contested = false := by rw [hd.owned.1, contested_check, hc]
    refine heard_uncontested h hc hd rfl rfl rfl hc₁ ?_
    obtain ⟨old, hold⟩ := h.pruned hc
    have hne : k₁.owned ≠ k.owned := by
      have hprior := (hd.owned.2 prior).mp rfl
      rw [owned_check] at hprior
      rw [hprior.1]
      exact hprior.2
    have htimes : k₁.transitionTimes = k.transitionTimes := by rw [hd.times, times_check]
    rw [hear_counts c _ _ fun hc' => by simp [hc] at hc', if_neg hne]
    exact hold.add hclock htimes hf rfl rfl rfl
  | @tripped _ k₁ prior hc hd hf =>
    have hentered (k' : Core) (hc' : k'.contested = true) :
        (c.hear k k' input.observed now).clock = now ∧
          (c.hear k k' input.observed now).quietFrom = now ∧
          (c.hear k k' input.observed now).reads = input.observed :: c.reads := by
      rw [hear_counts c _ _ fun _ => hc']
      simp [hc]
    refine ⟨⟨fun _ => rfl, ?_, fun _ => ⟨rfl, ?_, ?_⟩, fun hc' => (by cases hc'),
      counted_nothing rfl⟩, fun hc' => ?_, fun _ howned => by cases howned⟩
    · rw [(hentered _ rfl).1, (hentered _ rfl).2.1]
    · rw [(hentered _ rfl).2.1]
    · rw [(hentered _ rfl).2.2]
      rfl
    · rw [hc] at hc'
      cases hc'

/-- A mismatch can only take the display away. -/
theorem limited_mismatch {policy used : OwnershipFlapPolicy} {c : Churn} {k k' : Core}
    {confirmations : UInt32} {now : ℕ} {report : Report} (h : Limited policy c k)
    (hclock : c.clock ≤ now) (hr : Recorded k confirmations used now none k' report) :
    Limited policy { c with clock := now } k' ∧ (k.contested = true → k'.contested = true) ∧
      (k.owned = false → k'.owned = false) := by
  have hquiet : c.quietFrom ≤ now := h.quiet.trans hclock
  have hpruned {k' : Core} (hc : k.contested = false)
      (htimes : k'.transitionTimes = k.transitionTimes) :
      ∃ old, Pruned policy { c with clock := now } k' old := by
    obtain ⟨old, hold⟩ := h.pruned hc
    refine ⟨old, ?_, fun t ht => (hold.past t ht).trans hclock, hold.expired, ?_⟩
    · rw [htimes]
      exact hold.split
    · rw [htimes]
      exact hold.few
  cases hr with
  | ignored hc =>
    refine ⟨⟨h.safe, hquiet, h.held, fun hc' => ?_, h.counted⟩, fun hc => hc, fun howned => howned⟩
    rw [hc] at hc'
    cases hc'
  | mismatched hc hd =>
    have hc' : k'.contested = false := hd.owned.1.trans hc
    have hcounted : Counted c.reads k' ∧ (k.owned = false → k'.owned = false) := by
      cases hd with
      | agrees hside => exact ⟨counted_nothing rfl, fun howned => howned⟩
      | defers hside hlt =>
        have howned : k.owned = true := by simpa using hside.symm
        refine ⟨fun hlost => ?_, fun hlost => hlost⟩
        rw [show (k.note 0).owned = k.owned from rfl, howned] at hlost
        cases hlost
      | commits hside hle => exact ⟨counted_nothing rfl, fun _ => rfl⟩
    refine ⟨⟨fun hloud => ?_, hquiet, fun hloud => ?_, fun _ => hpruned hc hd.times, hcounted.1⟩,
      fun hloud => ?_, hcounted.2⟩
    · rw [hc'] at hloud
      cases hloud
    · rw [hc'] at hloud
      cases hloud
    · rw [hc] at hloud
      cases hloud

theorem limited_local {policy : OwnershipFlapPolicy} {c : Churn} {r : CoordRecord}
    (h : Limited policy c r.core) (verifiedCode : UInt8) :
    Limited policy { c with transitions := [], reads := [] }
      (r.markOwnedImmediate verifiedCode).core where
  safe hc := by cases hc
  quiet := h.quiet
  held hc := by cases hc
  pruned _ := ⟨[], pruned_nil rfl rfl⟩
  counted := counted_nothing rfl

/-! ## Over a run -/

theorem limited_step {policy : OwnershipFlapPolicy} {x : Churn × CoordRecord} {event : CoordEvent}
    (h : Limited policy x.1 x.2.core) (hpolicy : event.limitedBy policy)
    (htime : event.after x.1.clock) :
    Limited policy (flapping.next x event).1.1 (flapping.next x event).1.2.core ∧
      Latched policy x event ∧ Regained x event := by
  cases event with
  | observation observation confirmations used now =>
    have hr := recorded_recordObservationAt x.2 observation confirmations used now
    cases observation with
    | none =>
      obtain ⟨hlimited, hstill, hlost⟩ := limited_mismatch h htime hr
      refine ⟨hlimited, fun hc => .inr ⟨hlost (h.safe hc), fun hc' => ?_⟩, fun howned hgain => ?_⟩
      · cases (hstill hc).symm.trans hc'
      · cases (hlost howned).symm.trans hgain
    | some input =>
      obtain rfl : used = policy := hpolicy
      have hheard := heard_recorded h htime hr
      refine ⟨hheard.limited, fun hc => .inr ?_, fun howned hgain => ?_⟩
      · obtain ⟨howned, hsettled⟩ := hheard.latched hc
        exact ⟨howned, fun hc' => ⟨input, confirmations, now, rfl, hsettled hc'⟩⟩
      · exact ⟨input, rfl, hheard.regained howned hgain⟩
  | failure =>
    refine ⟨h, fun hc => .inr ⟨h.safe hc, fun hc' => ?_⟩, trivial⟩
    cases hc.symm.trans hc'
  | ownedImmediate verifiedCode => exact ⟨limited_local h verifiedCode, fun _ => .inl rfl, trivial⟩

theorem limited_seeded (policy : OwnershipFlapPolicy) :
    Limited policy .none CoordRecord.seeded.core where
  safe hc := by cases hc
  quiet := le_rfl
  held hc := by cases hc
  pruned _ := ⟨[], pruned_nil rfl rfl⟩
  counted := counted_nothing rfl

/-- The limiter bounds the churn and latches, and what it has taken comes back on new reads only. -/
theorem flaps_limited (policy : OwnershipFlapPolicy) {events : List CoordEvent}
    (hpolicy : ∀ event ∈ events, event.limitedBy policy)
    (htime : flapping.Steps (fun x event => event.after x.1.clock) (.none, .seeded) events) :
    flapping.Throughout (fun x => Paced policy x ∧ x.2.Safe) (.none, .seeded) events ∧
      flapping.Steps (fun x event => Latched policy x event ∧ Regained x event)
        (.none, .seeded) events := by
  have hall := (Runs.System.Steps.of_mem (M := flapping)
    (fun event => event.limitedBy policy) hpolicy (.none, .seeded)).and htime
  have hpaced (x : Churn × CoordRecord) (h : Limited policy x.1 x.2.core) :
      Paced policy x ∧ x.2.Safe := by
    refine ⟨fun hc => ?_, h.safe⟩
    obtain ⟨old, hold⟩ := h.pruned hc
    exact hold.paced
  constructor
  · exact hall.throughout (fun x => Limited policy x.1 x.2.core)
      (fun x event h hc => (limited_step h hc.1 hc.2).1) hpaced (limited_seeded policy)
  · exact hall.derive (fun x => Limited policy x.1 x.2.core)
      (fun x event h hc => (limited_step h hc.1 hc.2).1)
      (fun x event h hc => (limited_step h hc.1 hc.2).2) (limited_seeded policy)

/-- A desk where two changes within a minute make the display contested. -/
def busyPolicy : OwnershipFlapPolicy := { threshold := 2, window := 60, settle := 30 }

def busyRead (observed : UInt8) (now : ℕ) : CoordEvent :=
  .observation (some { observed, aliases := deskSetting.aliases, panelState := none }) 1 busyPolicy
    now

theorem flaps_limited_busy :
    let events := [busyRead 17 1, busyRead 15 2, deskMismatch 3, busyRead 15 31, busyRead 15 32,
      busyRead 15 33]
    (coordination.run .seeded (events.take 2)).contested = true ∧
      flapping.Throughout (fun x => Paced busyPolicy x ∧ x.2.Safe) (.none, .seeded) events ∧
      flapping.Steps (fun x event => Latched busyPolicy x event ∧ Regained x event)
        (.none, .seeded) events := by
  have hpolicy : ∀ event ∈ [busyRead 17 1, busyRead 15 2, deskMismatch 3, busyRead 15 31,
      busyRead 15 32, busyRead 15 33], event.limitedBy busyPolicy := by
    simp [busyRead, deskMismatch, CoordEvent.limitedBy]
  exact ⟨by decide, flaps_limited busyPolicy hpolicy (by decide)⟩

end Dormant
