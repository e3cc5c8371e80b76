import Dormant.Coordination.Record

/-!
# Verdicts and what is reported of them

`Core` is the part of a record that its verdict depends on, and `Recorded` says all that an
observation can do to it, with what the caller is told. Every change of the verdict is reported,
and so is every way into the contested state and out of it.
-/

namespace Dormant
set_option autoImplicit false

/-- What happens to a record while it is cached. -/
inductive CoordEvent where
  | observation (observation : Option InputObservation) (confirmations : UInt32)
      (policy : OwnershipFlapPolicy) (now : ℕ)
  | failure
  | ownedImmediate (verifiedCode : UInt8)

def coordination : Runs.System CoordRecord CoordEvent InputObservationOutcome where
  next record
    | .observation observation confirmations policy now =>
      let recorded := record.recordObservationAt observation confirmations policy now
      (recorded.1, [recorded.2])
    | .failure => (record.recordFailure, [])
    | .ownedImmediate verifiedCode => (record.markOwnedImmediate verifiedCode, [])

namespace CoordRecord

/-- What the verdict depends on. -/
structure Core where
  owned : Bool
  pendingCount : UInt32
  pendingCode : Option UInt8
  lastObservedCode : Option UInt8
  contested : Bool
  lastRawChange : Option ℕ
  transitionTimes : List ℕ

namespace Core

def clearPending (k : Core) : Core := { k with pendingCount := 0, pendingCode := none }

def note (k : Core) (code : UInt8) : Core :=
  { k with
    pendingCode := some code
    pendingCount := if k.pendingCode = some code then saturatingSucc k.pendingCount else 1 }

def check (k : Core) (code : UInt8) : Core :=
  if k.lastObservedCode.all (· = code) then k else k.clearPending

end Core

def core (r : CoordRecord) : Core where
  owned := r.owned
  pendingCount := r.pendingTransitionCount
  pendingCode := r.pendingTransitionCode
  lastObservedCode := r.lastObservedCode
  contested := r.contested
  lastRawChange := r.lastRawChange
  transitionTimes := r.transitionTimes

/-- What a caller is told of the verdict. -/
structure Report where
  committed : Option Bool
  entered : Bool
  settled : Bool
  deriving DecidableEq

def Report.nothing : Report := { committed := none, entered := false, settled := false }

end CoordRecord

def InputObservationOutcome.report (o : InputObservationOutcome) : CoordRecord.Report where
  committed := o.committedPriorOwned
  entered := o.enteredContested
  settled := o.settled

namespace CoordRecord
variable {r : CoordRecord} {outcome : InputObservationOutcome} {k : Core}

/-! ## The debounce -/

/-- The verdict is confirmed, about to change, or changed. -/
inductive Debounced (k : Core) (code : UInt8) (confirmations : UInt32) (side : Bool) :
    Core → Option Bool → Prop
  | agrees (h : side = k.owned) : Debounced k code confirmations side k.clearPending none
  | defers (h : side ≠ k.owned) (hlt : (k.note code).pendingCount < max confirmations 1) :
      Debounced k code confirmations side (k.note code) none
  | commits (h : side ≠ k.owned) (hle : max confirmations 1 ≤ (k.note code).pendingCount) :
      Debounced k code confirmations side { k.clearPending with owned := side } (some k.owned)

variable (r outcome) in
theorem core_recordLocalReturn (confirmations : UInt32) :
    (r.recordLocalReturn outcome confirmations).1.core = r.core ∧
      (r.recordLocalReturn outcome confirmations).2.report = outcome.report := by
  unfold recordLocalReturn
  split
  · dsimp only
    split <;> exact ⟨rfl, rfl⟩
  · exact ⟨rfl, rfl⟩

theorem core_noteSighting (classification : InputSourceObservation) :
    (r.noteSighting classification).core = r.core := by
  unfold noteSighting
  dsimp only
  split <;> split <;> rfl

theorem core_notePending (code : UInt8) : (r.notePending code).core = r.core.note code := by
  unfold notePending
  split <;> simp [core, Core.note, *]

variable (r) in
theorem core_recordDisagreement (code : UInt8) (h : outcome.report = .nothing) :
    (r.recordDisagreement outcome code).1.core = r.core.check code ∧
      (r.recordDisagreement outcome code).2.report = .nothing := by
  unfold recordDisagreement
  split
  · rename_i hnone
    exact ⟨by simp [Core.check, core, hnone], h⟩
  · rename_i previous hsome
    split
    · rename_i heq
      exact ⟨by simp [Core.check, core, hsome, heq], h⟩
    · rename_i hne
      exact ⟨by simp [Core.check, core, hsome, hne, clearPending, Core.clearPending], h⟩

variable (r) in
theorem core_debounce (classification : InputSourceObservation) (code : UInt8)
    (confirmations : UInt32) (h : outcome.report = .nothing) :
    ∃ committed, Debounced r.core code confirmations (decide (classification = .localInput))
        (r.debounce outcome classification code confirmations).1.core committed ∧
      (r.debounce outcome classification code confirmations).2.report =
        { Report.nothing with committed := committed } := by
  have hreport (committed : Option Bool) :
      ({ outcome with committedPriorOwned := committed } : InputObservationOutcome).report =
        { Report.nothing with committed := committed } := by
    simp only [InputObservationOutcome.report, Report.nothing, Report.mk.injEq] at h ⊢
    exact ⟨trivial, h.2⟩
  have hcore (s : CoordRecord) (hs : s.core = r.core) :
      (s.notePending code).core = r.core.note code := by rw [core_notePending, hs]
  have hcount (s : CoordRecord) (hs : s.core = r.core) :
      (s.notePending code).pendingTransitionCount = (r.core.note code).pendingCount :=
    congrArg Core.pendingCount (hcore s hs)
  have hcleared (s : CoordRecord) (hs : s.core = r.core) (side : Bool) :
      ({ (s.notePending code).clearPending with owned := side } : CoordRecord).core =
        { r.core.clearPending with owned := side } := by
    have hk := hcore s hs
    simp only [core, Core.note, Core.mk.injEq] at hk
    simp [core, clearPending, Core.clearPending, hk]
  unfold debounce
  split
  · rename_i hown hside
    rw [hside]
    exact ⟨none, .agrees hown.symm, h⟩
  · rename_i hown hside
    obtain ⟨hlocal, hr⟩ :=
      core_recordLocalReturn r.clearPending outcome confirmations
    rw [hside, hlocal, hr]
    exact ⟨none, .agrees hown.symm, h⟩
  · rename_i hown hside
    rw [hside]
    dsimp only
    rw [hcount r rfl]
    split
    · rename_i hle
      have hcommits : Debounced r.core code confirmations true _ _ :=
        .commits (by simp [core, hown]) hle
      rw [← hcleared r rfl] at hcommits
      exact ⟨_, hcommits, by rw [hreport]; simp [core, hown]⟩
    · rename_i hlt
      refine ⟨none, ?_, h⟩
      rw [hcore r rfl]
      exact .defers (by simp [core, hown]) (UInt32.not_le.mp hlt)
  · rename_i hown hside
    have hsight := core_noteSighting (r := r) classification
    rw [hside]
    dsimp only
    rw [hcount _ hsight]
    split
    · rename_i hle
      have hcommits : Debounced r.core code confirmations false _ _ :=
        .commits (by simp [core, hown]) hle
      rw [← hcleared _ hsight] at hcommits
      exact ⟨_, hcommits, by rw [hreport]; simp [core, hown]⟩
    · rename_i hlt
      refine ⟨none, ?_, h⟩
      rw [hcore _ hsight]
      exact .defers (by simp [core, hown]) (UInt32.not_le.mp hlt)

/-! ## An observation -/

/-- The times of the transitions that count, after one more. -/
def Core.recent (k : Core) (policy : OwnershipFlapPolicy) (now : ℕ) : List ℕ :=
  (k.transitionTimes ++ [now]).dropWhile fun transition => policy.window < now - transition

def Core.flaps (k : Core) (policy : OwnershipFlapPolicy) (now : ℕ) : Prop :=
  max policy.threshold.toNat 2 ≤ min (k.recent policy now).length (UInt32.size - 1)

/-- When the contested hold last saw the code change, the read of `code` included. -/
def Core.changedAt (k : Core) (code : UInt8) (now : ℕ) : Option ℕ :=
  if k.lastObservedCode = some code then k.lastRawChange else some now

inductive Recorded (k : Core) (confirmations : UInt32) (policy : OwnershipFlapPolicy) (now : ℕ) :
    Option InputObservation → Core → Report → Prop
  | ignored (hc : k.contested = true) : Recorded k confirmations policy now none k .nothing
  | mismatched {k' committed} (hc : k.contested = false)
      (h : Debounced k 0 confirmations false k' committed) :
      Recorded k confirmations policy now none k' { Report.nothing with committed := committed }
  | held {input} (hc : k.contested = true)
      (h : ∃ last ∈ k.changedAt input.observed now, now - last < policy.settle) :
      Recorded k confirmations policy now (some input)
        { k with
          owned := false
          lastRawChange := k.changedAt input.observed now
          lastObservedCode := some input.observed } .nothing
  | fellSilent {input} (hc : k.contested = true)
      (h : ∀ last ∈ k.changedAt input.observed now, policy.settle ≤ now - last) :
      Recorded k confirmations policy now (some input)
        { k.clearPending with
          owned := false
          contested := false
          lastRawChange := none
          transitionTimes := []
          lastObservedCode := some input.observed } { Report.nothing with settled := true }
  | read {input k'} (hc : k.contested = false)
      (h : Debounced (k.check input.observed) input.observed confirmations
        (decide (input.aliases.classify input.observed = .localInput)) k' none) :
      Recorded k confirmations policy now (some input)
        { k' with lastObservedCode := some input.observed } .nothing
  | changed {input k' prior} (hc : k.contested = false)
      (h : Debounced (k.check input.observed) input.observed confirmations
        (decide (input.aliases.classify input.observed = .localInput)) k' (some prior))
      (hf : ¬ k'.flaps policy now) :
      Recorded k confirmations policy now (some input)
        { k' with
          transitionTimes := k'.recent policy now
          lastObservedCode := some input.observed }
        { Report.nothing with committed := some prior }
  | tripped {input k' prior} (hc : k.contested = false)
      (h : Debounced (k.check input.observed) input.observed confirmations
        (decide (input.aliases.classify input.observed = .localInput)) k' (some prior))
      (hf : k'.flaps policy now) :
      Recorded k confirmations policy now (some input)
        { k'.clearPending with
          owned := false
          contested := true
          lastRawChange := some now
          transitionTimes := k'.recent policy now
          lastObservedCode := some input.observed }
        { Report.nothing with committed := if prior then some prior else none, entered := true }

theorem owned_check (k : Core) (code : UInt8) : (k.check code).owned = k.owned := by
  unfold Core.check
  split <;> rfl

theorem Debounced.prior {code : UInt8} {confirmations : UInt32} {side : Bool} {k' : Core}
    {prior : Bool} (h : Debounced k code confirmations side k' (some prior)) : prior = k.owned := by
  cases h
  rfl

theorem core_recordSuccessState (r : CoordRecord) (code : UInt8) (panelState : Option PanelState) :
    (r.recordSuccessState code panelState).core = { r.core with lastObservedCode := some code } :=
  rfl

variable (outcome) in
theorem recordFlapTransition_passes {policy : OwnershipFlapPolicy} {now : ℕ}
    (h : ¬ r.core.flaps policy now) (prior : Bool) :
    (r.recordFlapTransition outcome policy now prior).1.core =
        { r.core with transitionTimes := r.core.recent policy now } ∧
      (r.recordFlapTransition outcome policy now prior).2.report = outcome.report := by
  unfold recordFlapTransition
  dsimp only
  split
  · rename_i hflaps
    exact absurd hflaps h
  · exact ⟨rfl, rfl⟩

variable (outcome) in
theorem recordFlapTransition_trips {policy : OwnershipFlapPolicy} {now : ℕ}
    (h : r.core.flaps policy now) (prior : Bool) :
    (r.recordFlapTransition outcome policy now prior).1.core =
        { r.core.clearPending with
          owned := false
          contested := true
          lastRawChange := some now
          transitionTimes := r.core.recent policy now } ∧
      (r.recordFlapTransition outcome policy now prior).2.report =
        { outcome.report with
          committed := if prior then outcome.committedPriorOwned else none, entered := true } := by
  unfold recordFlapTransition
  dsimp only
  split
  · exact ⟨rfl, rfl⟩
  · rename_i hflaps
    exact absurd h hflaps

theorem recorded_contested (hc : r.contested = true) (input : InputObservation)
    (confirmations : UInt32) (policy : OwnershipFlapPolicy) (now : ℕ) :
    Recorded r.core confirmations policy now (some input)
      (r.recordContestedObservation input.observed input.panelState policy now).1.core
      (r.recordContestedObservation input.observed input.panelState policy now).2.report := by
  cases hs : (r.core.changedAt input.observed now).all fun last => policy.settle ≤ now - last with
  | true =>
    have hsilent : ∀ last ∈ r.core.changedAt input.observed now, policy.settle ≤ now - last := by
      simpa [Option.all_eq_true] using hs
    have hrecorded : Recorded r.core confirmations policy now (some input) _ _ :=
      .fellSilent hc hsilent
    unfold recordContestedObservation
    dsimp only
    change (if r.lastObservedCode = some input.observed then r.lastRawChange else some now).all
      (fun last => decide (policy.settle ≤ now - last)) = true at hs
    rw [hs]
    exact hrecorded
  | false =>
    have hloud : ∃ last ∈ r.core.changedAt input.observed now, now - last < policy.settle := by
      simpa [Option.all_eq_false] using hs
    have hrecorded : Recorded r.core confirmations policy now (some input) _ _ := .held hc hloud
    unfold recordContestedObservation
    dsimp only
    change (if r.lastObservedCode = some input.observed then r.lastRawChange else some now).all
      (fun last => decide (policy.settle ≤ now - last)) = false at hs
    rw [hs]
    have hstill : r.core.contested = true := hc
    rw [← hstill] at hc
    exact hrecorded

theorem recorded_recordObservationAt (r : CoordRecord) (observation : Option InputObservation)
    (confirmations : UInt32) (policy : OwnershipFlapPolicy) (now : ℕ) :
    Recorded r.core confirmations policy now observation
      (r.recordObservationAt observation confirmations policy now).1.core
      (r.recordObservationAt observation confirmations policy now).2.report := by
  unfold recordObservationAt
  cases observation with
  | none =>
    dsimp only
    split
    · rename_i hc
      exact .ignored hc
    · rename_i hc
      obtain ⟨committed, hd, hr⟩ :=
        core_debounce r (.unknown 0) 0 confirmations (rfl : InputObservationOutcome.default.report = _)
      rw [hr]
      exact .mismatched (Bool.eq_false_iff.mpr hc) hd
  | some input =>
    dsimp only
    split
    · rename_i hc
      exact recorded_contested hc input confirmations policy now
    · rename_i hc
      have hc : r.core.contested = false := Bool.eq_false_iff.mpr hc
      obtain ⟨hchecked, hnothing⟩ :=
        core_recordDisagreement r input.observed (rfl : InputObservationOutcome.default.report = _)
      obtain ⟨committed, hd, hr⟩ :=
        core_debounce (r.recordDisagreement .default input.observed).1
          (input.aliases.classify input.observed) input.observed confirmations hnothing
      rw [hchecked] at hd
      generalize (r.recordDisagreement .default input.observed) = checked at *
      generalize checked.1.debounce checked.2 (input.aliases.classify input.observed)
        input.observed confirmations = debounced at *
      have hcommitted : debounced.2.committedPriorOwned = committed :=
        congrArg Report.committed hr
      rw [core_recordSuccessState, hcommitted]
      cases committed with
      | none =>
        rw [if_neg (by simp), hr]
        exact .read hc hd
      | some prior =>
        rw [if_pos (by rfl)]
        have hprior : prior = r.owned := hd.prior.trans (owned_check r.core input.observed)
        by_cases hf : debounced.1.core.flaps policy now
        · obtain ⟨hcore, hreport⟩ :=
            recordFlapTransition_trips debounced.2 hf r.owned
          rw [hcore, hreport, hr, hcommitted, ← hprior]
          exact .tripped hc hd hf
        · obtain ⟨hcore, hreport⟩ :=
            recordFlapTransition_passes debounced.2 hf r.owned
          rw [hcore, hreport, hr]
          exact .changed hc hd hf

/-! ## What is reported -/

/-- A contested display is not owned. -/
def Safe (r : CoordRecord) : Prop := r.contested = true → r.owned = false

/-- The caller is told of a change of the verdict, and of the contested state, and of nothing
else. -/
structure Reported (r r' : CoordRecord) (o : InputObservationOutcome) : Prop where
  committed : ∀ prior, o.committedPriorOwned = some prior ↔ r.owned = prior ∧ r'.owned ≠ prior
  entered : o.enteredContested = true ↔ r.contested = false ∧ r'.contested = true
  settled : o.settled = true ↔ r.contested = true ∧ r'.contested = false

/-- The debounce alone changes the verdict just when it says so. -/
theorem Debounced.owned {code : UInt8} {confirmations : UInt32} {side : Bool} {k' : Core}
    {committed : Option Bool} (h : Debounced k code confirmations side k' committed) :
    k'.contested = k.contested ∧
      ∀ prior, committed = some prior ↔ k.owned = prior ∧ k'.owned ≠ prior := by
  cases h with
  | agrees hside =>
    exact ⟨rfl, fun prior => ⟨fun h => (by cases h), fun h => absurd h.1 h.2⟩⟩
  | defers hside hlt =>
    exact ⟨rfl, fun prior => ⟨fun h => (by cases h), fun h => absurd h.1 h.2⟩⟩
  | commits hside hle =>
    refine ⟨rfl, fun prior => ⟨fun h => ?_, fun h => congrArg some h.1⟩⟩
    obtain rfl := Option.some.inj h
    exact ⟨rfl, hside⟩

theorem contested_check (k : Core) (code : UInt8) : (k.check code).contested = k.contested := by
  unfold Core.check
  split <;> rfl

theorem reported_recordObservationAt (hsafe : r.Safe) (observation : Option InputObservation)
    (confirmations : UInt32) (policy : OwnershipFlapPolicy) (now : ℕ) :
    Reported r (r.recordObservationAt observation confirmations policy now).1
        (r.recordObservationAt observation confirmations policy now).2 ∧
      (r.recordObservationAt observation confirmations policy now).1.Safe := by
  have hr := recorded_recordObservationAt r observation confirmations policy now
  generalize r.recordObservationAt observation confirmations policy now = recorded at hr
  obtain ⟨r', o⟩ := recorded
  have hsafe : r.core.contested = true → r.core.owned = false := hsafe
  -- only the cores and the report matter
  suffices h : ((∀ prior, o.report.committed = some prior ↔
        r.core.owned = prior ∧ r'.core.owned ≠ prior) ∧
      (o.report.entered = true ↔ r.core.contested = false ∧ r'.core.contested = true) ∧
      (o.report.settled = true ↔ r.core.contested = true ∧ r'.core.contested = false)) ∧
      (r'.core.contested = true → r'.core.owned = false) from
    ⟨⟨h.1.1, h.1.2.1, h.1.2.2⟩, h.2⟩
  dsimp only at hr
  generalize r'.core = k' at *
  generalize o.report = report at *
  generalize r.core = k at *
  cases hr with
  | ignored hc => simp_all [Report.nothing]
  | mismatched hc h =>
    obtain ⟨hcontested, howned⟩ := h.owned
    simp [howned, hcontested, hc, Report.nothing]
  | held hc h => simp_all [Report.nothing]
  | fellSilent hc h => simp_all [Report.nothing]
  | read hc h =>
    obtain ⟨hcontested, howned⟩ := h.owned
    rw [contested_check] at hcontested
    rw [owned_check] at howned
    simp [howned, hcontested, hc, Report.nothing]
  | changed hc h hf =>
    obtain ⟨hcontested, howned⟩ := h.owned
    rw [contested_check] at hcontested
    rw [owned_check] at howned
    simp [howned, hcontested, hc, Report.nothing]
  | tripped hc h hf =>
    obtain ⟨hcontested, howned⟩ := h.owned
    rw [owned_check] at howned
    obtain ⟨hprior, -⟩ := (howned _).mp rfl
    subst hprior
    cases k.owned <;> simp [hc, Report.nothing]

end CoordRecord

theorem safe_run (events : List CoordEvent) : (coordination.run .seeded events).Safe := by
  have hstep (r : CoordRecord) (event : CoordEvent) (h : r.Safe) :
      (coordination.next r event).1.Safe := by
    cases event with
    | observation observation confirmations policy now =>
      exact (CoordRecord.reported_recordObservationAt h observation confirmations policy now).2
    | failure => exact h
    | ownedImmediate verifiedCode => exact fun hc => by cases hc
  have hseeded : CoordRecord.seeded.Safe := fun hc => by cases hc
  exact Runs.System.invariant hstep hseeded events

/-- Of a reachable record, every change of the verdict is reported, and nothing else; a contested
one is not owned. -/
theorem changes_reported (events : List CoordEvent) (observation : Option InputObservation)
    (confirmations : UInt32) (policy : OwnershipFlapPolicy) (now : ℕ) :
    let r := coordination.run .seeded events
    let recorded := r.recordObservationAt observation confirmations policy now
    r.Safe ∧ r.Reported recorded.1 recorded.2 ∧ recorded.1.Safe := by
  have hsafe := safe_run events
  exact ⟨hsafe, CoordRecord.reported_recordObservationAt hsafe observation confirmations policy now⟩

/-! ## The cache -/

/-- A call of the cache: for one display, or on a reload. -/
inductive CoordCall where
  | event (display : DisplayId) (event : CoordEvent)
  | reconcile (shared : List DisplayId)

namespace CoordinationHandle

def handleEvent (handle : CoordinationHandle) (display : DisplayId) :
    CoordEvent → CoordinationHandle × List InputObservationOutcome
  | .observation observation confirmations policy now =>
    let recorded := handle.recordObservationAt display observation confirmations policy now
    (recorded.1, [recorded.2])
  | .failure => (handle.recordFailure display, [])
  | .ownedImmediate verifiedCode => (handle.markOwnedImmediate display verifiedCode, [])

/-- A call for one display steps its record, and leaves the others alone. -/
theorem records_handleEvent (handle : CoordinationHandle) (display : DisplayId)
    (event : CoordEvent) : (handle.handleEvent display event).1.records =
      Function.update handle.records display
        ((handle.records display).map fun record => (coordination.next record event).1) := by
  cases event with
  | observation observation confirmations policy now =>
    unfold handleEvent recordObservationAt
    dsimp only
    split
    · rename_i hnone
      rw [hnone, Option.map_none, ← hnone, Function.update_eq_self]
    · rename_i record hsome
      rw [hsome]
      rfl
  | failure => rfl
  | ownedImmediate verifiedCode => rfl

end CoordinationHandle

def coordinator : Runs.System CoordinationHandle CoordCall InputObservationOutcome where
  next handle
    | .event display event => handle.handleEvent display event
    | .reconcile shared => (handle.reconcileShared shared, [])

/-- Every record of the cache has come about by events of its own. -/
theorem record_reachable (shared : List DisplayId) (calls : List CoordCall) (display : DisplayId) :
    ∀ record ∈ (coordinator.run (.new shared) calls).records display,
      ∃ events, record = coordination.run .seeded events := by
  have hstep (handle : CoordinationHandle) (call : CoordCall)
      (h : ∀ display, ∀ record ∈ handle.records display,
        ∃ events, record = coordination.run .seeded events) :
      ∀ display, ∀ record ∈ (coordinator.next handle call).1.records display,
        ∃ events, record = coordination.run .seeded events := by
    intro display record hrecord
    cases call with
    | event target event =>
      rw [show (coordinator.next handle (.event target event)).1 =
        (handle.handleEvent target event).1 from rfl,
        CoordinationHandle.records_handleEvent] at hrecord
      by_cases hd : display = target
      · subst hd
        rw [Function.update_self] at hrecord
        obtain ⟨before, hbefore, rfl⟩ := Option.map_eq_some_iff.mp hrecord
        obtain ⟨events, rfl⟩ := h display before hbefore
        exact ⟨events ++ [event], (Runs.System.run_append _ events [event]).symm⟩
      · rw [Function.update_of_ne hd] at hrecord
        exact h display record hrecord
    | reconcile shared =>
      have hrecord : (if display ∈ shared then some ((handle.records display).getD .seeded)
        else none) = some record := hrecord
      split at hrecord
      · obtain rfl := Option.some.inj hrecord
        cases hold : handle.records display with
        | none => exact ⟨[], rfl⟩
        | some before => exact h display before hold
      · cases hrecord
  have hnew : ∀ display, ∀ record ∈ (CoordinationHandle.new shared).records display,
      ∃ events, record = coordination.run .seeded events := by
    intro display record hrecord
    have hrecord : (if display ∈ shared then some CoordRecord.seeded else none) = some record :=
      hrecord
    split at hrecord
    · exact ⟨[], (Option.some.inj hrecord).symm⟩
    · cases hrecord
  exact Runs.System.invariant (M := coordinator) hstep hnew calls display

end Dormant
