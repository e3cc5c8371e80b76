import Dormant.Coordination.ObservedGain
import Dormant.Foundations.Places

/-!
# Deferred hooks

A deferred hook is called at the first tick that finds presence, if the display has not been lost
since, as long as the poller lives. A reload spawns another poller, which knows of none.
-/

namespace Dormant.Polling
set_option autoImplicit false

section
variable {display : DisplayId}

theorem pending_insertPending {s : PollState} (other : DisplayId)
    (h : display ∈ s.pendingObservedGain) : display ∈ (s.insertPending other).pendingObservedGain :=
  List.mem_insert_iff.mpr (.inr h)

theorem pending_removePending {s : PollState} {other : DisplayId} (hne : display ≠ other)
    (h : display ∈ s.pendingObservedGain) : display ∈ (s.removePending other).pendingObservedGain :=
  List.mem_filter.mpr ⟨h, decide_eq_true hne⟩

theorem pending_fire {s : PollState} (config : Config) (other : DisplayId) (reply : QueryReply)
    (h : display ∈ s.pendingObservedGain) :
    display ∈ (fireObservedGainWithPresenceGate config other reply s).1.pendingObservedGain := by
  unfold fireObservedGainWithPresenceGate
  split
  · dsimp only
    split
    · exact pending_insertPending other h
    · exact h
    · exact h
  · exact h

/-- The hook of one display is deferred by putting it into the set. -/
theorem deferred_fire {s : PollState} (config : Config) {other : DisplayId} (reply : QueryReply)
    {n : Noted} (hn : n ∈ (fireObservedGainWithPresenceGate config other reply s).2)
    (hevent : n.event = .observedGainDeferred display) :
    display = other ∧
      display ∈ (fireObservedGainWithPresenceGate config other reply s).1.pendingObservedGain := by
  unfold fireObservedGainWithPresenceGate at *
  split at hn
  · rename_i hknob
    rw [if_pos hknob]
    dsimp only at *
    split at hn
    · obtain rfl := List.mem_singleton.mp hn
      obtain rfl := PollEvent.observedGainDeferred.inj hevent
      exact ⟨rfl, List.mem_insert_iff.mpr (.inl rfl)⟩
    · obtain rfl := List.mem_singleton.mp hn
      cases hevent
    · rcases List.mem_cons.mp hn with rfl | hn
      · cases hevent
      · obtain rfl := List.mem_singleton.mp hn
        cases hevent
  · obtain rfl := List.mem_singleton.mp hn
    cases hevent

/-- What a report of one display does to the set: the display leaves it with a loss, and joins it
when its hook is deferred. -/
structure Reports (s : PollState) (other : DisplayId) (reported : PollState × List Noted) :
    Prop where
  kept : ∀ display ∈ s.pendingObservedGain,
    (display = other → ∀ n ∈ reported.2, ¬ roles.voids n display) →
      display ∈ reported.1.pendingObservedGain
  deferred : ∀ n ∈ reported.2, ∀ display, n.event = .observedGainDeferred display →
    display = other ∧ display ∈ reported.1.pendingObservedGain

theorem Reports.idle {s s' : PollState} (other : DisplayId)
    (h : s'.pendingObservedGain = s.pendingObservedGain) : Reports s other (s', []) := by
  refine ⟨fun d hd _ => ?_, fun n hn => ?_⟩
  · rw [h]
    exact hd
  · cases hn

theorem Reports.of_pending {s s' : PollState} {other : DisplayId}
    {reported : PollState × List Noted} (h : Reports s' other reported)
    (hpending : s'.pendingObservedGain = s.pendingObservedGain) : Reports s other reported := by
  refine ⟨fun d hd hkept => h.kept d ?_ hkept, h.deferred⟩
  rw [hpending]
  exact hd

end

/-- A change is not a return. -/
theorem Observed.quiet {handle : CoordinationHandle} {display : DisplayId}
    {recorded : CoordinationHandle × InputObservationOutcome}
    (h : Observed handle display recorded) (hchanged : recorded.2.committedPriorOwned ≠ none) :
    recorded.2.observedReturn = false := by
  cases hcommitted : recorded.2.committedPriorOwned with
  | none => exact absurd hcommitted hchanged
  | some prior =>
    cases prior with
    | true => exact h.lost hcommitted
    | false => exact (h.gained hcommitted).2.2.2

theorem reports_reportOutcome (config : Config) (other : DisplayId) (turn : Turn)
    (panelMismatch : Bool) (observed : UInt8) (isLocal : Bool) (outcome : InputObservationOutcome)
    (s : PollState)
    (hquiet : outcome.committedPriorOwned ≠ none → outcome.observedReturn = false) :
    Reports s other
      (reportOutcome config other turn panelMismatch observed isLocal outcome s) := by
  unfold reportOutcome
  dsimp only
  have hhold (display : DisplayId) (n : Noted)
      (hn : n ∈ (if outcome.enteredContested then [s.note (.ownershipContested other)] else []) ++
        (if outcome.settled then [s.note (.ownershipSettled other)] else [])) :
      n.event ≠ .observedGainDeferred display := by
    intro hevent
    rcases List.mem_append.mp hn with hn | hn
    · split at hn
      · obtain rfl := List.mem_singleton.mp hn
        cases hevent
      · cases hn
    · split at hn
      · obtain rfl := List.mem_singleton.mp hn
        cases hevent
      · cases hn
  generalize (if outcome.enteredContested then [s.note (.ownershipContested other)] else []) ++
    (if outcome.settled then [s.note (.ownershipSettled other)] else []) = hold at *
  cases hcommitted : outcome.committedPriorOwned with
  | none =>
    dsimp only
    split
    · refine ⟨fun display hd _ => pending_fire config other turn.returnReply hd,
        fun n hn display hevent => ?_⟩
      dsimp only at hn
      rw [List.append_nil] at hn
      rcases List.mem_append.mp hn with hn | hn
      · exact absurd hevent (hhold display n hn)
      · rcases List.mem_cons.mp hn with rfl | hn
        · cases hevent
        · exact deferred_fire config turn.returnReply hn hevent
    · refine ⟨fun display hd _ => hd, fun n hn display hevent => ?_⟩
      dsimp only at hn
      rw [List.append_nil, List.append_nil] at hn
      exact absurd hevent (hhold display n hn)
  | some prior =>
    rw [hquiet (by rw [hcommitted]; simp), if_neg Bool.false_ne_true, List.append_nil]
    dsimp only
    cases prior with
    | true =>
      rw [if_pos rfl]
      refine ⟨fun display hd hkept => ?_, fun n hn display hevent => ?_⟩
      · by_cases hne : display = other
        · subst hne
          have hmem : s.note (.ownershipChanged display true (!panelMismatch && isLocal)) ∈
              hold ++ ([s.note (.ownershipChanged display true (!panelMismatch && isLocal)),
                s.note (.ownershipPoll display), s.note (.publishOwnership display
                  (!panelMismatch && isLocal) (if panelMismatch then none else some observed))] ++
                [(s.edit turn.sending).note (.notifyObservedLoss display)]) := by
            simp
          exact absurd (.inr ⟨_, rfl⟩) (hkept rfl _ hmem)
        · exact pending_removePending hne hd
      · simp only [List.mem_append, List.mem_cons, List.not_mem_nil, or_false] at hn
        rcases hn with hn | (rfl | rfl | rfl) | rfl
        · exact absurd hevent (hhold display n hn)
        · cases hevent
        · cases hevent
        · cases hevent
        · cases hevent
    | false =>
      rw [if_neg Bool.false_ne_true]
      split
      · refine ⟨fun display hd _ => pending_fire config other turn.gainReply hd,
          fun n hn display hevent => ?_⟩
        simp only [List.mem_append, List.mem_cons, List.not_mem_nil, or_false] at hn
        rcases hn with hn | (rfl | rfl | rfl) | hn
        · exact absurd hevent (hhold display n hn)
        · cases hevent
        · cases hevent
        · cases hevent
        · exact deferred_fire config turn.gainReply hn hevent
      · refine ⟨fun display hd _ => hd, fun n hn display hevent => ?_⟩
        simp only [List.mem_append, List.mem_cons, List.not_mem_nil, or_false] at hn
        rcases hn with hn | rfl | rfl | rfl
        · exact absurd hevent (hhold display n hn)
        · cases hevent
        · cases hevent
        · cases hevent

/-- An observation of a sound cache is reported so. -/
theorem reports_pollDisplay (t : Tick) (prior : DisplayId → Option CoordRecord)
    (entry : DisplayId × DisplayConfig) {s : PollState} (hsound : Sound s.handle) :
    Reports s entry.1 (pollDisplay t prior entry s) ∧
      ((pollDisplay t prior entry s).2 ≠ [] → entry.2.scope = .shared) := by
  unfold pollDisplay
  dsimp only
  split
  · exact ⟨.idle entry.1 rfl, fun h => absurd rfl h⟩
  · rename_i hshared
    rw [not_not] at hshared
    refine ⟨?_, fun _ => hshared⟩
    split
    · exact .idle entry.1 rfl
    · split
      · exact .idle entry.1 rfl
      · generalize (entry.2.panel t.toLowercase (t.turns entry.1).identity).isMismatch = mismatch
        obtain ⟨lastStateRead, hread⟩ := readPanelState_eq t.config t.now prior entry.1
          (t.turns entry.1) mismatch (s.edit (t.turns entry.1).reading)
        rw [hread]
        split
        · split
          · exact .idle entry.1 rfl
          · have hobserved := observed_recordObserved (sound_edit hsound (t.turns entry.1).reading)
              t.config t.now entry.1
            exact (reports_reportOutcome t.config entry.1 (t.turns entry.1) mismatch _ _ _ _
              (hobserved _ _ _ _).quiet).of_pending rfl
        · exact .idle entry.1 rfl

/-! ## One tick -/

def Booked (s : PollState) : Prop := ∃ log, Ledger log s (deferredCount s)

theorem Booked.pollDisplay {s : PollState} (h : Booked s) (t : Tick)
    (prior : DisplayId → Option CoordRecord) (entry : DisplayId × DisplayConfig) :
    Booked (pollDisplay t prior entry s).1 := by
  obtain ⟨log, hledger⟩ := h
  exact ⟨_, ledger_pollDisplay t prior entry hledger⟩

theorem Booked.next {s : PollState} (h : Booked s) (step : PollerStep) :
    Booked (poller.next s step).1 := by
  obtain ⟨log, hledger⟩ := h
  exact ⟨_, ledger_next step hledger⟩

section
variable (t : Tick) (prior : DisplayId → Option CoordRecord) {display : DisplayId}

/-- A deferred display that is not lost stays in the set. -/
theorem pending_polls {entries : List (DisplayId × DisplayConfig)} {s : PollState} (h : Booked s)
    (hmem : display ∈ s.pendingObservedGain)
    (hkept : display ∈ entries.map Prod.fst →
      ∀ n ∈ (inTurn (pollDisplay t prior) entries s).2, ¬ roles.voids n display) :
    display ∈ (inTurn (pollDisplay t prior) entries s).1.pendingObservedGain := by
  induction entries generalizing s with
  | nil => exact hmem
  | cons entry entries ih =>
    obtain ⟨log, hledger⟩ := h
    have hreports := (reports_pollDisplay t prior entry hledger.sound).1
    refine ih (Booked.pollDisplay ⟨log, hledger⟩ t prior entry) ?_ fun hlater n hn => ?_
    · refine hreports.kept display hmem fun heq n hn => ?_
      exact hkept (by rw [heq]; exact List.mem_cons_self) n (List.mem_append_left _ hn)
    · exact hkept (List.mem_cons_of_mem _ hlater) n (List.mem_append_right _ hn)

theorem deferred_polls {entries : List (DisplayId × DisplayConfig)} {s : PollState} (h : Booked s)
    (hnodup : (entries.map Prod.fst).Nodup) {n : Noted}
    (hn : n ∈ (inTurn (pollDisplay t prior) entries s).2)
    (hevent : n.event = .observedGainDeferred display) :
    display ∈ (inTurn (pollDisplay t prior) entries s).1.pendingObservedGain ∧
      ∃ dc, (display, dc) ∈ entries ∧ dc.scope = .shared := by
  induction entries generalizing s with
  | nil => cases hn
  | cons entry entries ih =>
    obtain ⟨log, hledger⟩ := h
    rw [List.map_cons, List.nodup_cons] at hnodup
    obtain ⟨hreports, hshared⟩ := reports_pollDisplay t prior entry hledger.sound
    have hbooked : Booked (pollDisplay t prior entry s).1 :=
      Booked.pollDisplay ⟨log, hledger⟩ t prior entry
    rcases List.mem_append.mp hn with hn | hn
    · obtain ⟨rfl, hmem⟩ := hreports.deferred n hn display hevent
      have hkept := pending_polls t prior hbooked hmem
        fun hlater => absurd hlater hnodup.1
      exact ⟨hkept, entry.2, List.mem_cons_self, hshared (List.ne_nil_of_mem hn)⟩
    · obtain ⟨hmem, dc, hentry, hscope⟩ := ih hbooked hnodup.2 hn
      exact ⟨hmem, dc, List.mem_cons_of_mem _ hentry, hscope⟩

end

theorem deferred_drain (t : Tick) (s : PollState) (display : DisplayId) :
    ∀ n ∈ (drainPendingObservedGain t s).2, n.event ≠ .observedGainDeferred display := by
  have hone (config : Config) (ownedNow : DisplayId → Bool) (other : DisplayId)
      (reply : QueryReply) (s : PollState) :
      ∀ n ∈ (drainOne config ownedNow other reply s).2,
        n.event ≠ .observedGainDeferred display := by
    intro n hn hevent
    unfold drainOne at hn
    split at hn
    · cases hn
    · split at hn
      · cases hn
      · split at hn
        · cases hn
        · split at hn
          · cases hn
          · dsimp only at hn
            split at hn
            · cases hn
            · simp only [List.mem_cons, List.not_mem_nil, or_false] at hn
              rcases hn with rfl | rfl <;> cases hevent
            · simp only [List.mem_cons, List.not_mem_nil, or_false] at hn
              rcases hn with rfl | rfl <;> cases hevent
  unfold drainPendingObservedGain
  dsimp only
  generalize t.order s.pendingObservedGain = as
  generalize (fun display => (s.handle.records display).any (·.owned)) = ownedNow
  induction as generalizing s with
  | nil =>
    intro n hn
    cases hn
  | cons a as ih =>
    intro n hn
    rcases List.mem_append.mp hn with hn | hn
    · exact hone t.config ownedNow a (t.pendingReply a) s n hn
    · exact ih _ n hn

/-- What a tick defers is in the set when the tick is over. -/
theorem deferred_pollOnce {s : PollState} (h : Booked s) (t : Tick) {display : DisplayId}
    {n : Noted} (hn : n ∈ (pollOnce t s).2) (hevent : n.event = .observedGainDeferred display) :
    display ∈ (pollOnce t s).1.pendingObservedGain := by
  unfold pollOnce at *
  split at hn
  · cases hn
  · rename_i hexecutors
    rw [if_neg hexecutors]
    dsimp only at *
    rcases List.mem_append.mp hn with hn | hn
    · exact absurd hevent (deferred_drain t s display n hn)
    · obtain ⟨log, hledger⟩ := h
      obtain ⟨hmem, dc, hentry, hscope⟩ :=
        deferred_polls t _ ⟨_, ledger_drain t hledger⟩ t.config.nodup hn hevent
      refine List.mem_filter.mpr ⟨hmem, ?_⟩
      unfold Config.get
      rw [Entries.lookup_of_mem t.config.nodup hentry]
      exact decide_eq_true hscope

/-! ## Until presence is found -/

/-- Shared, and with a hook that asks for presence. -/
def Gated (config : Config) (display : DisplayId) : Prop :=
  ∃ dc, config.get display = some dc ∧ dc.scope = .shared ∧ dc.observedGainRequiresPresence = true

/-- The tick asks about a deferred display. -/
structure Asked (t : Tick) (s : PollState) (display : DisplayId) : Prop where
  running : t.executors ≠ []
  gated : Gated t.config display
  owned : ∃ record, s.handle.records display = some record ∧ record.owned = true

/-- There is no presence yet. -/
def Waits (display : DisplayId) (s : PollState) : PollerStep → Prop
  | .tick t => t.executors = [] ∨
      Asked t s display ∧ (t.pendingReply display).answer = .ok (some false)
  | _ => True

/-- Another poller is spawned only when this one has nothing deferred. -/
def Lasting (s : PollState) : PollerStep → Prop
  | .respawned => s.pendingObservedGain = []
  | _ => True

section
variable {t : Tick} {s : PollState} {display : DisplayId}

theorem drainOne_asked (hgated : Gated t.config display) {ownedNow : DisplayId → Bool}
    (hnow : ownedNow display = true) (reply : QueryReply) (s : PollState) :
    drainOne t.config ownedNow display reply s =
      match reply.answer with
      | .ok (some false) => (s.edit reply.meanwhile, [])
      | .ok _ =>
        ((s.edit reply.meanwhile).removePending display,
          [(s.edit reply.meanwhile).note (.notifyObservedGain display),
            (s.edit reply.meanwhile).note (.observedGainReleased display)])
      | .error _ =>
        ((s.edit reply.meanwhile).removePending display,
          [(s.edit reply.meanwhile).note (.observedGainPresenceQueryFailed display),
            (s.edit reply.meanwhile).note (.notifyObservedGain display)]) := by
  obtain ⟨dc, hget, hscope, hknob⟩ := hgated
  unfold drainOne
  rw [hget]
  dsimp only
  rw [if_neg (by rw [hscope]; simp), hknob, hnow]
  rfl

theorem ownedNow_asked (h : Asked t s display) :
    (s.handle.records display).any (·.owned) = true := by
  obtain ⟨record, hrecord, howned⟩ := h.owned
  rw [hrecord]
  exact howned

theorem pending_drain_waits (h : Asked t s display)
    (hanswer : (t.pendingReply display).answer = .ok (some false))
    (hmem : display ∈ s.pendingObservedGain) :
    display ∈ (drainPendingObservedGain t s).1.pendingObservedGain := by
  have hwaits (ownedNow : DisplayId → Bool) (hnow : ownedNow display = true) (as : List DisplayId)
      (s : PollState) (hmem : display ∈ s.pendingObservedGain) :
      display ∈ (inTurn (fun display =>
          drainOne t.config ownedNow display (t.pendingReply display)) as s).1.pendingObservedGain
        := by
    induction as generalizing s with
    | nil => exact hmem
    | cons a as ih =>
      refine ih _ ?_
      by_cases hne : display = a
      · subst hne
        dsimp only
        rw [drainOne_asked h.gated hnow, hanswer]
        exact hmem
      · exact pending_drainOne t.config ownedNow _ hne hmem
  exact hwaits _ (ownedNow_asked h) _ s hmem

theorem called_drain (h : Asked t s display)
    (hanswer : (t.pendingReply display).answer ≠ .ok (some false))
    (hmem : display ∈ s.pendingObservedGain) :
    ∃ n ∈ (drainPendingObservedGain t s).2, n.event = .notifyObservedGain display := by
  have hcalls (ownedNow : DisplayId → Bool) (hnow : ownedNow display = true) (as : List DisplayId)
      (s : PollState) (hmem : display ∈ as) :
      ∃ n ∈ (inTurn (fun display =>
          drainOne t.config ownedNow display (t.pendingReply display)) as s).2,
        n.event = .notifyObservedGain display := by
    induction as generalizing s with
    | nil => cases hmem
    | cons a as ih =>
      by_cases heq : display = a
      · subst heq
        have hcalled : ∃ n ∈ (drainOne t.config ownedNow display (t.pendingReply display) s).2,
            n.event = .notifyObservedGain display := by
          rw [drainOne_asked h.gated hnow]
          split
          · rename_i hfalse
            exact absurd hfalse hanswer
          · exact ⟨_, List.mem_cons_self, rfl⟩
          · exact ⟨_, List.mem_cons_of_mem _ List.mem_cons_self, rfl⟩
        obtain ⟨n, hn, hevent⟩ := hcalled
        exact ⟨n, List.mem_append_left _ hn, hevent⟩
      · obtain ⟨n, hn, hevent⟩ := ih (drainOne t.config ownedNow a (t.pendingReply a) s).1
          ((List.mem_cons.mp hmem).resolve_left heq)
        exact ⟨n, List.mem_append_right _ hn, hevent⟩
  exact hcalls _ (ownedNow_asked h) _ s ((t.order_perm s.pendingObservedGain).mem_iff.mpr hmem)

/-- A deferred display that is not lost waits for presence. -/
theorem pending_next {step : PollerStep} (h : Booked s) (hmem : display ∈ s.pendingObservedGain)
    (hlasts : Lasting s step) (hwaits : Waits display s step)
    (hkept : ∀ n ∈ (poller.next s step).2, ¬ roles.voids n display) :
    display ∈ (poller.next s step).1.pendingObservedGain := by
  cases step with
  | edited e => exact hmem
  | respawned =>
    rw [show s.pendingObservedGain = [] from hlasts] at hmem
    cases hmem
  | tick t =>
    rcases hwaits with hidle | ⟨hasked, hanswer⟩
    · show display ∈ (pollOnce t s).1.pendingObservedGain
      unfold pollOnce
      rw [if_pos hidle]
      exact hmem
    · change ∀ n ∈ (pollOnce t s).2, ¬ roles.voids n display at hkept
      show display ∈ (pollOnce t s).1.pendingObservedGain
      unfold pollOnce at *
      rw [if_neg hasked.running] at *
      dsimp only at *
      obtain ⟨log, hledger⟩ := h
      obtain ⟨dc, hget, hscope, -⟩ := hasked.gated
      refine List.mem_filter.mpr ⟨?_, ?_⟩
      · refine pending_polls t _ ⟨_, ledger_drain t hledger⟩ ?_ fun _ n hn => ?_
        · exact pending_drain_waits hasked hanswer hmem
        · exact hkept n (List.mem_append_right _ hn)
      · rw [hget]
        exact decide_eq_true hscope

theorem pending_run {steps : List PollerStep} (h : Booked s)
    (hmem : display ∈ s.pendingObservedGain) (hlasts : poller.Steps Lasting s steps)
    (hwaits : poller.Steps (Waits display) s steps)
    (hkept : ∀ n ∈ poller.outputs s steps, ¬ roles.voids n display) :
    display ∈ (poller.run s steps).pendingObservedGain := by
  induction steps generalizing s with
  | nil => exact hmem
  | cons step steps ih =>
    refine ih (h.next step) ?_ hlasts.2 hwaits.2 fun n hn => hkept n (List.mem_append_right _ hn)
    exact pending_next h hmem hlasts.1 hwaits.1 fun n hn => hkept n (List.mem_append_left _ hn)

end

/-! ## Runs -/

/-- Whenever a tick has deferred a hook, and the display has since been owned, shared and gated
without presence, the next tick that finds more than that calls it. -/
def ReleasedInTime (start : PollState) (steps : List PollerStep) : Prop :=
  ∀ before deferring waiting releasing later display,
    steps = before ++ .tick deferring :: (waiting ++ .tick releasing :: later) →
    let s := poller.run start before
    let s' := (pollOnce deferring s).1
    let s'' := poller.run s' waiting
    (∃ n ∈ (pollOnce deferring s).2, n.event = .observedGainDeferred display) →
    poller.Steps (Waits display) s' waiting →
    (∀ n ∈ poller.outputs s' waiting, ¬ roles.voids n display) →
    Asked releasing s'' display → (releasing.pendingReply display).answer ≠ .ok (some false) →
    ∃ n ∈ (drainPendingObservedGain releasing s'').2, n.event = .notifyObservedGain display

/-- The hook is called for owned displays only; every call has a committed gain or an observed
return of its own, with neither a committed loss nor a contested hold since; and as long as no
poller is replaced while it has something deferred, every deferred hook is called in time. -/
theorem observed_gain_once (shared : List DisplayId) (steps : List PollerStep) :
    (∀ n ∈ poller.outputs (.spawned (.new shared)) steps, ∀ display,
        n.event = .notifyObservedGain display → n.handle.owns display = true) ∧
      (∃ trigger,
        Vouchers.Honoured roles (poller.outputs (.spawned (.new shared)) steps) trigger) ∧
      (poller.Steps Lasting (.spawned (.new shared)) steps →
        ReleasedInTime (.spawned (.new shared)) steps) := by
  have hledger := ledger_run shared steps
  obtain ⟨trigger, hhonoured, -⟩ := hledger.held
  refine ⟨hledger.called, ⟨trigger, hhonoured⟩, fun hlasts => ?_⟩
  rintro before deferring waiting releasing later display rfl s s' s'' ⟨n, hn, hevent⟩ hwaits hkept
    hasked hanswer
  have hbooked : Booked s := ⟨_, ledger_run shared before⟩
  rw [Runs.System.steps_append] at hlasts
  obtain ⟨-, -, hlasts⟩ := hlasts
  rw [Runs.System.steps_append] at hlasts
  have hmem := deferred_pollOnce hbooked deferring hn hevent
  exact called_drain hasked hanswer
    (pending_run (hbooked.next (.tick deferring)) hmem hlasts.1 hwaits hkept)

/-! ## A reload in between -/

def tv : DisplayId := { id := "tv" }

def tvConfig : Config where
  coordination :=
    { pollInterval := 2
      statePollInterval := some 2
      lossConfirmations := 1
      flapThreshold := 5
      flapWindow := 120
      flapSettle := 60 }
  displays :=
    [(tv, { scope := .shared, sharedInputCode := some 15, sharedInputWriteCode := none,
            sharedPeerInputCode := some 17, sharedPeerInputWriteCode := none, output := none,
            compositorOutput := none, outputPanel := none, observedGainRequiresPresence := true })]
  nodup := List.nodup_singleton tv

/-- A tick that reads one code, with one answer to whether there is presence. -/
def tvTick (now : ℕ) (code : UInt8) (present : Bool) : Tick where
  toLowercase := id
  now := now
  config := tvConfig
  executors := [tv]
  order := id
  order_perm := List.Perm.refl
  pendingReply _ := { meanwhile := [], answer := .ok (some present) }
  turns _ :=
    { identity := fun _ => none
      input := .ok (some code)
      panelState := none
      reading := []
      sending := []
      gainReply := { meanwhile := [], answer := .ok (some present) }
      returnReply := { meanwhile := [], answer := .ok (some present) } }

/-- The panel goes to the peer and comes back while nobody is there. A reload follows, and then
somebody comes. -/
theorem deferred_hook_lost :
    ¬ ReleasedInTime (.spawned (.new [tv]))
      [.tick (tvTick 2 17 false), .tick (tvTick 4 15 false), .respawned,
        .tick (tvTick 6 15 true)] := by
  intro h
  have hcalled := h [.tick (tvTick 2 17 false)] (tvTick 4 15 false) [.respawned] (tvTick 6 15 true)
    [] tv rfl (by decide) ⟨trivial, trivial⟩ (fun n hn => (by cases hn))
    ⟨List.cons_ne_nil _ _, ⟨_, rfl, rfl, rfl⟩, ⟨_, rfl, rfl⟩⟩ (by simp [tvTick])
  revert hcalled
  decide

/-- Without the reload the hook is called. -/
example : ∃ n ∈ poller.outputs (.spawned (.new [tv]))
    [.tick (tvTick 2 17 false), .tick (tvTick 4 15 false), .tick (tvTick 6 15 true)],
    n.event = .notifyObservedGain tv := by
  decide

end Dormant.Polling
