import Dormant.Coordination.Excursions
import Dormant.Coordination.Poll

/-!
# Observed gains

A committed gain and an observed return are vouchers for the hook: each call spends one, and a
committed loss or a contested hold voids them. What a poller defers is a voucher that is still
good, of a display that has not been lost since.
-/

namespace Dormant.Polling
set_option autoImplicit false

open CoordinationHandle

/-! ## The cache -/

def Sound (handle : CoordinationHandle) : Prop :=
  ∀ display record, handle.records display = some record → record.Safe

section
variable {handle : CoordinationHandle} {display : DisplayId}

theorem owns_modify {f : CoordRecord → CoordRecord} (other : DisplayId)
    (hf : ∀ record : CoordRecord, record.owned = true → (f record).owned = true)
    (h : handle.owns display = true) : (handle.modify other f).owns display = true := by
  unfold owns CoordinationHandle.modify at *
  dsimp only
  by_cases heq : display = other
  · subst heq
    rw [Function.update_self]
    cases hrecord : handle.records display with
    | none => rfl
    | some record =>
      rw [hrecord] at h
      exact hf record h
  · rw [Function.update_of_ne heq]
    exact h

theorem sound_modify {f : CoordRecord → CoordRecord} (other : DisplayId)
    (hf : ∀ record : CoordRecord, record.Safe → (f record).Safe) (h : Sound handle) :
    Sound (handle.modify other f) := by
  intro display record hrecord
  unfold CoordinationHandle.modify at hrecord
  dsimp only at hrecord
  by_cases heq : display = other
  · subst heq
    rw [Function.update_self] at hrecord
    cases hbefore : handle.records display with
    | none =>
      rw [hbefore] at hrecord
      cases hrecord
    | some before =>
      rw [hbefore] at hrecord
      obtain rfl := Option.some.inj hrecord
      exact hf before (h display before hbefore)
  · rw [Function.update_of_ne heq] at hrecord
    exact h display record hrecord

/-- Nothing that others do loses a display. -/
theorem owns_apply (h : handle.owns display = true) (e : Edit) :
    (e.apply handle).owns display = true := by
  cases e with
  | pulled other verifiedCode => exact owns_modify other (fun _ _ => rfl) h
  | reconciled shared =>
    unfold Edit.apply reconcileShared owns
    dsimp only
    split
    · unfold owns at h
      cases hrecord : handle.records display with
      | none => rfl
      | some record =>
        rw [hrecord] at h
        exact h
    · rfl

theorem sound_apply (h : Sound handle) (e : Edit) : Sound (e.apply handle) := by
  cases e with
  | pulled other verifiedCode => exact sound_modify other (fun _ _ hc => (by cases hc)) h
  | reconciled shared =>
    intro display record hrecord
    unfold Edit.apply reconcileShared at hrecord
    dsimp only at hrecord
    split at hrecord
    · cases hbefore : handle.records display with
      | none =>
        rw [hbefore] at hrecord
        obtain rfl := Option.some.inj hrecord
        exact fun hc => by cases hc
      | some before =>
        rw [hbefore] at hrecord
        obtain rfl := Option.some.inj hrecord
        exact h display before hbefore
    · cases hrecord

theorem owns_edit {s : PollState} (h : s.handle.owns display = true) (edits : List Edit) :
    (s.edit edits).handle.owns display = true := by
  unfold PollState.edit
  dsimp only
  generalize s.handle = handle at h
  induction edits generalizing handle with
  | nil => exact h
  | cons e edits ih => exact ih _ (owns_apply h e)

theorem sound_edit {s : PollState} (h : Sound s.handle) (edits : List Edit) :
    Sound (s.edit edits).handle := by
  unfold PollState.edit
  dsimp only
  generalize s.handle = handle at h
  induction edits generalizing handle with
  | nil => exact h
  | cons e edits ih => exact ih _ (sound_apply h e)

end

/-! ## One observation -/

/-- A return is observed of an owned display, and commits nothing. -/
def ReturnsOwned (recorded : CoordRecord × InputObservationOutcome) : Prop :=
  recorded.2.observedReturn = true →
    recorded.2.committedPriorOwned = none ∧ recorded.1.owned = true

theorem ReturnsOwned.of_quiet {recorded : CoordRecord × InputObservationOutcome}
    (h : recorded.2.observedReturn = false) : ReturnsOwned recorded := by
  intro hreturned
  rw [h] at hreturned
  cases hreturned

theorem returnsOwned_debounce {r : CoordRecord} {outcome : InputObservationOutcome}
    (classification : InputSourceObservation) (observed : UInt8) (confirmations : UInt32)
    (hquiet : outcome.observedReturn = false) (hcommit : outcome.committedPriorOwned = none) :
    ReturnsOwned (r.debounce outcome classification observed confirmations) := by
  unfold CoordRecord.debounce
  split
  · exact .of_quiet hquiet
  · rename_i howned _
    obtain ⟨hkept, -, hcommitted⟩ :=
      CoordRecord.kept_recordLocalReturn outcome confirmations (r := r.clearPending)
    exact fun _ => ⟨hcommitted.trans hcommit, hkept.trans howned⟩
  · dsimp only
    split
    · exact .of_quiet hquiet
    · exact .of_quiet hquiet
  · dsimp only
    split
    · exact .of_quiet hquiet
    · exact .of_quiet hquiet

theorem returnsOwned_limited {recorded : CoordRecord × InputObservationOutcome}
    (h : ReturnsOwned recorded) (policy : OwnershipFlapPolicy) (now : ℕ) (priorOwned : Bool) :
    ReturnsOwned (if recorded.2.committedPriorOwned.isSome then
      recorded.1.recordFlapTransition recorded.2 policy now priorOwned else recorded) := by
  split
  · rename_i hcommitted
    refine .of_quiet ?_
    have hquiet : recorded.2.observedReturn = false := by
      refine Bool.eq_false_iff.mpr fun hreturned => ?_
      rw [(h hreturned).1] at hcommitted
      cases hcommitted
    unfold CoordRecord.recordFlapTransition
    dsimp only
    split
    · exact hquiet
    · exact hquiet
  · exact h

theorem returnsOwned_recordObservationAt (r : CoordRecord) (observation : Option InputObservation)
    (confirmations : UInt32) (policy : OwnershipFlapPolicy) (now : ℕ) :
    ReturnsOwned (r.recordObservationAt observation confirmations policy now) := by
  unfold CoordRecord.recordObservationAt
  cases observation with
  | none =>
    dsimp only
    split
    · exact .of_quiet rfl
    · exact returnsOwned_debounce _ _ _ rfl rfl
  | some input =>
    dsimp only
    split
    · exact .of_quiet rfl
    · obtain ⟨-, -, hquiet, hcommit⟩ :=
        CoordRecord.sighting_recordDisagreement .default input.observed (r := r)
      exact returnsOwned_limited (returnsOwned_debounce _ _ _ hquiet hcommit) policy now r.owned

/-- What an observation does to the cache, and what is told of it. -/
structure Observed (handle : CoordinationHandle) (display : DisplayId)
    (recorded : CoordinationHandle × InputObservationOutcome) : Prop where
  elsewhere : ∀ other, other ≠ display → recorded.1.records other = handle.records other
  sound : Sound recorded.1
  lost : recorded.2.committedPriorOwned = some true → recorded.2.observedReturn = false
  gained : recorded.2.committedPriorOwned = some false →
    handle.owns display = false ∧ recorded.1.owns display = true ∧
      recorded.2.enteredContested = false ∧ recorded.2.observedReturn = false
  kept : recorded.2.committedPriorOwned = none →
    recorded.1.owns display = handle.owns display ∧
      (recorded.2.enteredContested = true → handle.owns display = false) ∧
      (recorded.2.observedReturn = true → recorded.1.owns display = true)

theorem observed_recordObservationAt {handle : CoordinationHandle} (hsound : Sound handle)
    (display : DisplayId) (observation : Option InputObservation) (confirmations : UInt32)
    (policy : OwnershipFlapPolicy) (now : ℕ) :
    Observed handle display
      (handle.recordObservationAt display observation confirmations policy now) := by
  unfold CoordinationHandle.recordObservationAt
  cases hrecord : handle.records display with
  | none =>
    refine ⟨fun _ _ => rfl, hsound, fun h => (by cases h), fun h => (by cases h),
      fun _ => ⟨rfl, fun h => (by cases h), fun h => (by cases h)⟩⟩
  | some r =>
    obtain ⟨hreported, hsafe⟩ := CoordRecord.reported_recordObservationAt
      (hsound display r hrecord) observation confirmations policy now
    have hreturns := returnsOwned_recordObservationAt r observation confirmations policy now
    dsimp only
    generalize r.recordObservationAt observation confirmations policy now = recorded at *
    have hbefore : handle.owns display = r.owned := by
      unfold owns
      rw [hrecord]
      rfl
    have hafter : owns { records := Function.update handle.records display (some recorded.1) }
        display = recorded.1.owned := by
      unfold owns
      dsimp only
      rw [Function.update_self]
      rfl
    have hquiet {prior : Bool} (h : recorded.2.committedPriorOwned = some prior) :
        recorded.2.observedReturn = false := by
      refine Bool.eq_false_iff.mpr fun hreturned => ?_
      rw [(hreturns hreturned).1] at h
      cases h
    refine ⟨fun other hother => Function.update_of_ne hother _ _, ?_, hquiet, fun h => ?_,
      fun h => ?_⟩
    · intro other record hother
      dsimp only at hother
      by_cases heq : other = display
      · subst heq
        rw [Function.update_self] at hother
        obtain rfl := Option.some.inj hother
        exact hsafe
      · rw [Function.update_of_ne heq] at hother
        exact hsound other record hother
    · obtain ⟨hprior, hnow⟩ := (hreported.committed false).mp h
      rw [hbefore, hafter]
      refine ⟨hprior, Bool.eq_true_of_not_eq_false hnow, ?_, hquiet h⟩
      refine Bool.eq_false_iff.mpr fun hentered => hnow ?_
      exact hsafe (hreported.entered.mp hentered).2
    · have hsame : recorded.1.owned = r.owned := by
        by_contra hne
        rw [(hreported.committed r.owned).mpr ⟨rfl, hne⟩] at h
        cases h
      rw [hbefore, hafter]
      refine ⟨hsame, fun hentered => ?_, fun hreturned => (hreturns hreturned).2⟩
      rw [← hsame]
      exact hsafe (hreported.entered.mp hentered).2

theorem observed_recordObserved {handle : CoordinationHandle} (hsound : Sound handle)
    (config : Config) (now : ℕ) (display : DisplayId) (aliases : InputCodeAliases)
    (panelMismatch : Bool) (observed : UInt8) (panelState : Option PanelState) :
    Observed handle display
      (recordObserved config now display aliases panelMismatch observed panelState handle) := by
  unfold recordObserved
  split
  · exact observed_recordObservationAt hsound display none _ _ now
  · exact observed_recordObservationAt hsound display (some _) _ _ now

/-! ## The ledger -/

def roles : Vouchers.Roles Noted DisplayId where
  issues n display := n.event = .ownershipChanged display false true ∨
    ∃ observed, n.event = .ownershipReturned display observed
  spends n display := n.event = .notifyObservedGain display
  voids n display := n.event = .ownershipContested display ∨
    ∃ owned, n.event = .ownershipChanged display true owned

theorem issues_unique {n : Noted} {display other : DisplayId} (h : roles.issues n display)
    (h' : roles.issues n other) : display = other := by
  rcases h with h | ⟨observed, h⟩ <;> rcases h' with h' | ⟨observed', h'⟩ <;> rw [h] at h' <;>
    cases h' <;> rfl

/-- One voucher for each display that is deferred. -/
def deferredCount (s : PollState) (display : DisplayId) : ℕ :=
  if display ∈ s.pendingObservedGain then 1 else 0

/-- What has been noted, and what is deferred. -/
structure Ledger (log : List Noted) (s : PollState) (count : DisplayId → ℕ) : Prop where
  held : Vouchers.Held roles log count
  sound : Sound s.handle
  nodup : s.pendingObservedGain.Nodup
  owned : ∀ display ∈ s.pendingObservedGain, s.handle.owns display = true
  called : ∀ n ∈ log, ∀ display, n.event = .notifyObservedGain display →
    n.handle.owns display = true

theorem called_append {log later : List Noted}
    (h : ∀ n ∈ log, ∀ display, n.event = .notifyObservedGain display →
      n.handle.owns display = true)
    (hlater : ∀ n ∈ later, ∀ display, n.event = .notifyObservedGain display →
      n.handle.owns display = true) :
    ∀ n ∈ log ++ later, ∀ display, n.event = .notifyObservedGain display →
      n.handle.owns display = true := by
  intro n hn
  rcases List.mem_append.mp hn with hn | hn
  · exact h n hn
  · exact hlater n hn

/-- Neither a call of the hook nor a loss. -/
def PollEvent.quiet : PollEvent → Bool
  | notifyObservedGain _ => false
  | ownershipContested _ => false
  | ownershipChanged _ previousOwned _ => !previousOwned
  | _ => true

theorem spends_of_quiet {n : Noted} (h : n.event.quiet = true) (display : DisplayId) :
    ¬ roles.spends n display := by
  intro hspends
  rw [show n.event = .notifyObservedGain display from hspends] at h
  cases h

theorem voids_of_quiet {n : Noted} (h : n.event.quiet = true) (display : DisplayId) :
    ¬ roles.voids n display := by
  rintro (hvoids | ⟨owned, hvoids⟩)
  · rw [hvoids] at h
    cases h
  · rw [hvoids] at h
    cases h

namespace Ledger
variable {log : List Noted} {s : PollState} {count : DisplayId → ℕ} {display : DisplayId}

theorem mono (h : Ledger log s count) {count' : DisplayId → ℕ} (hle : ∀ d, count' d ≤ count d) :
    Ledger log s count' :=
  ⟨h.held.mono hle, h.sound, h.nodup, h.owned, h.called⟩

theorem edit (h : Ledger log s count) (edits : List Edit) : Ledger log (s.edit edits) count :=
  ⟨h.held, sound_edit h.sound edits, h.nodup, fun d hd => owns_edit (h.owned d hd) edits, h.called⟩

theorem quiets (h : Ledger log s count) {later : List Noted}
    (hquiet : ∀ n ∈ later, n.event.quiet = true) : Ledger (log ++ later) s count := by
  refine ⟨h.held.quiets fun n hn d => ?_, h.sound, h.nodup, h.owned,
    called_append h.called fun n hn d hevent => ?_⟩
  · exact ⟨spends_of_quiet (hquiet n hn) d, voids_of_quiet (hquiet n hn) d⟩
  · exact absurd hevent (spends_of_quiet (hquiet n hn) d)

theorem issue (h : Ledger log s count) {n : Noted} (hquiet : n.event.quiet = true)
    (hissues : roles.issues n display) :
    Ledger (log ++ [n]) s (Function.update count display (count display + 1)) := by
  refine ⟨h.held.issue (spends_of_quiet hquiet) (voids_of_quiet hquiet) hissues, h.sound, h.nodup,
    h.owned, called_append h.called fun n' hn' d hevent => ?_⟩
  obtain rfl := List.mem_singleton.mp hn'
  exact absurd hevent (spends_of_quiet hquiet d)

/-- The hook is called for an owned display with a voucher. -/
theorem call (h : Ledger log s count) (hcount : 0 < count display)
    (howns : s.handle.owns display = true) :
    Ledger (log ++ [s.note (.notifyObservedGain display)]) s
      (Function.update count display (count display - 1)) := by
  refine ⟨h.held.spend (fun d hd => ?_) (fun d hd => ?_) (fun _ _ _ => issues_unique) hcount,
    h.sound, h.nodup, h.owned, called_append h.called fun n hn d hevent => ?_⟩
  · exact (PollEvent.notifyObservedGain.inj hd).symm
  · rcases hd with hd | ⟨owned, hd⟩ <;> cases hd
  · obtain rfl := List.mem_singleton.mp hn
    obtain rfl := PollEvent.notifyObservedGain.inj hevent
    exact howns

theorem void (h : Ledger log s count) {n : Noted} (hspends : ∀ d, ¬ roles.spends n d)
    (hvoids : ∀ d, roles.voids n d → d = display) :
    Ledger (log ++ [n]) s (Function.update count display 0) := by
  refine ⟨h.held.void hspends hvoids, h.sound, h.nodup, h.owned,
    called_append h.called fun n' hn' d hevent => ?_⟩
  obtain rfl := List.mem_singleton.mp hn'
  exact absurd hevent (hspends d)

theorem removePending (h : Ledger log s count) (display : DisplayId) :
    Ledger log (s.removePending display) count := by
  refine ⟨h.held, h.sound, h.nodup.filter _, fun d hd => h.owned d ?_, h.called⟩
  exact List.mem_of_mem_filter hd

theorem insertPending (h : Ledger log s count) (howns : s.handle.owns display = true) :
    Ledger log (s.insertPending display) count := by
  refine ⟨h.held, h.sound, h.nodup.insert, fun d hd => ?_, h.called⟩
  rcases List.mem_insert_iff.mp hd with rfl | hd
  · exact howns
  · exact h.owned d hd

end Ledger

theorem deferredCount_removePending (s : PollState) (display other : DisplayId) :
    deferredCount (s.removePending display) other =
      if other = display then 0 else deferredCount s other := by
  unfold deferredCount PollState.removePending
  by_cases h : other = display <;> simp [h]

theorem deferredCount_insertPending (s : PollState) (display other : DisplayId) :
    deferredCount (s.insertPending display) other =
      if other = display then 1 else deferredCount s other := by
  unfold deferredCount PollState.insertPending
  by_cases h : other = display <;> simp [h]

/-! ## Calls -/

theorem ledger_fire {log : List Noted} {s : PollState} (config : Config) {display : DisplayId}
    (reply : QueryReply)
    (h : Ledger log s (Function.update (deferredCount s) display (deferredCount s display + 1)))
    (howns : s.handle.owns display = true) :
    let fired := fireObservedGainWithPresenceGate config display reply s
    Ledger (log ++ fired.2) fired.1 (deferredCount fired.1) := by
  have hspent {log : List Noted} {s : PollState}
      (h : Ledger log s (Function.update (deferredCount s) display (deferredCount s display + 1)))
      (howns : s.handle.owns display = true) :
      Ledger (log ++ [s.note (.notifyObservedGain display)]) s (deferredCount s) := by
    have hcalled := h.call (by rw [Function.update_self]; omega) howns
    rwa [Function.update_self, Nat.add_sub_cancel, Function.update_idem,
      Function.update_eq_self] at hcalled
  intro fired
  unfold fired fireObservedGainWithPresenceGate
  split
  · have hedit := h.edit reply.meanwhile
    have howns' := owns_edit howns reply.meanwhile
    dsimp only
    split
    · refine ((hedit.insertPending howns').quiets fun n hn => ?_).mono fun d => ?_
      · rw [List.mem_singleton.mp hn]
        rfl
      · rw [deferredCount_insertPending]
        by_cases hd : d = display
        · subst hd
          rw [if_pos rfl, Function.update_self]
          omega
        · rw [if_neg hd, Function.update_of_ne hd]
          exact le_rfl
    · exact hspent hedit howns'
    · rw [List.append_cons]
      refine hspent (hedit.quiets fun n hn => ?_) howns'
      rw [List.mem_singleton.mp hn]
      rfl
  · exact hspent h howns

/-- A deferred display leaves the set when its hook is called. -/
theorem ledger_drainOne {log : List Noted} {s : PollState} (config : Config)
    (ownedNow : DisplayId → Bool) {display : DisplayId} (reply : QueryReply)
    (h : Ledger log s (deferredCount s)) (hmem : display ∈ s.pendingObservedGain)
    (howned : ownedNow display = true → s.handle.owns display = true) :
    let drained := drainOne config ownedNow display reply s
    Ledger (log ++ drained.2) drained.1 (deferredCount drained.1) := by
  have hremoved {log : List Noted} {s : PollState} {count : DisplayId → ℕ}
      (h : Ledger log s count) (hcount : ∀ d, d ≠ display → deferredCount s d ≤ count d) :
      Ledger log (s.removePending display) (deferredCount (s.removePending display)) := by
    refine (h.removePending display).mono fun d => ?_
    rw [deferredCount_removePending]
    split
    · exact Nat.zero_le _
    · exact hcount d ‹_›
  have hdropped : Ledger (log ++ []) (s.removePending display)
      (deferredCount (s.removePending display)) := by
    rw [List.append_nil]
    exact hremoved h fun d _ => le_rfl
  intro drained
  unfold drained drainOne
  split
  · exact hdropped
  · split
    · exact hdropped
    · split
      · exact hdropped
      · split
        · exact hdropped
        · rename_i hnow
          have howns := owns_edit (howned (by simpa using hnow)) reply.meanwhile
          have hedit := h.edit reply.meanwhile
          have hcount : deferredCount s display = 1 := if_pos hmem
          have hcalled {log : List Noted} (h : Ledger log (s.edit reply.meanwhile)
              (deferredCount s)) :
              Ledger (log ++ [(s.edit reply.meanwhile).note (.notifyObservedGain display)])
                ((s.edit reply.meanwhile).removePending display)
                (deferredCount ((s.edit reply.meanwhile).removePending display)) := by
            refine hremoved (h.call (by rw [hcount]; exact Nat.one_pos) howns) fun d hd => ?_
            rw [Function.update_of_ne hd]
            exact le_rfl
          dsimp only
          split
          · rw [List.append_nil]
            exact hedit
          · rw [List.append_cons]
            refine (hcalled hedit).quiets fun n hn => ?_
            rw [List.mem_singleton.mp hn]
            rfl
          · rw [List.append_cons]
            refine hcalled (hedit.quiets fun n hn => ?_)
            rw [List.mem_singleton.mp hn]
            rfl

theorem owns_drainOne {s : PollState} (config : Config) (ownedNow : DisplayId → Bool)
    (display : DisplayId) (reply : QueryReply) {other : DisplayId}
    (h : s.handle.owns other = true) :
    (drainOne config ownedNow display reply s).1.handle.owns other = true := by
  unfold drainOne
  split
  · exact h
  · split
    · exact h
    · split
      · exact h
      · split
        · exact h
        · have hedit := owns_edit h reply.meanwhile
          dsimp only
          split
          · exact hedit
          · exact hedit
          · exact hedit

theorem pending_drainOne {s : PollState} (config : Config) (ownedNow : DisplayId → Bool)
    {display other : DisplayId} (reply : QueryReply) (hne : other ≠ display)
    (h : other ∈ s.pendingObservedGain) :
    other ∈ (drainOne config ownedNow display reply s).1.pendingObservedGain := by
  have hkept (s : PollState) (h : other ∈ s.pendingObservedGain) :
      other ∈ (s.removePending display).pendingObservedGain :=
    List.mem_filter.mpr ⟨h, decide_eq_true hne⟩
  unfold drainOne
  split
  · exact hkept s h
  · split
    · exact hkept s h
    · split
      · exact hkept s h
      · split
        · exact hkept s h
        · have hedit : other ∈ (s.edit reply.meanwhile).pendingObservedGain := h
          dsimp only
          split
          · exact hedit
          · exact hkept _ hedit
          · exact hkept _ hedit

theorem inTurn_invariant {α : Type} {f : α → PollState → PollState × List Noted}
    {I : List α → List Noted → PollState → Prop}
    (hstep : ∀ a as log s, I (a :: as) log s → I as (log ++ (f a s).2) (f a s).1) (as : List α)
    {log : List Noted} {s : PollState} (h : I as log s) :
    I [] (log ++ (inTurn f as s).2) (inTurn f as s).1 := by
  induction as generalizing log s with
  | nil =>
    unfold inTurn
    rw [List.append_nil]
    exact h
  | cons a as ih =>
    have hrest := ih (hstep a as log s h)
    rw [List.append_assoc] at hrest
    exact hrest

theorem ledger_drain {log : List Noted} {s : PollState} (t : Tick)
    (h : Ledger log s (deferredCount s)) :
    let drained := drainPendingObservedGain t s
    Ledger (log ++ drained.2) drained.1 (deferredCount drained.1) := by
  intro drained
  unfold drained drainPendingObservedGain
  dsimp only
  generalize hnow : (fun display => (s.handle.records display).any (·.owned)) = ownedNow
  have howned (display : DisplayId) (hdisplay : ownedNow display = true) :
      s.handle.owns display = true := by
    subst hnow
    unfold owns
    dsimp only at hdisplay
    cases hrecord : s.handle.records display with
    | none => rfl
    | some record =>
      rw [hrecord] at hdisplay
      exact hdisplay
  have hperm := t.order_perm s.pendingObservedGain
  have hstart : Ledger log s (deferredCount s) ∧ (t.order s.pendingObservedGain).Nodup ∧
      (∀ display ∈ t.order s.pendingObservedGain, display ∈ s.pendingObservedGain) ∧
      ∀ display, ownedNow display = true → s.handle.owns display = true :=
    ⟨h, hperm.nodup_iff.mpr h.nodup, fun display hd => hperm.mem_iff.mp hd, howned⟩
  refine (inTurn_invariant (I := fun as log s => Ledger log s (deferredCount s) ∧ as.Nodup ∧
      (∀ display ∈ as, display ∈ s.pendingObservedGain) ∧
      ∀ display, ownedNow display = true → s.handle.owns display = true) ?_ _ hstart).1
  rintro display rest log s ⟨h, hnodup, hmem, howned⟩
  obtain ⟨hfresh, hnodup⟩ := List.nodup_cons.mp hnodup
  refine ⟨?_, hnodup, fun other hother => ?_, fun other hother => ?_⟩
  · exact ledger_drainOne t.config ownedNow _ h (hmem display List.mem_cons_self) (howned display)
  · have hne : other ≠ display := fun heq => hfresh (heq ▸ hother)
    exact pending_drainOne t.config ownedNow _ hne (hmem other (List.mem_cons_of_mem _ hother))
  · exact owns_drainOne t.config ownedNow display _ (howned other hother)

/-- A contested hold voids what the display has. -/
theorem ledger_hold {log : List Noted} {s : PollState} {count : DisplayId → ℕ}
    (display : DisplayId) (entered settled : Bool) (h : Ledger log s count) :
    Ledger (log ++ ((if entered then [s.note (.ownershipContested display)] else []) ++
        (if settled then [s.note (.ownershipSettled display)] else []))) s
      (if entered then Function.update count display 0 else count) := by
  have hsettled {log : List Noted} {count : DisplayId → ℕ} (h : Ledger log s count) :
      Ledger (log ++ (if settled then [s.note (.ownershipSettled display)] else [])) s count := by
    refine h.quiets fun n hn => ?_
    split at hn
    · rw [List.mem_singleton.mp hn]
      rfl
    · cases hn
  rw [← List.append_assoc]
  cases entered with
  | true =>
    refine hsettled (h.void (fun d hd => (by cases hd)) fun d hd => ?_)
    rcases hd with hd | ⟨owned, hd⟩
    · exact (PollEvent.ownershipContested.inj hd).symm
    · cases hd
  | false =>
    rw [if_neg Bool.false_ne_true, if_neg Bool.false_ne_true, List.append_nil]
    exact hsettled h

section
variable {log : List Noted} {s : PollState} {display : DisplayId}
  {recorded : CoordinationHandle × InputObservationOutcome}

/-- The other deferred displays are as they were. -/
theorem owned_elsewhere (h : Ledger log s (deferredCount s))
    (hobserved : Observed s.handle display recorded) {other : DisplayId} (hne : other ≠ display)
    (hother : other ∈ s.pendingObservedGain) : recorded.1.owns other = true := by
  have howned := h.owned other hother
  unfold owns at *
  rw [hobserved.elsewhere other hne]
  exact howned

theorem ledger_lost (h : Ledger log s (deferredCount s))
    (hobserved : Observed s.handle display recorded) :
    Ledger log ({ s with handle := recorded.1 }.removePending display) (deferredCount s) := by
  refine ⟨h.held, hobserved.sound, h.nodup.filter _, fun other hother => ?_, h.called⟩
  obtain ⟨hmem, hne⟩ := List.mem_filter.mp hother
  exact owned_elsewhere h hobserved (of_decide_eq_true hne) hmem

theorem ledger_recorded (h : Ledger log s (deferredCount s))
    (hobserved : Observed s.handle display recorded)
    (hlost : recorded.2.committedPriorOwned ≠ some true) :
    Ledger log { s with handle := recorded.1 } (deferredCount s) := by
  refine ⟨h.held, hobserved.sound, h.nodup, fun other hother => ?_, h.called⟩
  by_cases hne : other = display
  · subst hne
    show recorded.1.owns other = true
    cases hcommitted : recorded.2.committedPriorOwned with
    | none => exact (hobserved.kept hcommitted).1.trans (h.owned other hother)
    | some prior =>
      cases prior with
      | true => exact absurd hcommitted hlost
      | false => exact (hobserved.gained hcommitted).2.1
  · exact owned_elsewhere h hobserved hne hother

end

section
variable {log : List Noted} {s : PollState} {display : DisplayId}
  {outcome : InputObservationOutcome} (config : Config) (turn : Turn) (panelMismatch : Bool)
  (observed : UInt8) (isLocal : Bool)

theorem hold_idle (h : Ledger log s (deferredCount s))
    (hentered : outcome.enteredContested = true → deferredCount s display = 0) :
    Ledger (log ++ ((if outcome.enteredContested then [s.note (.ownershipContested display)]
      else []) ++ (if outcome.settled then [s.note (.ownershipSettled display)] else []))) s
      (deferredCount s) := by
  have hhold := ledger_hold display outcome.enteredContested outcome.settled h
  cases hcontested : outcome.enteredContested with
  | true =>
    rw [hcontested, if_pos rfl (t := Function.update _ _ _), ← hentered hcontested,
      Function.update_eq_self] at hhold
    exact hhold
  | false =>
    rw [hcontested] at hhold
    exact hhold

/-- Without a change, a return calls the hook or defers it. -/
theorem ledger_kept (h : Ledger log s (deferredCount s))
    (hcommitted : outcome.committedPriorOwned = none)
    (hentered : outcome.enteredContested = true → deferredCount s display = 0)
    (hreturned : outcome.observedReturn = true → s.handle.owns display = true) :
    let reported := reportOutcome config display turn panelMismatch observed isLocal outcome s
    Ledger (log ++ reported.2) reported.1 (deferredCount reported.1) := by
  have hhold := hold_idle h hentered
  intro reported
  unfold reported reportOutcome
  rw [hcommitted]
  dsimp only
  generalize (if outcome.enteredContested then [s.note (.ownershipContested display)] else []) ++
    (if outcome.settled then [s.note (.ownershipSettled display)] else []) = hold at *
  rw [List.append_nil]
  by_cases hreturn : outcome.observedReturn = true
  · rw [if_pos hreturn]
    have hissued := hhold.issue
      (n := s.note (.ownershipReturned display observed)) rfl (.inr ⟨observed, rfl⟩)
    have hfired := ledger_fire config turn.returnReply hissued (hreturned hreturn)
    simpa only [List.append_assoc, List.cons_append, List.nil_append] using hfired
  · rw [if_neg hreturn, List.append_nil]
    exact hhold

theorem ledger_gained (h : Ledger log s (deferredCount s))
    (hcommitted : outcome.committedPriorOwned = some false)
    (hentered : outcome.enteredContested = false) (hquiet : outcome.observedReturn = false)
    (howns : s.handle.owns display = true) :
    let reported := reportOutcome config display turn panelMismatch observed isLocal outcome s
    Ledger (log ++ reported.2) reported.1 (deferredCount reported.1) := by
  have hnever : outcome.enteredContested = true → deferredCount s display = 0 := fun htrue => by
    rw [hentered] at htrue
    cases htrue
  have hhold := hold_idle h hnever
  intro reported
  unfold reported reportOutcome
  rw [hcommitted, hquiet]
  dsimp only
  generalize (if outcome.enteredContested then [s.note (.ownershipContested display)] else []) ++
    (if outcome.settled then [s.note (.ownershipSettled display)] else []) = hold at *
  rw [if_neg Bool.false_ne_true, if_neg Bool.false_ne_true, List.append_nil]
  cases howned : !panelMismatch && isLocal with
  | true =>
    rw [if_pos rfl]
    dsimp only
    have hissued := hhold.issue
      (n := s.note (.ownershipChanged display false true)) rfl (.inl rfl)
    have htold := hissued.quiets fun n (hn : n ∈ [s.note (.ownershipPoll display),
        s.note (.publishOwnership display true
          (if panelMismatch then none else some observed))]) => by
      rcases List.mem_cons.mp hn with rfl | hn
      · rfl
      · rw [List.mem_singleton.mp hn]
        rfl
    have hfired := ledger_fire config turn.gainReply (htold.edit turn.sending)
      (owns_edit howns turn.sending)
    simpa only [List.append_assoc, List.cons_append, List.nil_append] using hfired
  | false =>
    rw [if_neg Bool.false_ne_true]
    dsimp only
    rw [← List.append_assoc]
    refine (hhold.quiets fun n hn => ?_).edit turn.sending
    rcases List.mem_cons.mp hn with rfl | hn
    · rfl
    · rcases List.mem_cons.mp hn with rfl | hn
      · rfl
      · rw [List.mem_singleton.mp hn]
        rfl

/-- A loss drops what was deferred. -/
theorem ledger_loses {count : DisplayId → ℕ} (h : Ledger log (s.removePending display) count)
    (hcount : ∀ other, other ≠ display → deferredCount s other ≤ count other)
    (hcommitted : outcome.committedPriorOwned = some true)
    (hquiet : outcome.observedReturn = false) :
    let reported := reportOutcome config display turn panelMismatch observed isLocal outcome s
    Ledger (log ++ reported.2) reported.1 (deferredCount reported.1) := by
  have hhold := ledger_hold display outcome.enteredContested outcome.settled h
  intro reported
  unfold reported reportOutcome
  rw [hcommitted, hquiet]
  dsimp only
  rw [if_pos rfl, if_neg Bool.false_ne_true, List.append_nil]
  dsimp only
  change Ledger (log ++ ((if outcome.enteredContested then [s.note (.ownershipContested display)]
    else []) ++ (if outcome.settled then [s.note (.ownershipSettled display)] else []))) _ _
    at hhold
  generalize (if outcome.enteredContested then [s.note (.ownershipContested display)] else []) ++
    (if outcome.settled then [s.note (.ownershipSettled display)] else []) = hold at *
  have hvoided := hhold.void
    (n := s.note (.ownershipChanged display true (!panelMismatch && isLocal)))
    (fun d hd => (by cases hd)) fun d hd => by
      rcases hd with hd | ⟨owned, hd⟩
      · cases hd
      · exact ((PollEvent.ownershipChanged.inj hd).1).symm
  have htold := (hvoided.edit turn.sending).quiets fun n
      (hn : n ∈ [s.note (.ownershipPoll display),
        s.note (.publishOwnership display (!panelMismatch && isLocal)
          (if panelMismatch then none else some observed)),
        (s.edit turn.sending).note (.notifyObservedLoss display)]) => by
    rcases List.mem_cons.mp hn with rfl | hn
    · rfl
    · rcases List.mem_cons.mp hn with rfl | hn
      · rfl
      · rw [List.mem_singleton.mp hn]
        rfl
  have hle (other : DisplayId) :
      deferredCount ((s.edit turn.sending).removePending display) other ≤
        Function.update (if outcome.enteredContested then Function.update count display 0
          else count) display 0 other := by
    rw [deferredCount_removePending]
    by_cases hne : other = display
    · rw [if_pos hne]
      exact Nat.zero_le _
    · rw [if_neg hne, Function.update_of_ne hne]
      split
      · rw [Function.update_of_ne hne]
        exact hcount other hne
      · exact hcount other hne
  have hdone := htold.mono hle
  change Ledger _ ((s.edit turn.sending).removePending display) _ at hdone
  simpa only [List.append_assoc, List.cons_append, List.nil_append] using hdone

end

theorem ledger_reportOutcome {log : List Noted} {s : PollState} {display : DisplayId}
    {recorded : CoordinationHandle × InputObservationOutcome}
    (h : Ledger log s (deferredCount s)) (hobserved : Observed s.handle display recorded)
    (config : Config) (turn : Turn) (panelMismatch : Bool) (observed : UInt8) (isLocal : Bool) :
    let reported := reportOutcome config display turn panelMismatch observed isLocal recorded.2
      { s with handle := recorded.1 }
    Ledger (log ++ reported.2) reported.1 (deferredCount reported.1) := by
  cases hcommitted : recorded.2.committedPriorOwned with
  | none =>
    obtain ⟨-, hentered, hreturned⟩ := hobserved.kept hcommitted
    refine ledger_kept config turn panelMismatch observed isLocal
      (ledger_recorded h hobserved (by rw [hcommitted]; simp)) hcommitted (fun hcontested => ?_)
      hreturned
    refine if_neg fun hmem => ?_
    have howned := h.owned display hmem
    rw [hentered hcontested] at howned
    cases howned
  | some prior =>
    cases prior with
    | true =>
      exact ledger_loses config turn panelMismatch observed isLocal (ledger_lost h hobserved)
        (fun _ _ => le_rfl) hcommitted (hobserved.lost hcommitted)
    | false =>
      obtain ⟨-, howns, hentered, hquiet⟩ := hobserved.gained hcommitted
      exact ledger_gained config turn panelMismatch observed isLocal
        (ledger_recorded h hobserved (by rw [hcommitted]; simp)) hcommitted hentered hquiet howns

theorem ledger_recordFailure {log : List Noted} {s : PollState}
    (h : Ledger log s (deferredCount s)) (display : DisplayId) :
    Ledger (log ++ []) { s with handle := s.handle.recordFailure display } (deferredCount s) := by
  rw [List.append_nil]
  refine ⟨h.held, sound_modify display (fun _ hsafe => hsafe) h.sound, h.nodup, fun d hd => ?_,
    h.called⟩
  exact owns_modify display (fun _ howned => howned) (h.owned d hd)

theorem readPanelState_eq (config : Config) (now : ℕ) (prior : DisplayId → Option CoordRecord)
    (display : DisplayId) (turn : Turn) (panelMismatch : Bool) (s : PollState) :
    ∃ lastStateRead,
      (readPanelState config now prior display turn panelMismatch s).1 =
        { s with lastStateRead := lastStateRead } := by
  unfold readPanelState
  dsimp only
  split
  · exact ⟨_, rfl⟩
  · split
    · split
      · exact ⟨_, rfl⟩
      · exact ⟨_, rfl⟩
    · exact ⟨_, rfl⟩

theorem ledger_pollDisplay {log : List Noted} {s : PollState} (t : Tick)
    (prior : DisplayId → Option CoordRecord) (entry : DisplayId × DisplayConfig)
    (h : Ledger log s (deferredCount s)) :
    let polled := pollDisplay t prior entry s
    Ledger (log ++ polled.2) polled.1 (deferredCount polled.1) := by
  have hidle : Ledger (log ++ []) s (deferredCount s) := by
    rw [List.append_nil]
    exact h
  intro polled
  unfold polled pollDisplay
  dsimp only
  split
  · exact hidle
  · split
    · exact hidle
    · split
      · exact hidle
      · rename_i expected _ _
        generalize (entry.2.panel t.toLowercase (t.turns entry.1).identity).isMismatch = mismatch
        obtain ⟨lastStateRead, hread⟩ := readPanelState_eq t.config t.now prior entry.1
          (t.turns entry.1) mismatch (s.edit (t.turns entry.1).reading)
        have hedit := h.edit (t.turns entry.1).reading
        have hledger : Ledger log { s.edit (t.turns entry.1).reading with
            lastStateRead := lastStateRead } (deferredCount s) :=
          ⟨hedit.held, hedit.sound, hedit.nodup, hedit.owned, hedit.called⟩
        rw [hread]
        split
        · split
          · exact ledger_recordFailure hledger entry.1
          · exact ledger_reportOutcome hledger (observed_recordObserved hledger.sound _ _ _ _ _ _ _)
              t.config (t.turns entry.1) mismatch _ _
        · exact ledger_recordFailure hledger entry.1

theorem ledger_pollOnce {log : List Noted} {s : PollState} (t : Tick)
    (h : Ledger log s (deferredCount s)) :
    Ledger (log ++ (pollOnce t s).2) (pollOnce t s).1 (deferredCount (pollOnce t s).1) := by
  unfold pollOnce
  split
  · rw [List.append_nil]
    exact h
  · dsimp only
    have hdrained := ledger_drain t h
    dsimp only at hdrained
    generalize drainPendingObservedGain t s = drained at *
    have hpolled := inTurn_invariant (f := pollDisplay t drained.1.handle.records)
      (I := fun _ log s => Ledger log s (deferredCount s))
      (fun entry _ log s h => ledger_pollDisplay t drained.1.handle.records entry h)
      t.config.displays hdrained
    generalize inTurn (pollDisplay t drained.1.handle.records) t.config.displays drained.1 =
      polled at *
    rw [← List.append_assoc]
    refine ⟨hpolled.held.mono fun d => ?_, hpolled.sound, hpolled.nodup.filter _, fun d hd => ?_,
      hpolled.called⟩
    · unfold deferredCount
      dsimp only
      split
      · rename_i hmem
        rw [if_pos (List.mem_of_mem_filter hmem)]
      · exact Nat.zero_le _
    · exact hpolled.owned d (List.mem_of_mem_filter hd)

theorem ledger_next {log : List Noted} {s : PollState} (step : PollerStep)
    (h : Ledger log s (deferredCount s)) :
    Ledger (log ++ (poller.next s step).2) (poller.next s step).1
      (deferredCount (poller.next s step).1) := by
  cases step with
  | tick t => exact ledger_pollOnce t h
  | edited e =>
    show Ledger (log ++ []) (s.edit [e]) (deferredCount s)
    rw [List.append_nil]
    exact h.edit [e]
  | respawned =>
    show Ledger (log ++ []) (.spawned s.handle) _
    rw [List.append_nil]
    refine ⟨h.held.mono fun d => Nat.zero_le _, h.sound, List.nodup_nil, fun d hd => ?_, h.called⟩
    cases hd

theorem sound_new (shared : List DisplayId) : Sound (.new shared) := by
  intro display record hrecord
  unfold CoordinationHandle.new at hrecord
  dsimp only at hrecord
  split at hrecord
  · obtain rfl := Option.some.inj hrecord
    exact fun hc => by cases hc
  · cases hrecord

theorem ledger_run (shared : List DisplayId) (steps : List PollerStep) :
    Ledger (poller.outputs (.spawned (.new shared)) steps)
      (poller.run (.spawned (.new shared)) steps)
      (deferredCount (poller.run (.spawned (.new shared)) steps)) := by
  have hstart : Ledger [] (.spawned (.new shared)) (deferredCount (.spawned (.new shared))) := by
    refine ⟨Vouchers.held_nil roles, sound_new shared, List.nodup_nil, fun d hd => ?_,
      fun n hn => ?_⟩
    · cases hd
    · cases hn
  have hnext (log : List Noted) (s : PollState) (step : PollerStep)
      (h : Ledger log s (deferredCount s)) :
      Ledger (log ++ (poller.next s step).2) (poller.next s step).1
        (deferredCount (poller.next s step).1) :=
    ledger_next step h
  exact Runs.System.outputs_invariant hnext hstart steps

end Dormant.Polling
