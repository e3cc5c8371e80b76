import Dormant.Coordination.Record
import Dormant.Foundations.Runs
import Mathlib.Data.List.Induction

/-!
# Returns from the peer

A panel that shows the peer for a moment and comes back before a loss is committed is announced
once. `tracking` is this in its own terms, a count of local reads since the last other one, and a
record that stays owned follows it.
-/

namespace Dormant
set_option autoImplicit false

/-- What the poller does to a record. -/
inductive CoordRead where
  | observe (observation : Option InputObservation) (policy : OwnershipFlapPolicy) (now : ℕ)
  | failed

inductive ReadKind where
  | localRead
  | peerRead
  | otherRead
  | failure
  deriving DecidableEq

def InputSourceObservation.kind : InputSourceObservation → ReadKind
  | .localInput => .localRead
  | .peerInput => .peerRead
  | .unknown _ => .otherRead

/-- Either local alias is local. A connector mismatch is an unknown code. -/
def CoordRead.kind : CoordRead → ReadKind
  | observe (some input) _ _ => (input.aliases.classify input.observed).kind
  | observe none _ _ => .otherRead
  | failed => .failure

def watching (confirmations : UInt32) :
    Runs.System CoordRecord CoordRead InputObservationOutcome where
  next record
    | .observe observation policy now =>
      let recorded := record.recordObservationAt observation confirmations policy now
      (recorded.1, [recorded.2])
    | .failed => (record.recordFailure, [.default])

/-! ## Excursions -/

/-- Local reads since the last other one. -/
def countLocal (n : ℕ) (read : CoordRead) : ℕ :=
  match read.kind with
  | .localRead => n + 1
  | .failure => n
  | _ => 0

def localRun (reads : List CoordRead) : ℕ := reads.foldl countLocal 0

/-- It begins with a sighting of the peer, and no part of it ends with enough local reads. -/
structure Open (limit : ℕ) (reads : List CoordRead) : Prop where
  begins : ∃ first rest, reads = first :: rest ∧ first.kind = .peerRead
  short : ∀ before, before <+: reads → localRun before < limit

/-- It begins with a sighting of the peer and ends with the first run of enough local reads. -/
structure Excursion (limit : ℕ) (reads : List CoordRead) : Prop where
  begins : ∃ first rest, reads = first :: rest ∧ first.kind = .peerRead
  ends : localRun reads = limit
  short : ∀ before, before <+: reads → before ≠ reads → localRun before < limit

/-- Every excursion in it is over. -/
inductive AtHome (limit : ℕ) : List CoordRead → Prop
  | nil : AtHome limit []
  | calm {reads : List CoordRead} {read : CoordRead} (home : AtHome limit reads)
      (unseen : read.kind ≠ .peerRead) : AtHome limit (reads ++ [read])
  | excursion {reads stretch : List CoordRead} (home : AtHome limit reads)
      (ended : Excursion limit stretch) : AtHome limit (reads ++ stretch)

/-! ## The count -/

/-- Since a sighting, the local reads in a row. -/
def advance (limit : ℕ) : Option ℕ → ReadKind → Option ℕ × Bool
  | none, .peerRead => (some 0, false)
  | none, _ => (none, false)
  | some n, .localRead => if limit ≤ n + 1 then (none, true) else (some (n + 1), false)
  | some n, .failure => (some n, false)
  | some _, _ => (some 0, false)

def tracking (limit : ℕ) : Runs.System (Option ℕ) CoordRead Bool where
  next count read := ((advance limit count read.kind).1, [(advance limit count read.kind).2])

theorem advance_local (limit n : ℕ) :
    advance limit (some n) .localRead =
      if limit ≤ n + 1 then (none, true) else (some (n + 1), false) :=
  rfl

theorem localRun_concat (reads : List CoordRead) (read : CoordRead) :
    localRun (reads ++ [read]) = countLocal (localRun reads) read := by
  unfold localRun
  rw [List.foldl_append]
  rfl

section
variable {limit : ℕ}

theorem Open.of_concat {reads : List CoordRead} {read : CoordRead} (hne : reads ≠ [])
    (h : Open limit (reads ++ [read])) : Open limit reads := by
  obtain ⟨⟨first, rest, heq, hkind⟩, hshort⟩ := h
  refine ⟨?_, fun before hbefore => hshort before (hbefore.trans (List.prefix_append _ _))⟩
  cases reads with
  | nil => exact absurd rfl hne
  | cons head tail =>
    rw [List.cons_append, List.cons.injEq] at heq
    exact ⟨head, tail, rfl, heq.1 ▸ hkind⟩

/-- While it is open, nothing is announced. -/
theorem tracking_open {reads : List CoordRead} (h : Open limit reads) :
    (tracking limit).run none reads = some (localRun reads) ∧
      (tracking limit).outputs none reads = List.replicate reads.length false := by
  induction reads using List.reverseRecOn with
  | nil =>
    obtain ⟨first, rest, heq, -⟩ := h.begins
    cases heq
  | append_singleton reads read ih =>
    have hlt := h.short _ (List.prefix_refl _)
    rw [localRun_concat] at hlt
    rw [Runs.System.run_append, Runs.System.outputs_append, localRun_concat, List.length_append,
      List.replicate_add]
    by_cases hne : reads = []
    · subst hne
      obtain ⟨first, rest, heq, hkind⟩ := h.begins
      obtain ⟨rfl, -⟩ := List.cons.inj heq
      unfold countLocal
      simp [tracking, Runs.System.run, Runs.System.outputs, hkind, advance]
    · obtain ⟨hrun, houtputs⟩ := ih (h.of_concat hne)
      rw [hrun, houtputs]
      unfold countLocal at hlt ⊢
      cases hkind : read.kind with
      | localRead =>
        rw [hkind] at hlt
        simp [tracking, Runs.System.run, Runs.System.outputs, hkind, advance, not_le.mpr hlt]
      | peerRead => simp [tracking, Runs.System.run, Runs.System.outputs, hkind, advance]
      | otherRead => simp [tracking, Runs.System.run, Runs.System.outputs, hkind, advance]
      | failure => simp [tracking, Runs.System.run, Runs.System.outputs, hkind, advance]

/-- An excursion is an open one and the local read that ends it. -/
theorem Excursion.split {reads : List CoordRead} (hlimit : 1 ≤ limit) (h : Excursion limit reads) :
    ∃ before last, reads = before ++ [last] ∧ Open limit before ∧ last.kind = .localRead ∧
      localRun before + 1 = limit := by
  obtain ⟨first, rest, heq, hkind⟩ := h.begins
  rcases List.eq_nil_or_concat' reads with hnil | ⟨before, last, rfl⟩
  · rw [hnil] at heq
    cases heq
  · have hends := h.ends
    rw [localRun_concat] at hends
    have hlt := h.short before (List.prefix_append _ _) (by simp)
    have hlast : last.kind = .localRead := by
      unfold countLocal at hends
      cases hlast : last.kind <;> rw [hlast] at hends <;> simp only at hends <;> omega
    have hrun : localRun before + 1 = limit := by
      unfold countLocal at hends
      rw [hlast] at hends
      exact hends
    have hne : before ≠ [] := by
      intro hnil
      subst hnil
      obtain ⟨rfl, -⟩ := List.cons.inj heq
      rw [hlast] at hkind
      cases hkind
    refine ⟨before, last, rfl, ⟨?_, ?_⟩, hlast, hrun⟩
    · cases before with
      | nil => exact absurd rfl hne
      | cons head tail =>
        rw [List.cons_append, List.cons.injEq] at heq
        exact ⟨head, tail, rfl, heq.1 ▸ hkind⟩
    · intro start hstart
      refine h.short start (hstart.trans (List.prefix_append _ _)) fun hall => ?_
      have hle := hstart.length_le
      rw [hall, List.length_append, List.length_singleton] at hle
      omega

theorem tracking_excursion {reads : List CoordRead} (hlimit : 1 ≤ limit)
    (h : Excursion limit reads) :
    (tracking limit).run none reads = none ∧
      (tracking limit).outputs none reads =
        List.replicate (reads.length - 1) false ++ [true] := by
  obtain ⟨before, last, rfl, hopen, hlast, hrun⟩ := h.split hlimit
  obtain ⟨hcount, houtputs⟩ := tracking_open hopen
  rw [Runs.System.run_append, Runs.System.outputs_append, hcount, houtputs, List.length_append]
  have hended : advance limit (some (localRun before)) last.kind = (none, true) := by
    rw [hlast]
    exact if_pos (le_of_eq hrun.symm)
  simp [tracking, Runs.System.run, Runs.System.outputs, hended]

theorem tracking_home {reads : List CoordRead} (hlimit : 1 ≤ limit) (h : AtHome limit reads) :
    (tracking limit).run none reads = none := by
  induction h with
  | nil => rfl
  | @calm reads read _ hunseen ih =>
    rw [Runs.System.run_append, ih]
    show (advance limit none read.kind).1 = none
    cases hkind : read.kind with
    | peerRead => exact absurd hkind hunseen
    | localRead => rfl
    | otherRead => rfl
    | failure => rfl
  | excursion _ hover ih =>
    rw [Runs.System.run_append, ih]
    exact (tracking_excursion hlimit hover).1

/-- Where a run stands: at home, or in an open excursion. -/
def Stands (limit : ℕ) (reads : List CoordRead) : Option ℕ → Prop
  | none => AtHome limit reads
  | some n => ∃ home stretch, reads = home ++ stretch ∧ AtHome limit home ∧ Open limit stretch ∧
      localRun stretch = n

/-- A sighting opens an excursion. -/
theorem open_singleton (hlimit : 1 ≤ limit) {read : CoordRead} (h : read.kind = .peerRead) :
    Open limit [read] := by
  refine ⟨⟨read, [], rfl, h⟩, fun before hbefore => ?_⟩
  cases (List.prefix_concat_iff.mp (by simpa using hbefore : before <+: [] ++ [read])) with
  | inl hsame =>
    rw [hsame]
    show countLocal 0 read < limit
    unfold countLocal
    rw [h]
    exact hlimit
  | inr hnil =>
    rw [List.prefix_nil.mp hnil]
    exact hlimit

theorem Open.concat {reads : List CoordRead} {read : CoordRead} (h : Open limit reads)
    (hlt : countLocal (localRun reads) read < limit) : Open limit (reads ++ [read]) := by
  obtain ⟨first, rest, rfl, hkind⟩ := h.begins
  refine ⟨⟨first, rest ++ [read], rfl, hkind⟩, fun before hbefore => ?_⟩
  cases List.prefix_concat_iff.mp hbefore with
  | inl hall =>
    rw [hall, localRun_concat]
    exact hlt
  | inr hpart => exact h.short before hpart

theorem Open.excursion {reads : List CoordRead} {read : CoordRead} (h : Open limit reads)
    (hends : countLocal (localRun reads) read = limit) : Excursion limit (reads ++ [read]) := by
  obtain ⟨first, rest, rfl, hkind⟩ := h.begins
  refine ⟨⟨first, rest ++ [read], rfl, hkind⟩, ?_, fun before hbefore hproper => ?_⟩
  · rw [localRun_concat]
    exact hends
  · cases List.prefix_concat_iff.mp hbefore with
    | inl hall => exact absurd hall hproper
    | inr hpart => exact h.short before hpart

/-- One more read, and what is announced of it. -/
theorem Stands.next (hlimit : 1 ≤ limit) {reads : List CoordRead} {count : Option ℕ}
    (h : Stands limit reads count) (read : CoordRead) :
    Stands limit (reads ++ [read]) (advance limit count read.kind).1 ∧
      ((advance limit count read.kind).2 = true →
        ∃ home stretch, reads ++ [read] = home ++ stretch ∧ AtHome limit home ∧
          Excursion limit stretch) := by
  cases count with
  | none =>
    have hcalm (hunseen : read.kind ≠ .peerRead) : AtHome limit (reads ++ [read]) :=
      .calm h hunseen
    cases hkind : read.kind with
    | peerRead =>
      refine ⟨⟨reads, [read], rfl, h, open_singleton hlimit hkind, ?_⟩, fun hfalse => ?_⟩
      · show countLocal 0 read = 0
        unfold countLocal
        rw [hkind]
      · cases hfalse
    | localRead => exact ⟨hcalm (by rw [hkind]; simp), fun hfalse => (by cases hfalse)⟩
    | otherRead => exact ⟨hcalm (by rw [hkind]; simp), fun hfalse => (by cases hfalse)⟩
    | failure => exact ⟨hcalm (by rw [hkind]; simp), fun hfalse => (by cases hfalse)⟩
  | some n =>
    obtain ⟨home, stretch, rfl, hhome, hopen, rfl⟩ := h
    have hlt := hopen.short stretch (List.prefix_refl _)
    have hstays (m : ℕ) (hm : countLocal (localRun stretch) read = m) (hless : m < limit) :
        Stands limit (home ++ stretch ++ [read]) (some m) := by
      refine ⟨home, stretch ++ [read], List.append_assoc _ _ _, hhome, ?_, ?_⟩
      · exact hopen.concat (hm ▸ hless)
      · rw [localRun_concat, hm]
    unfold countLocal at hstays
    cases hkind : read.kind with
    | localRead =>
      rw [hkind] at hstays
      rw [advance_local]
      by_cases hends : limit ≤ localRun stretch + 1
      · have hover : Excursion limit (stretch ++ [read]) := by
          refine hopen.excursion ?_
          unfold countLocal
          rw [hkind]
          dsimp only
          omega
        rw [if_pos hends, List.append_assoc]
        exact ⟨.excursion hhome hover, fun _ => ⟨home, stretch ++ [read], rfl, hhome, hover⟩⟩
      · rw [if_neg hends]
        exact ⟨hstays _ rfl (by omega), fun hfalse => (by cases hfalse)⟩
    | peerRead =>
      rw [hkind] at hstays
      exact ⟨hstays 0 rfl (by omega), fun hfalse => (by cases hfalse)⟩
    | otherRead =>
      rw [hkind] at hstays
      exact ⟨hstays 0 rfl (by omega), fun hfalse => (by cases hfalse)⟩
    | failure =>
      rw [hkind] at hstays
      exact ⟨hstays _ rfl hlt, fun hfalse => (by cases hfalse)⟩

theorem stands_run (hlimit : 1 ≤ limit) (reads : List CoordRead) :
    Stands limit reads ((tracking limit).run none reads) := by
  induction reads using List.reverseRecOn with
  | nil => exact .nil
  | append_singleton reads read ih =>
    rw [Runs.System.run_append]
    exact (ih.next hlimit read).1

end

/-! ## The record -/

namespace CoordRecord

def Held (r : CoordRecord) : Prop := r.owned = true ∧ r.contested = false

instance (r : CoordRecord) : Decidable r.Held := inferInstanceAs (Decidable (_ ∧ _))

/-- The local reads in a row since a sighting. -/
def sighting (r : CoordRecord) : Option ℕ :=
  if r.peerSeenWhileOwned = .seen then some r.returnConfirmCount.toNat else none

/-- As many local reads in a row announce a return. -/
def returnAfter (confirmations : UInt32) : ℕ := (max confirmations 1).toNat

theorem returnAfter_pos (confirmations : UInt32) : 1 ≤ returnAfter confirmations := by
  have hmax : max confirmations 1 = if confirmations ≤ 1 then 1 else confirmations := rfl
  unfold returnAfter
  rw [hmax]
  split
  · exact le_rfl
  · rename_i h
    rw [UInt32.le_iff_toNat_le, not_le] at h
    exact h.le

variable {r : CoordRecord} (outcome : InputObservationOutcome) (confirmations : UInt32)

theorem sighting_localReturn
    (hbelow : ∀ n, r.sighting = some n → n < returnAfter confirmations) :
    ((r.recordLocalReturn outcome confirmations).1.sighting,
        (r.recordLocalReturn outcome confirmations).2.observedReturn) =
      match r.sighting with
      | none => (none, outcome.observedReturn)
      | some n =>
        if returnAfter confirmations ≤ n + 1 then (none, true)
        else (some (n + 1), outcome.observedReturn) := by
  unfold recordLocalReturn
  by_cases hseen : r.peerSeenWhileOwned = .seen
  · have hsighting : r.sighting = some r.returnConfirmCount.toNat := if_pos hseen
    have hlt := hbelow _ hsighting
    have hmax : returnAfter confirmations < UInt32.size := (max confirmations 1).toNat_lt
    have hsucc : (saturatingSucc r.returnConfirmCount).toNat = r.returnConfirmCount.toNat + 1 := by
      unfold saturatingSucc
      rw [if_pos (by omega), UInt32.toNat_add]
      have hfits : r.returnConfirmCount.toNat + 1 < UInt32.size := by omega
      exact Nat.mod_eq_of_lt hfits
    rw [if_pos hseen, hsighting]
    dsimp only
    by_cases hends : max confirmations 1 ≤ saturatingSucc r.returnConfirmCount
    · have henough : returnAfter confirmations ≤ r.returnConfirmCount.toNat + 1 := by
        rw [← hsucc]
        exact UInt32.le_iff_toNat_le.mp hends
      rw [if_pos hends, if_pos henough]
      rfl
    · have hfew : ¬ returnAfter confirmations ≤ r.returnConfirmCount.toNat + 1 := by
        rw [← hsucc]
        exact fun h => hends (UInt32.le_iff_toNat_le.mpr h)
      rw [if_neg hends, if_neg hfew]
      unfold sighting
      rw [if_pos hseen]
      dsimp only
      rw [hsucc]
  · have hsighting : r.sighting = none := if_neg hseen
    rw [if_neg hseen, hsighting]

theorem sighting_recordDisagreement (observed : UInt8) :
    (r.recordDisagreement outcome observed).1.sighting = r.sighting ∧
      (r.recordDisagreement outcome observed).1.owned = r.owned ∧
      (r.recordDisagreement outcome observed).2.observedReturn = outcome.observedReturn ∧
      (r.recordDisagreement outcome observed).2.committedPriorOwned =
        outcome.committedPriorOwned := by
  unfold recordDisagreement
  split
  · exact ⟨rfl, rfl, rfl, rfl⟩
  · split
    · exact ⟨rfl, rfl, rfl, rfl⟩
    · exact ⟨rfl, rfl, rfl, rfl⟩

theorem contested_recordDisagreement (observed : UInt8) :
    (r.recordDisagreement outcome observed).1.contested = r.contested := by
  unfold recordDisagreement
  split
  · rfl
  · split
    · rfl
    · rfl

theorem sighting_noteSighting (classification : InputSourceObservation) :
    (r.noteSighting classification).sighting =
      if classification = .peerInput ∨ r.sighting.isSome then some 0 else none := by
  unfold noteSighting sighting
  by_cases hpeer : classification = .peerInput
  · simp [hpeer]
  · by_cases hseen : r.peerSeenWhileOwned = .seen <;> simp [hpeer, hseen]

theorem sighting_notePending (observed : UInt8) :
    (r.notePending observed).sighting = r.sighting := by
  unfold notePending
  split <;> rfl

theorem owned_notePending (observed : UInt8) : (r.notePending observed).owned = r.owned := by
  unfold notePending
  split <;> rfl

theorem owned_noteSighting (classification : InputSourceObservation) :
    (r.noteSighting classification).owned = r.owned := by
  unfold noteSighting
  by_cases hpeer : classification = .peerInput
  · simp [hpeer]
  · by_cases hseen : r.peerSeenWhileOwned = .seen <;> simp [hpeer, hseen]

/-- A read of another input, from an owned record. -/
theorem sighting_away {classification : InputSourceObservation}
    (haway : classification ≠ .localInput) (howned : r.owned = true) (observed : UInt8) :
    let debounced := r.debounce outcome classification observed confirmations
    debounced.2.observedReturn = outcome.observedReturn ∧
      (debounced.1.owned = true ∧ debounced.1.sighting =
          (if classification = .peerInput ∨ r.sighting.isSome then some 0 else none) ∧
          debounced.2.committedPriorOwned = outcome.committedPriorOwned ∨
        debounced.1.owned = false ∧ debounced.1.sighting = none ∧
          debounced.2.committedPriorOwned = some true) := by
  unfold debounce
  rw [howned, decide_eq_false haway]
  dsimp only
  split
  · exact ⟨rfl, .inr ⟨rfl, rfl, rfl⟩⟩
  · refine ⟨rfl, .inl ⟨?_, ?_, rfl⟩⟩
    · rw [owned_notePending, owned_noteSighting, howned]
    · rw [sighting_notePending, sighting_noteSighting]

theorem contested_notePending (observed : UInt8) :
    (r.notePending observed).contested = r.contested := by
  unfold notePending
  split <;> rfl

theorem contested_noteSighting (classification : InputSourceObservation) :
    (r.noteSighting classification).contested = r.contested := by
  unfold noteSighting
  by_cases hpeer : classification = .peerInput
  · simp [hpeer]
  · by_cases hseen : r.peerSeenWhileOwned = .seen <;> simp [hpeer, hseen]

theorem kept_recordLocalReturn :
    (r.recordLocalReturn outcome confirmations).1.owned = r.owned ∧
      (r.recordLocalReturn outcome confirmations).1.contested = r.contested ∧
      (r.recordLocalReturn outcome confirmations).2.committedPriorOwned =
        outcome.committedPriorOwned := by
  unfold recordLocalReturn
  split
  · dsimp only
    split
    · exact ⟨rfl, rfl, rfl⟩
    · exact ⟨rfl, rfl, rfl⟩
  · exact ⟨rfl, rfl, rfl⟩

theorem contested_debounce (classification : InputSourceObservation) (observed : UInt8) :
    (r.debounce outcome classification observed confirmations).1.contested = r.contested := by
  unfold debounce
  split
  · rfl
  · exact (kept_recordLocalReturn outcome confirmations).2.1
  · dsimp only
    split
    · exact contested_notePending observed
    · exact contested_notePending observed
  · dsimp only
    split
    · exact (contested_notePending observed).trans (contested_noteSighting classification)
    · exact (contested_notePending observed).trans (contested_noteSighting classification)

/-- A record that is not owned has no sighting, and none is made. -/
theorem sighting_unowned {classification : InputSourceObservation} (hunowned : r.owned = false)
    (hnone : r.sighting = none) (observed : UInt8) :
    (r.debounce outcome classification observed confirmations).1.sighting = none ∧
      (r.debounce outcome classification observed confirmations).2.observedReturn =
        outcome.observedReturn := by
  unfold debounce
  rw [hunowned]
  cases decide (classification = .localInput) with
  | false => exact ⟨hnone, rfl⟩
  | true =>
    dsimp only
    split
    · exact ⟨(sighting_notePending observed).trans hnone, rfl⟩
    · exact ⟨(sighting_notePending observed).trans hnone, rfl⟩

theorem sighting_recordFlapTransition (policy : OwnershipFlapPolicy) (now : ℕ) (priorOwned : Bool)
    (hnone : r.sighting = none) :
    (r.recordFlapTransition outcome policy now priorOwned).1.sighting = none ∧
      (r.recordFlapTransition outcome policy now priorOwned).2.observedReturn =
        outcome.observedReturn ∧
      ((r.recordFlapTransition outcome policy now priorOwned).1.Held → r.Held) := by
  unfold recordFlapTransition
  dsimp only
  split
  · exact ⟨rfl, rfl, fun h => (by cases h.1)⟩
  · exact ⟨hnone, rfl, fun h => h⟩

/-- What an owned record makes of an observation. -/
theorem debounce_owned (classification : InputSourceObservation) (observed : UInt8)
    (howned : r.owned = true)
    (hbelow : ∀ n, r.sighting = some n → n < returnAfter confirmations)
    (hreturn : outcome.observedReturn = false) (hcommit : outcome.committedPriorOwned = none) :
    let debounced := r.debounce outcome classification observed confirmations
    debounced.1.owned = true ∧ debounced.2.committedPriorOwned = none ∧
        (debounced.1.sighting, debounced.2.observedReturn) =
          advance (returnAfter confirmations) r.sighting classification.kind ∨
      debounced.1.owned = false ∧ debounced.2.committedPriorOwned = some true ∧
        debounced.1.sighting = none ∧ debounced.2.observedReturn = false := by
  intro debounced
  by_cases hlocal : classification = .localInput
  · left
    have hdebounced : debounced = r.clearPending.recordLocalReturn outcome confirmations := by
      unfold debounced debounce
      rw [howned, hlocal]
      rfl
    obtain ⟨hkept, -, hcommitted⟩ :=
      kept_recordLocalReturn outcome confirmations (r := r.clearPending)
    have hsighting : r.clearPending.sighting = r.sighting := rfl
    have hcounted := sighting_localReturn outcome confirmations (r := r.clearPending)
      (by rw [hsighting]; exact hbelow)
    rw [hdebounced, hlocal]
    refine ⟨hkept.trans howned, hcommitted.trans hcommit, ?_⟩
    rw [hcounted, hsighting, hreturn]
    cases r.sighting with
    | none => rfl
    | some n => rfl
  · obtain ⟨hannounced, ⟨hstays, hsighting, hcommitted⟩ | ⟨hlost, hsighting, hcommitted⟩⟩ :=
      sighting_away outcome confirmations hlocal howned observed
    · left
      refine ⟨hstays, hcommitted.trans hcommit, ?_⟩
      show (debounced.1.sighting, debounced.2.observedReturn) = _
      rw [hannounced, hsighting, hreturn]
      cases classification with
      | localInput => exact absurd rfl hlocal
      | peerInput => cases r.sighting <;> simp [InputSourceObservation.kind, advance]
      | unknown code => cases r.sighting <;> simp [InputSourceObservation.kind, advance]
    · right
      exact ⟨hlost, hcommitted, hsighting, hannounced.trans hreturn⟩

/-- A sighting is of a held record, and is short of a return. -/
structure Sighted (confirmations : UInt32) (r : CoordRecord) : Prop where
  held : r.sighting.isSome → r.Held
  below : ∀ n, r.sighting = some n → n < returnAfter confirmations

variable {confirmations} in
theorem Sighted.of_none (hnone : r.sighting = none) : r.Sighted confirmations where
  held hsome := by
    rw [hnone] at hsome
    cases hsome
  below n hn := by
    rw [hnone] at hn
    cases hn

end CoordRecord

/-! ## One read -/

/-- A record that is held throughout has its sighting advanced. Of any other read nothing is seen
any more, and nothing is announced. -/
def Watched (limit : ℕ) (r : CoordRecord) (kind : ReadKind)
    (recorded : CoordRecord × InputObservationOutcome) : Prop :=
  r.Held ∧ recorded.1.Held ∧ recorded.2.committedPriorOwned = none ∧
      (recorded.1.sighting, recorded.2.observedReturn) = advance limit r.sighting kind ∨
    ¬ (r.Held ∧ recorded.1.Held) ∧ recorded.1.sighting = none ∧ recorded.2.observedReturn = false

open CoordRecord

section
variable {confirmations : UInt32} {r : CoordRecord}

theorem watched_mismatch (h : r.Sighted confirmations) (policy : OwnershipFlapPolicy) (now : ℕ) :
    Watched (returnAfter confirmations) r .otherRead
      (r.recordObservationAt none confirmations policy now) := by
  unfold recordObservationAt
  dsimp only
  by_cases hcontested : r.contested = true
  · have hloose : ¬ r.Held := fun hheld => by
      rw [hheld.2] at hcontested
      cases hcontested
    rw [if_pos hcontested]
    refine .inr ⟨fun hboth => hloose hboth.1, ?_, rfl⟩
    exact Option.not_isSome_iff_eq_none.mp fun hsome => hloose (h.held hsome)
  · have hfree : r.contested = false := Bool.eq_false_iff.mpr hcontested
    rw [if_neg hcontested]
    by_cases howned : r.owned = true
    · rcases debounce_owned .default confirmations (.unknown 0) 0 howned h.below rfl rfl
        with ⟨hstays, hcommitted, hadvanced⟩ | ⟨hlost, -, hsighting, hreturn⟩
      · exact .inl ⟨⟨howned, hfree⟩, ⟨hstays, (contested_debounce _ _ _ _).trans hfree⟩, hcommitted,
          hadvanced⟩
      · refine .inr ⟨fun hboth => ?_, hsighting, hreturn⟩
        have := hboth.2.1
        rw [hlost] at this
        cases this
    · have hloose : ¬ r.Held := fun hheld => howned hheld.1
      have hnone : r.sighting = none :=
        Option.not_isSome_iff_eq_none.mp fun hsome => hloose (h.held hsome)
      obtain ⟨hsighting, hreturn⟩ := sighting_unowned .default confirmations
        (Bool.eq_false_iff.mpr howned) hnone 0
      exact .inr ⟨fun hboth => hloose hboth.1, hsighting, hreturn⟩

theorem watched_contested (hcontested : r.contested = true) (kind : ReadKind) (observed : UInt8)
    (panelState : Option PanelState) (policy : OwnershipFlapPolicy) (now : ℕ) :
    Watched (returnAfter confirmations) r kind
      (r.recordContestedObservation observed panelState policy now) := by
  refine .inr ⟨fun hboth => ?_, ?_, rfl⟩
  · rw [hboth.1.2] at hcontested
    cases hcontested
  · unfold recordContestedObservation
    dsimp only
    split <;> rfl

/-- A committed gain or loss may trip the limiter. It has no sighting either way. -/
theorem watched_limited {kind : ReadKind} {debounced : CoordRecord × InputObservationOutcome}
    (h : Watched (returnAfter confirmations) r kind debounced) (policy : OwnershipFlapPolicy)
    (now : ℕ) :
    Watched (returnAfter confirmations) r kind
      (if debounced.2.committedPriorOwned.isSome then
        debounced.1.recordFlapTransition debounced.2 policy now r.owned
      else debounced) := by
  split
  · rename_i hcommitted
    rcases h with ⟨-, -, hnone, -⟩ | ⟨hloose, hsighting, hreturn⟩
    · rw [hnone] at hcommitted
      cases hcommitted
    · obtain ⟨hsighting', hreturn', hheld⟩ :=
        sighting_recordFlapTransition debounced.2 policy now r.owned hsighting
      exact .inr ⟨fun hboth => hloose ⟨hboth.1, hheld hboth.2⟩, hsighting', hreturn'.trans hreturn⟩
  · exact h

theorem watched_input (h : r.Sighted confirmations) (input : InputObservation)
    (policy : OwnershipFlapPolicy) (now : ℕ) :
    Watched (returnAfter confirmations) r (input.aliases.classify input.observed).kind
      (r.recordObservationAt (some input) confirmations policy now) := by
  unfold recordObservationAt
  dsimp only
  by_cases hcontested : r.contested = true
  · rw [if_pos hcontested]
    exact watched_contested hcontested _ _ _ policy now
  · have hfree : r.contested = false := Bool.eq_false_iff.mpr hcontested
    rw [if_neg hcontested]
    generalize hclass : input.aliases.classify input.observed = classification
    obtain ⟨hsighting, howned, hreturn, hcommitted⟩ :=
      sighting_recordDisagreement .default input.observed (r := r)
    have hcontested' := contested_recordDisagreement .default input.observed (r := r)
    generalize r.recordDisagreement .default input.observed = checked at *
    have hdebounced : Watched (returnAfter confirmations) r classification.kind
        (checked.1.debounce checked.2 classification input.observed confirmations) := by
      by_cases hheld : r.owned = true
      · rcases debounce_owned _ _ classification input.observed (howned.trans hheld)
          (by rw [hsighting]; exact h.below) hreturn hcommitted
          with ⟨hstays, hquiet, hadvanced⟩ | ⟨hlost, -, hnone, hsilent⟩
        · rw [hsighting] at hadvanced
          exact .inl ⟨⟨hheld, hfree⟩,
            ⟨hstays, (contested_debounce _ _ _ _).trans (hcontested'.trans hfree)⟩, hquiet,
            hadvanced⟩
        · refine .inr ⟨fun hboth => ?_, hnone, hsilent⟩
          have howns := hboth.2.1
          rw [hlost] at howns
          cases howns
      · have hloose : ¬ r.Held := fun hboth => hheld hboth.1
        have hnone : r.sighting = none :=
          Option.not_isSome_iff_eq_none.mp fun hsome => hloose (h.held hsome)
        obtain ⟨hnone', hsilent⟩ := sighting_unowned checked.2 confirmations
          (howned.trans (Bool.eq_false_iff.mpr hheld)) (hsighting.trans hnone) input.observed
        exact .inr ⟨fun hboth => hloose hboth.1, hnone', hsilent.trans hreturn⟩
    exact watched_limited hdebounced policy now

theorem watched_next (h : r.Sighted confirmations) (read : CoordRead) :
    ∃ outcome, (watching confirmations).next r read =
        (((watching confirmations).next r read).1, [outcome]) ∧
      Watched (returnAfter confirmations) r read.kind
        (((watching confirmations).next r read).1, outcome) := by
  cases read with
  | observe observation policy now =>
    refine ⟨(r.recordObservationAt observation confirmations policy now).2, rfl, ?_⟩
    cases observation with
    | none => exact watched_mismatch h policy now
    | some input => exact watched_input h input policy now
  | failed =>
    refine ⟨.default, rfl, ?_⟩
    by_cases hheld : r.Held
    · refine .inl ⟨hheld, hheld, rfl, ?_⟩
      show (r.sighting, false) = advance _ r.sighting .failure
      cases r.sighting <;> rfl
    · refine .inr ⟨fun hboth => hheld hboth.1, ?_, rfl⟩
      exact Option.not_isSome_iff_eq_none.mp fun hsome => hheld (h.held hsome)

theorem advance_below {limit n : ℕ} {count : Option ℕ} {kind : ReadKind} (hlimit : 1 ≤ limit)
    (hbelow : ∀ n, count = some n → n < limit) (hn : (advance limit count kind).1 = some n) :
    n < limit := by
  cases count with
  | none =>
    cases kind <;> simp [advance] at hn
    omega
  | some m =>
    have hm := hbelow m rfl
    cases kind with
    | localRead =>
      rw [advance_local] at hn
      split at hn
      · cases hn
      · cases hn
        omega
    | failure =>
      simp only [advance, Option.some.injEq] at hn
      omega
    | peerRead =>
      simp only [advance, Option.some.injEq] at hn
      omega
    | otherRead =>
      simp only [advance, Option.some.injEq] at hn
      omega

theorem CoordRecord.Sighted.next (h : r.Sighted confirmations) (read : CoordRead) :
    ((watching confirmations).next r read).1.Sighted confirmations := by
  obtain ⟨outcome, -, ⟨-, hheld, -, hadvanced⟩ | ⟨-, hnone, -⟩⟩ := watched_next h read
  · refine ⟨fun _ => hheld, fun n hn => ?_⟩
    obtain ⟨hcount, -⟩ := Prod.mk.inj hadvanced
    rw [hcount] at hn
    exact advance_below (returnAfter_pos confirmations) h.below hn
  · exact .of_none hnone

theorem CoordRecord.Sighted.run (h : r.Sighted confirmations) (reads : List CoordRead) :
    ((watching confirmations).run r reads).Sighted confirmations :=
  Runs.System.invariant (fun _ read h => h.next read) h reads

/-- A record that stays held counts as `tracking` does. -/
theorem tracks_held (h : r.Sighted confirmations) (reads : List CoordRead)
    (hheld : (watching confirmations).Throughout Held r reads) :
    ((watching confirmations).run r reads).sighting =
        (tracking (returnAfter confirmations)).run r.sighting reads ∧
      ((watching confirmations).outputs r reads).map (·.observedReturn) =
        (tracking (returnAfter confirmations)).outputs r.sighting reads := by
  induction reads generalizing r with
  | nil => exact ⟨rfl, rfl⟩
  | cons read reads ih =>
    have hnow := hheld.1
    have hthen := hheld.2.head
    obtain ⟨outcome, hnext, ⟨-, -, -, hadvanced⟩ | ⟨hloose, -, -⟩⟩ := watched_next h read
    · obtain ⟨hcount, hreturn⟩ := Prod.mk.inj hadvanced
      obtain ⟨hrun, houtputs⟩ := ih (h.next read) hheld.2
      rw [hcount] at hrun houtputs
      refine ⟨hrun, ?_⟩
      unfold Runs.System.outputs
      rw [hnext, List.map_append, houtputs]
      show [outcome.observedReturn] ++ _ = _
      rw [hreturn]
      rfl
    · exact absurd ⟨hnow, hthen⟩ hloose

/-- A sighting that is still there was made at some read, and the record is held since. -/
theorem sighting_since (h : r.sighting = none) (reads : List CoordRead)
    (hseen : (((watching confirmations).run r reads).sighting).isSome) :
    ∃ idle first since, reads = idle ++ first :: since ∧ first.kind = .peerRead ∧
      (watching confirmations).Throughout Held ((watching confirmations).run r idle)
        (first :: since) := by
  induction reads using List.reverseRecOn with
  | nil =>
    rw [Runs.System.run_nil, h] at hseen
    cases hseen
  | append_singleton reads read ih =>
    have hsighted : ((watching confirmations).run r reads).Sighted confirmations :=
      (Sighted.of_none h).run reads
    rw [Runs.System.run_append] at hseen
    obtain ⟨outcome, -, ⟨hnow, hthen, -, hadvanced⟩ | ⟨-, hnone, -⟩⟩ := watched_next hsighted read
    · obtain ⟨hcount, -⟩ := Prod.mk.inj hadvanced
      cases hbefore : ((watching confirmations).run r reads).sighting with
      | none =>
        rw [hbefore] at hcount
        refine ⟨reads, read, [], rfl, ?_, hnow, hthen⟩
        change (((watching confirmations).next _ read).1.sighting).isSome at hseen
        rw [hcount] at hseen
        cases hkind : read.kind with
        | peerRead => rfl
        | localRead =>
          rw [hkind] at hseen
          cases hseen
        | otherRead =>
          rw [hkind] at hseen
          cases hseen
        | failure =>
          rw [hkind] at hseen
          cases hseen
      | some n =>
        obtain ⟨idle, first, since, rfl, hkind, hheld⟩ := ih (by rw [hbefore]; rfl)
        refine ⟨idle, first, since ++ [read], by simp, hkind, ?_⟩
        rw [← List.cons_append, Runs.System.throughout_append, ← Runs.System.run_append]
        exact ⟨hheld, hnow, hthen⟩
    · change (((watching confirmations).next _ read).1.sighting).isSome at hseen
      rw [hnone] at hseen
      cases hseen

end

/-! ## Returns -/

/-- A read is announced as a return. -/
def ReturnsAt (confirmations : UInt32) (r : CoordRecord) (read : CoordRead) : Prop :=
  ∃ outcome ∈ ((watching confirmations).next r read).2, outcome.observedReturn = true

/-- While the record is held, each excursion announces one return, with the read that ends it, and
there are no others. In any run at all, a return is announced by a call that commits nothing, and
the record was held from some sighting of the peer up to it. -/
theorem return_announced_once (confirmations : UInt32) (r : CoordRecord)
    (hnotSeen : r.peerSeenWhileOwned = .notSeen) :
    (∀ settled stretch, AtHome (returnAfter confirmations) settled →
        (watching confirmations).Throughout Held r (settled ++ stretch) →
        let announced := ((watching confirmations).outputs
          ((watching confirmations).run r settled) stretch).map (·.observedReturn)
        (Excursion (returnAfter confirmations) stretch →
            announced = List.replicate (stretch.length - 1) false ++ [true]) ∧
          (Open (returnAfter confirmations) stretch →
            announced = List.replicate stretch.length false)) ∧
      (∀ before read, (watching confirmations).Throughout Held r (before ++ [read]) →
        ReturnsAt confirmations ((watching confirmations).run r before) read →
        ∃ settled stretch, before ++ [read] = settled ++ stretch ∧
          AtHome (returnAfter confirmations) settled ∧
          Excursion (returnAfter confirmations) stretch) ∧
      ∀ before read, ReturnsAt confirmations ((watching confirmations).run r before) read →
        (∀ outcome ∈ ((watching confirmations).next ((watching confirmations).run r before) read).2,
          outcome.committedPriorOwned = none) ∧
        ∃ idle first since, before = idle ++ first :: since ∧ first.kind = .peerRead ∧
          (watching confirmations).Throughout Held ((watching confirmations).run r idle)
            (first :: since ++ [read]) := by
  have hlimit := returnAfter_pos confirmations
  have hnone : r.sighting = none := if_neg (by rw [hnotSeen]; simp)
  have hsighted : r.Sighted confirmations := .of_none hnone
  refine ⟨fun settled stretch hhome hheld => ?_, fun before read hheld hreturn => ?_,
    fun before read hreturn => ?_⟩
  · rw [Runs.System.throughout_append] at hheld
    obtain ⟨hbefore, hduring⟩ := hheld
    have hclear : ((watching confirmations).run r settled).sighting = none := by
      rw [(tracks_held hsighted settled hbefore).1, hnone]
      exact tracking_home hlimit hhome
    have hcounted := (tracks_held (hsighted.run settled) stretch hduring).2
    rw [hclear] at hcounted
    refine ⟨fun hover => ?_, fun hopen => ?_⟩
    · exact hcounted.trans (tracking_excursion hlimit hover).2
    · exact hcounted.trans (tracking_open hopen).2
  · rw [Runs.System.throughout_append] at hheld
    obtain ⟨hbefore, hduring⟩ := hheld
    have hcount := (tracks_held hsighted before hbefore).1
    rw [hnone] at hcount
    have hstands := stands_run hlimit before
    rw [← hcount] at hstands
    refine (hstands.next hlimit read).2 ?_
    obtain ⟨outcome, hmem, hannounced⟩ := hreturn
    have hadvanced := (tracks_held (hsighted.run before) [read] hduring).2
    unfold Runs.System.outputs Runs.System.outputs at hadvanced
    obtain ⟨recorded, hnext, -⟩ := watched_next (hsighted.run before) read
    rw [hnext] at hadvanced hmem
    obtain rfl := List.mem_singleton.mp hmem
    simpa [hannounced, tracking] using hadvanced.symm
  · obtain ⟨outcome, hmem, hannounced⟩ := hreturn
    obtain ⟨recorded, hnext, ⟨hnow, hthen, hquiet, hadvanced⟩ | ⟨-, -, hsilent⟩⟩ :=
      watched_next (hsighted.run before) read
    · rw [hnext] at hmem
      obtain rfl := List.mem_singleton.mp hmem
      have hseen : (((watching confirmations).run r before).sighting).isSome := by
        obtain ⟨-, hadvances⟩ := Prod.mk.inj hadvanced
        rw [hannounced] at hadvances
        cases hbefore : ((watching confirmations).run r before).sighting with
        | some n => rfl
        | none =>
          rw [hbefore] at hadvances
          cases hkind : read.kind <;> rw [hkind] at hadvances <;> cases hadvances
      obtain ⟨idle, first, since, rfl, hkind, hheld⟩ := sighting_since hnone before hseen
      refine ⟨fun other hother => ?_, idle, first, since, rfl, hkind, ?_⟩
      · rw [hnext] at hother
        obtain rfl := List.mem_singleton.mp hother
        exact hquiet
      · rw [Runs.System.throughout_append, ← Runs.System.run_append]
        exact ⟨hheld, hnow, hthen⟩
    · rw [hnext] at hmem
      obtain rfl := List.mem_singleton.mp hmem
      rw [hannounced] at hsilent
      cases hsilent

/-- A look at the peer and back, with two confirmations. -/
def glance (code : UInt8) : CoordRead :=
  .observe (some { observed := code
                   aliases := { localRead := 15, localWrite := 16, peerRead := some 17,
                                peerWrite := none }
                   panelState := none }) .disabled 0

theorem return_announced_once_glance :
    CoordRecord.seeded.peerSeenWhileOwned = .notSeen ∧
      ((watching 2).outputs .seeded [glance 17, glance 15, .failed, glance 16]).map
        (·.observedReturn) = [false, false, false, true] := by
  refine ⟨rfl, ?_⟩
  have hannounced := (return_announced_once 2 .seeded rfl).1 []
    [glance 17, glance 15, .failed, glance 16] .nil (by decide)
  refine hannounced.1 ⟨⟨glance 17, _, rfl, rfl⟩, by decide, fun before hbefore hproper => ?_⟩
  have hshort : ∀ k < 4, localRun ([glance 17, glance 15, .failed, glance 16].take k) <
      CoordRecord.returnAfter 2 := by
    decide
  have htake := List.prefix_iff_eq_take.mp hbefore
  have hlt : before.length < 4 :=
    lt_of_le_of_ne hbefore.length_le fun hall => hproper (hbefore.eq_of_length hall)
  rw [htake]
  exact hshort before.length hlt

end Dormant
