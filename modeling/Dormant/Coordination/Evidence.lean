import Dormant.Coordination.Verdicts

/-!
# The evidence for a verdict

A verdict changes on a number of observations in a row that carry the same evidence. The debounce
tells evidence apart by a raw code, and a connector mismatch goes under code 0, so that a mismatch
and a read of code 0 can make up one change. `Mixes` is the step at which they do.
-/

namespace Dormant
set_option autoImplicit false

/-- What stays the same while a display is polled. -/
structure CoordSetting where
  aliases : InputCodeAliases
  confirmations : UInt32
  policy : OwnershipFlapPolicy

/-- How many observations a change takes. -/
def CoordSetting.needed (s : CoordSetting) : ℕ := (max s.confirmations 1).toNat

inductive Evidence where
  | code (code : UInt8)
  | mismatch
  deriving DecidableEq, Repr

/-- The code under which the debounce counts. -/
def Evidence.token : Evidence → UInt8
  | .code observed => observed
  | .mismatch => 0

/-- The verdict that the evidence points to. -/
def Evidence.side (s : CoordSetting) : Evidence → Bool
  | .code observed => decide (s.aliases.classify observed = .localInput)
  | .mismatch => false

namespace CoordEvent

def evidence : CoordEvent → Option Evidence
  | .observation (some input) _ _ _ => some (.code input.observed)
  | .observation none _ _ _ => some .mismatch
  | _ => none

/-- A poll under the setting, or a verified local write. -/
def under (s : CoordSetting) : CoordEvent → Prop
  | .observation (some input) confirmations policy _ =>
    input.aliases = s.aliases ∧ confirmations = s.confirmations ∧ policy = s.policy
  | .observation none confirmations _ _ => confirmations = s.confirmations
  | _ => True

def isLocalWrite : CoordEvent → Bool
  | .ownedImmediate _ => true
  | _ => false

end CoordEvent

/-! ## The law -/

/-- The observations so far, the newest first. -/
def noteEvidence (heard : List Evidence) (_ : CoordRecord) (event : CoordEvent)
    (_ : CoordRecord × List InputObservationOutcome) : List Evidence :=
  event.evidence.toList ++ heard

def watched : Runs.System (List Evidence × CoordRecord) CoordEvent InputObservationOutcome :=
  coordination.observed noteEvidence

/-- A change of the verdict has the evidence that it takes, and a failed read adds nothing. -/
structure Earned (s : CoordSetting) (x : List Evidence × CoordRecord) (event : CoordEvent) :
    Prop where
  changed : (watched.next x event).1.2.owned ≠ x.2.owned → ∃ ev ∈ event.evidence,
    ev.side s = (watched.next x event).1.2.owned ∧
      (watched.next x event).1.1.take s.needed = List.replicate s.needed ev
  failed : event.evidence = none → (watched.next x event).1.2.owned = x.2.owned ∧
    (watched.next x event).1.2.pendingTransitionCount = x.2.pendingTransitionCount ∧
    (watched.next x event).1.2.pendingTransitionCode = x.2.pendingTransitionCode

/-- A mismatch comes on top of reads of code 0 that count toward a loss, or such a read on top of
mismatches. -/
def Mixes (s : CoordSetting) (x : List Evidence × CoordRecord) (event : CoordEvent) : Prop :=
  x.2.owned = true ∧ x.2.pendingTransitionCode = some 0 ∧
    (event.evidence = some .mismatch ∧ x.1.head? = some (.code 0) ∨
      event.evidence = some (.code 0) ∧ x.1.head? = some .mismatch ∧
        Evidence.side s (.code 0) = false ∧ x.2.lastObservedCode.all (· = 0) = true)

instance decidableMixes (s : CoordSetting) (x : List Evidence × CoordRecord)
    (event : CoordEvent) : Decidable (Mixes s x event) :=
  inferInstanceAs (Decidable (_ ∧ _ ∧ (_ ∨ _)))

/-! ## The invariant -/

theorem saturatingSucc_le (n : UInt32) : (saturatingSucc n).toNat ≤ n.toNat + 1 := by
  unfold saturatingSucc
  split
  · rename_i h
    rw [UInt32.toNat_add]
    exact Nat.mod_le _ _
  · exact Nat.le_succ _

theorem saturatingSucc_pos (n : UInt32) : 1 ≤ (saturatingSucc n).toNat := by
  unfold saturatingSucc
  split
  · rename_i h
    rw [UInt32.toNat_add, Nat.mod_eq_of_lt (by simpa using h)]
    simp
  · rename_i h
    simp only [UInt32.size] at h
    omega

/-- A pending transition is backed by observations of one kind. -/
structure Backed (s : CoordSetting) (heard : List Evidence) (k : CoordRecord.Core) (ev : Evidence) :
    Prop where
  token : k.pendingCode = some ev.token
  side : ev.side s ≠ k.owned
  counted : 1 ≤ k.pendingCount.toNat
  heard : heard.take k.pendingCount.toNat = List.replicate k.pendingCount.toNat ev

theorem take_replicate_le {α : Type} {a : α} {l : List α} {m n : ℕ}
    (h : l.take n = List.replicate n a) (hm : m ≤ n) : l.take m = List.replicate m a := by
  rw [← Nat.min_eq_left hm, ← List.take_take, h, List.take_replicate]

theorem take_replicate_cons {α : Type} {a : α} {l : List α} {m n : ℕ}
    (h : l.take n = List.replicate n a) (hm : m ≤ n + 1) :
    (a :: l).take m = List.replicate m a := by
  cases m with
  | zero => rfl
  | succ m =>
    rw [List.take_succ_cons, take_replicate_le h (Nat.le_of_succ_le_succ hm), List.replicate_succ]

/-- One more observation under the code that is pending, or the first under it. -/
theorem take_note {α : Type} {a : α} {heard : List α} {k : CoordRecord.Core} {code : UInt8}
    (h : k.pendingCode = some code →
      heard.take k.pendingCount.toNat = List.replicate k.pendingCount.toNat a) :
    (a :: heard).take (k.note code).pendingCount.toNat =
      List.replicate (k.note code).pendingCount.toNat a := by
  by_cases hp : k.pendingCode = some code
  · have hcount : (k.note code).pendingCount = saturatingSucc k.pendingCount := if_pos hp
    rw [hcount]
    exact take_replicate_cons (h hp) (saturatingSucc_le _)
  · have hcount : (k.note code).pendingCount = 1 := if_neg hp
    rw [hcount]
    rfl

theorem backed_note {s : CoordSetting} {heard : List Evidence} {k : CoordRecord.Core}
    {ev : Evidence} (hside : ev.side s ≠ k.owned)
    (h : k.pendingCode = some ev.token → Backed s heard k ev) :
    Backed s (ev :: heard) (k.note ev.token) ev := by
  refine ⟨rfl, hside, ?_, take_note fun hp => (h hp).heard⟩
  unfold CoordRecord.Core.note
  dsimp only
  split
  · exact saturatingSucc_pos _
  · exact Nat.le_refl 1

theorem Backed.head {s : CoordSetting} {heard : List Evidence} {k : CoordRecord.Core}
    {ev : Evidence} (h : Backed s heard k ev) : heard.head? = some ev := by
  obtain ⟨n, hn⟩ := Nat.exists_eq_succ_of_ne_zero (Nat.one_le_iff_ne_zero.mp h.counted)
  have hheard := h.heard
  rw [hn, List.replicate_succ] at hheard
  cases heard with
  | nil => cases hheard
  | cons first rest =>
    rw [List.take_succ_cons] at hheard
    rw [(List.cons.inj hheard).1]
    rfl

open CoordRecord in
theorem backed_debounced {s : CoordSetting} {heard : List Evidence} {k k' : Core} {ev : Evidence}
    {committed : Option Bool}
    (hk : ev.side s ≠ k.owned → k.pendingCode = some ev.token → Backed s heard k ev)
    (h : Debounced k ev.token s.confirmations (ev.side s) k' committed) :
    (k'.pendingCode.isSome → Backed s (ev :: heard) k' ev) ∧
      (k'.owned ≠ k.owned → ev.side s = k'.owned ∧
        (ev :: heard).take s.needed = List.replicate s.needed ev) := by
  cases h with
  | agrees hside => exact ⟨fun hp => (by cases hp), fun hne => absurd rfl hne⟩
  | defers hside hlt => exact ⟨fun _ => backed_note hside (hk hside), fun hne => absurd rfl hne⟩
  | commits hside hle =>
    refine ⟨fun hp => (by cases hp), fun _ => ⟨rfl, ?_⟩⟩
    exact take_replicate_le (backed_note hside (hk hside)).heard (UInt32.le_iff_toNat_le.mp hle)

/-! ## The law of the debounce -/

/-- The same codes, or the same mismatch: evidence is what it is counted under, code 0 apart. -/
theorem eq_of_token {a b : Evidence} (h : a.token = b.token) :
    a = b ∨ a = .mismatch ∧ b = .code 0 ∨ a = .code 0 ∧ b = .mismatch := by
  cases a <;> cases b <;> simp_all [Evidence.token]

/-- A transition is pending only outside the contested state, and backed. -/
def Pending (s : CoordSetting) (x : List Evidence × CoordRecord) : Prop :=
  x.2.core.pendingCode.isSome → x.2.core.contested = false ∧ ∃ ev, Backed s x.1 x.2.core ev

theorem pending_unmixed {s : CoordSetting} {x : List Evidence × CoordRecord} {event : CoordEvent}
    {ev : Evidence} (h : Pending s x) (hmix : ¬ Mixes s x event) (hev : event.evidence = some ev)
    (hlast : ∀ observed, ev = .code observed → x.2.lastObservedCode.all (· = observed) = true)
    (hside : ev.side s ≠ x.2.owned) (hp : x.2.core.pendingCode = some ev.token) :
    Backed s x.1 x.2.core ev := by
  obtain ⟨-, old, hold⟩ := h (by rw [hp]; rfl)
  have htoken : old.token = ev.token := Option.some.inj (hold.token.symm.trans hp)
  rcases eq_of_token htoken with rfl | ⟨rfl, rfl⟩ | ⟨rfl, rfl⟩
  · exact hold
  · have howned : x.2.owned = true := by
      have hne : false ≠ x.2.owned := hold.side
      simpa using hne.symm
    refine absurd ⟨howned, hp, .inr ⟨hev, hold.head, ?_, hlast 0 rfl⟩⟩ hmix
    rw [howned] at hside
    simpa using hside
  · have howned : x.2.owned = true := by
      have hne : false ≠ x.2.owned := hside
      simpa using hne.symm
    exact absurd ⟨howned, hp, .inl ⟨hev, hold.head⟩⟩ hmix

/-- What the check leaves pending was pending, on the code that was read last. -/
theorem pending_check {k : CoordRecord.Core} {observed token : UInt8}
    (h : (k.check observed).pendingCode = some token) :
    k.check observed = k ∧ k.lastObservedCode.all (· = observed) = true := by
  unfold CoordRecord.Core.check at h ⊢
  split at h
  · rename_i hlast
    exact ⟨if_pos hlast, hlast⟩
  · cases h

/-- The part of the law that is about cores. -/
structure Founded (s : CoordSetting) (heard : List Evidence) (k k' : CoordRecord.Core)
    (ev : Evidence) : Prop where
  pending : k'.pendingCode.isSome → k'.contested = false ∧ Backed s (ev :: heard) k' ev
  changed : k'.owned ≠ k.owned → ev.side s = k'.owned ∧
    (ev :: heard).take s.needed = List.replicate s.needed ev

open CoordRecord in
theorem founded_debounced {s : CoordSetting} {heard : List Evidence} {k k' : Core} {ev : Evidence}
    {committed : Option Bool} (hc : k.contested = false)
    (hk : ev.side s ≠ k.owned → k.pendingCode = some ev.token → Backed s heard k ev)
    (h : Debounced k ev.token s.confirmations (ev.side s) k' committed) :
    Founded s heard k k' ev := by
  obtain ⟨hpending, hchanged⟩ := backed_debounced hk h
  exact ⟨fun hp => ⟨h.owned.1.trans hc, hpending hp⟩, hchanged⟩

/-- What the record keeps beside the verdict and the pending transition does not matter. -/
theorem Founded.congr {s : CoordSetting} {heard : List Evidence} {k k' k'' : CoordRecord.Core}
    {ev : Evidence} (h : Founded s heard k k' ev) (howned : k''.owned = k'.owned)
    (hcode : k''.pendingCode = k'.pendingCode) (hcount : k''.pendingCount = k'.pendingCount)
    (hc : k''.contested = k'.contested) : Founded s heard k k'' ev := by
  refine ⟨fun hp => ?_, fun hne => ?_⟩
  · obtain ⟨hcontested, hbacked⟩ := h.pending (hcode ▸ hp)
    refine ⟨hc.trans hcontested, hcode.trans hbacked.token, howned ▸ hbacked.side,
      hcount ▸ hbacked.counted, ?_⟩
    rw [hcount]
    exact hbacked.heard
  · rw [howned] at hne ⊢
    exact h.changed hne

open CoordRecord in
theorem founded_observation {s : CoordSetting} {x : List Evidence × CoordRecord}
    {observation : Option InputObservation} {confirmations : UInt32}
    {policy : OwnershipFlapPolicy} {now : ℕ} {ev : Evidence} (h : Pending s x)
    (hsafe : x.2.Safe)
    (hunder : (CoordEvent.observation observation confirmations policy now).under s)
    (hmix : ¬ Mixes s x (.observation observation confirmations policy now))
    (hev : (CoordEvent.observation observation confirmations policy now).evidence = some ev) :
    Founded s x.1 x.2.core
      (x.2.recordObservationAt observation confirmations policy now).1.core ev := by
  have hr := recorded_recordObservationAt x.2 observation confirmations policy now
  generalize (x.2.recordObservationAt observation confirmations policy now).1.core = k' at hr ⊢
  generalize (x.2.recordObservationAt observation confirmations policy now).2.report = report at hr
  have hcalm (hc : x.2.core.contested = true) : ¬ x.2.core.pendingCode.isSome := by
    intro hp
    have hcalm := (h hp).1
    rw [hc] at hcalm
    cases hcalm
  cases observation with
  | none =>
    obtain rfl : ev = .mismatch := (Option.some.inj hev).symm
    obtain rfl : confirmations = s.confirmations := hunder
    cases hr with
    | ignored hc => exact ⟨fun hp => absurd hp (hcalm hc), fun hne => absurd rfl hne⟩
    | mismatched hc hd =>
      exact founded_debounced hc (fun hside hp => pending_unmixed h hmix hev (by simp) hside hp) hd
  | some input =>
    obtain rfl : ev = .code input.observed := (Option.some.inj hev).symm
    obtain ⟨haliases, rfl, -⟩ := hunder
    have hfounded {k' : Core} {committed : Option Bool} (hc : x.2.core.contested = false)
        (hd : Debounced (x.2.core.check input.observed) input.observed s.confirmations
          (decide (input.aliases.classify input.observed = .localInput)) k' committed) :
        Founded s x.1 x.2.core k' (.code input.observed) := by
      rw [haliases] at hd
      have hchecked : (x.2.core.check input.observed).contested = false := by
        rw [contested_check, hc]
      have hd : Debounced _ (Evidence.code input.observed).token s.confirmations
        (Evidence.side s (.code input.observed)) k' committed := hd
      have hf : Founded s x.1 (x.2.core.check input.observed) k' (.code input.observed) := by
        refine founded_debounced hchecked (fun hside hp => ?_) hd
        obtain ⟨hsame, hlast⟩ := pending_check hp
        rw [hsame] at hside hp ⊢
        exact pending_unmixed h hmix hev
          (fun observed hcode => Evidence.code.inj hcode ▸ hlast) hside hp
      exact ⟨hf.pending, fun hne => hf.changed (by rw [owned_check]; exact hne)⟩
    cases hr with
    | held hc hloud =>
      exact ⟨fun hp => absurd hp (hcalm hc), fun hne => absurd (hsafe hc).symm hne⟩
    | fellSilent hc hsilent =>
      exact ⟨fun hp => (by cases hp), fun hne => absurd (hsafe hc).symm hne⟩
    | read hc hd => exact (hfounded hc hd).congr rfl rfl rfl rfl
    | changed hc hd hf => exact (hfounded hc hd).congr rfl rfl rfl rfl
    | @tripped _ k' prior hc hd hf =>
      refine ⟨fun hp => (by cases hp), fun hne => ?_⟩
      have hlost : k'.owned = false := by
        have hprior := (hd.owned.2 _).mp rfl
        rw [owned_check] at hprior
        have howned : x.2.core.owned = true := by simpa using hne.symm
        simpa [← hprior.1, howned] using hprior.2
      have hchanged := (hfounded hc hd).changed (by rw [hlost]; exact hne)
      rw [hlost] at hchanged
      exact hchanged

/-! ## Over a run -/

/-- What holds between two events. -/
structure Sound (s : CoordSetting) (x : List Evidence × CoordRecord) : Prop where
  pending : Pending s x
  safe : x.2.Safe

theorem sound_step {s : CoordSetting} {x : List Evidence × CoordRecord} {event : CoordEvent}
    (h : Sound s x) (hunder : event.under s) (hlocal : event.isLocalWrite = false)
    (hmix : ¬ Mixes s x event) : Earned s x event ∧ Sound s (watched.next x event).1 := by
  cases event with
  | observation observation confirmations policy now =>
    have hsafe :=
      (CoordRecord.reported_recordObservationAt h.safe observation confirmations policy now).2
    obtain ⟨ev, hev⟩ : ∃ ev,
        (CoordEvent.observation observation confirmations policy now).evidence = some ev := by
      cases observation <;> exact ⟨_, rfl⟩
    have hfounded := founded_observation h.pending h.safe hunder hmix hev
    have hheard : (watched.next x (.observation observation confirmations policy now)).1.1 =
        ev :: x.1 := by
      change Option.toList _ ++ x.1 = _
      rw [hev]
      rfl
    refine ⟨⟨fun hne => ⟨ev, hev, ?_⟩, fun hnone => ?_⟩, fun hp => ?_, hsafe⟩
    · rw [hheard]
      exact hfounded.changed hne
    · rw [hnone] at hev
      cases hev
    · rw [hheard]
      obtain ⟨hcontested, hbacked⟩ := hfounded.pending hp
      exact ⟨hcontested, ev, hbacked⟩
  | failure => exact ⟨⟨fun hne => absurd rfl hne, fun _ => ⟨rfl, rfl, rfl⟩⟩, h.pending, h.safe⟩
  | ownedImmediate verifiedCode => cases hlocal

/-- As long as mismatches and reads of code 0 do not mix, every change of the verdict has the
evidence that it takes. -/
theorem owned_changes_earned {s : CoordSetting} {record : CoordRecord} (hsafe : record.Safe)
    (hpending : record.pendingTransitionCode = none) {events : List CoordEvent}
    (hunder : ∀ event ∈ events, event.under s)
    (hlocal : ∀ event ∈ events, event.isLocalWrite = false)
    (hmix : watched.Steps (fun x event => ¬ Mixes s x event) ([], record) events) :
    watched.Steps (Earned s) ([], record) events := by
  have hall := ((Runs.System.Steps.of_mem (M := watched)
    (fun event => event.under s ∧ event.isLocalWrite = false)
    (fun event he => ⟨hunder event he, hlocal event he⟩) ([], record)).and hmix)
  refine hall.derive (Sound s) (fun x event h hc => (sound_step h hc.1.1 hc.1.2 hc.2).2)
    (fun x event h hc => (sound_step h hc.1.1 hc.1.2 hc.2).1) ⟨fun hp => ?_, hsafe⟩
  have hp : record.pendingTransitionCode.isSome := hp
  rw [hpending] at hp
  cases hp

def deskSetting : CoordSetting where
  aliases := { localRead := 15, localWrite := 15, peerRead := some 17, peerWrite := none }
  confirmations := 2
  policy := { threshold := 4, window := 60, settle := 30 }

/-- A poll of the desk at the given time. -/
def deskRead (observed : UInt8) (now : ℕ) : CoordEvent :=
  .observation (some { observed, aliases := deskSetting.aliases, panelState := none })
    deskSetting.confirmations deskSetting.policy now

def deskMismatch (now : ℕ) : CoordEvent :=
  .observation none deskSetting.confirmations .disabled now

theorem owned_changes_earned_desk :
    let events := [deskRead 17 1, deskMismatch 2, .failure, deskMismatch 3, deskRead 15 4,
      deskRead 15 5]
    (coordination.run .seeded events).owned = true ∧
      watched.Steps (Earned deskSetting) ([], .seeded) events := by
  refine ⟨by decide, ?_⟩
  have hunder : ∀ event ∈ [deskRead 17 1, deskMismatch 2, .failure, deskMismatch 3, deskRead 15 4,
      deskRead 15 5], event.under deskSetting := by
    simp [deskMismatch, deskRead, CoordEvent.under, deskSetting]
  exact owned_changes_earned (safe_run []) rfl hunder (by decide) (by decide)

/-- One mismatch and one read of code 0 take the display away together. -/
theorem owned_changes_unearned : ¬ ∀ (s : CoordSetting) (record : CoordRecord), record.Safe →
    record.pendingTransitionCode = none → ∀ events : List CoordEvent,
      (∀ event ∈ events, event.under s) → (∀ event ∈ events, event.isLocalWrite = false) →
        watched.Steps (Earned s) ([], record) events := by
  intro hall
  have h := hall deskSetting .seeded (safe_run []) rfl [deskMismatch 1, deskRead 0 2]
    (by simp [deskMismatch, deskRead, CoordEvent.under, deskSetting]) (by decide)
  obtain ⟨ev, -, -, htake⟩ := h.2.1.changed (by decide)
  have heard : [Evidence.code 0, Evidence.mismatch] = [ev, ev] := htake
  obtain ⟨rfl, hrest⟩ := List.cons.inj heard
  cases hrest

end Dormant
