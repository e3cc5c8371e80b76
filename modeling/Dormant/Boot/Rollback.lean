import Dormant.Boot.Guard

/-!
# Rollbacks

A rollback is earned by a crash loop, sticks while nothing changes, and ends with a changed config
or a quiet window. The laws hold from any state of the directory.
-/

namespace Dormant
set_option autoImplicit false

/-! ## What the verdict counts -/

/-- The live starts within the window. -/
def countedStarts (starts : List StartEntry) (discountNonces : List ℕ) (nowEpochS : ℕ) :
    List StartEntry :=
  (liveStarts starts discountNonces).filter fun e => nowEpochS - e.epochS ≤ crashLoopWindow

theorem countStart_foldl (discountNonces : List ℕ) (current : Fingerprint) (nowEpochS : ℕ)
    (starts : List StartEntry) (counted : ℕ × ℕ) :
    starts.foldl (countStart discountNonces current nowEpochS) counted =
      (counted.1 + (countedStarts starts discountNonces nowEpochS).length,
        counted.2 + (countedStarts starts discountNonces nowEpochS).countP
          fun e => e.fingerprint = current) := by
  induction starts generalizing counted with
  | nil => rfl
  | cons e starts ih =>
    rw [List.foldl_cons, ih]
    unfold countStart countedStarts liveStarts
    by_cases hlive : e.nonce ∈ discountNonces
    · rw [if_pos hlive, List.filter_cons_of_neg (by simpa using hlive)]
    · rw [if_neg hlive, List.filter_cons_of_pos (by simpa using hlive)]
      by_cases hold : nowEpochS - e.epochS > crashLoopWindow
      · rw [if_pos hold, List.filter_cons_of_neg (by rw [decide_eq_true_eq]; omega)]
      · rw [if_neg hold, List.filter_cons_of_pos (by rw [decide_eq_true_eq]; omega)]
        by_cases hcurrent : e.fingerprint = current
        · rw [if_pos hcurrent, List.countP_cons_of_pos (by simpa using hcurrent),
            List.length_cons]
          refine Prod.ext ?_ ?_ <;> dsimp only <;> omega
        · rw [if_neg hcurrent, List.countP_cons_of_neg (by simpa using hcurrent),
            List.length_cons]
          refine Prod.ext ?_ ?_ <;> dsimp only
          omega

theorem sameFingerprintWindowStats_eq (starts : List StartEntry) (discountNonces : List ℕ)
    (current : Fingerprint) (nowEpochS : ℕ) :
    sameFingerprintWindowStats starts discountNonces current nowEpochS =
      ((countedStarts starts discountNonces nowEpochS).length,
        (countedStarts starts discountNonces nowEpochS).countP
          fun e => e.fingerprint = current) := by
  unfold sameFingerprintWindowStats
  rw [countStart_foldl, Nat.zero_add, Nat.zero_add]

/-! ## The laws of a verdict -/

/-- A crash loop of this config while no rollback is active, with another config to fall back on. -/
structure EarnsRollback (state : CrashLoopState) (discountNonces : List ℕ) (lkg : LkgInfo)
    (current : Fingerprint) (nowEpochS : ℕ) (lkgRollbackEnabled : Bool) : Prop where
  exist : lkg.exist = true
  differs : lkg.bytesEqualCurrent = false
  gate : lkgRollbackEnabled = true
  inactive : state.rollbackActive = false
  threshold : crashLoopThreshold ≤ (countedStarts state.starts discountNonces nowEpochS).length
  same : ∀ e ∈ countedStarts state.starts discountNonces nowEpochS, e.fingerprint = current

/-- The rollback is of this config, and there is a valid config to fall back on. -/
structure KeepsRollback (state : CrashLoopState) (lkg : LkgInfo) (current : Fingerprint) :
    Prop where
  active : state.rollbackActive = true
  failed : state.rolledBackFrom = some current
  exist : lkg.exist = true
  validates : lkg.validates = true

section
variable {state : CrashLoopState} {discountNonces : List ℕ} {lkg : LkgInfo}
variable {current : Fingerprint} {nowEpochS : ℕ} {lkgRollbackEnabled : Bool}

theorem earnsRollback_of_decide
    (h : (state.decide discountNonces lkg current nowEpochS lkgRollbackEnabled).action =
      .rollBack) :
    EarnsRollback state discountNonces lkg current nowEpochS lkgRollbackEnabled := by
  unfold CrashLoopState.decide at h
  split at h
  · cases h
  split at h
  · cases h
  split at h
  · cases h
  dsimp only at h
  split at h
  · rename_i hearned
    obtain ⟨hthreshold, ⟨-, hsame⟩, hdiffers, hexist, hinactive, hgate⟩ := hearned
    rw [sameFingerprintWindowStats_eq] at hthreshold hsame
    refine ⟨hexist, Bool.eq_false_iff.mpr hdiffers, hgate, Bool.eq_false_iff.mpr hinactive,
      hthreshold, fun e he => ?_⟩
    exact of_decide_eq_true (List.countP_eq_length.mp hsame e he)
  · split at h <;> cases h

theorem keepsRollback_of_decide
    (h : (state.decide discountNonces lkg current nowEpochS lkgRollbackEnabled).action =
      .continueRollback) : KeepsRollback state lkg current := by
  unfold CrashLoopState.decide at h
  split at h
  · cases h
  split at h
  · cases h
  split at h
  · rename_i hkeeps
    obtain ⟨hactive, hfailed, hexist, hvalidates⟩ := hkeeps
    exact ⟨hactive, hfailed.symm, hexist, hvalidates⟩
  dsimp only at h
  split at h
  · cases h
  · split at h <;> cases h

theorem decide_keeps (h : KeepsRollback state lkg current)
    (hage : ¬ageLeg state.starts discountNonces nowEpochS) :
    (state.decide discountNonces lkg current nowEpochS lkgRollbackEnabled).action =
      .continueRollback := by
  unfold CrashLoopState.decide
  rw [if_neg fun hquiet => hage hquiet.1, if_neg fun hmissing => hmissing.2 ⟨h.exist, h.validates⟩,
    if_pos ⟨h.active, h.failed.symm, h.exist, h.validates⟩]

/-- While a rollback is active, a changed config or a quiet window ends it. -/
theorem decide_departs (hactive : state.rollbackActive = true)
    (h : some current ≠ state.rolledBackFrom ∨ ageLeg state.starts discountNonces nowEpochS) :
    (state.decide discountNonces lkg current nowEpochS lkgRollbackEnabled).action = .proceed := by
  unfold CrashLoopState.decide
  split
  · rfl
  rename_i hquiet
  split
  · rfl
  have hdiffers : some current ≠ state.rolledBackFrom := by
    rcases h with h | h
    · exact h
    · exact fun hsame => hquiet ⟨h, hsame⟩
  rw [if_neg fun hkeeps => hdiffers hkeeps.2.1]
  dsimp only
  rw [if_neg fun hearned => hearned.2.2.2.2.1 hactive]

end

/-! ## Runs of `prepare` -/

/-- What is kept of the starts when another one is recorded. -/
def keptStarts (starts : List StartEntry) : List StartEntry :=
  starts.drop (starts.length + 1 - maxStarts)

section
variable (hasher : List UInt8 → ℕ)

namespace StateDir
variable (dir : StateDir) (b : Boot)

/-- The nonces that are discounted when the boot decides. -/
def discounted : List ℕ := (dir.collectAndSweepDiscounts b).discountNonces

/-- The live start before that of this boot, among those that are kept. -/
def predecessor : Option StartEntry :=
  (liveStarts (dir.recordStart hasher b).starts.dropLast (dir.discounted b)).getLast?

/-- The boot's nonce is new. -/
def FreshNonce : Prop := b.nonce ∉ dir.discounted b

/-- The config is the failed one, the last known good one is valid, and a live start precedes this
one within the window. -/
structure Held (failed : Fingerprint) : Prop where
  fresh : dir.FreshNonce b
  same : fingerprintFile hasher b.configBytes = failed
  valid : ∃ lkg ∈ b.lkg, lkg.validates = true
  recent : ∃ e ∈ dir.predecessor hasher b, b.now - e.epochS ≤ crashLoopWindow

/-- The config is another one, or the start before this one is older than the window. -/
structure Departs (failed : Fingerprint) : Prop where
  fresh : dir.FreshNonce b
  changed : fingerprintFile hasher b.configBytes ≠ failed ∨
    ∃ e ∈ dir.predecessor hasher b, crashLoopWindow < b.now - e.epochS

variable {dir b}

theorem recordStart_kept (dir : StateDir) (b : Boot) :
    (dir.recordStart hasher b).starts = keptStarts dir.crashLoop.starts ++
      [⟨b.now, fingerprintFile hasher b.configBytes, b.nonce⟩] := by
  have hmax : maxStarts = 10 := rfl
  unfold recordStart keptStarts
  dsimp only
  rw [List.length_append, List.length_singleton, List.drop_append_of_le_length (by omega)]

/-- This boot's start is the last one that is kept. -/
theorem recordStart_concat (dir : StateDir) (b : Boot) :
    (dir.recordStart hasher b).starts = (dir.recordStart hasher b).starts.dropLast ++
      [⟨b.now, fingerprintFile hasher b.configBytes, b.nonce⟩] := by
  rw [recordStart_kept, List.dropLast_concat]

theorem ageLeg_iff (hfresh : dir.FreshNonce b) :
    ageLeg (dir.recordStart hasher b).starts (dir.discounted b) b.now ↔
      ∃ e ∈ dir.predecessor hasher b, crashLoopWindow < b.now - e.epochS := by
  have hlive : liveStarts (dir.recordStart hasher b).starts (dir.discounted b) =
      liveStarts (dir.recordStart hasher b).starts.dropLast (dir.discounted b) ++
        [⟨b.now, fingerprintFile hasher b.configBytes, b.nonce⟩] := by
    unfold liveStarts
    conv_lhs => rw [recordStart_concat hasher dir b]
    have hnew : decide (b.nonce ∉ dir.discounted b) = true := decide_eq_true hfresh
    rw [List.filter_append, List.filter_singleton, hnew]
    rfl
  have hprevious : (liveStarts (dir.recordStart hasher b).starts (dir.discounted b)).reverse[1]? =
      dir.predecessor hasher b := by
    rw [hlive, List.reverse_append, List.reverse_singleton, List.singleton_append,
      List.getElem?_cons_succ, ← List.head?_eq_getElem?, List.head?_reverse]
    rfl
  unfold ageLeg
  rw [hprevious]

/-- `prepare` does not panic, and it chooses the last known good config for a rollback only. -/
theorem prepare_chooses (dir : StateDir) (b : Boot) :
    ∃ plan, dir.prepare hasher b = some plan ∧
      plan.chosenConfig =
        if (dir.verdict hasher b).action = .proceed then b.configPath else dir.lkgPath := by
  unfold prepare
  cases haction : (dir.verdict hasher b).action with
  | rollBack =>
    dsimp only
    rw [haction]
    refine ⟨_, rfl, ?_⟩
    rfl
  | continueRollback =>
    have hfailed : (dir.prepared hasher b).crashLoop.rolledBackFrom =
        some (fingerprintFile hasher b.configBytes) := by
      unfold prepared
      dsimp only
      rw [haction]
      exact (keepsRollback_of_decide haction).failed
    dsimp only
    rw [haction, hfailed]
    refine ⟨_, rfl, ?_⟩
    rfl
  | proceed =>
    dsimp only
    rw [haction]
    dsimp only
    by_cases hretry : (dir.verdict hasher b).retryAfterQuiet = true
    · rw [if_pos hretry]
      exact ⟨_, rfl, rfl⟩
    by_cases hmissing : (dir.verdict hasher b).lkgMissingDisarmed = true
    · rw [if_neg hretry, if_pos hmissing]
      exact ⟨_, rfl, rfl⟩
    · rw [if_neg hretry, if_neg hmissing]
      exact ⟨_, rfl, rfl⟩

/-- The rollback from a config is active. -/
def Holds (dir : StateDir) (failed : Fingerprint) : Prop :=
  dir.crashLoop.rollbackActive = true ∧ dir.crashLoop.rolledBackFrom = some failed

theorem holds_of_rollBack (h : (dir.verdict hasher b).action = .rollBack) :
    (dir.prepared hasher b).Holds (fingerprintFile hasher b.configBytes) := by
  unfold Holds prepared
  dsimp only
  rw [h]
  exact ⟨rfl, rfl⟩

theorem continues_of_held {failed : Fingerprint} (hholds : dir.Holds failed)
    (hheld : dir.Held hasher b failed) : (dir.verdict hasher b).action = .continueRollback := by
  obtain ⟨lkg, hlkg, hvalidates⟩ := hheld.valid
  obtain ⟨e, he, hrecent⟩ := hheld.recent
  have hage : ¬ageLeg (dir.recordStart hasher b).starts (dir.discounted b) b.now := by
    rw [ageLeg_iff hasher hheld.fresh]
    rintro ⟨e', he', hold⟩
    obtain rfl := Option.some.inj (he.symm.trans he')
    omega
  have hinfo : buildLkgInfo b = ⟨true, true, filesBytesEqual lkg.bytes b.configBytes⟩ := by
    have hfound : b.lkg = some lkg := hlkg
    unfold buildLkgInfo
    rw [hfound]
    dsimp only
    rw [hvalidates]
  refine decide_keeps ⟨hholds.1, ?_, ?_, ?_⟩ hage
  · exact hholds.2.trans (congrArg some hheld.same.symm)
  · rw [hinfo]
  · rw [hinfo]

theorem holds_of_continue {failed : Fingerprint} (hholds : dir.Holds failed)
    (h : (dir.verdict hasher b).action = .continueRollback) :
    (dir.prepared hasher b).Holds failed := by
  unfold Holds prepared
  dsimp only
  rw [h]
  exact hholds

theorem proceeds_of_departs {failed : Fingerprint} (hholds : dir.Holds failed)
    (hdeparts : dir.Departs hasher b failed) : (dir.verdict hasher b).action = .proceed := by
  refine decide_departs hholds.1 ?_
  rcases hdeparts.changed with hchanged | hquiet
  · left
    intro hsame
    exact hchanged (Option.some.inj (hsame.trans hholds.2))
  · right
    exact (ageLeg_iff hasher hdeparts.fresh).mpr hquiet

/-- This boot's start is among those that are counted. -/
theorem mem_countedStarts (hfresh : dir.FreshNonce b) :
    ⟨b.now, fingerprintFile hasher b.configBytes, b.nonce⟩ ∈
      countedStarts (dir.recordStart hasher b).starts (dir.discounted b) b.now := by
  refine List.mem_filter.mpr ⟨List.mem_filter.mpr ⟨?_, decide_eq_true hfresh⟩, ?_⟩
  · rw [recordStart_concat hasher dir b]
    exact List.mem_append_right _ (List.mem_singleton_self _)
  · refine decide_eq_true ?_
    dsimp only
    rw [Nat.sub_self]
    exact Nat.zero_le _

end StateDir

end

/-! ## A loop of three starts -/

/-- A boot of a one-byte config, a minute after each other. -/
def minuteBoot (n : ℕ) (config : UInt8) (lkg : LkgFile) : Boot where
  configPath := "/etc/dormant.toml"
  configBytes := some [config]
  lkg := some lkg
  lkgRollbackEnabled := true
  now := 60 * n
  nonce := n
  configBuild := .ok ()
  lkgBuild := if lkg.validates then .ok () else .error ⟨"invalid", "load config: invalid"⟩
  lockAcquired := true
  discountedAt := 60 * n
  appStarts := true

/-- Two starts are recorded. -/
def twoStarts : StateDir where
  path := "/state"
  crashLoop := ⟨1, [⟨0, .bytes 1 1, 0⟩, ⟨60, .bytes 1 1, 1⟩], false, none⟩
  discounts := []

end Dormant
