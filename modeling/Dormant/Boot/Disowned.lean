import Mathlib.Data.List.Induction
import Dormant.Boot.Rollback

/-!
# Disowned boots

A boot that fails to take the lock is disowned by a discount file. It leaves no trace in a history
if it changes no rollback and pushes no start out of the list that a later boot decides by: the
histories with it and without it then agree on what each verdict looks at.
-/

namespace Dormant
set_option autoImplicit false

/-! ## Which starts matter -/

/-- The start is older than the window. -/
def Stale (now : ℕ) (e : StartEntry) : Prop := crashLoopWindow < now - e.epochS

theorem Stale.mono {now now' : ℕ} (hle : now ≤ now') {e : StartEntry} (h : Stale now e) :
    Stale now' e := by
  unfold Stale at *
  omega

def ownedStarts (disowned : List ℕ) (starts : List StartEntry) : List StartEntry :=
  starts.filter fun e => e.nonce ∉ disowned

/-- A start that is pushed out is disowned, or it is stale and not the last owned one. -/
def Spares (disowned : List ℕ) (starts : List StartEntry) (now : ℕ) : Prop :=
  maxStarts ≤ starts.length → ∀ e ∈ starts.head?, e.nonce ∈ disowned ∨
    Stale now e ∧ ∃ e' ∈ starts.tail, e'.nonce ∉ disowned

section
variable {disowned : List ℕ} {starts older : List StartEntry} {now : ℕ}

theorem keptStarts_of_lt (h : starts.length < maxStarts) : keptStarts starts = starts := by
  unfold keptStarts
  rw [Nat.sub_eq_zero_of_le (by omega)]
  rfl

theorem keptStarts_of_full (h : starts.length = maxStarts) : keptStarts starts = starts.tail := by
  unfold keptStarts
  rw [h, Nat.add_sub_cancel_left, List.drop_one]

theorem keptStarts_length (h : starts.length ≤ maxStarts) :
    (keptStarts starts).length < maxStarts := by
  have hmax : maxStarts = 10 := rfl
  unfold keptStarts
  rw [List.length_drop]
  omega

theorem keptStarts_append (h : (older ++ starts).length ≤ maxStarts)
    (hstarts : starts.length < maxStarts) :
    ∃ older', older'.Sublist older ∧ keptStarts (older ++ starts) = older' ++ starts := by
  have hmax : maxStarts = 10 := rfl
  unfold keptStarts
  rw [List.length_append] at h
  refine ⟨_, List.drop_sublist _ _, List.drop_append_of_le_length ?_⟩
  rw [List.length_append]
  omega

theorem keptStarts_eq_nil (h : keptStarts starts = []) : starts = [] := by
  have hmax : maxStarts = 10 := rfl
  unfold keptStarts at h
  have hlength := List.drop_eq_nil_iff.mp h
  exact List.eq_nil_of_length_eq_zero (by omega)

/-- The stale starts that only the other history has, before those that both have. -/
structure Precedes (disowned : List ℕ) (older starts : List StartEntry) (now : ℕ) : Prop where
  stale : ∀ e ∈ older, Stale now e
  last : older ≠ [] → ownedStarts disowned starts ≠ []

/-- What is pushed out of the list goes to the older starts. -/
theorem Precedes.kept (h : Precedes disowned older starts now)
    (hlength : starts.length ≤ maxStarts) (hspares : Spares disowned starts now) :
    ∃ older', older ++ ownedStarts disowned starts =
        older' ++ ownedStarts disowned (keptStarts starts) ∧
      Precedes disowned older' (keptStarts starts) now := by
  rcases Nat.lt_or_eq_of_le hlength with hlt | hfull
  · rw [keptStarts_of_lt hlt]
    exact ⟨older, rfl, h⟩
  · rw [keptStarts_of_full hfull]
    cases starts with
    | nil => exact ⟨older, rfl, h⟩
    | cons e rest =>
      dsimp only [List.tail_cons]
      by_cases howned : e.nonce ∈ disowned
      · have hsame : ownedStarts disowned (e :: rest) = ownedStarts disowned rest :=
          List.filter_cons_of_neg (by simpa using howned)
        refine ⟨older, by rw [hsame], h.stale, ?_⟩
        rw [← hsame]
        exact h.last
      · have hcons : ownedStarts disowned (e :: rest) = e :: ownedStarts disowned rest :=
          List.filter_cons_of_pos (by simpa using howned)
        rcases hspares (Nat.le_of_eq hfull.symm) e rfl with hdisowned | ⟨hstale, e', hrest, he'⟩
        · exact absurd hdisowned howned
        · refine ⟨older ++ [e], ?_, fun x hx => ?_, fun _ hnil => ?_⟩
          · rw [hcons, List.append_assoc]
            rfl
          · rcases List.mem_append.mp hx with hx | hx
            · exact h.stale x hx
            · obtain rfl := List.mem_singleton.mp hx
              exact hstale
          · have hmem : e' ∈ ownedStarts disowned rest :=
              List.mem_filter.mpr ⟨hrest, by simpa using he'⟩
            rw [hnil] at hmem
            cases hmem

/-- Without the disowned starts, as many of the older ones are kept. -/
theorem Precedes.record (h : Precedes disowned older starts now)
    (hlength : starts.length ≤ maxStarts)
    (holder : (older ++ ownedStarts disowned starts).length ≤ maxStarts)
    (hspares : (∃ e ∈ starts, e.nonce ∈ disowned) → Spares disowned starts now) :
    ∃ older', keptStarts (older ++ ownedStarts disowned starts) =
        older' ++ ownedStarts disowned (keptStarts starts) ∧
      Precedes disowned older' (keptStarts starts) now := by
  by_cases hsome : ∃ e ∈ starts, e.nonce ∈ disowned
  · obtain ⟨older', heq, hprecedes⟩ := h.kept hlength (hspares hsome)
    rw [heq] at holder ⊢
    have howned : (ownedStarts disowned (keptStarts starts)).length < maxStarts :=
      Nat.lt_of_le_of_lt (List.length_filter_le _ _) (keptStarts_length hlength)
    obtain ⟨older'', hsub, hkept⟩ := keptStarts_append holder howned
    refine ⟨older'', hkept, fun e he => hprecedes.stale e (hsub.subset he), fun hne => ?_⟩
    refine hprecedes.last fun hnil => hne ?_
    rw [hnil] at hsub
    exact List.eq_nil_of_sublist_nil hsub
  · have hall (l : List StartEntry) (hl : ∀ e ∈ l, e ∈ starts) : ownedStarts disowned l = l := by
      refine List.filter_eq_self.mpr fun e he => ?_
      rw [decide_eq_true_eq]
      exact fun hdisowned => hsome ⟨e, hl e he, hdisowned⟩
    rw [hall starts fun e he => he] at holder ⊢
    rw [hall (keptStarts starts) fun e he => List.mem_of_mem_drop he]
    rcases Nat.lt_or_eq_of_le hlength with hlt | hfull
    · rw [keptStarts_of_lt hlt]
      obtain ⟨older', hsub, hkept⟩ := keptStarts_append holder hlt
      refine ⟨older', hkept, fun e he => h.stale e (hsub.subset he), fun hne => ?_⟩
      refine h.last fun hnil => hne ?_
      rw [hnil] at hsub
      exact List.eq_nil_of_sublist_nil hsub
    · have hnil : older = [] := by
        rw [List.length_append] at holder
        exact List.eq_nil_of_length_eq_zero (by omega)
      subst hnil
      exact ⟨[], rfl, fun e he => (by cases he), fun hne => absurd rfl hne⟩

end

/-! ## What a verdict looks at -/

theorem decide_congr {state state' : CrashLoopState} {nonces nonces' : List ℕ} (lkg : LkgInfo)
    (current : Fingerprint) (now : ℕ) (gate : Bool)
    (hactive : state.rollbackActive = state'.rollbackActive)
    (hfailed : state.rolledBackFrom = state'.rolledBackFrom)
    (hcounted : countedStarts state.starts nonces now = countedStarts state'.starts nonces' now)
    (hage : state'.rolledBackFrom = none ∨
      (ageLeg state.starts nonces now ↔ ageLeg state'.starts nonces' now)) :
    state.decide nonces lkg current now gate = state'.decide nonces' lkg current now gate := by
  unfold CrashLoopState.decide
  rw [sameFingerprintWindowStats_eq, sameFingerprintWindowStats_eq, hcounted, hactive, hfailed]
  rcases hage with hnone | hage
  · simp only [hnone, reduceCtorEq, and_false, ne_eq, not_false_eq_true, true_or]
  · simp only [hage]

section
variable {disowned nonces : List ℕ} {kept older : List StartEntry} {now : ℕ}

/-- A disowned start that is kept is discounted or stale, and no other one is discounted. -/
structure Accounts (disowned nonces : List ℕ) (kept : List StartEntry) (now : ℕ) : Prop where
  accounted : ∀ e ∈ kept, e.nonce ∈ disowned → e.nonce ∈ nonces ∨ Stale now e
  owned : ∀ n ∈ nonces, n ∈ disowned
  sorted : kept.Pairwise fun e e' => e.epochS ≤ e'.epochS

theorem Accounts.counted (h : Accounts disowned nonces kept now)
    (hprecedes : Precedes disowned older kept now) :
    countedStarts kept nonces now = countedStarts (older ++ ownedStarts disowned kept) [] now := by
  have hlive (l : List StartEntry) : liveStarts l [] = l :=
    List.filter_eq_self.mpr fun e _ => by simp
  have holder : older.filter (fun e => decide (now - e.epochS ≤ crashLoopWindow)) = [] := by
    refine List.filter_eq_nil_iff.mpr fun e he => ?_
    rw [decide_eq_true_eq]
    exact Nat.not_le.mpr (hprecedes.stale e he)
  unfold countedStarts
  rw [hlive, List.filter_append, holder, List.nil_append]
  unfold liveStarts ownedStarts
  rw [List.filter_filter, List.filter_filter]
  refine List.filter_congr fun e he => ?_
  rw [Bool.eq_iff_iff]
  simp only [Bool.and_eq_true, decide_eq_true_eq]
  refine and_congr_right fun hwindow => ⟨fun hlive hdisowned => ?_, fun howned hdiscounted => ?_⟩
  · rcases h.accounted e he hdisowned with hdiscounted | hstale
    · exact hlive hdiscounted
    · exact absurd hwindow (Nat.not_le.mpr hstale)
  · exact howned (h.owned e.nonce hdiscounted)

/-- The last live start is as old as the last owned one, or both are stale. -/
theorem Accounts.last (h : Accounts disowned nonces kept now) {o : StartEntry}
    (hlast : o ∈ (ownedStarts disowned kept).getLast?) :
    (∃ e ∈ (liveStarts kept nonces).getLast?, Stale now e) ↔ Stale now o := by
  induction kept using List.reverseRecOn with
  | nil => cases hlast
  | append_singleton kept e ih =>
    have hrest : Accounts disowned nonces kept now :=
      ⟨fun e he => h.accounted e (List.mem_append_left _ he), h.owned,
        (List.pairwise_append.mp h.sorted).1⟩
    unfold ownedStarts liveStarts at *
    rw [List.filter_append] at hlast ⊢
    by_cases hdisowned : e.nonce ∈ disowned
    · rw [List.filter_cons_of_neg (by simpa using hdisowned), List.filter_nil, List.append_nil]
        at hlast
      by_cases hdiscounted : e.nonce ∈ nonces
      · rw [List.filter_cons_of_neg (by simpa using hdiscounted), List.filter_nil, List.append_nil]
        exact ih hrest hlast
      · rw [List.filter_cons_of_pos (by simpa using hdiscounted), List.filter_nil,
          List.getLast?_concat]
        have hstale := (h.accounted e (by simp) hdisowned).resolve_left hdiscounted
        have ho : o ∈ kept := List.mem_of_mem_filter (List.mem_of_getLast? hlast)
        have hle := (List.pairwise_append.mp h.sorted).2.2 o ho e (List.mem_singleton_self e)
        refine ⟨fun _ => ?_, fun _ => ⟨e, rfl, hstale⟩⟩
        unfold Stale at *
        omega
    · have hlive : e.nonce ∉ nonces := fun hdiscounted => hdisowned (h.owned _ hdiscounted)
      rw [List.filter_cons_of_pos (by simpa using hdisowned), List.filter_nil,
        List.getLast?_concat] at hlast
      rw [List.filter_cons_of_pos (by simpa using hlive), List.filter_nil, List.getLast?_concat]
      obtain rfl := Option.some.inj hlast
      exact ⟨fun ⟨e', he', hstale⟩ => Option.some.inj he' ▸ hstale, fun hstale => ⟨e, rfl, hstale⟩⟩

end

/-! ## What a boot does to its directory -/

section
variable (hasher : List UInt8 → ℕ)

namespace StateDir
variable (dir : StateDir) (b : Boot)

/-- A directory without files. -/
def empty (path : String) : StateDir := ⟨path, .default, []⟩

/-- The boot fails to take the lock. -/
def Disowns : Prop := (dir.booted hasher b).2 = some .lockFailed

instance : Decidable (dir.Disowns hasher b) :=
  inferInstanceAs (Decidable ((dir.booted hasher b).2 = some .lockFailed))

/-- The directory after an immediate rollback, if there is one. -/
def rolledBack : Option Fingerprint → StateDir
  | none => dir
  | some failed => dir.writeImmediateRollbackState failed

variable {b}

theorem lockAndStart_frame (b : Boot) (plan : BootPlan) (usedConfig : String) (rolledBack : Bool)
    (immediatePending : Option String) (immediateRollback : Option RollbackStatus) :
    ∃ outcome : BootOutcome, ∀ dir : StateDir,
      dir.lockAndStart b plan usedConfig rolledBack immediatePending immediateRollback =
        (if outcome = .lockFailed then dir.recordDiscount b else dir, outcome) := by
  unfold lockAndStart
  by_cases hlock : b.lockAcquired = false
  · refine ⟨.lockFailed, fun dir => ?_⟩
    rw [if_pos hlock, if_pos rfl]
  by_cases happ : b.appStarts = false
  · refine ⟨.startFailed, fun dir => ?_⟩
    rw [if_neg hlock, if_pos happ, if_neg (by decide)]
  · refine ⟨.started usedConfig rolledBack (immediatePending.or plan.pendingMessage)
      (immediateRollback.or plan.rollbackStatus), fun dir => ?_⟩
    rw [if_neg hlock, if_neg happ, if_neg]
    intro h
    cases h

/-- What a boot does depends on the directory only through its path. -/
theorem boot_frame (path : String) (plan : BootPlan) :
    ∃ (outcome : BootOutcome) (failed : Option Fingerprint),
      (outcome = .lockFailed → failed =
        if plan.chosenConfig = path ∨ b.configBuild.isOk = true then none
        else some (fingerprintFile hasher b.configBytes)) ∧
      ∀ dir : StateDir, dir.lkgPath = path → dir.boot hasher b plan =
        (if outcome = .lockFailed then (dir.rolledBack failed).recordDiscount b
          else dir.rolledBack failed, outcome) := by
  have hfails (message : String) : BootOutcome.buildFailed message ≠ .lockFailed := by
    intro h
    cases h
  unfold boot
  by_cases hlkg : plan.chosenConfig = path
  · cases hbuild : b.lkgBuild with
    | ok u =>
      obtain ⟨outcome, hframe⟩ := lockAndStart_frame b plan plan.chosenConfig true none none
      refine ⟨outcome, none, fun _ => (if_pos (.inl hlkg)).symm, fun dir hpath => ?_⟩
      rw [if_pos (hlkg.trans hpath.symm)]
      exact hframe dir
    | error e =>
      refine ⟨.buildFailed e.chain, none, fun h => absurd h (hfails _), fun dir hpath => ?_⟩
      rw [if_pos (hlkg.trans hpath.symm), if_neg (hfails _)]
      rfl
  have hneg (dir : StateDir) (hpath : dir.lkgPath = path) : ¬plan.chosenConfig = dir.lkgPath :=
    fun h => hlkg (h.trans hpath)
  cases hconfig : b.configBuild with
  | ok u =>
    obtain ⟨outcome, hframe⟩ := lockAndStart_frame b plan plan.chosenConfig false none none
    refine ⟨outcome, none, fun _ => (if_pos (.inr rfl)).symm, fun dir hpath => ?_⟩
    rw [if_neg (hneg dir hpath)]
    exact hframe dir
  | error e =>
    have hunbuilt :
        ¬(plan.chosenConfig = path ∨ (Except.error e : Except BuildError Unit).isOk = true) := by
      rintro (h | h)
      · exact hlkg h
      · cases h
    by_cases heligible : immediateRollbackEligible b = true
    · cases hbuild : b.lkgBuild with
      | ok u =>
        obtain ⟨outcome, hframe⟩ := lockAndStart_frame b plan path true
          (some (pendingMessageForRollback e.text))
          (some ⟨(fingerprintFile hasher b.configBytes).label,
            (fingerprintFile hasher (b.lkg.bind LkgFile.bytes)).label,
            pendingMessageForRollback e.text, some recoveryCommandSuggestion⟩)
        refine ⟨outcome, some (fingerprintFile hasher b.configBytes),
          fun _ => (if_neg hunbuilt).symm, fun dir hpath => ?_⟩
        rw [if_neg (hneg dir hpath)]
        dsimp only
        rw [if_pos heligible, hpath]
        exact hframe _
      | error e2 =>
        refine ⟨.buildFailed e2.chain, some (fingerprintFile hasher b.configBytes),
          fun h => absurd h (hfails _), fun dir hpath => ?_⟩
        rw [if_neg (hneg dir hpath), if_neg (hfails _)]
        dsimp only
        rw [if_pos heligible]
        rfl
    · refine ⟨.buildFailed e.chain, none, fun h => absurd h (hfails _), fun dir hpath => ?_⟩
      rw [if_neg (hneg dir hpath), if_neg (hfails _)]
      dsimp only
      rw [if_neg heligible]
      rfl

end StateDir

/-! ## Histories with and without the disowned boots -/

/-- What a boot decides and the config that it tries first. -/
def BootRecord.choice (record : BootRecord) : Action × Option String :=
  (record.action, record.chosenConfig)

/-- The boots of a history that are not disowned. -/
def ownedBoots : StateDir → List Boot → List Boot
  | _, [] => []
  | dir, b :: boots =>
    if dir.Disowns hasher b then ownedBoots ((bootings hasher).next dir b).1 boots
    else b :: ownedBoots ((bootings hasher).next dir b).1 boots

/-- A history with the nonces of its disowned boots. -/
def disownings : Runs.System (List ℕ × StateDir) Boot BootRecord :=
  (bootings hasher).observed fun disowned dir b _ =>
    if dir.Disowns hasher b then b.nonce :: disowned else disowned

/-- A disowned boot finds a rollback that it continues or makes again, or it finds none, and gives
no reason for one. -/
def KeepsFields (dir : StateDir) (b : Boot) : Prop :=
  KeepsRollback (dir.recordStart hasher b) (buildLkgInfo b) (fingerprintFile hasher b.configBytes) ∧
      ¬ageLeg (dir.recordStart hasher b).starts (dir.discounted b) b.now ∨
    dir.Holds (fingerprintFile hasher b.configBytes) ∧ b.configPath ≠ dir.lkgPath ∧
      b.configBuild.isOk = false ∨
    dir.crashLoop.rollbackActive = false ∧ b.configBuild.isOk = true ∧
      ¬EarnsRollback (dir.recordStart hasher b) (dir.discounted b) (buildLkgInfo b)
        (fingerprintFile hasher b.configBytes) b.now b.lkgRollbackEnabled

/-- A disowned boot keeps the rollback as it is, and no boot pushes out a start that matters where
there is a disowned one. -/
structure Harmless (x : List ℕ × StateDir) (b : Boot) : Prop where
  fields : x.2.Disowns hasher b → KeepsFields hasher x.2 b
  starts : (x.2.Disowns hasher b ∨ ∃ e ∈ x.2.crashLoop.starts, e.nonce ∈ x.1) →
    Spares x.1 x.2.crashLoop.starts b.now

/-- A boot with a clock and a nonce of its own. -/
structure Succeeds (now : ℕ) (x : List ℕ × StateDir) (b : Boot) : Prop where
  clock : now ≤ b.now
  undisowned : b.nonce ∉ x.1
  fresh : ∀ e ∈ x.2.crashLoop.starts, e.nonce ≠ b.nonce

/-- The directory of a history, with its disowned boots, and that of the history without them. -/
structure Tracks (now : ℕ) (x : List ℕ × StateDir) (red : StateDir) : Prop where
  path : x.2.path = red.path
  active : x.2.crashLoop.rollbackActive = red.crashLoop.rollbackActive
  failed : x.2.crashLoop.rolledBackFrom = red.crashLoop.rolledBackFrom
  idle : red.crashLoop.rollbackActive = false → red.crashLoop.rolledBackFrom = none
  first : red.crashLoop.starts = [] → red.crashLoop.rolledBackFrom = none
  undiscounted : red.discounts = []
  discounts : ∀ n ∈ x.2.discountNonces, n ∈ x.1
  length : x.2.crashLoop.starts.length ≤ maxStarts
  redLength : red.crashLoop.starts.length ≤ maxStarts
  sorted : x.2.crashLoop.starts.Pairwise fun e e' => e.epochS ≤ e'.epochS
  past : ∀ e ∈ x.2.crashLoop.starts, e.epochS ≤ now
  accounted : ∀ e ∈ x.2.crashLoop.starts, e.nonce ∈ x.1 →
    (∃ mtime, (e.nonce, mtime) ∈ x.2.discounts ∧ e.epochS ≤ mtime) ∨ Stale now e
  starts : ∃ older, red.crashLoop.starts = older ++ ownedStarts x.1 x.2.crashLoop.starts ∧
    Precedes x.1 older x.2.crashLoop.starts now

section
variable {now : ℕ} {x : List ℕ × StateDir} {red : StateDir} {b : Boot}

theorem Precedes.mono {disowned : List ℕ} {older starts : List StartEntry} {now now' : ℕ}
    (h : Precedes disowned older starts now) (hle : now ≤ now') :
    Precedes disowned older starts now' :=
  ⟨fun e he => (h.stale e he).mono hle, h.last⟩

theorem Tracks.accounts (h : Tracks now x red) (hb : Succeeds now x b) :
    Accounts x.1 (x.2.discounted b) (keptStarts x.2.crashLoop.starts) b.now := by
  refine ⟨fun e he hdisowned => ?_, fun n hn => ?_, h.sorted.sublist (List.drop_sublist _ _)⟩
  · rcases h.accounted e (List.mem_of_mem_drop he) hdisowned with ⟨mtime, hmem, hle⟩ | hstale
    · by_cases hswept : b.now - mtime > crashLoopWindow
      · right
        unfold Stale
        omega
      · left
        refine List.mem_map.mpr ⟨(e.nonce, mtime), ?_, rfl⟩
        exact List.mem_filter.mpr ⟨hmem, decide_eq_true hswept⟩
    · exact .inr (hstale.mono hb.clock)
  · obtain ⟨discount, hmem, rfl⟩ := List.mem_map.mp hn
    exact h.discounts _ (List.mem_map.mpr ⟨discount, List.mem_of_mem_filter hmem, rfl⟩)

theorem Tracks.redDiscounted (h : Tracks now x red) (b : Boot) : red.discounted b = [] := by
  unfold StateDir.discounted StateDir.discountNonces StateDir.collectAndSweepDiscounts
  dsimp only
  rw [h.undiscounted]
  rfl

theorem Tracks.fresh (h : Tracks now x red) (hb : Succeeds now x b) : x.2.FreshNonce b :=
  fun hmem => hb.undisowned ((h.accounts hb).owned _ hmem)

/-! ### The starts and the fields that `prepare` leaves -/

theorem prepared_starts (dir : StateDir) (b : Boot) :
    (dir.prepared hasher b).crashLoop.starts = keptStarts dir.crashLoop.starts ++
      [⟨b.now, fingerprintFile hasher b.configBytes, b.nonce⟩] := by
  rw [← StateDir.recordStart_kept]
  unfold StateDir.prepared
  dsimp only
  split
  · rfl
  · rfl
  · split <;> rfl

theorem prepared_congr {dir dir' : StateDir} {b : Boot}
    (hverdict : dir.verdict hasher b = dir'.verdict hasher b)
    (hactive : dir.crashLoop.rollbackActive = dir'.crashLoop.rollbackActive)
    (hfailed : dir.crashLoop.rolledBackFrom = dir'.crashLoop.rolledBackFrom) :
    (dir.prepared hasher b).crashLoop.rollbackActive =
        (dir'.prepared hasher b).crashLoop.rollbackActive ∧
      (dir.prepared hasher b).crashLoop.rolledBackFrom =
        (dir'.prepared hasher b).crashLoop.rolledBackFrom := by
  unfold StateDir.prepared
  dsimp only
  rw [hverdict]
  split
  · exact ⟨rfl, rfl⟩
  · exact ⟨hactive, hfailed⟩
  · split
    · exact ⟨rfl, rfl⟩
    · exact ⟨hactive, hfailed⟩

/-- Without an active rollback, nothing is rolled back from. -/
theorem prepared_idle {dir : StateDir} (b : Boot)
    (hidle : dir.crashLoop.rollbackActive = false → dir.crashLoop.rolledBackFrom = none)
    (h : (dir.prepared hasher b).crashLoop.rollbackActive = false) :
    (dir.prepared hasher b).crashLoop.rolledBackFrom = none := by
  unfold StateDir.prepared at *
  dsimp only at *
  split at h
  · cases h
  · exact hidle h
  · split at h
    · rename_i hproceed hclear
      rw [if_pos hclear]
    · rename_i hproceed hclear
      rw [if_neg hclear]
      exact hidle h

theorem prepare_congr {dir dir' : StateDir} {b : Boot} (hpath : dir.path = dir'.path)
    (hverdict : dir.verdict hasher b = dir'.verdict hasher b)
    (hfailed : (dir.prepared hasher b).crashLoop.rolledBackFrom =
      (dir'.prepared hasher b).crashLoop.rolledBackFrom)
    (hcounted : countedStarts (dir.recordStart hasher b).starts (dir.discounted b) b.now =
      countedStarts (dir'.recordStart hasher b).starts (dir'.discounted b) b.now) :
    dir.prepare hasher b = dir'.prepare hasher b := by
  unfold StateDir.discounted at hcounted
  unfold StateDir.prepare StateDir.lkgPath
  rw [hverdict, hpath, hfailed]
  dsimp only
  rw [sameFingerprintWindowStats_eq, sameFingerprintWindowStats_eq, hcounted]

/-! ### A boot in both histories -/

theorem Tracks.recorded (h : Tracks now x red) (hb : Succeeds now x b)
    (hspares : (∃ e ∈ x.2.crashLoop.starts, e.nonce ∈ x.1) →
      Spares x.1 x.2.crashLoop.starts b.now) :
    ∃ older, keptStarts red.crashLoop.starts =
        older ++ ownedStarts x.1 (keptStarts x.2.crashLoop.starts) ∧
      Precedes x.1 older (keptStarts x.2.crashLoop.starts) b.now := by
  obtain ⟨older, heq, hprecedes⟩ := h.starts
  have hlength := h.redLength
  rw [heq] at hlength ⊢
  exact (hprecedes.mono hb.clock).record h.length hlength hspares

theorem countedStarts_append (starts starts' : List StartEntry) (nonces : List ℕ) (now : ℕ) :
    countedStarts (starts ++ starts') nonces now =
      countedStarts starts nonces now ++ countedStarts starts' nonces now := by
  unfold countedStarts liveStarts
  rw [List.filter_append, List.filter_append]

theorem Tracks.counted (h : Tracks now x red) (hb : Succeeds now x b)
    (hspares : (∃ e ∈ x.2.crashLoop.starts, e.nonce ∈ x.1) →
      Spares x.1 x.2.crashLoop.starts b.now) :
    countedStarts (x.2.recordStart hasher b).starts (x.2.discounted b) b.now =
      countedStarts (red.recordStart hasher b).starts (red.discounted b) b.now := by
  obtain ⟨older, heq, hprecedes⟩ := h.recorded hb hspares
  rw [StateDir.recordStart_kept, StateDir.recordStart_kept, heq, h.redDiscounted,
    countedStarts_append, countedStarts_append, (h.accounts hb).counted hprecedes]
  congr 1
  unfold countedStarts
  congr 1
  refine List.filter_congr fun e he => ?_
  obtain rfl := List.mem_singleton.mp he
  rw [Bool.eq_iff_iff]
  simp only [decide_eq_true_eq, List.not_mem_nil, not_false_eq_true, iff_true]
  exact h.fresh hb

theorem Tracks.verdict (h : Tracks now x red) (hb : Succeeds now x b)
    (hspares : (∃ e ∈ x.2.crashLoop.starts, e.nonce ∈ x.1) →
      Spares x.1 x.2.crashLoop.starts b.now) :
    x.2.verdict hasher b = red.verdict hasher b := by
  refine decide_congr _ _ _ _ h.active h.failed (h.counted hasher hb hspares) ?_
  obtain ⟨older, heq, hprecedes⟩ := h.recorded hb hspares
  have hredFresh : red.FreshNonce b := by
    unfold StateDir.FreshNonce
    rw [h.redDiscounted]
    exact List.not_mem_nil
  cases hlast : (ownedStarts x.1 (keptStarts x.2.crashLoop.starts)).getLast? with
  | none =>
    left
    have hnil := List.getLast?_eq_none_iff.mp hlast
    have holder : older = [] := by
      by_contra hne
      exact hprecedes.last hne hnil
    refine h.first (keptStarts_eq_nil ?_)
    rw [heq, hnil, holder]
    rfl
  | some o =>
    right
    have hred : red.predecessor hasher b = some o := by
      have hlive (l : List StartEntry) : liveStarts l [] = l :=
        List.filter_eq_self.mpr fun e _ => by simp
      unfold StateDir.predecessor
      rw [h.redDiscounted, hlive, StateDir.recordStart_kept, List.dropLast_concat, heq,
        List.getLast?_append, hlast]
      rfl
    have hleft := StateDir.ageLeg_iff hasher (h.fresh hb)
    have hright := StateDir.ageLeg_iff hasher hredFresh
    rw [hred] at hright
    unfold StateDir.predecessor at hleft
    rw [StateDir.recordStart_kept, List.dropLast_concat] at hleft
    rw [← StateDir.recordStart_kept] at hleft
    refine hleft.trans (((h.accounts hb).last hlast).trans ?_)
    refine Iff.trans ⟨fun hstale => ⟨o, rfl, hstale⟩, fun ⟨e, he, hstale⟩ => ?_⟩ hright.symm
    obtain rfl := Option.some.inj he
    exact hstale

theorem Tracks.prepare (h : Tracks now x red) (hb : Succeeds now x b)
    (hspares : (∃ e ∈ x.2.crashLoop.starts, e.nonce ∈ x.1) →
      Spares x.1 x.2.crashLoop.starts b.now) :
    x.2.prepare hasher b = red.prepare hasher b :=
  prepare_congr hasher h.path (h.verdict hasher hb hspares)
    (prepared_congr hasher (h.verdict hasher hb hspares) h.active h.failed).2
    (h.counted hasher hb hspares)

/-- A boot does the same in two directories that `prepare` alike. -/
theorem booted_frame (dir : StateDir) (b : Boot) :
    ∃ (plan : BootPlan) (outcome : BootOutcome) (failed : Option Fingerprint),
      dir.prepare hasher b = some plan ∧
      (outcome = .lockFailed → failed =
        if plan.chosenConfig = dir.lkgPath ∨ b.configBuild.isOk = true then none
        else some (fingerprintFile hasher b.configBytes)) ∧
      ∀ dir' : StateDir, dir'.path = dir.path → dir'.prepare hasher b = some plan →
        dir'.booted hasher b =
          (if outcome = .lockFailed then
            ((dir'.prepared hasher b).rolledBack failed).recordDiscount b
          else (dir'.prepared hasher b).rolledBack failed, some outcome) := by
  obtain ⟨plan, hplan, -⟩ := dir.prepare_chooses hasher b
  obtain ⟨outcome, failed, hfailed, hframe⟩ :=
    StateDir.boot_frame hasher (b := b) dir.lkgPath plan
  refine ⟨plan, outcome, failed, hplan, hfailed, fun dir' hpath hplan' => ?_⟩
  have hlkg : (dir'.prepared hasher b).lkgPath = dir.lkgPath := by
    unfold StateDir.lkgPath
    rw [← hpath]
    rfl
  unfold StateDir.booted
  rw [hplan']
  dsimp only
  rw [hframe _ hlkg]

theorem booted_starts (dir : StateDir) (b : Boot) :
    (dir.booted hasher b).1.crashLoop.starts = (dir.prepared hasher b).crashLoop.starts := by
  obtain ⟨plan, outcome, failed, hplan, -, hframe⟩ := booted_frame hasher dir b
  have hrolled : ((dir.prepared hasher b).rolledBack failed).crashLoop.starts =
      (dir.prepared hasher b).crashLoop.starts := by
    cases failed <;> rfl
  rw [hframe dir rfl hplan]
  dsimp only
  split
  · unfold StateDir.recordDiscount
    split <;> exact hrolled
  · exact hrolled

theorem Tracks.listed (h : Tracks now x red) (hb : Succeeds now x b) :
    (x.2.prepared hasher b).crashLoop.starts.length ≤ maxStarts ∧
      ((x.2.prepared hasher b).crashLoop.starts.Pairwise fun e e' => e.epochS ≤ e'.epochS) ∧
        ∀ e ∈ (x.2.prepared hasher b).crashLoop.starts, e.epochS ≤ b.now := by
  have hpast : ∀ e ∈ keptStarts x.2.crashLoop.starts, e.epochS ≤ b.now :=
    fun e he => Nat.le_trans (h.past e (List.mem_of_mem_drop he)) hb.clock
  rw [prepared_starts]
  refine ⟨?_, ?_, fun e he => ?_⟩
  · have hlength := keptStarts_length h.length
    rw [List.length_append, List.length_singleton]
    omega
  · refine List.pairwise_append.mpr ⟨h.sorted.sublist (List.drop_sublist _ _),
      List.pairwise_singleton _ _, fun e he e' he' => ?_⟩
    obtain rfl := List.mem_singleton.mp he'
    exact hpast e he
  · rcases List.mem_append.mp he with he | he
    · exact hpast e he
    · obtain rfl := List.mem_singleton.mp he
      exact Nat.le_refl _

/-- A discount that is swept was of a start that is stale by then. -/
theorem Tracks.swept (h : Tracks now x red) (hb : Succeeds now x b) :
    ∀ e ∈ keptStarts x.2.crashLoop.starts, e.nonce ∈ x.1 →
      (∃ mtime, (e.nonce, mtime) ∈ (x.2.collectAndSweepDiscounts b).discounts ∧
        e.epochS ≤ mtime) ∨ Stale b.now e := by
  intro e he hdisowned
  rcases h.accounted e (List.mem_of_mem_drop he) hdisowned with ⟨mtime, hmem, hle⟩ | hstale
  · by_cases hswept : b.now - mtime > crashLoopWindow
    · right
      unfold Stale
      omega
    · left
      exact ⟨mtime, List.mem_filter.mpr ⟨hmem, decide_eq_true hswept⟩, hle⟩
  · exact .inr (hstale.mono hb.clock)

/-- A boot that is not disowned does the same in both histories. -/
theorem Tracks.owned (h : Tracks now x red) (hb : Succeeds now x b)
    (hspares : (∃ e ∈ x.2.crashLoop.starts, e.nonce ∈ x.1) →
      Spares x.1 x.2.crashLoop.starts b.now) (howned : ¬x.2.Disowns hasher b) :
    (x.2.record hasher b).action = (red.record hasher b).action ∧
      (x.2.record hasher b).chosenConfig = (red.record hasher b).chosenConfig ∧
        Tracks b.now (x.1, (x.2.booted hasher b).1) (red.booted hasher b).1 := by
  have hverdict := h.verdict hasher hb hspares
  have hprepare := h.prepare hasher hb hspares
  obtain ⟨hactive, hfailed⟩ := prepared_congr hasher hverdict h.active h.failed
  obtain ⟨plan, outcome, failed, hplan, -, hframe⟩ := booted_frame hasher x.2 b
  have hfull := hframe x.2 rfl hplan
  have hred := hframe red h.path.symm (hprepare ▸ hplan)
  have hacquired : outcome ≠ .lockFailed := by
    intro hlock
    refine howned ?_
    unfold StateDir.Disowns
    rw [hfull, hlock]
  rw [if_neg hacquired] at hfull hred
  refine ⟨congrArg Verdict.action hverdict, congrArg (Option.map BootPlan.chosenConfig) hprepare,
    ?_⟩
  rw [hfull, hred]
  have hstarts (dir : StateDir) :
      (dir.rolledBack failed).crashLoop.starts = dir.crashLoop.starts := by
    cases failed <;> rfl
  have hpath (dir : StateDir) : (dir.rolledBack failed).path = dir.path := by
    cases failed <;> rfl
  have hdiscounts (dir : StateDir) : (dir.rolledBack failed).discounts = dir.discounts := by
    cases failed <;> rfl
  obtain ⟨hlength, hsorted, hpast⟩ := h.listed hasher hb
  obtain ⟨older, heq, hprecedes⟩ := h.recorded hb hspares
  constructor
  case path =>
    dsimp only
    rw [hpath, hpath]
    exact h.path
  case active =>
    cases failed with
    | none => exact hactive
    | some f => rfl
  case failed =>
    cases failed with
    | none => exact hfailed
    | some f => rfl
  case idle =>
    cases failed with
    | none => exact prepared_idle hasher b h.idle
    | some f => exact fun hidle => (by cases hidle)
  case first =>
    intro hnil
    rw [hstarts, prepared_starts] at hnil
    exact absurd hnil (List.append_ne_nil_of_right_ne_nil _ (List.cons_ne_nil _ _))
  case undiscounted =>
    rw [hdiscounts]
    exact List.map_eq_nil_iff.mp (h.redDiscounted b)
  case discounts =>
    unfold StateDir.discountNonces
    dsimp only
    rw [hdiscounts]
    exact (h.accounts hb).owned
  case length =>
    dsimp only
    rw [hstarts]
    exact hlength
  case redLength =>
    have hkept := keptStarts_length h.redLength
    rw [hstarts, prepared_starts, List.length_append, List.length_singleton]
    omega
  case sorted =>
    dsimp only
    rw [hstarts]
    exact hsorted
  case past =>
    dsimp only
    rw [hstarts]
    exact hpast
  case accounted =>
    dsimp only
    rw [hstarts, hdiscounts, prepared_starts]
    intro e he hdisowned
    rcases List.mem_append.mp he with he | he
    · exact h.swept hb e he hdisowned
    · obtain rfl := List.mem_singleton.mp he
      exact absurd hdisowned hb.undisowned
  case starts =>
    dsimp only
    rw [hstarts, hstarts, prepared_starts, prepared_starts]
    have hnew : ownedStarts x.1 (keptStarts x.2.crashLoop.starts ++
        [⟨b.now, fingerprintFile hasher b.configBytes, b.nonce⟩]) =
        ownedStarts x.1 (keptStarts x.2.crashLoop.starts) ++
          [⟨b.now, fingerprintFile hasher b.configBytes, b.nonce⟩] := by
      unfold ownedStarts
      rw [List.filter_append, List.filter_cons_of_pos (by simpa using hb.undisowned),
        List.filter_nil]
    refine ⟨older, ?_, hprecedes.stale, fun _ => ?_⟩
    · rw [hnew, heq, List.append_assoc]
    · rw [hnew]
      exact List.append_ne_nil_of_right_ne_nil _ (List.cons_ne_nil _ _)

/-- What a disowned boot leaves of a rollback that is kept. -/
theorem Tracks.keeps (h : Tracks now x red) (hkeeps : KeepsFields hasher x.2 b) {plan : BootPlan}
    (hplan : x.2.prepare hasher b = some plan) {failed : Option Fingerprint}
    (hfailed : failed =
      if plan.chosenConfig = x.2.lkgPath ∨ b.configBuild.isOk = true then none
      else some (fingerprintFile hasher b.configBytes)) :
    ((x.2.prepared hasher b).rolledBack failed).crashLoop.rollbackActive =
        x.2.crashLoop.rollbackActive ∧
      ((x.2.prepared hasher b).rolledBack failed).crashLoop.rolledBackFrom =
        x.2.crashLoop.rolledBackFrom := by
  have hchosen : plan.chosenConfig =
      if (x.2.verdict hasher b).action = .proceed then b.configPath else x.2.lkgPath := by
    obtain ⟨plan', hplan', hchosen⟩ := x.2.prepare_chooses hasher b
    obtain rfl := Option.some.inj (hplan.symm.trans hplan')
    exact hchosen
  -- A rollback that is continued is not made again.
  have hcontinued (haction : (x.2.verdict hasher b).action = .continueRollback) :
      ((x.2.prepared hasher b).rolledBack failed).crashLoop.rollbackActive =
          x.2.crashLoop.rollbackActive ∧
        ((x.2.prepared hasher b).rolledBack failed).crashLoop.rolledBackFrom =
          x.2.crashLoop.rolledBackFrom := by
    rw [haction, if_neg (by decide)] at hchosen
    rw [hfailed, if_pos (.inl hchosen)]
    unfold StateDir.rolledBack StateDir.prepared
    dsimp only
    rw [haction]
    exact ⟨rfl, rfl⟩
  rcases hkeeps with ⟨hkeeps, hage⟩ | ⟨hholds, hpath, hunbuilt⟩ | ⟨hinactive, hbuilt, hunearned⟩
  · exact hcontinued (decide_keeps hkeeps hage)
  · cases haction : (x.2.verdict hasher b).action with
    | continueRollback => exact hcontinued haction
    | rollBack =>
      have hearned := earnsRollback_of_decide haction
      exact absurd (hholds.1.symm.trans hearned.inactive) (by decide)
    | proceed =>
      rw [haction, if_pos rfl] at hchosen
      have hmade : ¬(plan.chosenConfig = x.2.lkgPath ∨ b.configBuild.isOk = true) := by
        rw [hchosen, hunbuilt]
        rintro (hsame | hbuilt)
        · exact hpath hsame
        · cases hbuilt
      rw [hfailed, if_neg hmade]
      exact ⟨hholds.1.symm, hholds.2.symm⟩
  · have haction : (x.2.verdict hasher b).action = .proceed := by
      cases haction : (x.2.verdict hasher b).action with
      | rollBack => exact absurd (earnsRollback_of_decide haction) hunearned
      | continueRollback =>
        have hkeeps := keepsRollback_of_decide haction
        exact absurd (hinactive.symm.trans hkeeps.active) (by decide)
      | proceed => rfl
    have hnone : x.2.crashLoop.rolledBackFrom = none :=
      h.failed.trans (h.idle (h.active.symm.trans hinactive))
    rw [hfailed, if_pos (.inr hbuilt), hinactive, hnone]
    unfold StateDir.rolledBack StateDir.prepared
    dsimp only
    rw [haction]
    dsimp only
    split
    · exact ⟨rfl, rfl⟩
    · exact ⟨hinactive, hnone⟩

/-- A disowned boot changes nothing that the history without it does not have. -/
theorem Tracks.disowned (h : Tracks now x red) (hb : Succeeds now x b)
    (hharmless : Harmless hasher x b) (hdisowned : x.2.Disowns hasher b)
    (hmtime : b.now ≤ b.discountedAt) :
    Tracks b.now (b.nonce :: x.1, (x.2.booted hasher b).1) red := by
  obtain ⟨plan, outcome, failed, hplan, hmade, hframe⟩ := booted_frame hasher x.2 b
  have hfull := hframe x.2 rfl hplan
  have hlock : outcome = .lockFailed := by
    unfold StateDir.Disowns at hdisowned
    rw [hfull] at hdisowned
    exact Option.some.inj hdisowned
  obtain ⟨hactive, hfailed⟩ := h.keeps hasher (hharmless.fields hdisowned) hplan (hmade hlock)
  rw [if_pos hlock] at hfull
  rw [hfull]
  have hunrecorded : b.nonce ∉ ((x.2.prepared hasher b).rolledBack failed).discountNonces := by
    have hfresh := h.fresh hb
    cases failed <;> exact hfresh
  have hrecorded : ((x.2.prepared hasher b).rolledBack failed).recordDiscount b =
      { (x.2.prepared hasher b).rolledBack failed with
        discounts :=
          (x.2.collectAndSweepDiscounts b).discounts ++ [(b.nonce, b.discountedAt)] } := by
    unfold StateDir.recordDiscount
    rw [if_neg hunrecorded]
    cases failed <;> rfl
  rw [hrecorded]
  have hstarts : ((x.2.prepared hasher b).rolledBack failed).crashLoop.starts =
      (x.2.prepared hasher b).crashLoop.starts := by
    cases failed <;> rfl
  have hpath : ((x.2.prepared hasher b).rolledBack failed).path = x.2.path := by
    cases failed <;> rfl
  have hnonce : ∀ e ∈ keptStarts x.2.crashLoop.starts, e.nonce ≠ b.nonce :=
    fun e he => hb.fresh e (List.mem_of_mem_drop he)
  obtain ⟨hlength, hsorted, hpast⟩ := h.listed hasher hb
  obtain ⟨older, heq, hredOlder⟩ := h.starts
  obtain ⟨older', hkept, hprecedes⟩ :=
    (hredOlder.mono hb.clock).kept h.length (hharmless.starts (.inl hdisowned))
  constructor
  case path => exact hpath.trans h.path
  case active => exact hactive.trans h.active
  case failed => exact hfailed.trans h.failed
  case idle => exact h.idle
  case first => exact h.first
  case undiscounted => exact h.undiscounted
  case redLength => exact h.redLength
  case discounts =>
    intro n hn
    obtain ⟨discount, hmem, rfl⟩ := List.mem_map.mp hn
    rcases List.mem_append.mp hmem with hmem | hmem
    · exact List.mem_cons_of_mem _ ((h.accounts hb).owned _ (List.mem_map.mpr ⟨_, hmem, rfl⟩))
    · obtain rfl := List.mem_singleton.mp hmem
      exact List.mem_cons_self
  case length =>
    dsimp only
    rw [hstarts]
    exact hlength
  case sorted =>
    dsimp only
    rw [hstarts]
    exact hsorted
  case past =>
    dsimp only
    rw [hstarts]
    exact hpast
  case accounted =>
    dsimp only
    rw [hstarts, prepared_starts]
    intro e he hmem
    rcases List.mem_append.mp he with he | he
    · have holder := (List.mem_cons.mp hmem).resolve_left (hnonce e he)
      rcases h.swept hb e he holder with ⟨mtime, hdiscount, hle⟩ | hstale
      · exact .inl ⟨mtime, List.mem_append_left _ hdiscount, hle⟩
      · exact .inr hstale
    · obtain rfl := List.mem_singleton.mp he
      exact .inl ⟨b.discountedAt, List.mem_append_right _ (List.mem_singleton_self _), hmtime⟩
  case starts =>
    have hsame : ownedStarts (b.nonce :: x.1) (keptStarts x.2.crashLoop.starts ++
        [⟨b.now, fingerprintFile hasher b.configBytes, b.nonce⟩]) =
        ownedStarts x.1 (keptStarts x.2.crashLoop.starts) := by
      unfold ownedStarts
      rw [List.filter_append, List.filter_cons_of_neg (by simp), List.filter_nil, List.append_nil]
      refine List.filter_congr fun e he => ?_
      rw [Bool.eq_iff_iff]
      simp only [decide_eq_true_eq, List.mem_cons, not_or]
      exact ⟨fun hnew => hnew.2, fun hold => ⟨hnonce e he, hold⟩⟩
    dsimp only
    rw [hstarts, prepared_starts]
    refine ⟨older', ?_, hprecedes.stale, fun hne => ?_⟩
    · rw [hsame, heq, hkept]
    · rw [hsame]
      exact hprecedes.last hne

theorem Tracks.run {boots : List Boot} (h : Tracks now x red)
    (hboots : boots.Pairwise fun b c => b.now ≤ c.now ∧ b.nonce ≠ c.nonce)
    (hmtime : ∀ b ∈ boots, b.now ≤ b.discountedAt) (hsucceeds : ∀ b ∈ boots, Succeeds now x b)
    (hharmless : (disownings hasher).Steps (Harmless hasher) x boots) :
    ((bootings hasher).outputs red (ownedBoots hasher x.2 boots)).map BootRecord.choice =
      (((bootings hasher).outputs x.2 boots).filter
        fun record => record.outcome ≠ some .lockFailed).map BootRecord.choice := by
  induction boots generalizing now x red with
  | nil => rfl
  | cons b boots ih =>
    obtain ⟨hnow, hrest⟩ := hharmless
    obtain ⟨hlater, hboots⟩ := List.pairwise_cons.mp hboots
    have hb := hsucceeds b List.mem_cons_self
    have hmtimes : ∀ c ∈ boots, c.now ≤ c.discountedAt :=
      fun c hc => hmtime c (List.mem_cons_of_mem _ hc)
    have houtputs : (bootings hasher).outputs x.2 (b :: boots) =
        x.2.record hasher b :: (bootings hasher).outputs (x.2.booted hasher b).1 boots := rfl
    -- The boots that are left are as new to the directory that this one leaves.
    have hnew (c : Boot) (hc : c ∈ boots) :
        ∀ e ∈ (x.2.booted hasher b).1.crashLoop.starts, e.nonce ≠ c.nonce := by
      intro e he
      rw [booted_starts, prepared_starts] at he
      rcases List.mem_append.mp he with he | he
      · exact (hsucceeds c (List.mem_cons_of_mem _ hc)).fresh e (List.mem_of_mem_drop he)
      · obtain rfl := List.mem_singleton.mp he
        exact (hlater c hc).2
    rw [houtputs]
    unfold ownedBoots
    by_cases hdisowned : x.2.Disowns hasher b
    · have hobserved : (disownings hasher).next x b =
          ((b.nonce :: x.1, (x.2.booted hasher b).1), [x.2.record hasher b]) := by
        unfold disownings Runs.System.observed
        dsimp only
        rw [if_pos hdisowned]
        rfl
      have hlost : (x.2.record hasher b).outcome = some .lockFailed := hdisowned
      rw [if_pos hdisowned, List.filter_cons_of_neg (by simp [hlost])]
      rw [hobserved] at hrest
      refine ih (h.disowned hasher hb hnow hdisowned (hmtime b List.mem_cons_self)) hboots hmtimes
        (fun c hc => ⟨(hlater c hc).1, ?_, hnew c hc⟩) hrest
      rw [List.mem_cons, not_or]
      exact ⟨(hlater c hc).2.symm, (hsucceeds c (List.mem_cons_of_mem _ hc)).undisowned⟩
    · have hobserved : (disownings hasher).next x b =
          ((x.1, (x.2.booted hasher b).1), [x.2.record hasher b]) := by
        unfold disownings Runs.System.observed
        dsimp only
        rw [if_neg hdisowned]
        rfl
      have hwon : (x.2.record hasher b).outcome ≠ some .lockFailed := hdisowned
      obtain ⟨haction, hchosen, htracks⟩ :=
        h.owned hasher hb (fun hsome => hnow.starts (.inr hsome)) hdisowned
      have hred : (bootings hasher).outputs red
          (b :: ownedBoots hasher ((bootings hasher).next x.2 b).1 boots) =
          red.record hasher b :: (bootings hasher).outputs (red.booted hasher b).1
            (ownedBoots hasher (x.2.booted hasher b).1 boots) := rfl
      rw [if_neg hdisowned, hred, List.filter_cons_of_pos (by simp [hwon]), List.map_cons,
        List.map_cons]
      rw [hobserved] at hrest
      refine congrArg₂ List.cons (Prod.ext haction.symm hchosen.symm) (ih htracks hboots hmtimes
        (fun c hc => ⟨(hlater c hc).1, ?_, hnew c hc⟩) hrest)
      exact (hsucceeds c (List.mem_cons_of_mem _ hc)).undisowned

end

/-- Where each disowned boot is harmless, the other boots decide and choose as if there were
none. -/
theorem disowned_boots_leave_no_trace (path : String) (boots : List Boot)
    (hboots : boots.Pairwise fun b c => b.now ≤ c.now ∧ b.nonce ≠ c.nonce)
    (hmtime : ∀ b ∈ boots, b.now ≤ b.discountedAt)
    (hharmless : (disownings hasher).Steps (Harmless hasher) ([], .empty path) boots) :
    ((bootings hasher).outputs (.empty path) (ownedBoots hasher (.empty path) boots)).map
        BootRecord.choice =
      (((bootings hasher).outputs (.empty path) boots).filter
        fun record => record.outcome ≠ some .lockFailed).map BootRecord.choice := by
  have hempty : Tracks 0 ([], StateDir.empty path) (StateDir.empty path) :=
    { path := rfl
      active := rfl
      failed := rfl
      idle := fun _ => rfl
      first := fun _ => rfl
      undiscounted := rfl
      discounts := fun n hn => (by cases hn)
      length := Nat.zero_le _
      redLength := Nat.zero_le _
      sorted := List.Pairwise.nil
      past := fun e he => (by cases he)
      accounted := fun e he => (by cases he)
      starts := ⟨[], rfl, fun e he => (by cases he), fun hne => absurd rfl hne⟩ }
  refine hempty.run hasher hboots hmtime (fun b _ => ⟨Nat.zero_le _, ?_, ?_⟩) hharmless
  · exact List.not_mem_nil
  · intro e he
    cases he

end

/-! ## A duplicate start -/

/-- A start that finds the lock taken. -/
def duplicateBoot (n : ℕ) : Boot :=
  { minuteBoot n 7 ⟨some [8], true⟩ with lockAcquired := false }

/-- The third start is a duplicate and rolls back, and the fourth start continues that. -/
theorem duplicate_rolls_back :
    let boots := [minuteBoot 0 7 ⟨some [8], true⟩, minuteBoot 1 7 ⟨some [8], true⟩, duplicateBoot 2,
      { minuteBoot 3 7 ⟨some [8], true⟩ with now := 400, discountedAt := 400 }]
    let dir := StateDir.empty "/state"
    (boots.Pairwise fun b c => b.now ≤ c.now ∧ b.nonce ≠ c.nonce) ∧
      (∀ b ∈ boots, b.now ≤ b.discountedAt) ∧
        (((bootings List.length).outputs dir (ownedBoots List.length dir boots)).map
          BootRecord.choice)[2]? = some (.proceed, some "/etc/dormant.toml") ∧
          ((((bootings List.length).outputs dir boots).filter
            fun record => record.outcome ≠ some .lockFailed).map BootRecord.choice)[2]? =
              some (.continueRollback, some "/state/last-known-good.toml") := by
  refine ⟨?_, ?_, ?_, ?_⟩
  · decide +kernel
  · decide +kernel
  · decide +kernel
  · decide +kernel

/-- A duplicate of the second start is harmless. -/
theorem disowned_boots_leave_no_trace_desk :
    let boots := [minuteBoot 0 7 ⟨some [8], true⟩, duplicateBoot 1,
      minuteBoot 2 7 ⟨some [8], true⟩]
    let dir := StateDir.empty "/state"
    ((bootings List.length).outputs dir (ownedBoots List.length dir boots)).map
        BootRecord.choice =
      (((bootings List.length).outputs dir boots).filter
        fun record => record.outcome ≠ some .lockFailed).map BootRecord.choice := by
  intro boots dir
  refine disowned_boots_leave_no_trace List.length "/state" boots (by decide +kernel)
    (by decide +kernel) ⟨⟨fun hdisowned => ?_, fun _ hfull => ?_⟩,
      ⟨fun _ => .inr (.inr ⟨by decide +kernel, rfl, fun hearned => ?_⟩), fun _ hfull => ?_⟩,
      ⟨fun hdisowned => ?_, fun _ hfull => ?_⟩, trivial⟩
  · exact absurd hdisowned (by decide +kernel)
  · exact absurd hfull (by decide +kernel)
  · exact absurd hearned.threshold (by decide +kernel)
  · exact absurd hfull (by decide +kernel)
  · exact absurd hdisowned (by decide +kernel)
  · exact absurd hfull (by decide +kernel)

end Dormant
