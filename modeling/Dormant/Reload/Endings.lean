import Dormant.Reload.Runner

/-!
# How a batch ends

A batch of reloads is coalesced, refused before it touches the running generation, turned away by a
busy operation, fenced by a barrier that fails, undone by a rebuild of the old generation, or
accepted. `executeReloadBatch_ends` says what the runner is after each of these.
-/

namespace Dormant.Reload
set_option autoImplicit false

variable {loader : Loader} {r : Runner} {a : Attempt}

/-- The files of a batch were read and parsed, and what they hold was assembled. -/
structure Loaded (loader : Loader) (r : Runner) (a : Attempt) (bytes : Bytes) (cfg : Config)
    (creds : Credentials) : Prop where
  read : a.config = .ok bytes
  parsed : loader.loadConfig bytes = .ok cfg
  credentials : loader.creds a.creds = .ok creds
  changed : (loader.loadRuntime a.config a.creds).1 ≠ r.appliedRevision
  assembled : a.assembleError = none
  shared : (r.coordination.isNone && !cfg.sharedDisplays.isEmpty) = false

/-- The runner when the barrier of its old engine is awaited. -/
def Runner.fenced (r : Runner) (cfg : Config) : Runner :=
  (r.reapActivityFollow.reconcileShared cfg).quiesced cfg

/-- A wake or a spawn of the batch fails. -/
def Attempt.Fails (a : Attempt) : Prop := (∃ id, a.wakeError id ≠ none) ∨ a.spawnError ≠ none

/-- The new assembly, before its engine is spawned. -/
def Runner.assembly (r : Runner) (cfg : Config) (creds : Credentials) : Generation :=
  ⟨cfg, creds, ⟨r.nextSerial, cfg.ids⟩, none⟩

/-- The generation that a batch installs. -/
def Runner.installed (r : Runner) (cfg : Config) (creds : Credentials) : Generation :=
  { r.assembly cfg creds with engine := some ⟨r.nextSerial + 1, nextGeneration r.generationId⟩ }

/-- An action that spawns nothing and writes nothing. -/
def RunnerAction.quiet : RunnerAction → Bool
  | .spawn _ _ _ | .wroteLkg _ => false
  | .setPendingReload _ | .wake _ _ | .defensiveWake _ => true

def Quiet (actions : List RunnerAction) : Prop := ∀ action ∈ actions, action.quiet = true

/-- What a batch does. -/
inductive Ending (loader : Loader) (r : Runner) (a : Attempt) : Turn → Prop where
  | coalesced (h : (loader.loadRuntime a.config a.creds).1 = r.appliedRevision) :
      Ending loader r a ⟨r.reapActivityFollow, .reloaded, true, []⟩
  | refused (detail : String) (h : (loader.loadRuntime a.config a.creds).1 ≠ r.appliedRevision)
      (hgate : ∀ bytes cfg creds, ¬Loaded loader r a bytes cfg creds) :
      Ending loader r a (r.reapActivityFollow.reject detail [.setPendingReload (some detail)])
  | busy {bytes : Bytes} {cfg : Config} {creds : Credentials}
      (h : Loaded loader r a bytes cfg creds) (hbusy : a.operationsQuiesce = false)
      (detail : String) :
      Ending loader r a (((r.fenced cfg).restoreBusy r.ctlRoute.target).reject detail [])
  | lost {bytes : Bytes} {cfg : Config} {creds : Credentials} {runner : Runner}
      {actions : List RunnerAction} (h : Loaded loader r a bytes cfg creds) (detail : String)
      (hrunner : runner = r.fenced cfg ∨ runner = (r.fenced cfg).teardown)
      (hquiet : Quiet actions) :
      Ending loader r a ({ runner with cancelled := true }.reject detail actions)
  | rebuilt {bytes : Bytes} {cfg : Config} {creds : Credentials} {woken : List RunnerAction}
      (h : Loaded loader r a bytes cfg creds) (detail : String)
      (hbarrier : a.operationsQuiesce = true ∧ a.barrier = none) (hfails : a.Fails)
      (hquiet : Quiet woken) :
      Ending loader r a
        (((r.fenced cfg).teardown.rebuildOld detail
            (settledSnapshot cfg.ruled a.preliminary a.polls) true).1.reject detail
          (woken ++ ((r.fenced cfg).teardown.rebuildOld detail
            (settledSnapshot cfg.ruled a.preliminary a.polls) true).2))
  | accepted {bytes : Bytes} {cfg : Config} {creds : Credentials} {woken woke : List RunnerAction}
      (h : Loaded loader r a bytes cfg creds)
      (hbarrier : a.operationsQuiesce = true ∧ a.barrier = none) (hspawns : a.spawnError = none)
      (hwoken : Quiet woken) (hwoke : Quiet woke) :
      Ending loader r a
        { runner := (r.fenced cfg).teardown.accept (r.installed cfg creds)
            (loader.loadRuntime a.config a.creds).1 a
          outcome := .reloaded
          coalesced := false
          actions := woken ++ [.spawn (r.installed cfg creds)
            (settledSnapshot cfg.ruled a.preliminary a.polls) none] ++ woke }

theorem quiet_verifiedWakes (wakeError : DisplayId → Option String) (ids : List DisplayId) :
    Quiet (Runner.verifiedWakes wakeError ids).1 := by
  induction ids with
  | nil =>
    intro action haction
    cases haction
  | cons id ids ih =>
    unfold Runner.verifiedWakes
    intro action haction
    cases hwake : wakeError id with
    | some error =>
      rw [hwake] at haction
      obtain rfl := List.mem_singleton.mp haction
      rfl
    | none =>
      rw [hwake] at haction
      obtain rfl | haction := List.mem_cons.mp haction
      · rfl
      · exact ih action haction

theorem verifiedWakes_fails {wakeError : DisplayId → Option String} {ids : List DisplayId}
    {failure : DisplayId × String} (h : (Runner.verifiedWakes wakeError ids).2 = some failure) :
    wakeError failure.1 = some failure.2 := by
  induction ids with
  | nil => cases h
  | cons id ids ih =>
    unfold Runner.verifiedWakes at h
    cases hwake : wakeError id with
    | some error =>
      rw [hwake] at h
      obtain rfl := Option.some.inj h
      exact hwake
    | none =>
      rw [hwake] at h
      exact ih h

/-- The files of a batch, when what they hold was parsed. -/
theorem loadRuntime_ok {config : ConfigRead} {creds : CredsRead} {parsed : Config × Credentials}
    (h : (loader.loadRuntime config creds).2 = .ok parsed) :
    ∃ bytes, config = .ok bytes ∧ loader.loadConfig bytes = .ok parsed.1 ∧
      loader.creds creds = .ok parsed.2 := by
  unfold Loader.loadRuntime at h
  cases config with
  | error error => cases h
  | ok bytes =>
    refine ⟨bytes, rfl, ?_⟩
    dsimp only at h
    cases hcfg : loader.loadConfig bytes with
    | error error =>
      rw [hcfg] at h
      cases h
    | ok cfg =>
      rw [hcfg] at h
      cases hcreds : loader.creds creds with
      | error error =>
        rw [hcreds] at h
        cases h
      | ok creds =>
        rw [hcreds] at h
        obtain rfl := Except.ok.inj h
        exact ⟨rfl, rfl⟩

section Swap
variable {bytes : Bytes} {cfg : Config} {creds : Credentials}

theorem swap_ends (h : Loaded loader r a bytes cfg creds)
    (hbarrier : a.operationsQuiesce = true ∧ a.barrier = none) {woken : List RunnerAction}
    (hwoken : Quiet woken) :
    Ending loader r a ((r.fenced cfg).teardown.swap (r.assembly cfg creds)
      (loader.loadRuntime a.config a.creds).1
      (settledSnapshot cfg.ruled a.preliminary a.polls) woken a) := by
  unfold Runner.swap
  cases hspawn : a.spawnError with
  | some error =>
    dsimp only
    cases hrebuild : a.rebuildSpawns with
    | true => exact .rebuilt h _ hbarrier (.inr (by rw [hspawn]; simp)) hwoken
    | false =>
      have hquiet : Quiet (woken ++ []) := by rwa [List.append_nil]
      exact .lost h _ (.inr rfl) hquiet
  | none =>
    dsimp only
    generalize hwakes : (List.map RunnerAction.defensiveWake _) = wakes
    generalize hclear : (if (r.fenced cfg).teardown.rollbackActive then
      [RunnerAction.setPendingReload none] else []) = clear
    have hwoke : Quiet (clear ++ wakes) := by
      intro action haction
      obtain haction | haction := List.mem_append.mp haction
      · rw [← hclear] at haction
        split at haction
        · obtain rfl := List.mem_singleton.mp haction
          rfl
        · cases haction
      · rw [← hwakes] at haction
        obtain ⟨id, -, rfl⟩ := List.mem_map.mp haction
        rfl
    have haccepted := Ending.accepted h hbarrier hspawn hwoken hwoke
    rw [← List.append_assoc] at haccepted
    exact haccepted

theorem replace_ends (h : Loaded loader r a bytes cfg creds)
    (hbarrier : a.operationsQuiesce = true ∧ a.barrier = none) :
    Ending loader r a ((r.fenced cfg).replace r.generation.cfg (r.assembly cfg creds)
      (loader.loadRuntime a.config a.creds).1
      (settledSnapshot cfg.ruled a.preliminary a.polls) a) := by
  unfold Runner.replace
  dsimp only
  generalize hwoken : Runner.verifiedWakes a.wakeError _ = woken
  have hquiet : Quiet woken.1 := by
    rw [← hwoken]
    exact quiet_verifiedWakes _ _
  cases hfailure : woken.2 with
  | none => exact swap_ends h hbarrier hquiet
  | some failure =>
    have hfails : a.Fails := by
      have herror := verifiedWakes_fails ((congrArg Prod.snd hwoken).trans hfailure)
      exact .inl ⟨failure.1, by rw [herror]; simp⟩
    dsimp only
    cases hrebuild : a.rebuildSpawns with
    | true => exact .rebuilt h _ hbarrier hfails hquiet
    | false =>
      have hquiet' : Quiet (woken.1 ++ []) := by rwa [List.append_nil]
      exact .lost h _ (.inr rfl) hquiet'

end Swap

/-- An accepted batch installs its generation; what else it decides is the task of
activity-follow and how a rollback ends. -/
theorem accept_eq (r : Runner) (generation : Generation) (requested : RuntimeRevision)
    (a : Attempt) : ∃ follow pending active,
      r.accept generation requested a = { r.installGeneration generation with
        appliedRevision := requested
        generationId := nextGeneration r.generationId
        nextSerial := r.nextSerial + 2
        activityFollow := follow
        rollbackStateClearPending := pending
        rollbackActive := active
        configTx := generation.cfg
        credsTx := generation.creds
        lkgDeferCount := 0
        lkgCandidate := newLkgCandidate a.armRead generation.cfg.lkgEnabled "reload" a.now } := by
  unfold Runner.accept Runner.spawnActivityFollow Runner.clearRollback
  dsimp only
  split <;> split <;> exact ⟨_, _, _, rfl⟩

/-- What is loaded is determined by the files. -/
theorem Loaded.unique {bytes bytes' : Bytes} {cfg cfg' : Config} {creds creds' : Credentials}
    (h : Loaded loader r a bytes cfg creds) (h' : Loaded loader r a bytes' cfg' creds') :
    cfg' = cfg := by
  have hbytes : bytes' = bytes := Except.ok.inj (h'.read.symm.trans h.read)
  subst hbytes
  exact Except.ok.inj (h'.parsed.symm.trans h.parsed)

theorem executeReloadBatch_ends (loader : Loader) (r : Runner) (a : Attempt) :
    Ending loader r a (r.executeReloadBatch loader a) := by
  unfold Runner.executeReloadBatch
  dsimp only
  by_cases hsame : (loader.loadRuntime a.config a.creds).1 = r.appliedRevision
  · rw [show r.reapActivityFollow.appliedRevision = r.appliedRevision from rfl, if_pos hsame]
    exact .coalesced hsame
  · rw [show r.reapActivityFollow.appliedRevision = r.appliedRevision from rfl, if_neg hsame]
    unfold Runner.reload
    cases hloaded : (loader.loadRuntime a.config a.creds).2 with
    | error detail =>
      refine .refused detail hsame fun bytes cfg creds h => ?_
      unfold Loader.loadRuntime at hloaded
      rw [h.read] at hloaded
      simp only [h.parsed, h.credentials] at hloaded
      cases hloaded
    | ok parsed =>
      obtain ⟨bytes, hread, hparsed, hcreds⟩ := loadRuntime_ok hloaded
      dsimp only
      cases hassembled : a.assembleError with
      | some detail =>
        refine .refused detail hsame fun bytes cfg creds h => ?_
        rw [h.assembled] at hassembled
        cases hassembled
      | none =>
        dsimp only
        unfold Runner.reloadInto
        cases hshared : r.reapActivityFollow.coordination.isNone &&
            !parsed.1.sharedDisplays.isEmpty with
        | true =>
          refine .refused _ hsame fun bytes' cfg creds h => ?_
          obtain rfl : bytes' = bytes := Except.ok.inj (h.read.symm.trans hread)
          obtain rfl : cfg = parsed.1 := Except.ok.inj (h.parsed.symm.trans hparsed)
          exact absurd (hshared.symm.trans h.shared) (by decide)
        | false =>
          have h : Loaded loader r a bytes parsed.1 parsed.2 :=
            ⟨hread, hparsed, hcreds, hsame, hassembled, hshared⟩
          dsimp only
          rw [if_neg (by simp)]
          cases hbusy : a.operationsQuiesce with
          | false => exact .busy h hbusy _
          | true =>
            rw [if_neg (by simp)]
            cases hbarrier : a.barrier with
            | some failure =>
              exact .lost h _ (.inl rfl) fun _ haction => by cases haction
            | none => exact replace_ends h ⟨hbusy, hbarrier⟩

/-! ## Ticks -/

theorem shouldPromote_waits {since now window : ℕ} {snapshot : ProbeSnapshot}
    {deferCount : UInt32} {matching : Bool} {verdict : PromoteVerdict}
    (h : shouldPromote since now window snapshot deferCount matching = verdict)
    (hpromotes : verdict = .promote ∨ verdict = .promoteDespiteHealth) :
    window ≤ now - since ∧ matching = true := by
  unfold shouldPromote at h
  subst h
  split at hpromotes
  · obtain h | h := hpromotes <;> cases h
  · rename_i hwindow
    split at hpromotes
    · obtain h | h := hpromotes <;> cases h
    · split at hpromotes
      · obtain h | h := hpromotes <;> cases h
      · rename_i hmatching
        exact ⟨Nat.le_of_not_lt hwindow, by simpa using hmatching⟩

/-- A tick promotes the candidate after its window, or it only counts. -/
theorem lkgTickAt_cases (r : Runner) (t : WatchdogTick) (snapshot : ProbeSnapshot) :
    (∃ defers, r.lkgTickAt t snapshot = ({ r with lkgDeferCount := defers }, [])) ∨
    ∃ c, r.lkgCandidate = some c ∧ r.generation.cfg.stabilityWindow ≤ t.now - c.since ∧
      r.lkgTickAt t snapshot =
        (if t.fileWritten && t.metaWritten then { r with lkgDeferCount := 0, lkgCandidate := none }
          else r,
          if t.fileWritten then [.wroteLkg c.bytes] else []) := by
  unfold Runner.lkgTickAt
  split
  · exact .inl ⟨_, rfl⟩
  · rename_i c hc
    split
    · exact .inl ⟨_, rfl⟩
    · exact .inl ⟨_, rfl⟩
    · exact .inl ⟨_, rfl⟩
    · rename_i hverdict
      obtain ⟨hwindow, hmatching⟩ := shouldPromote_waits hverdict (.inl rfl)
      rw [of_decide_eq_true hmatching]
      exact .inr ⟨c, hc, hwindow, rfl⟩
    · rename_i hverdict
      obtain ⟨hwindow, hmatching⟩ := shouldPromote_waits hverdict (.inr rfl)
      rw [of_decide_eq_true hmatching]
      exact .inr ⟨c, hc, hwindow, rfl⟩

theorem lkgTickAt_eq (r : Runner) (t : WatchdogTick) (snapshot : ProbeSnapshot) :
    ∃ candidate defers, (r.lkgTickAt t snapshot).1 =
      { r with lkgCandidate := candidate, lkgDeferCount := defers } := by
  obtain ⟨defers, hcounts⟩ | ⟨c, -, -, hpromotes⟩ := lkgTickAt_cases r t snapshot
  · rw [hcounts]
    exact ⟨_, _, rfl⟩
  · rw [hpromotes]
    dsimp only
    split
    · exact ⟨_, _, rfl⟩
    · exact ⟨_, _, rfl⟩

/-- A tick of the watchdog leaves what serves the generation alone. -/
theorem watchdogTickAt_eq (r : Runner) (t : WatchdogTick) :
    ∃ pending candidate defers, (r.watchdogTickAt t).1 =
      { r with
        rollbackStateClearPending := pending
        lkgCandidate := candidate
        lkgDeferCount := defers } := by
  obtain ⟨pending, hretry⟩ : ∃ pending,
      r.retryRollbackStateClear t = { r with rollbackStateClearPending := pending } := by
    unfold Runner.retryRollbackStateClear
    split <;> exact ⟨_, rfl⟩
  unfold Runner.watchdogTickAt
  dsimp only
  rw [hretry]
  split
  · exact ⟨_, _, _, rfl⟩
  · split
    · rename_i snapshot _
      obtain ⟨candidate, defers, htick⟩ :=
        lkgTickAt_eq { r with rollbackStateClearPending := pending } t snapshot
      rw [htick]
      exact ⟨_, _, _, rfl⟩
    · exact ⟨_, _, _, rfl⟩

end Dormant.Reload
