import Dormant.Reload.Endings

/-!
# What becomes last-known-good

`Life` is what an onlooker knows of the running generation: the bytes that its configuration was
parsed from and validated from, and since when it is healthy. The file that is promoted is compared
with what was read when the candidate was armed, and not with these.
-/

namespace Dormant.Reload
set_option autoImplicit false

structure Life where
  ran : Bytes
  validated : Bytes
  healthySince : ℕ
  deriving DecidableEq, Repr

/-- Of the generation that actions spawn, what is pending in it. -/
def spawnedPending (actions : List RunnerAction) : Option (Option String) :=
  actions.findSome? fun action =>
    match action with
    | .spawn _ _ pending => some pending
    | _ => none

/-- A generation with nothing pending is a new one, another one is the old one rebuilt. -/
def noteLife (life : Life) (r : Runner) (input : RunnerInput)
    (result : Runner × List RunnerAction) : Life :=
  match input with
  | .batch a =>
    match spawnedPending result.2 with
    | none => life
    | some (some _) => { life with healthySince := a.now }
    | some none =>
      match a.config with
      | .error _ => life
      | .ok bytes => { ran := bytes, validated := bytes, healthySince := a.now }
  | .tick t =>
    if !r.cancelled && r.ctlRoute.target.isSome && t.probe.isNone then
      { life with healthySince := t.now }
    else life

def BootReads.life (b : BootReads) : Life where
  ran := b.config
  validated := b.validated
  healthySince := b.now

def lifeWatch (loader : Loader) : Runs.System (Life × Runner) RunnerInput RunnerAction :=
  (runLoop loader).observed noteLife

/-- What a boot arms is what it loaded and what it validated. -/
def BootReads.Rereads (b : BootReads) : Prop :=
  b.rollback = false → ∀ read ∈ b.armRead, read = b.config ∧ read = b.validated

/-- What the candidate is armed with is what was loaded, and no candidate outlives a rebuild. -/
def Rereads (x : Life × Runner) : RunnerInput → Prop
  | .batch a => (∀ read ∈ a.armRead, a.config = .ok read) ∧
      (x.2.lkgCandidate.isSome → ¬a.Fails)
  | .tick _ => True

/-- What is written ran, and has been healthy for the window. -/
def Earned (loader : Loader) (x : Life × Runner) (input : RunnerInput) : Prop :=
  ∀ bytes, .wroteLkg bytes ∈ ((runLoop loader).next x.2 input).2 →
    bytes = x.1.ran ∧ bytes = x.1.validated ∧
      loader.loadConfig bytes = .ok x.2.generation.cfg ∧
      ∃ t, input = .tick t ∧ t.probe.isSome ∧
        x.2.generation.cfg.stabilityWindow ≤ t.now - x.1.healthySince

/-- The candidate is what runs. -/
structure Armed (loader : Loader) (x : Life × Runner) : Prop where
  parsed : loader.loadConfig x.1.ran = .ok x.2.generation.cfg
  candidate : ∀ c ∈ x.2.lkgCandidate,
    c.bytes = x.1.ran ∧ c.bytes = x.1.validated ∧ c.since = x.1.healthySince

theorem spawnedPending_quiet {actions : List RunnerAction} (h : Quiet actions)
    (rest : List RunnerAction) : spawnedPending (actions ++ rest) = spawnedPending rest := by
  induction actions with
  | nil => rfl
  | cons action actions ih =>
    have hquiet := h action List.mem_cons_self
    have hrest := ih fun other hother => h other (List.mem_cons_of_mem _ hother)
    cases action with
    | spawn _ _ _ => cases hquiet
    | wroteLkg _ => cases hquiet
    | setPendingReload _ => exact hrest
    | wake _ _ => exact hrest
    | defensiveWake _ => exact hrest

theorem Quiet.silent {actions : List RunnerAction} (h : Quiet actions) :
    spawnedPending actions = none := by
  have hnil := spawnedPending_quiet h []
  rwa [List.append_nil] at hnil

theorem Quiet.no_write {actions : List RunnerAction} (h : Quiet actions) (bytes : Bytes) :
    .wroteLkg bytes ∉ actions := fun hmem => by
  cases h _ hmem

theorem newLkgCandidate_of_mem {read : Option Bytes} {enabled : Bool} {source : String} {now : ℕ}
    {c : LkgCandidate} (h : c ∈ newLkgCandidate read enabled source now) :
    c.bytes ∈ read ∧ c.since = now := by
  unfold newLkgCandidate at h
  split at h
  · obtain ⟨bytes, hbytes, rfl⟩ := Option.map_eq_some_iff.mp h
    exact ⟨hbytes, rfl⟩
  · cases h

section Batch
variable {loader : Loader} {x : Life × Runner} {a : Attempt} {turn : Turn}

theorem ending_no_write (hends : Ending loader x.2 a turn) (bytes : Bytes) :
    .wroteLkg bytes ∉ turn.actions := by
  cases hends with
  | coalesced _ => exact List.not_mem_nil
  | refused detail _ _ => simp [Runner.reject]
  | busy _ _ _ => exact List.not_mem_nil
  | lost _ _ _ hquiet => exact hquiet.no_write bytes
  | rebuilt _ _ _ _ hquiet =>
    intro hmem
    obtain hmem | hmem := List.mem_append.mp hmem
    · exact hquiet.no_write bytes hmem
    · cases List.mem_singleton.mp hmem
  | accepted _ _ _ hwoken hwoke =>
    intro hmem
    obtain hmem | hmem := List.mem_append.mp hmem
    · obtain hmem | hmem := List.mem_append.mp hmem
      · exact hwoken.no_write bytes hmem
      · cases List.mem_singleton.mp hmem
    · exact hwoke.no_write bytes hmem

/-- A batch keeps what is armed, or arms what it loaded. -/
theorem armed_ending (hends : Ending loader x.2 a turn) (harmed : Armed loader x)
    (hc : Rereads x (.batch a)) :
    Armed loader (noteLife x.1 x.2 (.batch a) (turn.runner, turn.actions), turn.runner) := by
  have hkept {turn : Turn} (hsilent : spawnedPending turn.actions = none)
      (hcfg : turn.runner.generation.cfg = x.2.generation.cfg)
      (hlkg : turn.runner.lkgCandidate = x.2.lkgCandidate) :
      Armed loader (noteLife x.1 x.2 (.batch a) (turn.runner, turn.actions), turn.runner) := by
    have hlife : noteLife x.1 x.2 (.batch a) (turn.runner, turn.actions) = x.1 := by
      unfold noteLife
      simp only [hsilent]
    rw [hlife]
    exact ⟨by rw [hcfg]; exact harmed.parsed, by rw [hlkg]; exact harmed.candidate⟩
  cases hends with
  | coalesced _ => exact hkept rfl rfl rfl
  | refused detail _ _ => exact hkept rfl rfl rfl
  | busy _ _ _ => exact hkept rfl rfl rfl
  | lost _ _ hrunner hquiet =>
    obtain rfl | rfl := hrunner
    · exact hkept hquiet.silent rfl rfl
    · exact hkept hquiet.silent rfl rfl
  | @rebuilt bytes cfg creds woken h detail _ hfails hquiet =>
    -- the old generation starts again, and nothing is armed
    have hlife : noteLife x.1 x.2 (.batch a)
        ((((x.2.fenced cfg).teardown.rebuildOld detail
            (settledSnapshot cfg.ruled a.preliminary a.polls) true).1.reject detail
          (woken ++ ((x.2.fenced cfg).teardown.rebuildOld detail
            (settledSnapshot cfg.ruled a.preliminary a.polls) true).2)).runner,
        woken ++ ((x.2.fenced cfg).teardown.rebuildOld detail
          (settledSnapshot cfg.ruled a.preliminary a.polls) true).2) =
        { x.1 with healthySince := a.now } := by
      unfold noteLife
      simp only [spawnedPending_quiet hquiet]
      rfl
    refine ⟨?_, fun c hc' => ?_⟩
    · exact (congrArg (fun l : Life => loader.loadConfig l.ran) hlife).trans harmed.parsed
    · have hsome : x.2.lkgCandidate.isSome := Option.isSome_iff_exists.mpr ⟨c, hc'⟩
      exact absurd hfails (hc.2 hsome)
  | @accepted bytes cfg creds woken woke h _ _ hwoken hwoke =>
    have hlife : noteLife x.1 x.2 (.batch a)
        ((x.2.fenced cfg).teardown.accept (x.2.installed cfg creds)
            (loader.loadRuntime a.config a.creds).1 a,
          woken ++ [.spawn (x.2.installed cfg creds)
            (settledSnapshot cfg.ruled a.preliminary a.polls) none] ++ woke) =
        { ran := bytes, validated := bytes, healthySince := a.now } := by
      unfold noteLife
      simp only [List.append_assoc, spawnedPending_quiet hwoken, h.read]
      rfl
    refine ⟨?_, fun c hc' => ?_⟩
    · exact (congrArg (fun l : Life => loader.loadConfig l.ran) hlife).trans
        (h.parsed.trans (congrArg Except.ok (by
          obtain ⟨_, _, _, haccept⟩ := accept_eq (x.2.fenced cfg).teardown
            (x.2.installed cfg creds) (loader.loadRuntime a.config a.creds).1 a
          rw [haccept]
          rfl)))
    · obtain ⟨hread, hsince⟩ := newLkgCandidate_of_mem hc'
      have hbytes : c.bytes = bytes := by
        have hok := (hc.1 c.bytes hread).symm.trans h.read
        exact Except.ok.inj hok
      dsimp only
      rw [hlife]
      exact ⟨hbytes, hbytes, hsince⟩

end Batch

section Tick
variable {loader : Loader} {x : Life × Runner} {t : WatchdogTick}

theorem retry_keeps (r : Runner) (t : WatchdogTick) :
    (r.retryRollbackStateClear t).generation = r.generation ∧
      (r.retryRollbackStateClear t).lkgCandidate = r.lkgCandidate ∧
      (r.retryRollbackStateClear t).ctlRoute = r.ctlRoute := by
  unfold Runner.retryRollbackStateClear
  split <;> exact ⟨rfl, rfl, rfl⟩

/-- The configuration stays, and what is armed may be dropped. -/
theorem lkgTickAt_keeps (r : Runner) (t : WatchdogTick) (snapshot : ProbeSnapshot) :
    (r.lkgTickAt t snapshot).1.generation = r.generation ∧
      ∀ c ∈ (r.lkgTickAt t snapshot).1.lkgCandidate, c ∈ r.lkgCandidate := by
  obtain ⟨defers, hcounts⟩ | ⟨c, -, -, hpromotes⟩ := lkgTickAt_cases r t snapshot
  · rw [hcounts]
    exact ⟨rfl, fun c hc => hc⟩
  · rw [hpromotes]
    dsimp only
    split
    · exact ⟨rfl, fun c hc => by cases hc⟩
    · exact ⟨rfl, fun c hc => hc⟩

/-- What a tick writes is the candidate, after its window. -/
theorem lkgTickAt_writes {r : Runner} {t : WatchdogTick} {snapshot : ProbeSnapshot} {bytes : Bytes}
    (h : .wroteLkg bytes ∈ (r.lkgTickAt t snapshot).2) :
    ∃ c ∈ r.lkgCandidate, bytes = c.bytes ∧
      r.generation.cfg.stabilityWindow ≤ t.now - c.since := by
  obtain ⟨defers, hcounts⟩ | ⟨c, hc, hwindow, hpromotes⟩ := lkgTickAt_cases r t snapshot
  · rw [hcounts] at h
    cases h
  · rw [hpromotes] at h
    dsimp only at h
    split at h
    · cases List.mem_singleton.mp h
      exact ⟨c, hc, rfl, hwindow⟩
    · cases h

theorem armed_tick (hlive : x.2.cancelled = false) (harmed : Armed loader x) :
    Armed loader (noteLife x.1 x.2 (.tick t) (x.2.watchdogTickAt t),
      (x.2.watchdogTickAt t).1) := by
  obtain ⟨hgeneration, hlkg, hroute⟩ := retry_keeps x.2 t
  unfold noteLife Runner.watchdogTickAt
  dsimp only
  rw [hlive, hroute]
  cases htarget : x.2.ctlRoute.target with
  | none =>
    rw [if_neg (by simp), if_pos (by rfl)]
    exact ⟨by rw [hgeneration]; exact harmed.parsed, by rw [hlkg]; exact harmed.candidate⟩
  | some engine =>
    rw [if_neg (by simp) (c := (some engine).isNone = true)]
    cases hprobe : t.probe with
    | none =>
      rw [if_pos (by rfl)]
      refine ⟨?_, fun c hc => ?_⟩
      · exact (congrArg (fun g : Generation => loader.loadConfig x.1.ran = .ok g.cfg)
          hgeneration).mpr harmed.parsed
      · unfold Runner.resetCandidateOnProbeFailure at hc
        rw [hlkg] at hc
        obtain ⟨before, hbefore, rfl⟩ := Option.map_eq_some_iff.mp hc
        obtain ⟨hran, hvalidated, -⟩ := harmed.candidate before hbefore
        exact ⟨hran, hvalidated, rfl⟩
    | some snapshot =>
      rw [if_neg (by simp)]
      obtain ⟨hkept, hcandidate⟩ := lkgTickAt_keeps (x.2.retryRollbackStateClear t) t snapshot
      refine ⟨?_, fun c hc => harmed.candidate c ?_⟩
      · rw [hkept, hgeneration]
        exact harmed.parsed
      · rw [← hlkg]
        exact hcandidate c hc

theorem earned_tick (harmed : Armed loader x) {bytes : Bytes}
    (h : .wroteLkg bytes ∈ (x.2.watchdogTickAt t).2) :
    bytes = x.1.ran ∧ bytes = x.1.validated ∧ t.probe.isSome ∧
      x.2.generation.cfg.stabilityWindow ≤ t.now - x.1.healthySince := by
  obtain ⟨hgeneration, hlkg, -⟩ := retry_keeps x.2 t
  unfold Runner.watchdogTickAt at h
  dsimp only at h
  split at h
  · cases h
  · cases hprobe : t.probe with
    | none =>
      rw [hprobe] at h
      cases h
    | some snapshot =>
      rw [hprobe] at h
      obtain ⟨c, hc, rfl, hwindow⟩ := lkgTickAt_writes h
      rw [hlkg] at hc
      rw [hgeneration] at hwindow
      obtain ⟨hran, hvalidated, hsince⟩ := harmed.candidate c hc
      rw [hsince] at hwindow
      exact ⟨hran, hvalidated, rfl, hwindow⟩

end Tick

/-! ## The law -/

theorem armed_next {loader : Loader} {x : Life × Runner} {input : RunnerInput}
    (harmed : Armed loader x) (hc : Rereads x input) :
    Armed loader ((lifeWatch loader).next x input).1 := by
  unfold lifeWatch Runs.System.observed runLoop
  dsimp only
  cases hlive : x.2.cancelled with
  | true =>
    rw [if_pos rfl]
    cases input with
    | batch a => exact harmed
    | tick t =>
      unfold noteLife
      simp only [hlive, Bool.not_true, Bool.false_and]
      exact harmed
  | false =>
    rw [if_neg (by simp)]
    cases input with
    | batch a => exact armed_ending (executeReloadBatch_ends loader x.2 a) harmed hc
    | tick t => exact armed_tick hlive harmed

theorem earned_next {loader : Loader} {x : Life × Runner} {input : RunnerInput}
    (harmed : Armed loader x) : Earned loader x input := by
  intro bytes hwrite
  unfold runLoop at hwrite
  dsimp only at hwrite
  split at hwrite
  · cases hwrite
  · cases input with
    | batch a =>
      exact absurd hwrite (ending_no_write (executeReloadBatch_ends loader x.2 a) bytes)
    | tick t =>
      obtain ⟨hran, hvalidated, hprobe, hwindow⟩ := earned_tick harmed hwrite
      exact ⟨hran, hvalidated, by rw [hran]; exact harmed.parsed, t, rfl, hprobe, hwindow⟩

theorem armed_boot {loader : Loader} {b : BootReads} {r : Runner}
    (hboot : bootRunner loader b = some r) (hreads : b.Rereads) : Armed loader (b.life, r) := by
  unfold bootRunner at hboot
  split at hboot
  · rename_i cfg creds hcfg hcreds
    obtain rfl := Option.some.inj hboot
    have hkept : (firstRunner loader b cfg creds).generation.cfg = cfg ∧
        (firstRunner loader b cfg creds).lkgCandidate =
          if b.rollback then none else newLkgCandidate b.armRead cfg.lkgEnabled "boot" b.now := by
      unfold firstRunner Runner.spawnActivityFollow
      dsimp only
      split <;> exact ⟨rfl, rfl⟩
    refine ⟨by rw [hkept.1]; exact hcfg, fun c hc => ?_⟩
    rw [hkept.2] at hc
    split at hc
    · cases hc
    · rename_i hrollback
      obtain ⟨hread, hsince⟩ := newLkgCandidate_of_mem hc
      obtain ⟨hran, hvalidated⟩ := hreads (by simpa using hrollback) c.bytes hread
      exact ⟨hran, hvalidated, hsince⟩
  · cases hboot

/-- In a run of a daemon that arms its candidates with what it loaded, and has none armed when it
rebuilds the old generation, only what runs is promoted, after its window. -/
theorem promoted_bytes_ran {loader : Loader} {b : BootReads} {r : Runner}
    (hboot : bootRunner loader b = some r) (hreads : b.Rereads) {inputs : List RunnerInput}
    (h : (lifeWatch loader).Steps Rereads (b.life, r) inputs) :
    (lifeWatch loader).Steps (Earned loader) (b.life, r) inputs :=
  h.derive (Armed loader) (fun _ _ harmed hc => armed_next harmed hc)
    (fun _ _ harmed _ => earned_next harmed) (armed_boot hboot hreads)

/-! ## An edit after the load -/

/-- A configuration without displays. -/
def bareConfig : Config where
  displays := []
  rules := []
  activityFollow := false
  reloadDebounce := 0
  generationBarrierAckTimeout := 5
  lkgEnabled := true
  stabilityWindow := 60

/-- The file of the byte two does not parse. -/
def byteLoader : Loader where
  sha256 bytes := bytes.foldl (fun n byte => 256 * n + byte.toNat) 1
  loadConfig bytes := if bytes = [2] then .error "TOML syntax error" else .ok bareConfig
  loadCredentials _ := .ok .default

/-- A boot from the file of the byte one. -/
def calmBoot : BootReads where
  validated := [1]
  config := [1]
  creds := none
  revisionConfig := [1]
  revisionCreds := none
  armRead := some [1]
  rollback := false
  now := 0

/-- A batch in which nothing fails. -/
def calmAttempt (config : Bytes) (armRead : Option Bytes) (now : ℕ) : Attempt where
  config := .ok config
  creds := .absent
  assembleError := none
  preliminary := none
  polls := []
  operationsQuiesce := true
  barrier := none
  wakeError _ := none
  spawnError := none
  rebuildSpawns := true
  clearWritten := true
  armRead := armRead
  now := now

def healthyTick (now : ℕ) (onDisk : Bytes) : WatchdogTick where
  now := now
  probe := some []
  freshBytes := some onDisk
  fileWritten := true
  metaWritten := true
  clearWritten := true

theorem promoted_bytes_ran_calm :
    (lifeWatch byteLoader).Steps (Earned byteLoader)
      (calmBoot.life, firstRunner byteLoader calmBoot bareConfig .default)
      [.tick (healthyTick 100 [1]), .batch (calmAttempt [3] (some [3]) 110),
        .tick (healthyTick 200 [3])] := by
  have hfails (config : Bytes) (armRead : Option Bytes) (now : ℕ) :
      ¬(calmAttempt config armRead now).Fails := by
    rintro (⟨_, h⟩ | h) <;> exact h rfl
  refine promoted_bytes_ran (b := calmBoot) (by decide +kernel) ?_ ⟨trivial, ⟨?_, ?_⟩, trivial,
    trivial⟩
  · rintro - read hread
    obtain rfl := Option.some.inj hread
    exact ⟨rfl, rfl⟩
  · intro read hread
    obtain rfl := Option.some.inj hread
    rfl
  · exact fun _ => hfails _ _ _

/-- The file is edited after the load of a batch, and the edit does not parse. It is promoted. -/
theorem unparsed_promoted : calmBoot.Rereads ∧
    ¬(lifeWatch byteLoader).Steps (Earned byteLoader)
      (calmBoot.life, firstRunner byteLoader calmBoot bareConfig .default)
      [.batch (calmAttempt [3] (some [2]) 110), .batch (calmAttempt [2] none 111),
        .tick (healthyTick 200 [2])] := by
  refine ⟨fun _ read hread => ?_, fun h => ?_⟩
  · obtain rfl := Option.some.inj hread
    exact ⟨rfl, rfl⟩
  · obtain ⟨-, -, hparsed, -⟩ := h.2.2.1 [2] (by decide +kernel)
    cases hparsed

end Dormant.Reload
