import Dormant.Reload.Endings

/-!
# Batches that do not apply

What a batch that is coalesced or rejected leaves behind. Each of its exits undoes its own part of
what was done before: the task of activity-follow comes back after none of them, the records of the
shared displays stay those of the configuration that was turned away, and so does the timeout of
the barrier where an operation was busy; a rebuilt generation accepts no operations.
-/

namespace Dormant.Reload
set_option autoImplicit false

/-- The daemon serves the live generation. -/
structure Served (r : Runner) : Prop where
  watch : r.configTx = r.generation.cfg
  records : ∀ records ∈ r.coordination, records = r.generation.cfg.sharedDisplays.toFinset
  unshared : r.coordination = none → r.generation.cfg.sharedDisplays = []
  executors : r.executorsTx = some r.generation.executors
  engine : r.generation.engine.isSome
  ctl : r.ctlRoute.paused = false ∧ r.ctlRoute.target = r.generation.engine
  events : r.eventsRoute.paused = false ∧ r.eventsRoute.target = r.generation.engine
  barrier : r.generationBarrierAckTimeout = r.generation.cfg.generationBarrierAckTimeout

/-- The daemon is as it was, and accepts operations. -/
structure AsBefore (r r' : Runner) : Prop where
  config : r'.generation.cfg = r.generation.cfg
  follow : r'.activityFollow.isSome = r.activityFollow.isSome
  served : Served r'
  accepts : r'.generationId ∉ r'.quiescing

/-- The batch does not apply, and the daemon goes on. -/
def Turn.Unapplied (turn : Turn) : Prop :=
  (turn.coalesced = true ∨ turn.outcome ≠ .reloaded) ∧ turn.runner.cancelled = false

/-- Nothing that the batch does before its end has to be undone. -/
structure NothingToUndo (loader : Loader) (r : Runner) (a : Attempt) : Prop where
  follow : r.activityFollow = none
  early : (∀ bytes cfg creds, ¬Loaded loader r a bytes cfg creds) → r.generationId ∉ r.quiescing
  late : ∀ bytes cfg creds, Loaded loader r a bytes cfg creds →
    a.operationsQuiesce = false ∧
      cfg.sharedDisplays.toFinset = r.generation.cfg.sharedDisplays.toFinset ∧
      cfg.generationBarrierAckTimeout = r.generation.cfg.generationBarrierAckTimeout

def LeavesAsBefore (loader : Loader) (r : Runner) : RunnerInput → Prop
  | .batch a => r.cancelled = false → (r.executeReloadBatch loader a).Unapplied →
      AsBefore r (r.executeReloadBatch loader a).runner
  | .tick _ => True

def HasNothingToUndo (loader : Loader) (r : Runner) : RunnerInput → Prop
  | .batch a => r.cancelled = false → (r.executeReloadBatch loader a).Unapplied →
      NothingToUndo loader r a
  | .tick _ => True

section Batch
variable {loader : Loader} {r : Runner} {a : Attempt} {turn : Turn}

theorem served_reaped (h : Served r) : Served r.reapActivityFollow :=
  ⟨h.watch, h.records, h.unshared, h.executors, h.engine, h.ctl, h.events, h.barrier⟩

/-- What a refused or a coalesced batch leaves. -/
theorem asBefore_reaped (h : Served r) :
    AsBefore r r.reapActivityFollow ↔ r.activityFollow = none ∧ r.generationId ∉ r.quiescing := by
  constructor
  · intro hbefore
    refine ⟨?_, hbefore.accepts⟩
    have hfollow : false = r.activityFollow.isSome := hbefore.follow
    exact Option.isSome_eq_false_iff.mp hfollow.symm |> Option.isNone_iff_eq_none.mp
  · rintro ⟨hfollow, haccepts⟩
    exact ⟨rfl, by rw [hfollow]; rfl, served_reaped h, haccepts⟩

theorem nothingToUndo_gated (hgate : ∀ bytes cfg creds, ¬Loaded loader r a bytes cfg creds) :
    NothingToUndo loader r a ↔ r.activityFollow = none ∧ r.generationId ∉ r.quiescing := by
  constructor
  · intro h
    exact ⟨h.follow, h.early hgate⟩
  · rintro ⟨hfollow, haccepts⟩
    exact ⟨hfollow, fun _ => haccepts, fun bytes cfg creds h => absurd h (hgate bytes cfg creds)⟩

/-- What a batch that found an operation busy leaves. -/
theorem asBefore_busy {cfg : Config} (h : Served r) :
    AsBefore r ((r.fenced cfg).restoreBusy r.ctlRoute.target) ↔ r.activityFollow = none ∧
      (r.coordination.isSome →
        cfg.sharedDisplays.toFinset = r.generation.cfg.sharedDisplays.toFinset) ∧
      cfg.generationBarrierAckTimeout = r.generation.cfg.generationBarrierAckTimeout := by
  obtain ⟨engine, hengine⟩ := Option.isSome_iff_exists.mp h.engine
  constructor
  · intro hbefore
    refine ⟨?_, fun hsome => ?_, hbefore.served.barrier⟩
    · have hfollow : false = r.activityFollow.isSome := hbefore.follow
      exact Option.isSome_eq_false_iff.mp hfollow.symm |> Option.isNone_iff_eq_none.mp
    · obtain ⟨records, hrecords⟩ := Option.isSome_iff_exists.mp hsome
      refine hbefore.served.records cfg.sharedDisplays.toFinset ?_
      show _ ∈ r.coordination.map fun _ => cfg.sharedDisplays.toFinset
      rw [hrecords]
      rfl
  · rintro ⟨hfollow, hrecords, hbarrier⟩
    refine ⟨rfl, by rw [hfollow]; rfl,
      ⟨h.watch, ?_, ?_, rfl, h.engine, ⟨rfl, h.ctl.2⟩, ?_, hbarrier⟩, Finset.notMem_erase _ _⟩
    · intro records hmem
      obtain ⟨old, hold, rfl⟩ := Option.map_eq_some_iff.mp hmem
      exact hrecords (Option.isSome_iff_exists.mpr ⟨old, hold⟩)
    · intro hnone
      exact h.unshared (Option.map_eq_none_iff.mp hnone)
    · have hroute : ((r.fenced cfg).restoreBusy r.ctlRoute.target).eventsRoute =
          ⟨false, r.generation.engine, none⟩ := if_pos h.engine
      rw [hroute]
      exact ⟨rfl, rfl⟩

/-- A rebuilt generation accepts no operations. -/
theorem not_asBefore_rebuilt (cfg : Config) (detail : String) (snapshot : Option StateSnapshot) :
    ¬AsBefore r ((r.fenced cfg).teardown.rebuildOld detail snapshot true).1 := fun h =>
  h.accepts (Finset.mem_insert_self r.generationId r.quiescing)

/-- Of a batch that does not apply. -/
theorem asBefore_iff (h : Served r) (hends : Ending loader r a turn) (hun : turn.Unapplied) :
    AsBefore r turn.runner ↔ NothingToUndo loader r a := by
  cases hends with
  | coalesced hsame =>
    have hgate : ∀ bytes cfg creds, ¬Loaded loader r a bytes cfg creds := fun _ _ _ hl =>
      hl.changed hsame
    exact (asBefore_reaped h).trans (nothingToUndo_gated hgate).symm
  | refused detail _ hgate => exact (asBefore_reaped h).trans (nothingToUndo_gated hgate).symm
  | @busy bytes cfg creds hl hbusy detail =>
    refine (asBefore_busy h).trans ⟨?_, ?_⟩
    · rintro ⟨hfollow, hrecords, hbarrier⟩
      refine ⟨hfollow, fun hgate => absurd hl (hgate bytes cfg creds), fun _ cfg' _ hl' => ?_⟩
      obtain rfl := hl.unique hl'
      refine ⟨hbusy, ?_, hbarrier⟩
      cases hcoordination : r.coordination with
      | some _ => exact hrecords (by rw [hcoordination]; rfl)
      | none =>
        have hshared := hl.shared
        rw [hcoordination] at hshared
        have hempty : cfg'.sharedDisplays = [] := List.isEmpty_iff.mp (by simpa using hshared)
        rw [h.unshared hcoordination, hempty]
    · intro hc
      obtain ⟨-, hrecords, hbarrier⟩ := hc.late bytes cfg creds hl
      exact ⟨hc.follow, fun _ => hrecords, hbarrier⟩
  | lost _ _ _ _ => cases hun.2
  | @rebuilt bytes cfg creds woken hl detail hbarrier _ _ =>
    refine iff_of_false (not_asBefore_rebuilt cfg detail
      (settledSnapshot cfg.ruled a.preliminary a.polls)) fun hc => ?_
    have hbusy := (hc.late bytes cfg creds hl).1
    rw [hbarrier.1] at hbusy
    cases hbusy
  | accepted _ _ _ _ _ =>
    obtain hcoalesced | hrejected := hun.1
    · cases hcoalesced
    · exact absurd rfl hrejected

/-- An accepted batch serves the generation that it installs. -/
theorem served_accepted {cfg : Config} {creds : Credentials} {requested : RuntimeRevision}
    (hshared : (r.coordination.isNone && !cfg.sharedDisplays.isEmpty) = false) :
    Served ((r.fenced cfg).teardown.accept (r.installed cfg creds) requested a) := by
  obtain ⟨follow, pending, active, haccept⟩ := accept_eq (r.fenced cfg).teardown
    (r.installed cfg creds) requested a
  rw [haccept]
  refine ⟨rfl, fun records hrecords => ?_, fun hnone => ?_, rfl, rfl, ⟨rfl, rfl⟩, ⟨rfl, rfl⟩, rfl⟩
  · obtain ⟨_, -, rfl⟩ := Option.map_eq_some_iff.mp hrecords
    rfl
  · have hbefore : r.coordination = none := Option.map_eq_none_iff.mp hnone
    rw [hbefore] at hshared
    have hempty : cfg.sharedDisplays = [] := List.isEmpty_iff.mp (by simpa using hshared)
    exact hempty

end Batch

/-! ## Runs -/

section Runs
variable {loader : Loader} {r : Runner}

theorem served_boot {b : BootReads} (hboot : bootRunner loader b = some r) : Served r := by
  unfold bootRunner at hboot
  split at hboot
  · rename_i cfg creds _ _
    obtain rfl := Option.some.inj hboot
    unfold firstRunner Runner.spawnActivityFollow
    dsimp only
    split <;>
    · refine ⟨rfl, fun records hrecords => ?_, fun hnone => ?_, rfl, rfl, ⟨rfl, rfl⟩,
        ⟨rfl, rfl⟩, rfl⟩
      · dsimp only at hrecords
        split at hrecords
        · cases hrecords
        · obtain rfl := Option.some.inj hrecords
          rfl
      · dsimp only at hnone
        split at hnone
        · rename_i hempty
          exact List.isEmpty_iff.mp hempty
        · cases hnone
  · cases hboot

theorem served_tick (h : Served r) (t : WatchdogTick) : Served (r.watchdogTickAt t).1 := by
  obtain ⟨_, _, _, htick⟩ := watchdogTickAt_eq r t
  rw [htick]
  exact ⟨h.watch, h.records, h.unshared, h.executors, h.engine, h.ctl, h.events, h.barrier⟩

/-- While it is not shut down, the daemon serves its generation. -/
def Serving (r : Runner) : Prop := r.cancelled = false → Served r

theorem leaves_iff (h : Serving r) (input : RunnerInput) :
    LeavesAsBefore loader r input ↔ HasNothingToUndo loader r input := by
  cases input with
  | tick _ => exact Iff.rfl
  | batch a =>
    refine forall_congr' fun hlive => forall_congr' fun hun => ?_
    exact asBefore_iff (h hlive) (executeReloadBatch_ends loader r a) hun

theorem serving_next (h : Serving r) {input : RunnerInput}
    (hc : HasNothingToUndo loader r input) : Serving ((runLoop loader).next r input).1 := by
  unfold runLoop
  dsimp only
  cases hlive : r.cancelled with
  | true =>
    rw [if_pos rfl]
    exact h
  | false =>
    rw [if_neg (by simp)]
    intro hlive'
    cases input with
    | tick t => exact served_tick (h hlive) t
    | batch a =>
      dsimp only at hlive' ⊢
      by_cases hun : (r.executeReloadBatch loader a).Unapplied
      · exact ((leaves_iff h (.batch a)).mpr hc hlive hun).served
      · -- a batch that goes on and is not rejected is accepted
        have hends := executeReloadBatch_ends loader r a
        generalize r.executeReloadBatch loader a = turn at hends hlive' hun
        have happlied : turn.coalesced = false ∧ turn.outcome = .reloaded := by
          unfold Turn.Unapplied at hun
          rw [and_iff_left hlive', not_or, not_not] at hun
          exact ⟨by simpa using hun.1, hun.2⟩
        cases hends with
        | coalesced _ => cases happlied.1
        | refused _ _ _ => cases happlied.2
        | busy _ _ _ => cases happlied.2
        | lost _ _ _ _ => cases happlied.2
        | rebuilt _ _ _ _ _ => cases happlied.2
        | accepted hl _ _ _ _ => exact served_accepted hl.shared

end Runs

/-- In a run of a daemon, every batch that does not apply leaves the daemon as it was just when
none of them has anything to undo. -/
theorem rejections_leave_daemon {loader : Loader} {b : BootReads} {r : Runner}
    (hboot : bootRunner loader b = some r) (inputs : List RunnerInput) :
    (runLoop loader).Steps (LeavesAsBefore loader) r inputs ↔
      (runLoop loader).Steps (HasNothingToUndo loader) r inputs := by
  have hserving : Serving r := fun _ => served_boot hboot
  constructor
  · intro h
    exact h.derive Serving (fun _ input hs hc => serving_next hs ((leaves_iff hs input).mp hc))
      (fun _ input hs hc => (leaves_iff hs input).mp hc) hserving
  · intro h
    exact h.derive Serving (fun _ _ hs hc => serving_next hs hc)
      (fun _ input hs hc => (leaves_iff hs input).mpr hc) hserving

/-! ## Activity-follow after a no-op -/

def deskMonitor : DisplayConfig where
  scope := .shared
  sharedInputCode := some 15
  controllers := ["ddcci"]
  blankMode := some .powerOff
  degradedMode := none
  ladder := []
  output := some "DP-1"
  ddcDisplay := none
  host := none
  wolMac := none
  blankCommand := none
  wakeCommand := none
  modes := none
  haUrl := none
  blankService := none
  blankData := none
  wakeService := none
  wakeData := none
  commandTimeout := 5
  treatUnreachableAsBlanked := false

/-- One shared display, and the second file turns activity-follow on. -/
def deskLoader : Loader where
  sha256 bytes := bytes.foldl (fun n byte => 256 * n + byte.toNat) 1
  loadConfig bytes := .ok {
    displays := [(⟨"desk"⟩, deskMonitor)]
    rules := []
    activityFollow := decide (bytes = [2])
    reloadDebounce := 0
    generationBarrierAckTimeout := 5
    lkgEnabled := false
    stabilityWindow := 60 }
  loadCredentials _ := .ok .default

def deskBoot (config : Bytes) : BootReads where
  validated := config
  config := config
  creds := none
  revisionConfig := config
  revisionCreds := none
  armRead := none
  rollback := false
  now := 0

/-- A batch of a file, in which an operation may be busy and nothing fails. -/
def deskAttempt (config : Bytes) (operationsQuiesce : Bool) : Attempt where
  config := .ok config
  creds := .absent
  assembleError := none
  preliminary := none
  polls := []
  operationsQuiesce := operationsQuiesce
  barrier := none
  wakeError _ := none
  spawnError := none
  rebuildSpawns := true
  clearWritten := true
  armRead := none
  now := 10

def deskRunner (config : Bytes) : Option Runner := bootRunner deskLoader (deskBoot config)

theorem rejections_leave_daemon_desk : ∃ r, deskRunner [1] = some r ∧
    ((runLoop deskLoader).Steps (LeavesAsBefore deskLoader) r
        [.batch (deskAttempt [1] true), .batch (deskAttempt [3] false)] ↔
      (runLoop deskLoader).Steps (HasNothingToUndo deskLoader) r
        [.batch (deskAttempt [1] true), .batch (deskAttempt [3] false)]) :=
  ⟨_, rfl, rejections_leave_daemon (b := deskBoot [1]) rfl _⟩

/-- The file is as it was, and the task of activity-follow is gone after the reload. -/
theorem follow_lost : ∃ r, deskRunner [2] = some r ∧
    r.activityFollow = some [⟨"desk"⟩] ∧
    (r.executeReloadBatch deskLoader (deskAttempt [2] true)).coalesced = true ∧
    (r.executeReloadBatch deskLoader (deskAttempt [2] true)).runner.activityFollow = none ∧
    ¬(runLoop deskLoader).Steps (LeavesAsBefore deskLoader) r [.batch (deskAttempt [2] true)] := by
  refine ⟨_, rfl, by decide +kernel, by decide +kernel, by decide +kernel, fun h => ?_⟩
  have hbefore := h.1 (by decide +kernel) ⟨.inl (by decide +kernel), by decide +kernel⟩
  exact absurd hbefore.follow (by decide +kernel)

end Dormant.Reload
