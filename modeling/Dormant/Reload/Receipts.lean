import Dormant.Reload.Requests

/-!
# Receipts that tell the truth

`DeskHistory` holds the files that the running generation was built from, and the waiters that came
and those that were answered, in their order. What a receipt tells is true as long as a revision
that looks applied is that of the running generation.
-/

namespace Dormant.Reload
set_option autoImplicit false

/-- The files of a generation. -/
structure Built where
  config : Bytes
  creds : Option Bytes
  deriving DecidableEq, Repr

/-- The credentials that a read found. -/
def CredsRead.found : CredsRead → Option (Option Bytes)
  | .absent => some none
  | .failed _ => none
  | .contents bytes => some (some bytes)

structure DeskHistory where
  built : Built
  enqueued : List ℕ
  answered : List ℕ
  deriving DecidableEq, Repr

/-- The files of the generation that runs after a batch. -/
def noteBuilt (built : Built) (a : Attempt) (turn : Turn) : Built :=
  match spawnedPending turn.actions, a.config, a.creds.found with
  | some none, .ok bytes, some creds => ⟨bytes, creds⟩
  | _, _, _ => built

def enqueuedOf (outputs : List DeskOutput) : List ℕ :=
  outputs.filterMap fun output =>
    match output with
    | .enqueued waiter => some waiter
    | .receipt _ _ => none

def answeredOf (outputs : List DeskOutput) : List ℕ :=
  outputs.filterMap fun output =>
    match output with
    | .enqueued _ => none
    | .receipt waiter _ => some waiter

def noteDesk (loader : Loader) (h : DeskHistory) (s : ReloadDesk) (input : DeskInput)
    (result : ReloadDesk × List DeskOutput) : DeskHistory where
  built :=
    match input with
    | .execute a =>
      if s.idle || s.batch.isNone then h.built
      else noteBuilt h.built a (s.runner.executeReloadBatch loader a)
    | _ => h.built
  enqueued := h.enqueued ++ enqueuedOf result.2
  answered := h.answered ++ answeredOf result.2

def deskWatch (loader : Loader) : Runs.System (DeskHistory × ReloadDesk) DeskInput DeskOutput :=
  (reloadDesk loader).observed (noteDesk loader)

def BootReads.history (b : BootReads) : DeskHistory where
  built := ⟨b.config, b.creds⟩
  enqueued := []
  answered := []

/-- The waiters that are not answered, in their order. -/
def ReloadDesk.pending (s : ReloadDesk) : List ℕ :=
  (s.batch.elim [] ReloadBatch.waiters) ++ s.channel.flatMap fun request => request.waiter.toList

/-! ## Accounts -/

/-- Who came is answered or pending, once. -/
def Accounted (x : DeskHistory × ReloadDesk) : Prop :=
  x.1.answered ++ x.2.pending = x.1.enqueued ∧ x.1.enqueued = List.range x.2.nextWaiter

section Accounts
variable {loader : Loader} {x : DeskHistory × ReloadDesk}

theorem enqueuedOf_waiters (waiters : List ℕ) :
    enqueuedOf (waiters.map DeskOutput.enqueued) = waiters := by
  induction waiters with
  | nil => rfl
  | cons waiter waiters ih => exact congrArg (waiter :: ·) ih

theorem answeredOf_waiters (waiters : List ℕ) :
    answeredOf (waiters.map DeskOutput.enqueued) = [] := by
  induction waiters with
  | nil => rfl
  | cons waiter waiters ih => exact ih

theorem enqueuedOf_receipts (waiters : List ℕ) (receipt : ReloadReceipt) :
    enqueuedOf (waiters.map fun waiter => .receipt waiter receipt) = [] := by
  induction waiters with
  | nil => rfl
  | cons waiter waiters ih => exact ih

theorem answeredOf_receipts (waiters : List ℕ) (receipt : ReloadReceipt) :
    answeredOf (waiters.map fun waiter => .receipt waiter receipt) = waiters := by
  induction waiters with
  | nil => rfl
  | cons waiter waiters ih => exact congrArg (waiter :: ·) ih

/-- What a step does to the waiters. -/
structure Serves (s s' : ReloadDesk) (outputs : List DeskOutput) : Prop where
  pending : answeredOf outputs ++ s'.pending = s.pending ++ enqueuedOf outputs
  next : List.range s'.nextWaiter = List.range s.nextWaiter ++ enqueuedOf outputs

theorem serves_self (s : ReloadDesk) : Serves s s [] :=
  ⟨(List.append_nil _).symm, (List.append_nil _).symm⟩

theorem serves_runner (s : ReloadDesk) (runner : Runner) :
    Serves s { s with runner := runner } [] :=
  ⟨(List.append_nil _).symm, (List.append_nil _).symm⟩

theorem serves_enqueue (s : ReloadDesk) (source : ReloadSource) (waits : Bool) :
    Serves s (s.enqueue source waits).1 (s.enqueue source waits).2 := by
  unfold ReloadDesk.enqueue
  dsimp only
  constructor
  · rw [answeredOf_waiters, enqueuedOf_waiters]
    simp [ReloadDesk.pending]
  · rw [enqueuedOf_waiters]
    cases waits with
    | false => exact (List.append_nil _).symm
    | true => exact List.range_succ

theorem serves_take (s : ReloadDesk) : Serves s s.take [] := by
  have hsame {s' : ReloadDesk} (hpending : s'.pending = s.pending)
      (hnext : s'.nextWaiter = s.nextWaiter) : Serves s s' [] :=
    ⟨hpending.trans (List.append_nil _).symm, by rw [hnext]; exact (List.append_nil _).symm⟩
  unfold ReloadDesk.take
  split
  · exact serves_self s
  · rename_i request channel hchannel hbatch
    refine hsame ?_ rfl
    simp [ReloadDesk.pending, hchannel, hbatch, ReloadBatch.new, ReloadBatch.push]
  · rename_i request channel batch hchannel hbatch
    split
    · exact serves_self s
    · refine hsame ?_ rfl
      simp [ReloadDesk.pending, hchannel, hbatch, ReloadBatch.push]

theorem serves_execute (s : ReloadDesk) (a : Attempt) :
    Serves s (s.execute loader a).1 (s.execute loader a).2 := by
  unfold ReloadDesk.execute
  split
  · exact serves_self s
  · rename_i batch hbatch
    constructor
    · rw [answeredOf_receipts, enqueuedOf_receipts]
      simp [ReloadDesk.pending, hbatch]
    · rw [enqueuedOf_receipts]
      exact (List.append_nil _).symm

theorem serves_next (loader : Loader) (s : ReloadDesk) (input : DeskInput) :
    Serves s ((reloadDesk loader).next s input).1 ((reloadDesk loader).next s input).2 := by
  unfold reloadDesk
  dsimp only
  cases input with
  | request source waits =>
    dsimp only
    split
    · exact serves_enqueue s source waits
    · exact serves_self s
  | ownNotice source =>
    dsimp only
    split
    · exact serves_self s
    · unfold ReloadDesk.ownNotice
      split
      · exact serves_enqueue s source false
      · exact ⟨(List.append_nil _).symm, (List.append_nil _).symm⟩
  | take =>
    dsimp only
    split
    · exact serves_self s
    · exact serves_take s
  | execute a =>
    dsimp only
    split
    · exact serves_self s
    · exact serves_execute s a
  | tick t =>
    dsimp only
    split
    · exact serves_self s
    · exact serves_runner s _
  | shutdown => exact serves_runner s _

theorem accounted_next (h : Accounted x) (input : DeskInput) :
    Accounted ((deskWatch loader).next x input).1 := by
  obtain ⟨haccounts, hrange⟩ := h
  have hserves := serves_next loader x.2 input
  constructor
  · calc x.1.answered ++ answeredOf ((reloadDesk loader).next x.2 input).2 ++
          ((reloadDesk loader).next x.2 input).1.pending
        = x.1.answered ++ (x.2.pending ++ enqueuedOf ((reloadDesk loader).next x.2 input).2) := by
          rw [List.append_assoc, hserves.pending]
      _ = x.1.enqueued ++ enqueuedOf ((reloadDesk loader).next x.2 input).2 := by
          rw [← List.append_assoc, haccounts]
  · exact (congrArg (· ++ _) hrange).trans hserves.next.symm

/-- A receipt comes of a batch that is executed. -/
theorem receipt_of_execute {input : DeskInput} {waiter : ℕ} {receipt : ReloadReceipt}
    (h : .receipt waiter receipt ∈ ((reloadDesk loader).next x.2 input).2) :
    ∃ a batch, input = .execute a ∧ batch ∈ x.2.batch ∧ waiter ∈ batch.waiters ∧
      receipt = (x.2.runner.executeReloadBatch loader a).receipt batch
        (loader.loadRuntime a.config a.creds).1 := by
  have henqueue (source : ReloadSource) (waits : Bool) :
      .receipt waiter receipt ∉ (x.2.enqueue source waits).2 := by
    intro hmem
    obtain ⟨_, -, hbad⟩ := List.mem_map.mp hmem
    cases hbad
  unfold reloadDesk at h
  cases input with
  | request source waits =>
    dsimp only at h
    split at h
    · exact absurd h (henqueue source waits)
    · cases h
  | ownNotice source =>
    dsimp only at h
    split at h
    · cases h
    · unfold ReloadDesk.ownNotice at h
      split at h
      · exact absurd h (henqueue source false)
      · cases h
  | take =>
    dsimp only at h
    split at h <;> cases h
  | tick t =>
    dsimp only at h
    split at h <;> cases h
  | shutdown => cases h
  | execute a =>
    dsimp only at h
    split at h
    · cases h
    · unfold ReloadDesk.execute at h
      split at h
      · cases h
      · rename_i batch hbatch
        obtain ⟨waiter', hwaiter, heq⟩ := List.mem_map.mp h
        obtain ⟨rfl, rfl⟩ := DeskOutput.receipt.inj heq
        exact ⟨a, batch, rfl, hbatch, hwaiter, rfl⟩

/-- A waiter that is answered came before. -/
theorem answered_came (h : Accounted x) {batch : ReloadBatch} (hbatch : batch ∈ x.2.batch)
    {waiter : ℕ} (hwaiter : waiter ∈ batch.waiters) : waiter ∈ x.1.enqueued := by
  rw [← h.1]
  refine List.mem_append_right _ (List.mem_append_left _ ?_)
  rw [hbatch]
  exact hwaiter

end Accounts

/-! ## The files of the generation -/

/-- The running generation was built from these files, and the applied revision is theirs. -/
structure BuiltFrom (loader : Loader) (built : Built) (r : Runner) : Prop where
  config : loader.loadConfig built.config = .ok r.generation.cfg
  creds : loader.bootCreds built.creds = .ok r.generation.creds
  applied : r.appliedRevision = loader.runtimeRevision built.config built.creds

/-- Files whose revision looks applied are those of the running generation, and no rollback is
active then. -/
def Recognised (loader : Loader) (built : Built) (r : Runner) (a : Attempt) : Prop :=
  (loader.loadRuntime a.config a.creds).1 = r.appliedRevision →
    a.config = .ok built.config ∧ a.creds.found = some built.creds ∧ r.rollbackActive = false

section Files
variable {loader : Loader} {built : Built} {r : Runner} {a : Attempt} {turn : Turn}

theorem found_of_creds {read : CredsRead} {creds : Credentials}
    (h : loader.creds read = .ok creds) : ∃ found, read.found = some found ∧
      loader.bootCreds found = .ok creds ∧
      ∀ bytes, (loader.runtimeRevision bytes found).credentials = loader.credsRevision read := by
  cases read with
  | absent => exact ⟨none, rfl, h, fun _ => rfl⟩
  | failed error => cases h
  | contents bytes => exact ⟨some bytes, rfl, h, fun _ => rfl⟩

theorem rollbackActive_accept (r : Runner) (generation : Generation) (requested : RuntimeRevision)
    (a : Attempt) : (r.accept generation requested a).rollbackActive = false := by
  unfold Runner.accept Runner.clearRollback
  dsimp only
  split
  · rfl
  · rename_i hactive
    exact Bool.eq_false_of_not_eq_true hactive

theorem noteBuilt_silent (h : spawnedPending turn.actions = none) :
    noteBuilt built a turn = built := by
  unfold noteBuilt
  rw [h]

theorem noteBuilt_rebuilt {detail : String} (h : spawnedPending turn.actions = some (some detail)) :
    noteBuilt built a turn = built := by
  unfold noteBuilt
  rw [h]

theorem noteBuilt_accepted {bytes : Bytes} {found : Option Bytes}
    (h : spawnedPending turn.actions = some none) (hread : a.config = .ok bytes)
    (hfound : a.creds.found = some found) : noteBuilt built a turn = ⟨bytes, found⟩ := by
  unfold noteBuilt
  rw [h, hread, hfound]

/-- What a batch leaves is built from the files that the history tells, and a batch that reloads
read these. -/
theorem builtFrom_ending (hends : Ending loader r a turn) (hbuilt : BuiltFrom loader built r)
    (hknown : Recognised loader built r a) :
    BuiltFrom loader (noteBuilt built a turn) turn.runner ∧
      (turn.outcome = .reloaded → a.config = .ok (noteBuilt built a turn).config ∧
        a.creds.found = some (noteBuilt built a turn).creds ∧
        turn.runner.rollbackActive = false) := by
  have hkept (hnote : noteBuilt built a turn = built)
      (hgeneration : turn.runner.generation.cfg = r.generation.cfg ∧
        turn.runner.generation.creds = r.generation.creds)
      (happlied : turn.runner.appliedRevision = r.appliedRevision) :
      BuiltFrom loader (noteBuilt built a turn) turn.runner := by
    rw [hnote]
    exact ⟨by rw [hgeneration.1]; exact hbuilt.config, by rw [hgeneration.2]; exact hbuilt.creds,
      happlied.trans hbuilt.applied⟩
  cases hends with
  | coalesced hsame => exact ⟨hkept rfl ⟨rfl, rfl⟩ rfl, fun _ => hknown hsame⟩
  | refused _ _ _ => exact ⟨hkept rfl ⟨rfl, rfl⟩ rfl, fun h => by cases h⟩
  | busy _ _ _ => exact ⟨hkept rfl ⟨rfl, rfl⟩ rfl, fun h => by cases h⟩
  | lost _ _ hrunner hquiet =>
    refine ⟨hkept (noteBuilt_silent hquiet.silent) ?_ ?_, fun h => by cases h⟩
    · obtain rfl | rfl := hrunner <;> exact ⟨rfl, rfl⟩
    · obtain rfl | rfl := hrunner <;> rfl
  | rebuilt _ _ _ _ hquiet =>
    exact ⟨hkept (noteBuilt_rebuilt (spawnedPending_quiet hquiet _)) ⟨rfl, rfl⟩ rfl,
      fun h => by cases h⟩
  | @accepted bytes cfg creds woken woke hl _ _ hwoken hwoke =>
    obtain ⟨found, hfound, hcreds, hrevision⟩ := found_of_creds hl.credentials
    have hspawned : spawnedPending (woken ++ [.spawn (r.installed cfg creds)
        (settledSnapshot cfg.ruled a.preliminary a.polls) none] ++ woke) = some none := by
      rw [List.append_assoc, spawnedPending_quiet hwoken]
      rfl
    have hrequested : (loader.loadRuntime a.config a.creds).1 =
        loader.runtimeRevision bytes found := by
      rw [hl.read]
      exact congrArg (RuntimeRevision.mk _) (hrevision bytes).symm
    rw [noteBuilt_accepted hspawned hl.read hfound]
    refine ⟨?_, fun _ => ⟨hl.read, hfound, rollbackActive_accept _ _ _ _⟩⟩
    obtain ⟨follow, pending, active, haccept⟩ := accept_eq (r.fenced cfg).teardown
      (r.installed cfg creds) (loader.loadRuntime a.config a.creds).1 a
    dsimp only
    rw [haccept]
    exact ⟨hl.parsed, hcreds, hrequested⟩

end Files

/-! ## The law -/

/-- Files whose revision looks applied are those that run, and no notice of the loop finds the
channel full. -/
def Plain (loader : Loader) (x : DeskHistory × ReloadDesk) : DeskInput → Prop
  | .ownNotice _ => x.2.idle = false → x.2.hasRoom = true
  | .execute a => x.2.idle = false → x.2.batch.isSome →
      Recognised loader x.1.built x.2.runner a
  | _ => True

/-- What is true of a step: the applied revision is that of the files that run, a receipt is for
one that came before its batch read the files, and a batch that reloads ran what it read and
ended a rollback. -/
structure Truthful (loader : Loader) (x : DeskHistory × ReloadDesk) (input : DeskInput) :
    Prop where
  built : BuiltFrom loader ((deskWatch loader).next x input).1.1.built
    ((deskWatch loader).next x input).1.2.runner
  receipts : ∀ waiter receipt, .receipt waiter receipt ∈ ((deskWatch loader).next x input).2 →
    waiter ∈ x.1.enqueued ∧ ∃ a, input = .execute a ∧ ∃ batch ∈ x.2.batch,
      receipt = (x.2.runner.executeReloadBatch loader a).receipt batch
        (loader.loadRuntime a.config a.creds).1
  reloaded : ∀ a, input = .execute a → x.2.idle = false → x.2.batch.isSome →
    (x.2.runner.executeReloadBatch loader a).outcome = .reloaded →
      a.config = .ok ((deskWatch loader).next x input).1.1.built.config ∧
        a.creds.found = some ((deskWatch loader).next x input).1.1.built.creds ∧
        ((deskWatch loader).next x input).1.2.runner.rollbackActive = false

/-- The rest of a run without further requests: the batch, and then one for each request. -/
def drain (first : Attempt) (rest : List Attempt) : List DeskInput :=
  .execute first :: rest.flatMap fun a => [.take, .execute a]

section Law
variable {loader : Loader} {x : DeskHistory × ReloadDesk}

theorem builtFrom_tick {built : Built} {r : Runner} (h : BuiltFrom loader built r)
    (t : WatchdogTick) : BuiltFrom loader built (r.watchdogTickAt t).1 := by
  obtain ⟨_, _, _, htick⟩ := watchdogTickAt_eq r t
  rw [htick]
  exact ⟨h.config, h.creds, h.applied⟩

theorem runner_take (s : ReloadDesk) : s.take.runner = s.runner := by
  unfold ReloadDesk.take
  split
  · rfl
  · rfl
  · split <;> rfl

theorem runner_ownNotice (s : ReloadDesk) (source : ReloadSource) :
    (s.ownNotice source).1.runner = s.runner := by
  unfold ReloadDesk.ownNotice
  split <;> rfl

theorem execute_some {s : ReloadDesk} {batch : ReloadBatch} (h : s.batch = some batch)
    (a : Attempt) : s.execute loader a =
      ({ s with runner := (s.runner.executeReloadBatch loader a).runner, batch := none },
        batch.waiters.map fun waiter => .receipt waiter
          ((s.runner.executeReloadBatch loader a).receipt batch
            (loader.loadRuntime a.config a.creds).1)) := by
  unfold ReloadDesk.execute
  rw [h]

/-- A step that executes a batch. -/
theorem next_execute (loader : Loader) {batch : ReloadBatch} (hidle : x.2.idle = false)
    (hbatch : x.2.batch = some batch) (a : Attempt) :
    ((deskWatch loader).next x (.execute a)).1.1.built =
        noteBuilt x.1.built a (x.2.runner.executeReloadBatch loader a) ∧
      ((deskWatch loader).next x (.execute a)).1.2.runner =
        (x.2.runner.executeReloadBatch loader a).runner := by
  constructor
  · show (if x.2.idle || x.2.batch.isNone then x.1.built
      else noteBuilt x.1.built a (x.2.runner.executeReloadBatch loader a)) = _
    rw [hidle, hbatch]
    rfl
  · show (if x.2.idle then (x.2, []) else x.2.execute loader a).1.runner = _
    rw [hidle, if_neg (by simp), execute_some hbatch]

theorem built_next (h : BuiltFrom loader x.1.built x.2.runner) {input : DeskInput}
    (hc : Plain loader x input) : BuiltFrom loader ((deskWatch loader).next x input).1.1.built
      ((deskWatch loader).next x input).1.2.runner := by
  cases input with
  | request source waits =>
    show BuiltFrom loader x.1.built
      (if x.2.hasRoom then x.2.enqueue source waits else (x.2, [])).1.runner
    split <;> exact h
  | ownNotice source =>
    show BuiltFrom loader x.1.built (if x.2.idle then (x.2, []) else x.2.ownNotice source).1.runner
    split
    · exact h
    · rw [runner_ownNotice]
      exact h
  | take =>
    show BuiltFrom loader x.1.built (if x.2.idle then (x.2, []) else (x.2.take, [])).1.runner
    split
    · exact h
    · rw [runner_take]
      exact h
  | tick t =>
    show BuiltFrom loader x.1.built (if x.2.idle || x.2.batch.isSome then (x.2, [])
      else ({ x.2 with runner := (x.2.runner.watchdogTickAt t).1 }, [])).1.runner
    split
    · exact h
    · exact builtFrom_tick h t
  | shutdown => exact ⟨h.config, h.creds, h.applied⟩
  | execute a =>
    cases hidle : x.2.idle with
    | true =>
      show BuiltFrom loader (if x.2.idle || x.2.batch.isNone then x.1.built else _)
        (if x.2.idle then (x.2, []) else x.2.execute loader a).1.runner
      rw [hidle]
      exact h
    | false =>
      cases hbatch : x.2.batch with
      | none =>
        show BuiltFrom loader (if x.2.idle || x.2.batch.isNone then x.1.built else _)
          (if x.2.idle then (x.2, []) else x.2.execute loader a).1.runner
        unfold ReloadDesk.execute
        rw [hidle, hbatch]
        exact h
      | some batch =>
        obtain ⟨hnote, hrunner⟩ := next_execute loader hidle hbatch a
        rw [hnote, hrunner]
        exact (builtFrom_ending (executeReloadBatch_ends loader x.2.runner a) h
          (hc hidle (by rw [hbatch]; rfl))).1

theorem truthful_next (h : BuiltFrom loader x.1.built x.2.runner) (haccounts : Accounted x)
    {input : DeskInput} (hc : Plain loader x input) : Truthful loader x input := by
  refine ⟨built_next h hc, fun waiter receipt hreceipt => ?_, ?_⟩
  · obtain ⟨a, batch, hinput, hbatch, hwaiter, hreceipt⟩ := receipt_of_execute hreceipt
    exact ⟨answered_came haccounts hbatch hwaiter, a, hinput, batch, hbatch, hreceipt⟩
  · rintro a rfl hidle hsome hreloaded
    obtain ⟨batch, hbatch⟩ := Option.isSome_iff_exists.mp hsome
    obtain ⟨hnote, hrunner⟩ := next_execute loader hidle hbatch a
    rw [hnote, hrunner]
    exact (builtFrom_ending (executeReloadBatch_ends loader x.2.runner a) h
      (hc hidle hsome)).2 hreloaded

/-! ## The last receipts -/

/-- The loop is over, or it collects no batch and finds at most so many requests. -/
def Left (n : ℕ) (s : ReloadDesk) : Prop :=
  s.runner.cancelled = true ∨ s.parked = false ∧ s.batch = none ∧ s.channel.length ≤ n

theorem next_over (loader : Loader) {s : ReloadDesk} (h : s.runner.cancelled = true)
    (a : Attempt) : ((reloadDesk loader).next s .take).1 = s ∧
      ((reloadDesk loader).next s (.execute a)).1 = s := by
  have hidle : s.idle = true := by
    unfold ReloadDesk.idle
    rw [h, Bool.or_true]
  constructor
  · show (if s.idle then (s, []) else (s.take, [])).1 = s
    rw [hidle, if_pos rfl]
  · show (if s.idle then (s, []) else s.execute loader a).1 = s
    rw [hidle, if_pos rfl]

theorem left_execute (loader : Loader) {s : ReloadDesk} {n : ℕ} (hparked : s.parked = false)
    (hchannel : s.channel.length ≤ n) (a : Attempt) :
    Left n ((reloadDesk loader).next s (.execute a)).1 := by
  cases hcancelled : s.runner.cancelled with
  | true =>
    rw [(next_over loader hcancelled a).2]
    exact .inl hcancelled
  | false =>
    have hidle : s.idle = false := by
      unfold ReloadDesk.idle
      rw [hparked, hcancelled]
      rfl
    show Left n (if s.idle then (s, []) else s.execute loader a).1
    rw [hidle, if_neg (by simp)]
    cases hbatch : s.batch with
    | none =>
      unfold ReloadDesk.execute
      rw [hbatch]
      exact .inr ⟨hparked, hbatch, hchannel⟩
    | some batch =>
      rw [execute_some hbatch]
      exact .inr ⟨hparked, rfl, hchannel⟩

/-- The next request is taken and its batch executed. -/
theorem left_round (loader : Loader) {s : ReloadDesk} {n : ℕ} (h : Left (n + 1) s) (a : Attempt) :
    Left n ((reloadDesk loader).run s [.take, .execute a]) := by
  have hround : (reloadDesk loader).run s [.take, .execute a] =
      ((reloadDesk loader).next ((reloadDesk loader).next s .take).1 (.execute a)).1 := rfl
  rw [hround]
  cases hcancelled : s.runner.cancelled with
  | true =>
    rw [(next_over loader hcancelled a).1, (next_over loader hcancelled a).2]
    exact .inl hcancelled
  | false =>
    obtain hover | ⟨hparked, hbatch, hchannel⟩ := h
    · rw [hcancelled] at hover
      cases hover
    · have htake : ((reloadDesk loader).next s .take).1 = s.take := by
        have hidle : s.idle = false := by
          unfold ReloadDesk.idle
          rw [hparked, hcancelled]
          rfl
        show (if s.idle then (s, []) else (s.take, [])).1 = s.take
        rw [hidle, if_neg (by simp)]
      rw [htake]
      have htaken : s.take.parked = false ∧ s.take.channel.length ≤ n := by
        unfold ReloadDesk.take
        rw [hbatch]
        cases hlist : s.channel with
        | nil => exact ⟨hparked, by rw [hlist]; exact Nat.zero_le n⟩
        | cons request channel =>
          rw [hlist, List.length_cons] at hchannel
          exact ⟨hparked, Nat.le_of_succ_le_succ hchannel⟩
      exact left_execute loader htaken.1 htaken.2 a

theorem left_rounds (loader : Loader) {s : ReloadDesk} (rest : List Attempt)
    (h : Left rest.length s) :
    Left 0 ((reloadDesk loader).run s (rest.flatMap fun a => [.take, .execute a])) := by
  induction rest generalizing s with
  | nil => exact h
  | cons a rest ih =>
    rw [List.flatMap_cons, Runs.System.run_append]
    exact ih (left_round loader h a)

theorem run_deskWatch (inputs : List DeskInput) :
    ((deskWatch loader).run x inputs).2 = (reloadDesk loader).run x.2 inputs := by
  induction inputs generalizing x with
  | nil => rfl
  | cons input inputs ih => exact ih

/-- When the requests stop, everyone is answered in the end, or the loop is over. -/
theorem answered_drain (haccounts : Accounted x) (hparked : x.2.parked = false)
    (first : Attempt) {rest : List Attempt} (hrest : x.2.channel.length ≤ rest.length) :
    ((deskWatch loader).run x (drain first rest)).2.runner.cancelled = true ∨
      ((deskWatch loader).run x (drain first rest)).1.answered =
        ((deskWatch loader).run x (drain first rest)).1.enqueued := by
  have hleft : Left 0 ((reloadDesk loader).run x.2 (drain first rest)) :=
    left_rounds loader rest (left_execute loader hparked hrest first)
  have hstep : ∀ (x : DeskHistory × ReloadDesk) (input : DeskInput), Accounted x →
      Accounted ((deskWatch loader).next x input).1 := fun _ input h => accounted_next h input
  have hend : Accounted ((deskWatch loader).run x (drain first rest)) :=
    Runs.System.invariant hstep haccounts _
  rw [← run_deskWatch] at hleft
  generalize (deskWatch loader).run x (drain first rest) = y at hleft hend
  obtain hover | ⟨-, hbatch, hchannel⟩ := hleft
  · exact .inl hover
  · right
    have hpending : y.2.pending = [] := by
      unfold ReloadDesk.pending
      rw [hbatch, List.length_eq_zero_iff.mp (Nat.le_zero.mp hchannel)]
      rfl
    rw [← hend.1, hpending, List.append_nil]

theorem parked_next (h : x.2.parked = false) {input : DeskInput} (hc : Plain loader x input) :
    ((deskWatch loader).next x input).1.2.parked = false := by
  show ((reloadDesk loader).next x.2 input).1.parked = false
  unfold reloadDesk
  cases input with
  | request source waits =>
    dsimp only
    split <;> exact h
  | ownNotice source =>
    dsimp only
    split
    · exact h
    · rename_i hidle
      have hroom := hc (Bool.eq_false_of_not_eq_true hidle)
      unfold ReloadDesk.ownNotice
      rw [if_pos hroom]
      exact h
  | take =>
    dsimp only
    split
    · exact h
    · unfold ReloadDesk.take
      split
      · exact h
      · exact h
      · split <;> exact h
  | execute a =>
    dsimp only
    split
    · exact h
    · unfold ReloadDesk.execute
      split <;> exact h
  | tick t =>
    dsimp only
    split <;> exact h
  | shutdown => exact h

/-- What holds along a run that meets the condition. -/
structure Settled (loader : Loader) (x : DeskHistory × ReloadDesk) : Prop where
  built : BuiltFrom loader x.1.built x.2.runner
  accounts : Accounted x
  free : x.2.parked = false

theorem settled_next (h : Settled loader x) {input : DeskInput} (hc : Plain loader x input) :
    Settled loader ((deskWatch loader).next x input).1 :=
  ⟨built_next h.built hc, accounted_next h.accounts input, parked_next h.free hc⟩

theorem settled_boot {b : BootReads} {r : Runner} (hboot : bootRunner loader b = some r)
    (hreads : b.revisionConfig = b.config ∧ b.revisionCreds = b.creds) :
    Settled loader (b.history, firstDesk r) := by
  refine ⟨?_, ⟨rfl, rfl⟩, rfl⟩
  unfold bootRunner at hboot
  split at hboot
  · rename_i cfg creds hcfg hcreds
    obtain rfl := Option.some.inj hboot
    have hfields : (firstRunner loader b cfg creds).generation.cfg = cfg ∧
        (firstRunner loader b cfg creds).generation.creds = creds ∧
        (firstRunner loader b cfg creds).appliedRevision =
          loader.runtimeRevision b.revisionConfig b.revisionCreds := by
      unfold firstRunner Runner.spawnActivityFollow
      dsimp only
      split <;> exact ⟨rfl, rfl, rfl⟩
    refine ⟨?_, ?_, ?_⟩
    · exact hcfg.trans (congrArg Except.ok hfields.1.symm)
    · exact hcreds.trans (congrArg Except.ok hfields.2.1.symm)
    · have happlied := hfields.2.2
      rw [hreads.1, hreads.2] at happlied
      exact happlied
  · cases hboot

end Law

/-- The file of the byte one is the only one that parses, and empty credentials do. -/
def strictLoader : Loader where
  sha256 bytes := bytes.foldl (fun n byte => 256 * n + byte.toNat) 1
  loadConfig bytes := if bytes = [1] then .ok bareConfig else .error "TOML syntax error"
  loadCredentials bytes := if bytes = [] then .ok .default else .error "credentials TOML error"

/-- A boot with an empty credentials file. -/
def emptyCredsBoot : BootReads where
  validated := [1]
  config := [1]
  creds := some []
  revisionConfig := [1]
  revisionCreds := some []
  armRead := none
  rollback := false
  now := 0

/-- The mode of the credentials file was changed. -/
def lockedAttempt : Attempt :=
  { calmAttempt [1] none 10 with
    creds := .failed "credentials permissions are not 0600: 'credentials.toml'" }

end Dormant.Reload
