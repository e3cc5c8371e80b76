import Dormant.Rules.Types
import Dormant.Foundations.Runs
import Mathlib.Data.Finset.Basic
import Mathlib.Data.List.AList

/-!
# The operation registry

The leases of `rules.rs`: one table of active operations, shared by the front door, the engines
of all generations and the reload coordinator, each of which calls it in any order. A table
entry is taken out when a lease is dropped. A token is a number that is given out once, and it
is cancelled when it is in the set `cancelled`.
-/

namespace Dormant
set_option autoImplicit false

structure ActiveOperation where
  generation : GenerationId
  kind : OperationKind
  token : ℕ
  deriving DecidableEq

structure OperationState where
  nextId : UInt64
  active : AList fun _ : UInt64 => ActiveOperation
  quiescing : Finset GenerationId

def OperationState.default : OperationState := { nextId := 0, active := ∅, quiescing := ∅ }

/-- Two leases of one operation are alike. -/
structure OperationLease where
  id : UInt64
  token : ℕ
  deriving DecidableEq

def OperationKind.conflicts : OperationKind → OperationKind → Bool
  | .exercise left, .exercise right => decide (left = right)
  | .emergencyWake, .emergencyWake => true
  | .exercise _, .emergencyWake => true
  | .emergencyWake, .exercise _ => true

namespace OperationState

def values (s : OperationState) : List ActiveOperation := s.active.entries.map (·.2)

def beginQuiesce (s : OperationState) (generation : GenerationId) : OperationState :=
  { s with quiescing := insert generation s.quiescing }

def endQuiesce (s : OperationState) (generation : GenerationId) : OperationState :=
  { s with quiescing := s.quiescing.erase generation }

def leaseAccepted (s : OperationState) (operation : AcceptedOperation) : Option OperationLease :=
  match s.active.lookup operation.id with
  | none => none
  | some active =>
    if operation.generation ≠ active.generation ∨ active.kind ≠ operation.kind then none
    else some { id := operation.id, token := active.token }

/-- The token is a fresh one. -/
def tryAcquire (s : OperationState) (generation : GenerationId) (kind : OperationKind)
    (token : ℕ) : OperationState × Except OperationKind (AcceptedOperation × OperationLease) :=
  if generation ∈ s.quiescing then (s, .error kind)
  else
    let conflicts := s.values.any fun active =>
      decide (active.generation = generation) && kind.conflicts active.kind
    if conflicts then (s, .error kind)
    else
      let id := s.nextId
      ({ s with
          nextId := s.nextId + 1
          active := s.active.insert id { generation := generation, kind := kind, token := token } },
        .ok ({ id := id, generation := generation, kind := kind }, { id := id, token := token }))

def cancelGeneration (s : OperationState) (generation : GenerationId) (cancelled : Finset ℕ) :
    Finset ℕ :=
  s.values.foldl
    (fun cancelled active =>
      if active.generation = generation then insert active.token cancelled else cancelled)
    cancelled

/-- What `wait_generation_empty` looks for. -/
def generationEmpty (s : OperationState) (generation : GenerationId) : Bool :=
  !s.values.any fun active => decide (active.generation = generation)

/-- The part of a lease's drop under the lock. -/
def remove (s : OperationState) (lease : OperationLease) : OperationState :=
  { s with active := s.active.erase lease.id }

end OperationState

/-! ## The calls -/

/-- A call of `wait_generation_empty`, which looks, parks if it has to, and looks again when it
was notified. `notified` is the state of the future that it made before it looked. -/
structure Waiter where
  generation : GenerationId
  parked : Bool
  notified : Bool
  deriving DecidableEq

/-- The registry with the leases that are alive, the drops that have yet to notify, and the
waiters. -/
structure OperationRegistry where
  state : OperationState
  leases : List OperationLease
  dropping : ℕ
  waiters : List Waiter
  cancelled : Finset ℕ
  nextToken : ℕ

def OperationRegistry.default : OperationRegistry where
  state := .default
  leases := []
  dropping := 0
  waiters := []
  cancelled := ∅
  nextToken := 0

/-- What one party does at a time. The two halves of a drop are two calls, as are the steps of
a waiter. -/
inductive RegistryCall where
  | tryAcquire (generation : GenerationId) (kind : OperationKind)
  | leaseAccepted (operation : AcceptedOperation)
  | drop (lease : OperationLease)
  | notifyWaiters
  | beginQuiesce (generation : GenerationId)
  | endQuiesce (generation : GenerationId)
  | cancelGeneration (generation : GenerationId)
  | waitGenerationEmpty (generation : GenerationId)
  | look (waiter : ℕ)
  | wakeUp (waiter : ℕ)
  deriving DecidableEq

inductive RegistryReply where
  | acquired (operation : AcceptedOperation) (lease : OperationLease)
  | refused (kind : OperationKind)
  | adopted (lease : OperationLease)
  | unknown
  | returned (generation : GenerationId)
  deriving DecidableEq

namespace OperationRegistry

def tryAcquire (r : OperationRegistry) (generation : GenerationId) (kind : OperationKind) :
    OperationRegistry × List RegistryReply :=
  match r.state.tryAcquire generation kind r.nextToken with
  | (state, .ok (operation, lease)) =>
    ({ r with state := state, leases := lease :: r.leases, nextToken := r.nextToken + 1 },
      [.acquired operation lease])
  | (state, .error kind) => ({ r with state := state }, [.refused kind])

def leaseAccepted (r : OperationRegistry) (operation : AcceptedOperation) :
    OperationRegistry × List RegistryReply :=
  match r.state.leaseAccepted operation with
  | some lease => ({ r with leases := lease :: r.leases }, [.adopted lease])
  | none => (r, [.unknown])

/-- A lease that is not alive cannot be dropped. -/
def drop (r : OperationRegistry) (lease : OperationLease) : OperationRegistry :=
  if lease ∈ r.leases then
    { r with state := r.state.remove lease, leases := r.leases.erase lease,
             dropping := r.dropping + 1 }
  else r

def notifyWaiters (r : OperationRegistry) : OperationRegistry :=
  if 0 < r.dropping then
    { r with dropping := r.dropping - 1,
             waiters := r.waiters.map fun w => { w with notified := true } }
  else r

def look (r : OperationRegistry) (waiter : ℕ) : OperationRegistry × List RegistryReply :=
  match r.waiters[waiter]? with
  | some ⟨generation, false, notified⟩ =>
    if r.state.generationEmpty generation then
      ({ r with waiters := r.waiters.eraseIdx waiter }, [.returned generation])
    else ({ r with waiters := r.waiters.set waiter ⟨generation, true, notified⟩ }, [])
  | _ => (r, [])

def wakeUp (r : OperationRegistry) (waiter : ℕ) : OperationRegistry :=
  match r.waiters[waiter]? with
  | some ⟨generation, true, true⟩ =>
    { r with waiters := r.waiters.set waiter ⟨generation, false, false⟩ }
  | _ => r

def call (r : OperationRegistry) : RegistryCall → OperationRegistry × List RegistryReply
  | .tryAcquire generation kind => r.tryAcquire generation kind
  | .leaseAccepted operation => r.leaseAccepted operation
  | .drop lease => (r.drop lease, [])
  | .notifyWaiters => (r.notifyWaiters, [])
  | .beginQuiesce generation => ({ r with state := r.state.beginQuiesce generation }, [])
  | .endQuiesce generation => ({ r with state := r.state.endQuiesce generation }, [])
  | .cancelGeneration generation =>
    ({ r with cancelled := r.state.cancelGeneration generation r.cancelled }, [])
  | .waitGenerationEmpty generation =>
    ({ r with waiters := ⟨generation, false, false⟩ :: r.waiters }, [])
  | .look waiter => r.look waiter
  | .wakeUp waiter => (r.wakeUp waiter, [])

end OperationRegistry

def registry : Runs.System OperationRegistry RegistryCall RegistryReply where
  next := OperationRegistry.call

/-! ## What the table says -/

namespace OperationState
variable {s : OperationState} {generation : GenerationId} {kind : OperationKind}

theorem mem_values {active : ActiveOperation} :
    active ∈ s.values ↔ ∃ id, s.active.lookup id = some active := by
  unfold values
  rw [List.mem_map]
  constructor
  · rintro ⟨⟨id, active⟩, hmem, rfl⟩
    exact ⟨id, AList.mem_lookup_iff.mpr hmem⟩
  · rintro ⟨id, hlookup⟩
    exact ⟨⟨id, active⟩, AList.mem_lookup_iff.mp hlookup, rfl⟩

theorem generationEmpty_iff : s.generationEmpty generation = true ↔
    ∀ id active, s.active.lookup id = some active → active.generation ≠ generation := by
  unfold generationEmpty
  rw [Bool.not_eq_true', ← Bool.not_eq_true, List.any_eq_true]
  push Not
  constructor
  · intro h id active hlookup
    simpa using h active (mem_values.mpr ⟨id, hlookup⟩)
  · intro h active hmem
    obtain ⟨id, hlookup⟩ := mem_values.mp hmem
    simpa using h id active hlookup

theorem mem_cancelGeneration {cancelled : Finset ℕ} {token : ℕ} :
    token ∈ s.cancelGeneration generation cancelled ↔ token ∈ cancelled ∨
      ∃ id active, s.active.lookup id = some active ∧ active.generation = generation ∧
        active.token = token := by
  have hloop (values : List ActiveOperation) (cancelled : Finset ℕ) :
      token ∈ values.foldl
        (fun cancelled active =>
          if active.generation = generation then insert active.token cancelled else cancelled)
        cancelled ↔ token ∈ cancelled ∨
          ∃ active ∈ values, active.generation = generation ∧ active.token = token := by
    induction values generalizing cancelled with
    | nil => simp
    | cons active values ih =>
      rw [List.foldl_cons, ih]
      by_cases hg : active.generation = generation
      · simp only [hg, if_true, Finset.mem_insert, List.exists_mem_cons_iff, true_and]
        rw [eq_comm (a := token), or_assoc, or_left_comm]
      · simp [hg]
  unfold cancelGeneration
  rw [hloop]
  apply or_congr_right
  constructor
  · rintro ⟨active, hmem, hactive⟩
    obtain ⟨id, hlookup⟩ := mem_values.mp hmem
    exact ⟨id, active, hlookup, hactive⟩
  · rintro ⟨id, active, hlookup, hactive⟩
    exact ⟨active, mem_values.mpr ⟨id, hlookup⟩, hactive⟩

/-- An operation is acquired when its generation is not quiesced and has no entry in the table
that it conflicts with. -/
theorem tryAcquire_ok {token : ℕ} (hquiescing : generation ∉ s.quiescing)
    (hfree : ∀ id active, s.active.lookup id = some active → active.generation = generation →
      kind.conflicts active.kind = false) :
    s.tryAcquire generation kind token =
      ({ s with
          nextId := s.nextId + 1
          active := s.active.insert s.nextId
            { generation := generation, kind := kind, token := token } },
        .ok ({ id := s.nextId, generation := generation, kind := kind },
          { id := s.nextId, token := token })) := by
  unfold tryAcquire
  rw [if_neg hquiescing]
  dsimp only
  rw [if_neg]
  rw [List.any_eq_true]
  rintro ⟨active, hmem, hconflict⟩
  obtain ⟨id, hlookup⟩ := mem_values.mp hmem
  rw [Bool.and_eq_true, decide_eq_true_eq] at hconflict
  rw [hfree id active hlookup hconflict.1] at hconflict
  cases hconflict.2

theorem tryAcquire_refused {token : ℕ} (h : generation ∈ s.quiescing ∨
    ∃ id active, s.active.lookup id = some active ∧ active.generation = generation ∧
      kind.conflicts active.kind = true) :
    s.tryAcquire generation kind token = (s, .error kind) := by
  unfold tryAcquire
  split
  · rfl
  · rename_i hquiescing
    obtain ⟨id, active, hlookup, hg, hconflict⟩ := h.resolve_left hquiescing
    dsimp only
    rw [if_pos]
    rw [List.any_eq_true]
    exact ⟨active, mem_values.mpr ⟨id, hlookup⟩, by simp [hg, hconflict]⟩

theorem leaseAccepted_eq_some {operation : AcceptedOperation} {lease : OperationLease} :
    s.leaseAccepted operation = some lease ↔
      s.active.lookup operation.id =
        some { generation := operation.generation, kind := operation.kind, token := lease.token } ∧
        lease.id = operation.id := by
  unfold leaseAccepted
  cases hlookup : s.active.lookup operation.id with
  | none => simp
  | some active =>
    obtain ⟨generation, kind, token⟩ := active
    obtain ⟨id, token'⟩ := lease
    dsimp only
    split
    · rename_i hne
      simp only [reduceCtorEq, Option.some.injEq, ActiveOperation.mk.injEq, false_iff]
      rintro ⟨⟨hg, hk, -⟩, -⟩
      rcases hne with hne | hne
      · exact hne hg.symm
      · exact hne hk
    · rename_i heq
      push Not at heq
      obtain ⟨hg, hk⟩ := heq
      simp only [Option.some.injEq, OperationLease.mk.injEq, ActiveOperation.mk.injEq, hg, hk,
        true_and]
      rw [and_comm, eq_comm (a := operation.id)]

end OperationState
end Dormant
