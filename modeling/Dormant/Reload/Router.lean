import Dormant.Operations.Leases
import Dormant.Reload.Runner

/-!
# The front door's routers

`GenerationRouter` of `app.rs` with its queue, and `stamp_control_operation`. The lease of a stamped
operation is forgotten, so only its entry in the registry is left, and a token is named after its
operation. The sends of an install are those that the new engine took before it closed.
-/

namespace Dormant.Reload
set_option autoImplicit false

structure GenerationRouter (T : Type) where
  paused : Bool
  target : Option Engine
  queued : List T
  generationId : Option GenerationId

def GenerationRouter.pause {T : Type} (router : GenerationRouter T) : GenerationRouter T :=
  { router with paused := true, target := none }

/-- The operation that a message asks for. -/
def operationKind : ControlMsg → Option OperationKind
  | .exercise display => some (.exercise display)
  | .emergencyWake => some .emergencyWake
  | _ => none

def acceptedMsg (operation : AcceptedOperation) : ControlMsg → ControlMsg
  | .exercise _ => .exerciseAccepted operation
  | .emergencyWake => .emergencyWakeAccepted operation
  | other => other

def stampControlOperation (message : ControlMsg) (registry : OperationState)
    (generation : GenerationId) : OperationState × ControlMsg :=
  match operationKind message with
  | none => (registry, message)
  | some kind =>
    match registry.tryAcquire generation kind registry.nextId.toNat with
    | (registry', .ok (operation, _)) => (registry', acceptedMsg operation message)
    | (_, .error _) => (registry, message)

/-- The queue of an install: what was sent, and what is left when a send fails, with the message
that failed at its head. -/
def releaseQueued (generation : GenerationId) :
    OperationState → ℕ → List ControlMsg → OperationState × List ControlMsg × List ControlMsg
  | registry, _, [] => (registry, [], [])
  | registry, 0, message :: queued =>
    let stamped := stampControlOperation message registry generation
    (stamped.1, [], stamped.2 :: queued)
  | registry, sends + 1, message :: queued =>
    let stamped := stampControlOperation message registry generation
    let rest := releaseQueued generation stamped.1 sends queued
    (rest.1, stamped.2 :: rest.2.1, rest.2.2)

/-- `install_generation` of the control router, with what was sent. -/
def GenerationRouter.installGeneration (router : GenerationRouter ControlMsg) (target : Engine)
    (generation : GenerationId) (registry : OperationState) (sends : ℕ) :
    GenerationRouter ControlMsg × OperationState × List ControlMsg :=
  let released := releaseQueued generation registry sends router.queued
  if released.2.2.isEmpty then
    ({ paused := false, target := some target, queued := [], generationId := some generation },
      released.1, released.2.1)
  else
    ({ router with target := none, queued := released.2.2, generationId := some generation },
      released.1, released.2.1)

/-- `route_control` up to its send: what is sent, and where. -/
def GenerationRouter.routeControl (router : GenerationRouter ControlMsg) (message : ControlMsg)
    (registry : OperationState) :
    GenerationRouter ControlMsg × OperationState × Option (Engine × ControlMsg) :=
  if router.paused then ({ router with queued := router.queued ++ [message] }, registry, none)
  else
    let stamped := match router.generationId with
      | some generation => stampControlOperation message registry generation
      | none => (registry, message)
    (router, stamped.1, router.target.map fun target => (target, stamped.2))

section Stamps
variable (message : ControlMsg) (registry : OperationState) (generation : GenerationId)

theorem tryAcquire_ok {registry registry' : OperationState} {generation : GenerationId}
    {kind : OperationKind} {token : ℕ} {operation : AcceptedOperation} {lease : OperationLease}
    (h : registry.tryAcquire generation kind token = (registry', .ok (operation, lease))) :
    operation = ⟨registry.nextId, generation, kind⟩ ∧ lease = ⟨registry.nextId, token⟩ ∧
      registry'.active =
        registry.active.insert registry.nextId ⟨generation, kind, token⟩ := by
  cases tryAcquire_cases registry generation kind token with
  | inl herror =>
    rw [herror] at h
    cases h
  | inr hok =>
    rw [hok] at h
    cases h
    exact ⟨rfl, rfl, rfl⟩

theorem quiescing_tryAcquire (kind : OperationKind) (token : ℕ) :
    (registry.tryAcquire generation kind token).1.quiescing = registry.quiescing := by
  cases tryAcquire_cases registry generation kind token with
  | inl herror => rw [herror]
  | inr hok => rw [hok]

theorem quiescing_stamp :
    (stampControlOperation message registry generation).1.quiescing = registry.quiescing := by
  unfold stampControlOperation
  split
  · rfl
  · rename_i kind _
    have h := quiescing_tryAcquire registry generation kind registry.nextId.toNat
    split
    · rename_i hacquire
      rw [hacquire] at h
      exact h
    · rfl

theorem quiescing_release (sends : ℕ) (queued : List ControlMsg) :
    (releaseQueued generation registry sends queued).1.quiescing = registry.quiescing := by
  induction queued generalizing registry sends with
  | nil => cases sends <;> rfl
  | cons message queued ih =>
    cases sends with
    | zero => exact quiescing_stamp message registry generation
    | succ sends => exact (ih _ sends).trans (quiescing_stamp message registry generation)

/-- The whole queue is sent when the engine takes that many. -/
theorem release_left (sends : ℕ) (queued : List ControlMsg) :
    (releaseQueued generation registry sends queued).2.2 = [] ↔ queued.length ≤ sends := by
  induction queued generalizing registry sends with
  | nil => cases sends <;> simp [releaseQueued]
  | cons message queued ih =>
    cases sends with
    | zero => simp [releaseQueued]
    | succ sends =>
      rw [List.length_cons, Nat.add_le_add_iff_right]
      exact ih _ sends

/-- An operation that conflicts with nothing is accepted, where its generation takes any. -/
theorem stamp_accepts {kind : OperationKind} (hkind : operationKind message = some kind)
    (hopen : generation ∉ registry.quiescing)
    (hfree : (registry.values.any fun active =>
      decide (active.generation = generation) && kind.conflicts active.kind) = false) :
    ∃ operation, operation.generation = generation ∧ operation.kind = kind ∧
      (stampControlOperation message registry generation).2 = acceptedMsg operation message ∧
      (stampControlOperation message registry generation).1.generationEmpty generation = false := by
  have hacquire : registry.tryAcquire generation kind registry.nextId.toNat =
      ({ registry with
          nextId := registry.nextId + 1
          active := registry.active.insert registry.nextId
            { generation := generation, kind := kind, token := registry.nextId.toNat } },
        .ok (⟨registry.nextId, generation, kind⟩, ⟨registry.nextId, registry.nextId.toNat⟩)) := by
    unfold OperationState.tryAcquire
    rw [if_neg hopen]
    dsimp only
    rw [hfree]
    rfl
  refine ⟨⟨registry.nextId, generation, kind⟩, rfl, rfl, ?_, ?_⟩
  · unfold stampControlOperation
    rw [hkind]
    simp only [hacquire]
  · unfold stampControlOperation
    rw [hkind]
    simp only [hacquire]
    unfold OperationState.generationEmpty OperationState.values
    simp [AList.insert]

end Stamps

end Dormant.Reload
