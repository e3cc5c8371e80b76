import Dormant.Reload.Router

/-!
# A lane of the front door

A forwarder, its `GenerationRouter` and the channel of the engine behind it, with the pauses,
barriers, teardowns and installs of the runner. Every await is a step of its own. `route` awaits its
send under the router's lock and `route_control` after it; an install holds the lock to its end.
What others send to an engine is left out: it only delays a send.
-/

namespace Dormant.Reload
set_option autoImplicit false

/-- The registry, with the leases that tasks of engines hold. -/
structure OperationDesk where
  registry : OperationState
  running : List OperationLease

namespace OperationDesk
variable (desk : OperationDesk)

def acquire (generation : GenerationId) (kind : OperationKind) : OperationDesk :=
  match desk.registry.tryAcquire generation kind desk.registry.nextId.toNat with
  | (registry, .ok (_, lease)) => ⟨registry, desk.running ++ [lease]⟩
  | (registry, .error _) => ⟨registry, desk.running⟩

def adopt (operation : AcceptedOperation) : Option OperationDesk :=
  (desk.registry.leaseAccepted operation).map fun lease =>
    { desk with running := desk.running ++ [lease] }

/-- The task of an operation ends. -/
def finish (task : ℕ) : OperationDesk :=
  match desk.running[task]? with
  | some lease => ⟨desk.registry.remove lease, desk.running.eraseIdx task⟩
  | none => desk

/-- What `handle_control` of an engine does with operations. -/
def receive (engine : Engine) : ControlMsg → OperationDesk
  | .exercise display => desk.acquire engine.generation (.exercise display)
  | .exerciseAccepted operation =>
    match operation.kind with
    | .exercise display =>
      (desk.adopt operation).getD (desk.acquire engine.generation (.exercise display))
    | .emergencyWake => desk
  | .emergencyWakeAccepted operation => (desk.adopt operation).getD desk
  | _ => desk

end OperationDesk

/-- The messages of a lane. -/
structure Lane (T : Type) where
  /-- Whether a send is awaited under the router's lock. -/
  locked : Bool
  capacity : ℕ
  positive : 0 < capacity
  stamp : T → OperationState → Option GenerationId → OperationState × T
  receive : OperationDesk → Engine → T → OperationDesk

inductive LaneStage where
  | running
  | paused
  | acknowledged
  | stopped
  | installing
  | stranded
  deriving DecidableEq, Repr

/-- `received` and `offered` are the history. -/
structure LaneState (T : Type) where
  router : GenerationRouter T
  /-- The send that the forwarder awaits. -/
  hand : Option (Engine × T)
  /-- The send that an install awaits. -/
  carried : Option T
  inbox : List T
  engine : Engine
  alive : Bool
  stage : LaneStage
  forwarding : Bool
  desk : OperationDesk
  received : List (Engine × T)
  offered : List T

inductive LaneInput (T : Type) where
  | offer (message : T)
  | send
  | cancel
  | pause
  | reopen (id : Option GenerationId)
  | acknowledge
  | teardown
  | install (generation : GenerationId) (id : Option GenerationId)
  | release
  | read
  | die
  | finish (task : ℕ)
  | beginQuiesce (generation : GenerationId)
  | endQuiesce (generation : GenerationId)

namespace Lane
variable {T : Type} (lane : Lane T) (s : LaneState T)

def offer (message : T) : LaneState T :=
  if s.forwarding ∧ s.hand.isNone ∧ s.stage ≠ .installing then
    let offered := s.offered ++ [message]
    if s.router.paused then
      { s with router := { s.router with queued := s.router.queued ++ [message] }
               offered := offered }
    else
      let stamped := lane.stamp message s.desk.registry s.router.generationId
      let desk := { s.desk with registry := stamped.1 }
      match s.router.target with
      | some target => { s with hand := some (target, stamped.2), desk := desk, offered := offered }
      | none => { s with forwarding := false, desk := desk, offered := offered }
  else s

def send : LaneState T :=
  match s.hand with
  | some (target, message) =>
    if target = s.engine ∧ s.alive then
      if s.inbox.length < lane.capacity then
        { s with hand := none, inbox := s.inbox ++ [message] }
      else s
    else { s with hand := none, forwarding := false }
  | none => s

/-- The lock is free for the runner. -/
def Free : Prop := ¬ (lane.locked = true ∧ s.hand.isSome = true)

instance : Decidable (lane.Free s) := inferInstanceAs (Decidable (¬ _))

def pause : LaneState T :=
  if s.stage = .running ∧ lane.Free s then { s with router := s.router.pause, stage := .paused }
  else s

def reopen (id : Option GenerationId) : LaneState T :=
  if s.stage = .paused ∧ lane.Free s then
    { s with router := { s.router with target := some s.engine, generationId := id }
             stage := .installing }
  else s

/-- `drain_generation_inputs`, and the acknowledgement. -/
def acknowledge : LaneState T :=
  if s.stage = .paused ∧ s.alive then
    { s with
      received := s.received ++ s.inbox.map fun message => (s.engine, message)
      desk := s.inbox.foldl (fun desk message => lane.receive desk s.engine message) s.desk
      inbox := []
      stage := .acknowledged }
  else s

def install (generation : GenerationId) (id : Option GenerationId) : LaneState T :=
  if s.stage = .stopped then
    let engine : Engine := ⟨s.engine.serial + 1, generation⟩
    { s with
      router := { s.router with target := some engine, generationId := id }
      engine := engine
      inbox := []
      alive := true
      stage := .installing }
  else s

/-- The loop of an install up to its next await. -/
def release : LaneState T :=
  if s.stage = .installing then
    match s.carried, s.router.queued with
    | some message, _ =>
      if s.alive then
        if s.inbox.length < lane.capacity then
          { s with carried := none, inbox := s.inbox ++ [message] }
        else s
      else
        { s with
          router := { s.router with queued := message :: s.router.queued, target := none }
          carried := none
          stage := .stranded }
    | none, message :: queued =>
      let stamped := lane.stamp message s.desk.registry s.router.generationId
      { s with
        router := { s.router with queued := queued }
        carried := some stamped.2
        desk := { s.desk with registry := stamped.1 } }
    | none, [] => { s with router := { s.router with paused := false }, stage := .running }
  else s

def read : LaneState T :=
  match s.inbox with
  | message :: inbox =>
    { s with
      inbox := inbox
      received := s.received ++ [(s.engine, message)]
      desk := lane.receive s.desk s.engine message }
  | [] => s

/-- What is in the channel of an engine is dropped with it. -/
def next : LaneInput T → LaneState T
  | .offer message => lane.offer s message
  | .send => lane.send s
  | .cancel => { s with hand := none, forwarding := false }
  | .pause => lane.pause s
  | .reopen id => lane.reopen s id
  | .acknowledge => lane.acknowledge s
  | .teardown =>
    if s.stage = .acknowledged then { s with alive := false, inbox := [], stage := .stopped } else s
  | .install generation id => install s generation id
  | .release => lane.release s
  | .read => lane.read s
  | .die => { s with alive := false, inbox := [] }
  | .finish task => { s with desk := s.desk.finish task }
  | .beginQuiesce generation =>
    { s with desk := { s.desk with registry := s.desk.registry.beginQuiesce generation } }
  | .endQuiesce generation =>
    { s with desk := { s.desk with registry := s.desk.registry.endQuiesce generation } }

def system : Runs.System (LaneState T) (LaneInput T) Empty where
  next s input := (lane.next s input, [])

/-- The engine of the boot, with nothing under way. -/
def first (id : Option GenerationId) : LaneState T where
  router := ⟨false, some ⟨1, ⟨0⟩⟩, [], id⟩
  hand := none
  carried := none
  inbox := []
  engine := ⟨1, ⟨0⟩⟩
  alive := true
  stage := .running
  forwarding := true
  desk := ⟨.default, []⟩
  received := []
  offered := []

end Lane

def controlLane : Lane ControlMsg where
  locked := false
  capacity := 64
  positive := by decide
  stamp message registry
    | some generation => stampControlOperation message registry generation
    | none => (registry, message)
  receive := OperationDesk.receive

def eventLane : Lane PresenceEvent where
  locked := true
  capacity := 256
  positive := by decide
  stamp message registry _ := (registry, message)
  receive desk _ _ := desk

/-- A send of the lane is what the router routes. -/
theorem controlLane_offer (s : LaneState ControlMsg) (message : ControlMsg)
    (hfree : s.forwarding = true ∧ s.hand = none ∧ s.stage ≠ .installing) :
    (controlLane.offer s message).router =
        (s.router.routeControl message s.desk.registry).1 ∧
      (controlLane.offer s message).desk.registry =
        (s.router.routeControl message s.desk.registry).2.1 ∧
      (controlLane.offer s message).hand =
        (s.router.routeControl message s.desk.registry).2.2 := by
  obtain ⟨hforwarding, hhand, hstage⟩ := hfree
  unfold Lane.offer GenerationRouter.routeControl
  rw [if_pos ⟨hforwarding, by rw [hhand]; rfl, hstage⟩]
  split
  · exact ⟨rfl, rfl, hhand⟩
  · dsimp only [controlLane]
    cases htarget : s.router.target with
    | some target =>
      cases s.router.generationId with
      | some generation => exact ⟨rfl, rfl, rfl⟩
      | none => exact ⟨rfl, rfl, rfl⟩
    | none =>
      cases s.router.generationId with
      | some generation => exact ⟨rfl, rfl, hhand⟩
      | none => exact ⟨rfl, rfl, hhand⟩

end Dormant.Reload
