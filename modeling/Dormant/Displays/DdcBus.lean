import Dormant.Foundations.Runs
import Mathlib.Data.List.Infix
import Mathlib.Logic.Function.Basic

/-!
# The locks of the DDC bus

`ddc_lock.rs` and the real operations of `vcp_ops.rs`: any number of workers, each at one atomic
step of its code. A transaction takes the lock of its panel, then the physical gate, and checks a
handle out of a cache. A registry hands out one lock for each key, so the locks go by their keys.
Poison is recovered from wherever a lock is taken, and leaves no trace.
-/

namespace Dormant
set_option autoImplicit false

namespace DdcBus

inductive VcpPriority where
  | command
  | sampler
  deriving DecidableEq

structure Request where
  panel : String
  cache : ℕ
  ident : String
  prio : VcpPriority
  deriving DecidableEq

/-- Where a transaction is. In `locked` and `tried` it has the panel's lock, but has not yet left
`command_guard` or `sampler_try`. -/
inductive Stage where
  | called
  | announced
  | locked
  | checked
  | tried
  | entered
  | gated
  | missed
  | operating (handle resolvedAt : ℕ)
  | leaving
  | left
  | done
  deriving DecidableEq

inductive GateStage where
  | awaiting
  | inside
  | done
  deriving DecidableEq

/-- A transaction, a scan of the bus, and the teardown of a cache. -/
inductive Worker where
  | vcp (r : Request) (stage : Stage)
  | scan (stage : GateStage)
  | teardown (cache : ℕ) (stage : GateStage)
  deriving DecidableEq

structure Bus where
  now : ℕ
  holder : String → Option ℕ
  commandWaiting : String → ℕ
  gate : Option ℕ
  entries : ℕ → String → Option (ℕ × ℕ)
  minted : ℕ
  workers : List Worker

/-- Nanoseconds. -/
def cacheRevalidateAfter : ℕ := 300 * 1000000000

def contains (text part : String) : Bool := part.toList <:+: text.toList

def isTransportError (errMsg : String) : Bool :=
  !(contains errMsg "DDC/CI error:" && !contains errMsg "I2C error")

inductive OpResult where
  | value
  | error (errMsg : String)
  | panicked

/-- The handle goes back to the cache. -/
def OpResult.keeps : OpResult → Bool
  | .value => true
  | .error errMsg => !isTransportError errMsg
  | .panicked => false

inductive Move where
  | tick (elapsed : ℕ)
  | call (r : Request)
  | scan
  | teardown (cache : ℕ)
  | go (n : ℕ)
  | resolve (n : ℕ) (found : Option String)
  | finish (n : ℕ) (result : OpResult)

namespace Bus
variable (b : Bus) (n : ℕ)

def put (w : Worker) : Bus := { b with workers := b.workers.set n w }

def setEntry (cache : ℕ) (ident : String) (entry : Option (ℕ × ℕ)) : Bus :=
  { b with
    entries := Function.update b.entries cache (Function.update (b.entries cache) ident entry) }

def setHolder (panel : String) (holder : Option ℕ) : Bus :=
  { b with holder := Function.update b.holder panel holder }

def setWaiting (panel : String) (count : ℕ) : Bus :=
  { b with commandWaiting := Function.update b.commandWaiting panel count }

/-- The next step of a transaction, as far as it is its own to take. -/
def transact (r : Request) : Stage → Bus
  | .called =>
    match r.prio with
    | .command =>
      (b.setWaiting r.panel (b.commandWaiting r.panel + 1)).put n (.vcp r .announced)
    | .sampler =>
      if 0 < b.commandWaiting r.panel then b.put n (.vcp r .done) else b.put n (.vcp r .checked)
  | .announced =>
    if b.holder r.panel = none then (b.setHolder r.panel (some n)).put n (.vcp r .locked) else b
  | .locked => (b.setWaiting r.panel (b.commandWaiting r.panel - 1)).put n (.vcp r .entered)
  | .checked =>
    if b.holder r.panel = none then (b.setHolder r.panel (some n)).put n (.vcp r .tried)
    else b.put n (.vcp r .done)
  | .tried =>
    if 0 < b.commandWaiting r.panel then (b.setHolder r.panel none).put n (.vcp r .done)
    else b.put n (.vcp r .entered)
  | .entered => if b.gate = none then { b with gate := some n }.put n (.vcp r .gated) else b
  | .gated =>
    match b.entries r.cache r.ident with
    | some (handle, resolvedAt) =>
      if b.now - resolvedAt < cacheRevalidateAfter then
        (b.setEntry r.cache r.ident none).put n (.vcp r (.operating handle resolvedAt))
      else (b.setEntry r.cache r.ident none).put n (.vcp r .missed)
    | none => b.put n (.vcp r .missed)
  | .leaving => { b with gate := none }.put n (.vcp r .left)
  | .left => (b.setHolder r.panel none).put n (.vcp r .done)
  | .missed | .operating _ _ | .done => b

/-- `list_displays` holds the gate alone. -/
def listDisplays : GateStage → Bus
  | .awaiting => if b.gate = none then { b with gate := some n }.put n (.scan .inside) else b
  | .inside => { b with gate := none }.put n (.scan .done)
  | .done => b

/-- The last owner of a cache drops it. -/
def drainForTeardown (cache : ℕ) : GateStage → Bus
  | .awaiting =>
    if b.gate = none then { b with gate := some n }.put n (.teardown cache .inside) else b
  | .inside =>
    { b with entries := Function.update b.entries cache fun _ => none, gate := none }.put n
      (.teardown cache .done)
  | .done => b

def go : Bus :=
  match b.workers[n]? with
  | some (.vcp r stage) => b.transact n r stage
  | some (.scan stage) => b.listDisplays n stage
  | some (.teardown cache stage) => b.drainForTeardown n cache stage
  | none => b

/-- The enumeration of a miss ends: the handle goes in under the name that it was found by, and
out under the one that was asked for. -/
def resolve (found : Option String) : Bus :=
  match b.workers[n]? with
  | some (.vcp r .missed) =>
    match found with
    | none => b.put n (.vcp r .leaving)
    | some canonical =>
      let b := { b.setEntry r.cache canonical (some (b.minted, b.now)) with minted := b.minted + 1 }
      match b.entries r.cache r.ident with
      | some (handle, resolvedAt) =>
        (b.setEntry r.cache r.ident none).put n (.vcp r (.operating handle resolvedAt))
      | none => b.put n (.vcp r .leaving)
  | _ => b

/-- The operation returns, and its handle is given back or dropped. -/
def finish (result : OpResult) : Bus :=
  match b.workers[n]? with
  | some (.vcp r (.operating handle resolvedAt)) =>
    if result.keeps then
      (b.setEntry r.cache r.ident (some (handle, resolvedAt))).put n (.vcp r .leaving)
    else b.put n (.vcp r .leaving)
  | _ => b

def next : Move → Bus
  | .tick elapsed => { b with now := b.now + elapsed }
  | .call r => { b with workers := b.workers ++ [.vcp r .called] }
  | .scan => { b with workers := b.workers ++ [.scan .awaiting] }
  | .teardown cache => { b with workers := b.workers ++ [.teardown cache .awaiting] }
  | .go n => b.go n
  | .resolve n found => b.resolve n found
  | .finish n result => b.finish n result

/-- Nobody has called, and the caches are empty. -/
def idle (now : ℕ) : Bus := ⟨now, fun _ => none, fun _ => 0, none, fun _ _ => none, 0, []⟩

end Bus

def ddcBus : Runs.System Bus Move Empty where
  next b move := (b.next move, [])

/-! ## What a worker holds -/

namespace Stage

def announcing : Stage → Bool
  | .announced | .locked => true
  | _ => false

/-- It is past the lock of its panel, with its transaction before or behind it. -/
def inside : Stage → Bool
  | .entered | .gated | .missed | .operating _ _ | .leaving | .left => true
  | _ => false

def holdsPanel (stage : Stage) : Bool := stage.inside || stage = .locked || stage = .tried

def holdsGate : Stage → Bool
  | .gated | .missed | .operating _ _ | .leaving => true
  | _ => false

end Stage

namespace Worker

/-- The worker has the panel's lock. -/
def holds (panel : String) : Worker → Bool
  | .vcp r stage => r.panel = panel && stage.holdsPanel
  | _ => false

def announces (panel : String) : Worker → Bool
  | .vcp r stage => r.panel = panel && stage.announcing
  | _ => false

/-- A transaction of the panel is at work. -/
def inside (panel : String) : Worker → Bool
  | .vcp r stage => r.panel = panel && stage.inside
  | _ => false

def holdsGate : Worker → Bool
  | .vcp _ stage => stage.holdsGate
  | .scan stage | .teardown _ stage => stage = .inside

/-- The handle that the worker operates. -/
def handle? : Worker → Option (ℕ × ℕ)
  | .vcp _ (.operating handle resolvedAt) => some (handle, resolvedAt)
  | _ => none

def isSampler : Worker → Bool
  | .vcp r _ => r.prio = .sampler
  | _ => false

end Worker

end DdcBus
end Dormant
