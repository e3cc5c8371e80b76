import Dormant.Reload.Promotion

/-!
# Requests of reloads and their receipts

The channel of reload requests, the batches that `run_loop` makes of them and the receipts, with
`request` and `notify` of `reload.rs`. The loop is the only one that takes requests out, and it
puts its own in: one that finds the channel full parks it.
-/

namespace Dormant.Reload
set_option autoImplicit false

inductive ReloadSource where
  | watcher
  | control
  | webApply
  | ipc
  | signal
  deriving DecidableEq, Repr

/-- A waiter is the number of its channel. -/
structure ReloadRequest where
  requestId : UInt64
  source : ReloadSource
  waiter : Option ℕ
  deriving DecidableEq, Repr

structure ReloadBatch where
  requestIds : List UInt64
  sources : List ReloadSource
  waiters : List ℕ
  deriving DecidableEq, Repr

namespace ReloadBatch

def push (batch : ReloadBatch) (request : ReloadRequest) : ReloadBatch where
  requestIds := batch.requestIds ++ [request.requestId]
  sources :=
    if batch.sources.contains request.source then batch.sources
    else batch.sources ++ [request.source]
  waiters := batch.waiters ++ request.waiter.toList

def new (request : ReloadRequest) : ReloadBatch :=
  push { requestIds := [], sources := [], waiters := [] } request

end ReloadBatch

structure ReloadReceipt where
  requestIds : List UInt64
  sources : List ReloadSource
  requestedRevision : RuntimeRevision
  appliedRevision : RuntimeRevision
  generation : GenerationId
  outcome : ReloadOutcome
  coalesced : Bool
  deriving DecidableEq, Repr

/-- `reload_receipt`, of what a batch comes to. -/
def Turn.receipt (turn : Turn) (batch : ReloadBatch) (requested : RuntimeRevision) :
    ReloadReceipt where
  requestIds := batch.requestIds
  sources := batch.sources
  requestedRevision := requested
  appliedRevision := turn.runner.appliedRevision
  generation := turn.runner.generationId
  outcome := turn.outcome
  coalesced := turn.coalesced

def channelCapacity : ℕ := 32

/-- The loop with the channel of its requests. -/
structure ReloadDesk where
  runner : Runner
  channel : List ReloadRequest
  batch : Option ReloadBatch
  parked : Bool
  nextRequestId : UInt64
  nextWaiter : ℕ

/-- A request of a task is when there is room for it. The loop takes a request, or one of the
watcher's or the system's notices, or executes the batch that it has collected. -/
inductive DeskInput where
  | request (source : ReloadSource) (waits : Bool)
  | ownNotice (source : ReloadSource)
  | take
  | execute (a : Attempt)
  | tick (t : WatchdogTick)
  | shutdown

inductive DeskOutput where
  | enqueued (waiter : ℕ)
  | receipt (waiter : ℕ) (receipt : ReloadReceipt)
  deriving DecidableEq, Repr

namespace ReloadDesk
variable (s : ReloadDesk)

def hasRoom : Bool := s.channel.length < channelCapacity

/-- The loop is parked, or it is over. -/
def idle : Bool := s.parked || s.runner.cancelled

def enqueue (source : ReloadSource) (waits : Bool) : ReloadDesk × List DeskOutput :=
  let waiter := if waits then some s.nextWaiter else none
  ({ s with
      channel := s.channel ++ [⟨s.nextRequestId, source, waiter⟩]
      nextRequestId := s.nextRequestId + 1
      nextWaiter := if waits then s.nextWaiter + 1 else s.nextWaiter },
    waiter.toList.map .enqueued)

/-- A batch with a debounce takes requests until the window closes. -/
def take : ReloadDesk :=
  match s.channel, s.batch with
  | [], _ => s
  | request :: channel, none => { s with channel := channel, batch := some (.new request) }
  | request :: channel, some batch =>
    if s.runner.generation.cfg.reloadDebounce = 0 then s
    else { s with channel := channel, batch := some (batch.push request) }

def execute (loader : Loader) (a : Attempt) : ReloadDesk × List DeskOutput :=
  match s.batch with
  | none => (s, [])
  | some batch =>
    let turn := s.runner.executeReloadBatch loader a
    let receipt := turn.receipt batch (loader.loadRuntime a.config a.creds).1
    ({ s with runner := turn.runner, batch := none },
      batch.waiters.map fun waiter => .receipt waiter receipt)

/-- The loop's own notices come while it waits, or while it collects a batch. -/
def ownNotice (source : ReloadSource) : ReloadDesk × List DeskOutput :=
  if s.hasRoom then s.enqueue source false else ({ s with parked := true }, [])

end ReloadDesk

/-- A loop that is parked does nothing, nor one whose root is cancelled. -/
def reloadDesk (loader : Loader) : Runs.System ReloadDesk DeskInput DeskOutput where
  next s input :=
    match input with
    | .request source waits => if s.hasRoom then s.enqueue source waits else (s, [])
    | .shutdown => ({ s with runner := { s.runner with cancelled := true } }, [])
    | .ownNotice source =>
      if s.idle then (s, []) else s.ownNotice source
    | .take => if s.idle then (s, []) else (s.take, [])
    | .execute a => if s.idle then (s, []) else s.execute loader a
    | .tick t =>
      if s.idle || s.batch.isSome then (s, [])
      else ({ s with runner := (s.runner.watchdogTickAt t).1 }, [])

def firstDesk (runner : Runner) : ReloadDesk where
  runner := runner
  channel := []
  batch := none
  parked := false
  nextRequestId := 1
  nextWaiter := 0

end Dormant.Reload
