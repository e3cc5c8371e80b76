import Dormant.Foundations.Runs
import Dormant.Publish.Records

/-!
# The publisher at work

`run` of `state_publisher.rs`, its MQTT transport and the broker, beside the engine that they speak
for. The channels hold any number of messages, and a move may be made whenever its party could make
it, so every run of the tasks is a run of this system. The broker delivers the last will of a
session that was lost before it accepts the next one.
-/

namespace Dormant
set_option autoImplicit false

namespace Publisher

inductive TransportLifecycle where
  | connected
  | birthOnline
  | disconnected
  deriving DecidableEq

/-- What a snapshot is asked for. -/
inductive Asking where
  | start
  | flush
  | lag
  deriving DecidableEq

/-- Where the publisher's task is. -/
inductive Stage where
  | asking (why : Asking)
  | answered (why : Asking) (reply : RulesEngine.StateSnapshot)
  | first
  | flushing (fresh : Bool) (rest : List PublishRecord)
  | sending (rest : List PublishRecord)
  | idle
  | done
  deriving DecidableEq

/-- Where the transport's task is. A wait for an acknowledgement that ends in an error of the event
loop passes for one that was acknowledged: the pump goes on, `unnoticed`, over a lost session. -/
inductive Transport where
  | off
  | connecting
  | announcing
  | pumping (unnoticed : Bool)
  | waiting (record : PublishRecord) (pendingBirth unnoticed : Bool)
  deriving DecidableEq

structure Publishing where
  engine : RulesEngine
  events : List DaemonEvent
  lagged : Bool
  snapshot : RulesEngine.StateSnapshot
  stage : Stage
  records : List PublishRecord
  lifecycle : List TransportLifecycle
  transport : Transport
  willDue : Bool
  retained : String → Option Payload

inductive Move where
  | engine (env : Env) (event : Event)
  | lag (skipped : ℕ)
  | answer
  | unavailable
  | publisher
  | lifecycle
  | event
  | stop
  | connAck
  | announce
  | take
  | acked
  | ackError (delivered : Bool)
  | birth
  | lost (delivered : Bool)
  | goodbye (delivered : Bool)
  | will

/-- All that the engine broadcasts. -/
def broadcasts (outputs : List Output) : List DaemonEvent :=
  outputs.filterMap fun
    | .event ev => some ev
    | _ => none

def Stage.isDone : Stage → Bool
  | .done => true
  | _ => false

/-- What a flush sends before its snapshot. -/
def flushStart (cfg : Config) : List PublishRecord :=
  (globalOnlineRecord cfg cfg.inst).toList ++ discoveryRecords cfg cfg.inst

def emptySnapshot : RulesEngine.StateSnapshot := ⟨[], [], []⟩

/-- The number of stale records, or none when the channel says that it is closed. -/
def drainStaleRecords (closed : Bool) : List PublishRecord → Option ℕ
  | [] => if closed then none else some 0
  | r :: rs => if r.topic = "" then none else (drainStaleRecords closed rs).map (· + 1)

namespace Publishing
variable (cfg : Config) (x : Publishing)

def retain (records : List PublishRecord) : Publishing :=
  { x with retained := fun t => Mirror.shownAfter (writes records) t (x.retained t) }

def announced (signals : List TransportLifecycle) : Publishing :=
  { x with lifecycle := x.lifecycle ++ signals }

/-! ## The publisher's task -/

def publisher : Publishing :=
  match x.stage with
  | .asking _ | .first | .idle | .done => x
  | .answered .start reply =>
    { x with snapshot := reply, stage := .first, transport := .connecting }
  | .answered _ reply =>
    { x with snapshot := reply, stage := .sending (snapshotRecords cfg reply cfg.inst) }
  | .flushing fresh (r :: rest) =>
    { x with records := x.records ++ [r], stage := .flushing fresh rest }
  | .flushing true [] => { x with stage := .asking .flush }
  | .flushing false [] => { x with stage := .sending (snapshotRecords cfg x.snapshot cfg.inst) }
  | .sending (r :: rest) => { x with records := x.records ++ [r], stage := .sending rest }
  | .sending [] => { x with stage := .idle }

def onLifecycle : Publishing :=
  match x.stage, x.lifecycle with
  | .first, .disconnected :: rest => { x with lifecycle := rest }
  | .first, _ :: rest => { x with lifecycle := rest, stage := .flushing false (flushStart cfg) }
  | .idle, .disconnected :: rest => { x with lifecycle := rest }
  | .idle, _ :: rest => { x with lifecycle := rest, stage := .flushing true (flushStart cfg) }
  | _, _ => x

def onEvent : Publishing :=
  match x.stage with
  | .idle =>
    if x.lagged then { x with lagged := false, stage := .asking .lag }
    else
      match x.events with
      | [] => x
      | ev :: rest => { x with events := rest, stage := .sending (eventRecords cfg ev cfg.inst) }
  | _ => x

def answer : Publishing :=
  match x.stage with
  | .asking why => { x with stage := .answered why x.engine.sendSnapshot }
  | _ => x

/-- The request is dropped, or the engine is gone. -/
def unavailable : Publishing :=
  match x.stage with
  | .asking .start =>
    { x with snapshot := emptySnapshot, stage := .first, transport := .connecting }
  | .asking .flush => { x with stage := .sending (snapshotRecords cfg x.snapshot cfg.inst) }
  | .asking .lag => { x with stage := .idle }
  | _ => x

/-! ## The transport's task -/

def connAck : Publishing :=
  match x.transport with
  | .connecting =>
    match drainStaleRecords x.stage.isDone x.records with
    | none => { x with transport := .off, willDue := false }.announced [.disconnected]
    | some _ => { x with records := [], transport := .announcing, willDue := false }
  | _ => x

def announce : Publishing :=
  match x.transport with
  | .announcing =>
    if x.stage.isDone then { x with transport := .off }
    else { x with transport := .pumping false }.announced [.connected]
  | _ => x

def take : Publishing :=
  match x.transport, x.records with
  | .pumping unnoticed, r :: rest =>
    if r.topic = "" then { x with transport := .off, records := rest }.announced [.disconnected]
    else { x with transport := .waiting r false unnoticed, records := rest }
  | .pumping _, [] => if x.stage.isDone then { x with transport := .off } else x
  | _, _ => x

/-- The wait is over. A birth that was observed meanwhile is passed on. -/
def waited (pendingBirth unnoticed : Bool) : Publishing :=
  { x with transport := .pumping unnoticed }.announced
    (if pendingBirth then [.birthOnline] else [])

def acked : Publishing :=
  match x.transport with
  | .waiting r pendingBirth unnoticed => (x.retain [r]).waited pendingBirth unnoticed
  | _ => x

def ackError (delivered : Bool) : Publishing :=
  match x.transport with
  | .waiting r pendingBirth _ =>
    { x.retain (if delivered then [r] else []) with willDue := true }.waited pendingBirth true
  | _ => x

def birth : Publishing :=
  match x.transport with
  | .pumping _ => x.announced [.birthOnline]
  | .waiting r _ unnoticed => { x with transport := .waiting r true unnoticed }
  | _ => x

def lose (delivered : Bool) : Publishing :=
  match x.transport with
  | .pumping _ => { x with transport := .connecting, willDue := true }.announced [.disconnected]
  | .waiting r _ _ =>
    { x.retain (if delivered then [r] else []) with
      transport := .connecting, willDue := true }.announced [.disconnected]
  | _ => x

def offline (cfg : Config) : PublishRecord :=
  ⟨Feature.topic cfg .availability, .word "offline", 1, true⟩

/-- The transport was cancelled: it takes leave and returns. -/
def goodbye (delivered : Bool) : Publishing :=
  match x.transport with
  | .pumping _ =>
    { x.retain (if delivered then [offline cfg] else []) with
      transport := .off, willDue := true }.announced [.disconnected]
  | _ => x

def will : Publishing :=
  if x.willDue then { x.retain [offline cfg] with willDue := false } else x

def next : Move → Publishing
  | .engine env event =>
    let handled := Dormant.engine.next x.engine (env, event)
    { x with engine := handled.1, events := x.events ++ broadcasts handled.2 }
  | .lag skipped =>
    if 0 < skipped ∧ skipped ≤ x.events.length then
      { x with events := x.events.drop skipped, lagged := true }
    else x
  | .answer => x.answer
  | .unavailable => x.unavailable cfg
  | .publisher => x.publisher cfg
  | .lifecycle => x.onLifecycle cfg
  | .event => x.onEvent cfg
  | .stop => { x with stage := .done }
  | .connAck => x.connAck
  | .announce => x.announce
  | .take => x.take
  | .acked => x.acked
  | .ackError delivered => x.ackError delivered
  | .birth => x.birth
  | .lost delivered => x.lose delivered
  | .goodbye delivered => x.goodbye cfg delivered
  | .will => x.will cfg

end Publishing

def publishing (cfg : Config) : Runs.System Publishing Move Empty where
  next x move := (x.next cfg move, [])

/-- The publisher has subscribed, and asks for its first snapshot. -/
def Publishing.start (e : RulesEngine) (retained : String → Option Payload) : Publishing where
  engine := e
  events := []
  lagged := false
  snapshot := emptySnapshot
  stage := .asking .start
  records := []
  lifecycle := []
  transport := .off
  willDue := false
  retained := retained

end Publisher
end Dormant
