import Mathlib.Algebra.Group.Nat.Defs
import Mathlib.Logic.Function.Basic
import Dormant.Foundations.Runs
import Dormant.Rules.Types

/-!
# The supervisor of input authority

`InputAuthoritySupervisor` of `filtered_activity.rs`, with `publish` of `idle_source.rs` and the
sources that it spawns. A source task is in `producers` while it runs. The arms of a `select!` are
events, which do nothing where the code does not wait for them; whether the control channel has room
for a message comes with the event.
-/

namespace Dormant
set_option autoImplicit false

/-- Instants are in one unit. -/
structure FilteredActivity where
  lastActivity : Option ℕ
  observedAt : ℕ
  available : Bool
  edgeSeq : ℕ
  deriving DecidableEq, Repr

def FilteredActivity.unavailable (now : ℕ) : FilteredActivity where
  lastActivity := none
  observedAt := now
  available := false
  edgeSeq := 0

structure ActivityRule where
  rule : RuleId
  idleThreshold : ℕ
  deriving DecidableEq, Repr

inductive InputAuthority where
  | stock
  | startingFiltered
  | filtered
  | stoppingFiltered
  deriving DecidableEq, Repr

/-- A stock source polls, and remembers what it sent, or it is notified. -/
inductive StockSource where
  | polling
  | notified
  deriving DecidableEq, Repr

inductive ProducerKind where
  | filtered
  | stock (source : StockSource)
  deriving DecidableEq, Repr

/-- A task that runs, and whether its token is cancelled. -/
structure Producer where
  kind : ProducerKind
  cancelled : Bool
  deriving DecidableEq, Repr

/-! ## The control channel -/

/-- What a producer remembers as sent, and the last value for each rule that the channel took, which
is the last one that the engine receives. -/
structure Inhibitors where
  lastSent : RuleId → Option Bool
  delivered : RuleId → Option Bool

namespace Inhibitors

def forget (c : Inhibitors) : Inhibitors := { c with lastSent := fun _ => none }

def publish (c : Inhibitors) (rule : RuleId) (inhibited room : Bool) : Inhibitors :=
  if c.lastSent rule = some inhibited then c
  else if room then
    { lastSent := Function.update c.lastSent rule (some inhibited)
      delivered := Function.update c.delivered rule (some inhibited) }
  else c

/-- A message that no one remembers. -/
def trySend (c : Inhibitors) (rule : RuleId) (inhibited room : Bool) : Inhibitors :=
  if room then { c with delivered := Function.update c.delivered rule (some inhibited) } else c

def publishAll (c : Inhibitors) (rules : List ActivityRule) (inhibited : ActivityRule → Bool)
    (room : RuleId → Bool) : Inhibitors :=
  rules.foldl (fun c rule => c.publish rule.rule (inhibited rule) (room rule.rule)) c

def trySendAll (c : Inhibitors) (rules : List ActivityRule) (inhibited : Bool)
    (room : RuleId → Bool) : Inhibitors :=
  rules.foldl (fun c rule => c.trySend rule.rule inhibited (room rule.rule)) c

/-- With a memory of its own, which is thrown away. -/
def holdAwake (c : Inhibitors) (rules : List ActivityRule) (room : RuleId → Bool) : Inhibitors :=
  { (c.forget.publishAll rules (fun _ => true) room) with lastSent := c.lastSent }

end Inhibitors

/-! ## The supervisor -/

/-- Where the supervisor waits. -/
inductive SupervisorPoint where
  | startingFiltered
  | filtered
  | joiningFiltered
  | choosingStock
  | withoutStock
  | stock
  | afterProbe
  | joiningStock (recovered : Bool)
  | stopped
  deriving DecidableEq, Repr

/-- `watch` is the channel of the filtered source, and `unseen` that it changed. `lastSent` is of
the producer that runs. -/
structure InputSupervisor where
  point : SupervisorPoint
  authority : InputAuthority
  cancelled : Bool
  producers : List Producer
  watch : FilteredActivity
  unseen : Bool
  sourceEdgeSeq : ℕ
  globalEdgeSeq : ℕ
  inhibitors : Inhibitors

inductive InputEvent where
  /-- The daemon's token. -/
  | cancel
  | stopped
  /-- `start` returns. -/
  | started
  | startFailed (now : ℕ) (room : RuleId → Bool)
  /-- The source sends to its channel. -/
  | reports (activity : FilteredActivity)
  /-- A task ends. -/
  | exits (kind : ProducerKind)
  | changed (now : ℕ) (room : RuleId → Bool)
  | tick (now : ℕ) (room : RuleId → Bool)
  | stale (now : ℕ) (room : RuleId → Bool)
  /-- A task that ended is joined. -/
  | joined (now : ℕ) (room : RuleId → Bool)
  /-- The factory answers. -/
  | stockFactory (source : Option StockSource) (room : RuleId → Bool)
  | slept
  /-- A polling source's pass over the rules; a notified source has none. -/
  | polls (inhibited : ActivityRule → Bool) (room : RuleId → Bool)
  | notifies (inhibited : Bool) (room : RuleId → Bool)
  | probed (ok : Bool)

def saturatingAddU64 (a b : ℕ) : ℕ := min (a + b) (2 ^ 64 - 1)

/-- The observation, and the two counters. -/
def remapEdgeSequence (observation : FilteredActivity) (sourceEdgeSeq globalEdgeSeq : ℕ) :
    FilteredActivity × ℕ × ℕ :=
  let newEdges := observation.edgeSeq - sourceEdgeSeq
  let globalEdgeSeq := saturatingAddU64 globalEdgeSeq newEdges
  ({ observation with edgeSeq := globalEdgeSeq }, observation.edgeSeq, globalEdgeSeq)

/-- Without a known activity, every rule is inhibited. -/
def FilteredActivity.inhibits (observation : FilteredActivity) (now : ℕ) (rule : ActivityRule) :
    Bool :=
  match observation.lastActivity.filter fun last => last ≤ now with
  | none => true
  | some last => now - last < rule.idleThreshold

namespace InputSupervisor
variable (rules : List ActivityRule) (s : InputSupervisor)

def new (globalEdgeSeq : ℕ) : InputSupervisor where
  point := .startingFiltered
  authority := .startingFiltered
  cancelled := false
  producers := []
  watch := .unavailable 0
  unseen := false
  sourceEdgeSeq := 0
  globalEdgeSeq := globalEdgeSeq
  inhibitors := ⟨fun _ => none, fun _ => none⟩

/-- The task, with a child of the daemon's token. -/
def spawn (kind : ProducerKind) : InputSupervisor :=
  { s with
    producers := s.producers ++ [⟨kind, s.cancelled⟩]
    inhibitors := s.inhibitors.forget }

def cancelKind (p : ProducerKind → Bool) : InputSupervisor :=
  { s with
    producers := s.producers.map fun producer =>
      if p producer.kind then { producer with cancelled := true } else producer }

def cancelFiltered : InputSupervisor := s.cancelKind fun kind => kind == .filtered

def cancelStock : InputSupervisor := s.cancelKind fun kind => kind != .filtered

def runs (kind : ProducerKind) : Bool := s.producers.any fun producer => producer.kind == kind

def runsStock : Bool := s.producers.any fun producer => producer.kind != .filtered

/-- The observation goes to the consumers of filtered activity. -/
def publishFiltered (now : ℕ) (room : RuleId → Bool) : InputSupervisor × List FilteredActivity :=
  let remapped := remapEdgeSequence s.watch s.sourceEdgeSeq s.globalEdgeSeq
  ({ s with
      sourceEdgeSeq := remapped.2.1
      globalEdgeSeq := remapped.2.2
      inhibitors := s.inhibitors.publishAll rules (remapped.1.inhibits now) room },
    [remapped.1])

def publishUnavailable (now : ℕ) (room : RuleId → Bool) :
    InputSupervisor × List FilteredActivity :=
  ({ s with inhibitors := s.inhibitors.holdAwake rules room },
    [{ FilteredActivity.unavailable now with edgeSeq := s.globalEdgeSeq }])

/-- The loop over the filtered source breaks. -/
def filteredBroken (now : ℕ) (room : RuleId → Bool) : InputSupervisor × List FilteredActivity :=
  let result := s.publishUnavailable rules now room
  ({ result.1.cancelFiltered with
      point := .joiningFiltered
      authority := .stoppingFiltered }, result.2)

/-- The head of the stock loop. -/
def chooseStock : InputSupervisor := { s with point := .choosingStock, authority := .stock }

/-- The head of the outer loop, after the filtered source is unavailable. -/
def afterFiltered : InputSupervisor :=
  if s.cancelled then { s with point := .stopped } else s.chooseStock

/-- The head of the outer loop, after a recovery. -/
def afterStock : InputSupervisor :=
  if s.cancelled then { s with point := .stopped }
  else { s with point := .startingFiltered, authority := .startingFiltered }

def next : InputEvent → InputSupervisor × List FilteredActivity
  | .cancel => ({ s.cancelKind fun _ => true with cancelled := true }, [])
  | .stopped => (if s.cancelled then { s with point := .stopped } else s, [])
  | .started =>
    if s.point = .startingFiltered then
      ({ s.spawn .filtered with
          point := if s.cancelled then .stopped else .filtered
          authority := if s.cancelled then s.authority else .filtered
          watch := .unavailable 0
          unseen := false
          sourceEdgeSeq := 0 }, [])
    else (s, [])
  | .startFailed now room =>
    if s.point = .startingFiltered then
      let result := s.publishUnavailable rules now room
      (result.1.afterFiltered, result.2)
    else (s, [])
  | .reports activity =>
    (if s.runs .filtered then { s with watch := activity, unseen := true } else s, [])
  | .exits kind =>
    ({ s with producers := s.producers.eraseP fun producer => producer.kind == kind }, [])
  | .changed now room =>
    if s.point = .filtered then
      if s.unseen then
        let seen := { s with unseen := false }
        if s.watch.available then seen.publishFiltered rules now room
        else seen.filteredBroken rules now room
      else if s.runs .filtered then (s, [])
      else s.filteredBroken rules now room
    else (s, [])
  | .tick now room =>
    if s.point = .filtered ∧ s.watch.available = true then s.publishFiltered rules now room
    else (s, [])
  | .stale now room =>
    if s.point = .filtered then s.filteredBroken rules now room else (s, [])
  | .joined now room =>
    match s.point with
    | .filtered => if s.runs .filtered then (s, []) else s.filteredBroken rules now room
    | .joiningFiltered => (if s.runs .filtered then s else s.afterFiltered, [])
    | .stock => (if s.runsStock then s else s.chooseStock, [])
    | .joiningStock recovered =>
      (if s.runsStock then s else if recovered then s.afterStock else s.chooseStock, [])
    | _ => (s, [])
  | .stockFactory source room =>
    if s.point = .choosingStock then
      match source with
      | none =>
        ({ s with point := .withoutStock, inhibitors := s.inhibitors.holdAwake rules room }, [])
      | some source => ({ s.spawn (.stock source) with point := .stock }, [])
    else (s, [])
  | .slept =>
    match s.point with
    | .withoutStock => (s.chooseStock, [])
    | .afterProbe => ({ s.cancelStock with point := .joiningStock false }, [])
    | _ => (s, [])
  | .polls inhibited room =>
    (if s.runs (.stock .polling) then
      { s with inhibitors := s.inhibitors.publishAll rules inhibited room } else s, [])
  | .notifies inhibited room =>
    (if s.runs (.stock .notified) then
      { s with inhibitors := s.inhibitors.trySendAll rules inhibited room } else s, [])
  | .probed ok =>
    if s.point = .stock then
      (if ok then
        { s.cancelStock with point := .joiningStock true, authority := .startingFiltered }
        else { s with point := .afterProbe }, [])
    else (s, [])

end InputSupervisor

/-- A run of the supervisor. -/
def supervisors (rules : List ActivityRule) :
    Runs.System InputSupervisor InputEvent FilteredActivity where
  next s e := s.next rules e

end Dormant
