import Dormant.Coordination.Verdicts
import Dormant.Foundations.Vouchers

/-!
# The poller of shared displays

`coordination_poll.rs`: on every tick the input of each shared display is read and recorded, and a
gain of the panel calls a hook, at once or, where the hook asks for presence and there is none, at a
later tick. The displays whose hook is deferred are the poller's own, and a reload starts another
poller.
-/

namespace Dormant.Polling
set_option autoImplicit false

/-! ## Configuration -/

inductive DisplayScope where
  | priv
  | shared
  deriving DecidableEq, Repr

structure DisplayConfig where
  scope : DisplayScope
  sharedInputCode : Option UInt8
  sharedInputWriteCode : Option UInt8
  sharedPeerInputCode : Option UInt8
  sharedPeerInputWriteCode : Option UInt8
  output : Option String
  compositorOutput : Option String
  outputPanel : Option String
  /-- `hooks.observed_gain_requires_presence` -/
  observedGainRequiresPresence : Bool

structure CoordinationConfig where
  pollInterval : ℕ
  statePollInterval : Option ℕ
  lossConfirmations : UInt32
  flapThreshold : UInt32
  flapWindow : ℕ
  flapSettle : ℕ

structure Config where
  coordination : CoordinationConfig
  displays : List (DisplayId × DisplayConfig)
  nodup : (displays.map Prod.fst).Nodup

/-- 30 s, in nanoseconds. -/
def coordinationStatePollInterval : ℕ := 30 * 1000000000

def CoordinationConfig.effectiveStatePollInterval (c : CoordinationConfig) : ℕ :=
  c.statePollInterval.getD (max c.pollInterval coordinationStatePollInterval)

def CoordinationConfig.flapPolicy (c : CoordinationConfig) : OwnershipFlapPolicy where
  threshold := c.flapThreshold
  window := c.flapWindow
  settle := c.flapSettle

def Config.get (config : Config) (display : DisplayId) : Option DisplayConfig :=
  config.displays.lookup display

def DisplayConfig.aliases (dc : DisplayConfig) (expected : UInt8) : InputCodeAliases where
  localRead := expected
  localWrite := dc.sharedInputWriteCode.getD expected
  peerRead := dc.sharedPeerInputCode
  peerWrite := dc.sharedPeerInputWriteCode

/-! ## The panel behind a connector -/

inductive OutputPanel where
  | isMatch
  | mismatch (found : String)
  | unknown
  deriving DecidableEq, Repr

/-- `contains` of a string, on its characters. -/
def contains (found expected : List Char) : Bool :=
  found.tails.any fun tail => expected.isPrefixOf tail

/-- `toLowercase` is the one of Unicode, which is not that of `String`. -/
def classify (toLowercase : String → String) (expected : String) (found : Option String) :
    OutputPanel :=
  match found with
  | none => .unknown
  | some found =>
    if found = "" then .unknown
    else if contains (toLowercase found).toList (toLowercase expected).toList then .isMatch
    else .mismatch found

/-- The evidence of the panel reader, where a panel is configured. -/
def DisplayConfig.panel (dc : DisplayConfig) (toLowercase : String → String)
    (identity : String → Option String) : OutputPanel :=
  match dc.outputPanel with
  | none => .unknown
  | some expected =>
    classify toLowercase expected ((dc.compositorOutput.or dc.output).bind identity)

def OutputPanel.isMismatch : OutputPanel → Bool
  | .mismatch _ => true
  | _ => false

/-! ## What happens around the poller -/

/-- What others do to the cache: a verified pull, and a reload. -/
inductive Edit where
  | pulled (display : DisplayId) (verifiedCode : UInt8)
  | reconciled (shared : List DisplayId)

def Edit.apply (handle : CoordinationHandle) : Edit → CoordinationHandle
  | pulled display verifiedCode => handle.markOwnedImmediate display verifiedCode
  | reconciled shared => handle.reconcileShared shared

structure PresenceQueryFailed where
  deriving DecidableEq, Repr

/-- The answer of the rules engine, and what happens to the cache until it is there. -/
structure QueryReply where
  meanwhile : List Edit
  answer : Except PresenceQueryFailed (Option Bool)

/-- What a tick finds at one display: what the reads give, and what happens to the cache while they
are under way and while a transition is sent to the engine. -/
structure Turn where
  identity : String → Option String
  input : Except String (Option UInt8)
  panelState : Option PanelState
  reading : List Edit
  sending : List Edit
  gainReply : QueryReply
  returnReply : QueryReply

/-- The deferred displays are evaluated in the order of a hash set. -/
structure Tick where
  toLowercase : String → String
  now : ℕ
  config : Config
  executors : List DisplayId
  order : List DisplayId → List DisplayId
  order_perm : ∀ l, (order l).Perm l
  pendingReply : DisplayId → QueryReply
  turns : DisplayId → Turn

inductive PollEvent where
  | ownershipContested (display : DisplayId)
  | ownershipSettled (display : DisplayId)
  | ownershipChanged (display : DisplayId) (previousOwned owned : Bool)
  /-- `ControlMsg::OwnershipPoll` -/
  | ownershipPoll (display : DisplayId)
  /-- `DaemonEvent::Ownership` -/
  | publishOwnership (display : DisplayId) (owned : Bool) (observedInputCode : Option UInt8)
  | notifyObservedLoss (display : DisplayId)
  | ownershipReturned (display : DisplayId) (observed : UInt8)
  | observedGainDeferred (display : DisplayId)
  | observedGainReleased (display : DisplayId)
  | observedGainPresenceQueryFailed (display : DisplayId)
  | notifyObservedGain (display : DisplayId)
  deriving DecidableEq, Repr

/-- An event, and the cache at that moment. -/
structure Noted where
  event : PollEvent
  handle : CoordinationHandle

/-- The cache, and what a poller keeps from tick to tick. -/
structure PollState where
  handle : CoordinationHandle
  lastStateRead : DisplayId → Option ℕ
  pendingObservedGain : List DisplayId

namespace PollState

/-- A poller that has just been spawned. -/
def spawned (handle : CoordinationHandle) : PollState where
  handle := handle
  lastStateRead _ := none
  pendingObservedGain := []

variable (s : PollState)

def note (event : PollEvent) : Noted := { event := event, handle := s.handle }

def edit (edits : List Edit) : PollState := { s with handle := edits.foldl Edit.apply s.handle }

def insertPending (display : DisplayId) : PollState :=
  { s with pendingObservedGain := s.pendingObservedGain.insert display }

def removePending (display : DisplayId) : PollState :=
  { s with pendingObservedGain := s.pendingObservedGain.filter (· ≠ display) }

end PollState

/-! ## Hooks -/

def fireObservedGainWithPresenceGate (config : Config) (display : DisplayId) (reply : QueryReply)
    (s : PollState) : PollState × List Noted :=
  if (config.get display).any (·.observedGainRequiresPresence) then
    let s := s.edit reply.meanwhile
    match reply.answer with
    | .ok (some false) => (s.insertPending display, [s.note (.observedGainDeferred display)])
    | .ok _ => (s, [s.note (.notifyObservedGain display)])
    | .error _ =>
      (s, [s.note (.observedGainPresenceQueryFailed display), s.note (.notifyObservedGain display)])
  else (s, [s.note (.notifyObservedGain display)])

/-- One deferred display. `ownedNow` is from a snapshot at the start of the tick. -/
def drainOne (config : Config) (ownedNow : DisplayId → Bool) (display : DisplayId)
    (reply : QueryReply) (s : PollState) : PollState × List Noted :=
  match config.get display with
  | none => (s.removePending display, [])
  | some dc =>
    if dc.scope ≠ .shared then (s.removePending display, [])
    else if !dc.observedGainRequiresPresence then (s.removePending display, [])
    else if !ownedNow display then (s.removePending display, [])
    else
      let s := s.edit reply.meanwhile
      match reply.answer with
      | .ok (some false) => (s, [])
      | .ok _ =>
        (s.removePending display,
          [s.note (.notifyObservedGain display), s.note (.observedGainReleased display)])
      | .error _ =>
        (s.removePending display,
          [s.note (.observedGainPresenceQueryFailed display), s.note (.notifyObservedGain display)])

/-- One after another, with the events of all of them. -/
def inTurn {α : Type} (f : α → PollState → PollState × List Noted) :
    List α → PollState → PollState × List Noted
  | [], s => (s, [])
  | a :: as, s => ((inTurn f as (f a s).1).1, (f a s).2 ++ (inTurn f as (f a s).1).2)

def drainPendingObservedGain (t : Tick) (s : PollState) : PollState × List Noted :=
  let ownedNow := fun display => (s.handle.records display).any (·.owned)
  inTurn (fun display => drainOne t.config ownedNow display (t.pendingReply display))
    (t.order s.pendingObservedGain) s

/-! ## One display -/

/-- What follows from an observation that has been recorded. -/
def reportOutcome (config : Config) (display : DisplayId) (turn : Turn) (panelMismatch : Bool)
    (observed : UInt8) (isLocal : Bool) (outcome : InputObservationOutcome) (s : PollState) :
    PollState × List Noted :=
  let hold := (if outcome.enteredContested then [s.note (.ownershipContested display)] else []) ++
    (if outcome.settled then [s.note (.ownershipSettled display)] else [])
  let committed : PollState × List Noted :=
    match outcome.committedPriorOwned with
    | none => (s, [])
    | some previousOwned =>
      let owned := !panelMismatch && isLocal
      let told := [s.note (.ownershipChanged display previousOwned owned),
        s.note (.ownershipPoll display),
        s.note (.publishOwnership display owned (if panelMismatch then none else some observed))]
      let s := s.edit turn.sending
      if previousOwned then
        (s.removePending display, told ++ [s.note (.notifyObservedLoss display)])
      else if owned then
        let fired := fireObservedGainWithPresenceGate config display turn.gainReply s
        (fired.1, told ++ fired.2)
      else (s, told)
  let returned : PollState × List Noted :=
    if outcome.observedReturn then
      let fired := fireObservedGainWithPresenceGate config display turn.returnReply committed.1
      (fired.1, committed.1.note (.ownershipReturned display observed) :: fired.2)
    else (committed.1, [])
  (returned.1, hold ++ committed.2 ++ returned.2)

/-- The panel state is read when it is due, and else stays as it was before this tick. -/
def readPanelState (config : Config) (now : ℕ) (prior : DisplayId → Option CoordRecord)
    (display : DisplayId) (turn : Turn) (panelMismatch : Bool) (s : PollState) :
    PollState × Option PanelState :=
  let due := (s.lastStateRead display).all fun last =>
    config.coordination.effectiveStatePollInterval ≤ now - last
  if panelMismatch then (s, none)
  else if due then
    (if turn.panelState.isSome then
        { s with lastStateRead := Function.update s.lastStateRead display (some now) }
      else s,
      turn.panelState)
  else (s, (prior display).bind (·.panelState))

def recordObserved (config : Config) (now : ℕ) (display : DisplayId) (aliases : InputCodeAliases)
    (panelMismatch : Bool) (observed : UInt8) (panelState : Option PanelState)
    (handle : CoordinationHandle) : CoordinationHandle × InputObservationOutcome :=
  if panelMismatch then
    handle.recordPanelMismatchAt display config.coordination.lossConfirmations now
  else
    handle.recordInputObservationAt display
      { observed := observed, aliases := aliases, panelState := panelState }
      config.coordination.lossConfirmations config.coordination.flapPolicy now

/-- A code that is neither side's is held for a failed observation. -/
def pollDisplay (t : Tick) (prior : DisplayId → Option CoordRecord)
    (entry : DisplayId × DisplayConfig) (s : PollState) : PollState × List Noted :=
  let display := entry.1
  let turn := t.turns display
  if entry.2.scope ≠ .shared then (s, [])
  else
    match entry.2.sharedInputCode with
    | none => (s, [])
    | some expected =>
      if display ∉ t.executors then (s, [])
      else
        let aliases := entry.2.aliases expected
        let panelMismatch := (entry.2.panel t.toLowercase turn.identity).isMismatch
        let input : Except String (Option UInt8) :=
          if panelMismatch then .ok (some expected) else turn.input
        let read := readPanelState t.config t.now prior display turn panelMismatch
          (s.edit turn.reading)
        let s := read.1
        match input with
        | .ok (some observed) =>
          let classification := aliases.classify observed
          if !panelMismatch && decide (classification = .unknown observed) then
            ({ s with handle := s.handle.recordFailure display }, [])
          else
            let recorded := recordObserved t.config t.now display aliases panelMismatch observed
              read.2 s.handle
            reportOutcome t.config display turn panelMismatch observed
              (decide (classification = .localInput)) recorded.2 { s with handle := recorded.1 }
        | _ => ({ s with handle := s.handle.recordFailure display }, [])

/-! ## Ticks -/

/-- No tick runs while a generation is torn down, which publishes no executors. -/
def pollOnce (t : Tick) (s : PollState) : PollState × List Noted :=
  if t.executors = [] then (s, [])
  else
    let drained := drainPendingObservedGain t s
    let polled := inTurn (pollDisplay t drained.1.handle.records) t.config.displays drained.1
    ({ polled.1 with
        pendingObservedGain := polled.1.pendingObservedGain.filter fun display =>
          (t.config.get display).any (·.scope = .shared) },
      drained.2 ++ polled.2)

inductive PollerStep where
  | tick (t : Tick)
  | edited (e : Edit)
  /-- A reload cancels the poller of the old generation and spawns another. -/
  | respawned

def poller : Runs.System PollState PollerStep Noted where
  next s
    | .tick t => pollOnce t s
    | .edited e => (s.edit [e], [])
    | .respawned => (.spawned s.handle, [])

end Dormant.Polling
