import Dormant.Rules.Types
import Dormant.Operations.Exercise

/-!
# Ownership verdicts of shared displays

The cache of `coordination.rs`: one record for every shared display, fed with reads of the input
source, connector mismatches and failed reads. A verdict changes after a number of agreeing
observations, and a display that changes hands too often is contested until it falls silent.
-/

namespace Dormant
set_option autoImplicit false

structure OwnershipFlapPolicy where
  threshold : UInt32
  window : ℕ
  settle : ℕ
  deriving DecidableEq, Repr

/-- `Duration::MAX`, in nanoseconds. -/
def durationMax : ℕ := (UInt64.size - 1) * 1000000000 + 999999999

def OwnershipFlapPolicy.disabled : OwnershipFlapPolicy where
  threshold := UInt32.ofNat (UInt32.size - 1)
  window := durationMax
  settle := durationMax

structure InputCodeAliases where
  localRead : UInt8
  localWrite : UInt8
  peerRead : Option UInt8
  peerWrite : Option UInt8
  deriving DecidableEq, Repr

structure InputObservation where
  observed : UInt8
  aliases : InputCodeAliases
  panelState : Option PanelState
  deriving DecidableEq, Repr

inductive InputSourceObservation where
  | localInput
  | peerInput
  | unknown (code : UInt8)
  deriving DecidableEq, Repr

def InputCodeAliases.classify (a : InputCodeAliases) (code : UInt8) : InputSourceObservation :=
  if code = a.localRead ∨ code = a.localWrite then .localInput
  else if a.peerRead = some code ∨ a.peerWrite = some code then .peerInput
  else .unknown code

structure InputObservationOutcome where
  committedPriorOwned : Option Bool
  deferredLossCount : Option UInt32
  deferredGainCount : Option UInt32
  disagreementWith : Option UInt8
  contestedReadbackChanged : Option UInt8
  enteredContested : Bool
  settled : Bool
  observedReturn : Bool
  deriving DecidableEq, Repr

def InputObservationOutcome.default : InputObservationOutcome where
  committedPriorOwned := none
  deferredLossCount := none
  deferredGainCount := none
  disagreementWith := none
  contestedReadbackChanged := none
  enteredContested := false
  settled := false
  observedReturn := false

inductive PeerSighting where
  | notSeen
  | seen
  deriving DecidableEq, Repr

structure CoordRecord where
  owned : Bool
  hasSuccessfulInputRead : Bool
  inputCode : Option UInt8
  panelState : Option PanelState
  consecutiveFailures : UInt32
  pendingTransitionCount : UInt32
  pendingTransitionCode : Option UInt8
  peerSeenWhileOwned : PeerSighting
  returnConfirmCount : UInt32
  lastObservedCode : Option UInt8
  contested : Bool
  lastRawChange : Option ℕ
  transitionTimes : List ℕ
  deriving DecidableEq, Repr

/-- `saturating_add(1)`. -/
def saturatingSucc (n : UInt32) : UInt32 := if n.toNat + 1 < UInt32.size then n + 1 else n

namespace CoordRecord

def seeded : CoordRecord where
  owned := true
  hasSuccessfulInputRead := false
  inputCode := none
  panelState := none
  consecutiveFailures := 0
  pendingTransitionCount := 0
  pendingTransitionCode := none
  peerSeenWhileOwned := .notSeen
  returnConfirmCount := 0
  lastObservedCode := none
  contested := false
  lastRawChange := none
  transitionTimes := []

variable (record : CoordRecord) (outcome : InputObservationOutcome)

def clearPending : CoordRecord :=
  { record with pendingTransitionCount := 0, pendingTransitionCode := none }

def clearSighting : CoordRecord :=
  { record with peerSeenWhileOwned := .notSeen, returnConfirmCount := 0 }

def recordFlapTransition (policy : OwnershipFlapPolicy) (now : ℕ) (priorOwned : Bool) :
    CoordRecord × InputObservationOutcome :=
  let times := (record.transitionTimes ++ [now]).dropWhile fun transition =>
    policy.window < now - transition
  let record := { record with transitionTimes := times }
  if max policy.threshold.toNat 2 ≤ min times.length (UInt32.size - 1) then
    ({ record.clearPending.clearSighting with
        contested := true, owned := false, lastRawChange := some now },
      -- a gain that trips the limiter is net no ownership change
      { outcome with
        enteredContested := true
        committedPriorOwned := if priorOwned then outcome.committedPriorOwned else none })
  else (record, outcome)

def recordSuccessState (observed : UInt8) (panelState : Option PanelState) : CoordRecord :=
  { record with
    hasSuccessfulInputRead := true
    inputCode := some observed
    panelState := panelState
    consecutiveFailures := 0
    lastObservedCode := some observed }

def recordLocalReturn (confirmations : UInt32) : CoordRecord × InputObservationOutcome :=
  if record.peerSeenWhileOwned = .seen then
    let record := { record with returnConfirmCount := saturatingSucc record.returnConfirmCount }
    if max confirmations 1 ≤ record.returnConfirmCount then
      (record.clearSighting, { outcome with observedReturn := true })
    else (record, outcome)
  else (record, outcome)

def recordDisagreement (observed : UInt8) : CoordRecord × InputObservationOutcome :=
  match record.lastObservedCode with
  | none => (record, outcome)
  | some previousCode =>
    if previousCode = observed then (record, outcome)
    else (record.clearPending, { outcome with disagreementWith := some previousCode })

def recordContestedObservation (observed : UInt8) (panelState : Option PanelState)
    (policy : OwnershipFlapPolicy) (now : ℕ) : CoordRecord × InputObservationOutcome :=
  let previousCode := record.lastObservedCode
  let lastRawChange := if previousCode = some observed then record.lastRawChange else some now
  let settled := lastRawChange.all fun last => policy.settle ≤ now - last
  let record := { record with owned := false, lastRawChange := lastRawChange }
  let record :=
    if settled then
      { record.clearPending with contested := false, transitionTimes := [], lastRawChange := none }
    else record
  (record.clearSighting.recordSuccessState observed panelState,
    { InputObservationOutcome.default with
      contestedReadbackChanged := if previousCode = some observed then none else previousCode
      settled := settled })

/-- One more observation toward the transition that is pending, or the first toward another. -/
def notePending (observed : UInt8) : CoordRecord :=
  if record.pendingTransitionCode = some observed then
    { record with pendingTransitionCount := saturatingSucc record.pendingTransitionCount }
  else { record with pendingTransitionCode := some observed, pendingTransitionCount := 1 }

def noteSighting (classification : InputSourceObservation) : CoordRecord :=
  let record :=
    if classification = .peerInput then { record with peerSeenWhileOwned := .seen } else record
  if record.peerSeenWhileOwned = .seen then { record with returnConfirmCount := 0 } else record

/-- The verdict against what was observed. -/
def debounce (classification : InputSourceObservation) (observed : UInt8)
    (confirmations : UInt32) : CoordRecord × InputObservationOutcome :=
  match record.owned, decide (classification = .localInput) with
  | false, false => (record.clearPending, outcome)
  | true, true => record.clearPending.recordLocalReturn outcome confirmations
  | false, true =>
    let record := record.notePending observed
    if max confirmations 1 ≤ record.pendingTransitionCount then
      ({ record.clearPending with owned := true },
        { outcome with committedPriorOwned := some false })
    else (record, { outcome with deferredGainCount := some record.pendingTransitionCount })
  | true, false =>
    let record := (record.noteSighting classification).notePending observed
    if max confirmations 1 ≤ record.pendingTransitionCount then
      ({ record.clearPending.clearSighting with owned := false },
        { outcome with committedPriorOwned := some true })
    else (record, { outcome with deferredLossCount := some record.pendingTransitionCount })

/-- An observation of the input source, or a connector mismatch, which goes through the same
debounce as a loss on code 0. -/
def recordObservationAt (observation : Option InputObservation) (confirmations : UInt32)
    (policy : OwnershipFlapPolicy) (now : ℕ) : CoordRecord × InputObservationOutcome :=
  match observation with
  | none =>
    if record.contested then (record, .default)
    else record.debounce .default (.unknown 0) 0 confirmations
  | some input =>
    if record.contested then
      record.recordContestedObservation input.observed input.panelState policy now
    else
      let checked := record.recordDisagreement .default input.observed
      let debounced := checked.1.debounce checked.2 (input.aliases.classify input.observed)
        input.observed confirmations
      let limited :=
        if debounced.2.committedPriorOwned.isSome then
          debounced.1.recordFlapTransition debounced.2 policy now record.owned
        else debounced
      (limited.1.recordSuccessState input.observed input.panelState, limited.2)

def recordFailure : CoordRecord :=
  { record with consecutiveFailures := saturatingSucc record.consecutiveFailures }

def markOwnedImmediate (verifiedCode : UInt8) : CoordRecord :=
  { record.clearPending.clearSighting with
    owned := true
    contested := false
    transitionTimes := []
    lastRawChange := none
    consecutiveFailures := 0
    lastObservedCode := some verifiedCode }

end CoordRecord

/-! ## The cache -/

structure CoordinationHandle where
  records : DisplayId → Option CoordRecord

namespace CoordinationHandle
variable (handle : CoordinationHandle) (display : DisplayId)

def new (shared : List DisplayId) : CoordinationHandle where
  records display := if display ∈ shared then some .seeded else none

def modify (f : CoordRecord → CoordRecord) : CoordinationHandle where
  records := Function.update handle.records display ((handle.records display).map f)

def recordObservationAt (observation : Option InputObservation) (confirmations : UInt32)
    (policy : OwnershipFlapPolicy) (now : ℕ) : CoordinationHandle × InputObservationOutcome :=
  match handle.records display with
  | none => (handle, .default)
  | some record =>
    let recorded := record.recordObservationAt observation confirmations policy now
    ({ records := Function.update handle.records display (some recorded.1) }, recorded.2)

def recordInputObservationAt (observation : InputObservation) (confirmations : UInt32)
    (policy : OwnershipFlapPolicy) (now : ℕ) : CoordinationHandle × InputObservationOutcome :=
  handle.recordObservationAt display (some observation) confirmations policy now

def recordPanelMismatchAt (confirmations : UInt32) (now : ℕ) :
    CoordinationHandle × InputObservationOutcome :=
  handle.recordObservationAt display none confirmations .disabled now

def recordInputObservation (observed : UInt8) (aliases : InputCodeAliases)
    (confirmations : UInt32) (panelState : Option PanelState) (now : ℕ) :
    CoordinationHandle × InputObservationOutcome :=
  handle.recordInputObservationAt display ⟨observed, aliases, panelState⟩ confirmations .disabled
    now

def recordSuccess (observed expected : UInt8) (panelState : Option PanelState) (now : ℕ) :
    CoordinationHandle × Option Bool :=
  let aliases : InputCodeAliases :=
    { localRead := expected, localWrite := expected, peerRead := none, peerWrite := none }
  let recorded := handle.recordInputObservation display observed aliases 1 panelState now
  (recorded.1, recorded.2.committedPriorOwned)

def recordFailure : CoordinationHandle := handle.modify display CoordRecord.recordFailure

def markOwnedImmediate (verifiedCode : UInt8) : CoordinationHandle :=
  handle.modify display (·.markOwnedImmediate verifiedCode)

/-- A reload keeps the records of the displays that are still shared. -/
def reconcileShared (shared : List DisplayId) : CoordinationHandle where
  records display :=
    if display ∈ shared then some ((handle.records display).getD .seeded) else none

/-- The ownership gate: a display that is not shared is always owned. -/
def owns : Bool := (handle.records display).all (·.owned)

end CoordinationHandle
end Dormant
