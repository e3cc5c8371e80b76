import Dormant.Wear.LedgerStore
import Dormant.Wear.WallClock

/-!
# The shell of the wear tracker

The loop of `run` in `wear_tracker.rs`: ledgers are loaded for the displays of a generation, ticks
change them, and they are written to the files of their storage keys. All file operations succeed.
What an onlooker notes is kept with the state: the identity that each display has in the current
generation, what ledgers were loaded with, what ticks attributed, and what was written.
-/

namespace Dormant.TrackerShell
set_option autoImplicit false

open Files LedgerStore

/-! ## Wear in a file -/

/-- A number of a ledger that counts wear. -/
inductive Place where
  | total
  | cell (i : ℕ)

def wearAt (ledger : WearLedger) : Place → ℚ
  | .total => ledger.totalOnHours
  | .cell i => ledger.cells.getD i 0

def parse (fromStr : String → Option WearLedger) (bytes : ByteArray) : Option WearLedger :=
  (String.fromUTF8? bytes).bind fromStr

/-- No file holds no wear, and so does one that is not a ledger. -/
def fileWear (fromStr : String → Option WearLedger) (dir : WearDir) (identity : String)
    (place : Place) : ℚ :=
  match (dir (ledgerName (ledgerIdentityKey identity))).bind (parse fromStr) with
  | some ledger => wearAt ledger place
  | none => 0

/-! ## Turns -/

/-- A display of a generation, with the identity of its panel. -/
structure Panel where
  display : DisplayId
  identitySource : String
  nativeMax : UInt16

/-- A turn of the loop: the configuration, the executors of the current generation, the tick, and
the hours that a panel that is asked for them tells. -/
structure Turn where
  cfg : WearConfig
  panelTypes : DisplayId → PanelType
  executors : List Panel
  tick : TrackerTick
  usageHours : DisplayId → Option UInt32

/-- `flush` is `persist_all_dirty`, in the order of the map of ledgers. -/
inductive Event where
  | turn (t : Turn)
  | flush (order : List DisplayId)

/-- What a tick added to the ledger of a display with this identity. -/
structure Attribution where
  identity : String
  amount : Place → ℚ

structure Write where
  replaced : Option ByteArray
  ledger : WearLedger

/-- A display is in `resolved` when it has a storage key. -/
structure Shell where
  tracker : TrackerState
  storageKey : DisplayId → Option Name
  persistReadonly : DisplayId → Bool
  dir : WearDir
  identities : DisplayId → Option String
  loaded : String → Place → ℚ
  attributions : List Attribution
  writes : List Write

/-- What was attributed under an identity. -/
def attributed (attributions : List Attribution) (identity : String) (place : Place) : ℚ :=
  ((attributions.filter (·.identity = identity)).map (·.amount place)).sum

def trackedWear (tracker : TrackerState) (display : DisplayId) (place : Place) : ℚ :=
  match (tracker display).ledger with
  | some ledger => wearAt ledger place
  | none => 0

section
variable (fromStr : String → Option WearLedger) (toStr : WearLedger → Option String)
variable (pid seq : ℕ)

def start (dir : WearDir) : Shell where
  tracker := fun _ => ⟨none, false, false, none, 0, none⟩
  storageKey := fun _ => none
  persistReadonly := fun _ => false
  dir := dir
  identities := fun _ => none
  loaded := fileWear fromStr dir
  attributions := []
  writes := []

/-- Temporary files do not stay, so their numbers do not matter. -/
def writeSucceeds : AtomicOutcomes := ⟨true, pid, seq, .written, true, true⟩

def loadSucceeds : LoadOutcomes := ⟨true, true, writeSucceeds pid seq, true, true, true⟩

namespace Shell
variable (s : Shell) (t : Turn)

def loadArgs (p : Panel) : LoadArgs where
  identity := {
    key := String.ofList (ledgerIdentityKey p.identitySource)
    displayName := p.display.id
    configDisplayId := some p.display.id }
  panelType := t.panelTypes p.display
  rows := t.cfg.gridRows
  cols := t.cfg.gridCols
  nowEpochS := t.tick.nowEpochS

def loadResult (p : Panel) : LoadResult × WearDir :=
  LedgerStore.loadOrCreateLedger fromStr s.dir (ledgerIdentityKey p.identitySource)
    (sanitizeIdentityKey p.identitySource) (loadArgs t p) (loadSucceeds pid seq)

def loadPanel (p : Panel) : Shell :=
  match s.storageKey p.display with
  | some _ => s
  | none =>
    let (result, dir) := s.loadResult fromStr pid seq t p
    let d := s.tracker p.display
    { s with
      tracker := Function.update s.tracker p.display { d with
        ledger := some result.ledger
        pendingSeed := result.needsSeed || d.pendingSeed
        nativeMax := some p.nativeMax }
      storageKey := Function.update s.storageKey p.display
        (some (ledgerIdentityKey p.identitySource))
      persistReadonly := Function.update s.persistReadonly p.display
        (result.persistReadonly || s.persistReadonly p.display)
      dir
      loaded := Function.update s.loaded p.identitySource (wearAt result.ledger) }

/-- The panel type of the configuration, for a display that is resolved. -/
def refreshed (display : DisplayId) : DisplayWear :=
  let d := s.tracker display
  match s.storageKey display, d.ledger with
  | some _, some ledger =>
    if ledger.panelType = t.panelTypes display then d
    else { d with
      ledger := some { ledger with panelType := t.panelTypes display }
      lastPersistEpochS := 0 }
  | _, _ => d

def ensureLedgersLoaded : Shell :=
  let s := t.executors.foldl (fun s p => s.loadPanel fromStr pid seq t p) s
  { s with tracker := s.refreshed t }

def noteIdentities : Shell :=
  { s with identities := fun display =>
      match t.executors.find? (·.display = display) with
      | some p => some p.identitySource
      | none => s.identities display }

/-- `Persist`, and each round of `persist_all_dirty`. -/
def persistOne (display : DisplayId) : Shell :=
  if s.persistReadonly display then s
  else
    match (s.tracker display).ledger with
    | none => s
    | some ledger =>
      let key := (s.storageKey display).getD (ledgerIdentityKey display.id)
      { s with
        dir := persistLedger toStr s.dir key ledger (writeSucceeds pid seq)
        writes := s.writes ++ [⟨s.dir (ledgerName key), ledger⟩] }

def seedOne (display : DisplayId) : Shell :=
  if t.executors.any (·.display = display) then
    match t.usageHours display, (s.tracker display).ledger with
    | some hours, some ledger =>
      let seeded := { ledger with seededUsageHours := some hours }
      { s with
        tracker := Function.update s.tracker display
          { s.tracker display with ledger := some seeded } }
    | _, _ => s
  else s

def applyAction : TrackerAction → Shell
  | .persist display => s.persistOne toStr pid seq display
  | .seed display => s.seedOne t display
  | _ => s

def ticked (tracker : TrackerState) : Shell :=
  { s with
    tracker
    attributions := s.attributions ++ t.tick.displays.filterMap fun entry =>
      (s.identities entry.1).map fun identity =>
        ⟨identity, fun place =>
          trackedWear tracker entry.1 place - trackedWear s.tracker entry.1 place⟩ }

/-- Nothing comes of a panic. -/
def turn : Option Shell :=
  if t.cfg.enabled then
    let s := (s.ensureLedgersLoaded fromStr pid seq t).noteIdentities t
    (s.tracker.tickWithGrids t.cfg t.tick.nowEpochS t.tick.monotonicSpan t.tick.displays).map
      fun r => r.2.foldl (fun s action => s.applyAction toStr pid seq t action) (s.ticked t r.1)
  else some s

def flush (order : List DisplayId) : Shell :=
  order.foldl (fun s display => s.persistOne toStr pid seq display) s

def step : Event → Option Shell
  | .turn t => s.turn fromStr toStr pid seq t
  | .flush order => some (s.flush toStr pid seq order)

def run (events : List Event) : Option Shell :=
  events.foldlM (fun s event => s.step fromStr toStr pid seq event) s

end Shell

end

end Dormant.TrackerShell
