import Mathlib.Data.Rat.Floor
import Dormant.Wear.Apportion

/-!
# The wear ledger of a panel

`WearLedger` of `wear.rs`, with its attributions and `resize_grid`. Hours are exact rationals. A
reading that is not finite is `none`, and a span is a count of nanoseconds.
-/

namespace Dormant
set_option autoImplicit false

inductive PanelType where
  | woled
  | qdOled
  | unknown
  deriving DecidableEq, Repr

structure WearIdentity where
  key : String
  displayName : String
  configDisplayId : Option String
  deriving DecidableEq, Repr

/-- A cell is its `wear_hours`. -/
structure WearLedger where
  schemaVersion : UInt32
  identity : WearIdentity
  panelType : PanelType
  gridRows : UInt16
  gridCols : UInt16
  cells : List ℚ
  totalOnHours : ℚ
  seededUsageHours : Option UInt32
  sampleCount : UInt64
  lastSampleAtEpochS : Option UInt64
  lastLongDwellEpochS : Option UInt64
  advisoryBaselineEpochS : UInt64
  deriving DecidableEq, Repr

def wearSchemaVersion : UInt32 := 1

def nanosPerHour : ℚ := 3600000000000

def finiteClamp : Option ℚ → ℚ
  | some value => max 0 (min value 1)
  | none => 0

/-- `as_secs_f64() / 3600.0`. -/
def spanHours (span : ℕ) : ℚ := span / nanosPerHour

/-- `(wear_hours * NANOS_PER_HOUR).round() as u64`. The cast saturates. -/
def hoursToNanos (wearHours : ℚ) : UInt64 :=
  UInt64.ofNat (min ⌊wearHours * nanosPerHour + 1 / 2⌋₊ (UInt64.size - 1))

def nanosToHours (nanos : ℕ) : ℚ := nanos / nanosPerHour

/-- The last cell takes what the others leave of the old sum. -/
def rebuildWearCells (newNanos : List ℕ) (oldSum : ℚ) : List ℚ :=
  let cells := newNanos.map nanosToHours
  if cells.isEmpty then cells
  else cells.dropLast ++ [max (oldSum - cells.dropLast.sum) 0]

namespace WearLedger

def new (identity : WearIdentity) (panelType : PanelType) (rows cols : UInt16)
    (nowEpochS : UInt64) : WearLedger where
  schemaVersion := wearSchemaVersion
  identity := identity
  panelType := panelType
  gridRows := rows
  gridCols := cols
  cells := List.replicate (rows.toNat * cols.toNat) 0
  totalOnHours := 0
  seededUsageHours := none
  sampleCount := 0
  lastSampleAtEpochS := none
  lastLongDwellEpochS := none
  advisoryBaselineEpochS := nowEpochS

variable (ledger : WearLedger)

def attributeUniform (span : ℕ) (brightnessNorm : Option ℚ) : WearLedger :=
  let n := finiteClamp brightnessNorm
  let h := spanHours span * n
  { ledger with
    cells := ledger.cells.map (· + h)
    totalOnHours := ledger.totalOnHours + h
    sampleCount := ledger.sampleCount + 1 }

inductive SpatialAttributionError where
  | lengthMismatch (expected actual : ℕ)
  deriving DecidableEq, Repr

def attributeSpatial (span : ℕ) (brightnessNorm : Option ℚ) (luma : List (Option ℚ)) :
    Except SpatialAttributionError WearLedger :=
  if luma.length ≠ ledger.cells.length then
    .error (.lengthMismatch ledger.cells.length luma.length)
  else
    let brightness := finiteClamp brightnessNorm
    let contributions := luma.map fun value => spanHours span * brightness * finiteClamp value
    let total := contributions.sum
    .ok { ledger with
      cells := ledger.cells.zipWith (· + ·) contributions
      totalOnHours :=
        if ledger.cells.isEmpty then ledger.totalOnHours
        else
          ledger.totalOnHours + total / (min ledger.cells.length (UInt32.size - 1) : ℕ)
      sampleCount := ledger.sampleCount + 1 }

/-- What a resize hands to `apportion_nanos`. -/
def regrid (rows cols : UInt16) : Regrid where
  oldNanos := ledger.cells.map hoursToNanos
  oldRows := ledger.gridRows.toNat
  oldCols := ledger.gridCols.toNat
  newRows := rows.toNat
  newCols := cols.toNat

def resizeGrid (rows cols : UInt16) : Option WearLedger :=
  if ledger.gridRows = 0 ∨ ledger.gridCols = 0 ∨ rows = 0 ∨ cols = 0 then
    some { ledger with
      gridRows := rows
      gridCols := cols
      cells := List.replicate (rows.toNat * cols.toNat) 0
      totalOnHours := 0 }
  else if ledger.gridRows = rows ∧ ledger.gridCols = cols then some ledger
  else do
    let oldSum := ledger.cells.sum
    let newNanos ← (ledger.regrid rows cols).apportionNanos
    return { ledger with
      gridRows := rows
      gridCols := cols
      cells := rebuildWearCells newNanos oldSum }

end WearLedger

end Dormant
