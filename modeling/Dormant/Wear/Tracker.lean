import Dormant.Foundations.Strips
import Dormant.Rules.Types
import Dormant.Wear.Ledger

/-!
# The ticks of the wear tracker

`tick_with_grids` of `wear_tracker.rs`, with what it calls of `wear.rs` and `spatial_grid.rs`.
Hours and grids are exact rationals, and spans are counts of nanoseconds. The entries of the
tracker's maps for a display are one record; nothing comes of a panic.
-/

namespace Dormant
set_option autoImplicit false

/-! ## Grids -/

def lumaGridRows : UInt16 := 9

def lumaGridCols : UInt16 := 16

structure LumaGrid where
  cells : List ℚ
  deriving DecidableEq, Repr

def checkedCellCount (rows cols : UInt16) : Option ℕ :=
  if rows ≠ 0 ∧ cols ≠ 0 then some (rows.toNat * cols.toNat) else none

/-- The average of the source cells over a cell of the new grid. -/
def resampledCell (values : List ℚ) (srcRows srcCols dstRows dstCols dstRow dstCol : ℕ) : ℚ :=
  let side (i n : ℕ) : ℚ := i / n
  let weighted := ((List.range srcRows).map fun srcRow =>
    ((List.range srcCols).map fun srcCol =>
      values.getD (srcRow * srcCols + srcCol) 0 *
        Strips.overlap (side dstRow dstRows) (side (dstRow + 1) dstRows)
          (side srcRow srcRows) (side (srcRow + 1) srcRows) *
        Strips.overlap (side dstCol dstCols) (side (dstCol + 1) dstCols)
          (side srcCol srcCols) (side (srcCol + 1) srcCols)).sum).sum
  weighted / ((side (dstRow + 1) dstRows - side dstRow dstRows) *
    (side (dstCol + 1) dstCols - side dstCol dstCols))

def resampleArea (values : List ℚ) (srcRows srcCols dstRows dstCols : UInt16) :
    Option (List ℚ) := do
  let srcCount ← checkedCellCount srcRows srcCols
  let _ ← checkedCellCount dstRows dstCols
  if values.length ≠ srcCount then none
  else if srcRows = dstRows ∧ srcCols = dstCols then some values
  else
    some ((List.range dstRows.toNat).flatMap fun dstRow =>
      (List.range dstCols.toNat).map fun dstCol =>
        resampledCell values srcRows.toNat srcCols.toNat dstRows.toNat dstCols.toNat dstRow dstCol)

namespace WearLedger
variable (ledger : WearLedger)

def heatMap : List ℚ :=
  let greatest := ledger.cells.foldl max 0
  if greatest ≤ 0 then List.replicate ledger.cells.length 0
  else ledger.cells.map (· / greatest)

end WearLedger

/-! ## Loading -/

/-- What the files of a storage key hold: a ledger, where it parses as one. -/
inductive LedgerRead where
  | absent
  | unreadable
  | contents (parsed : Option WearLedger) (persistReadonly : Bool)
  deriving DecidableEq, Repr

structure LoadResult where
  ledger : WearLedger
  needsSeed : Bool
  persistReadonly : Bool
  deriving DecidableEq, Repr

/-- A corrupt file is renamed, which may fail. -/
def loadOrCreateLedger (file : LedgerRead) (renamed : Bool) (identity : WearIdentity)
    (panelType : PanelType) (rows cols : UInt16) (nowEpochS : UInt64) : LoadResult :=
  let fresh := WearLedger.new identity panelType rows cols nowEpochS
  match file with
  | .absent => ⟨fresh, true, false⟩
  | .unreadable => ⟨fresh, false, true⟩
  | .contents (some ledger) persistReadonly =>
    if ledger.schemaVersion > wearSchemaVersion then ⟨fresh, false, true⟩
    else ⟨{ ledger with identity := identity, panelType := panelType }, false, persistReadonly⟩
  | .contents none persistReadonly => ⟨fresh, false, if renamed then persistReadonly else true⟩

/-! ## What a tick is given -/

def secs (span : ℕ) : ℕ := span / 1000000000

/-- The part of `[wear]` that a tick reads. -/
structure WearConfig where
  enabled : Bool
  sampleInterval : ℕ
  persistInterval : ℕ
  gridRows : UInt16
  gridCols : UInt16
  fallbackBrightness : ℚ
  screensaverFactor : ℚ
  shortCycleDwell : ℕ
  advisoryAfter : ℕ
  activeSampling : Bool
  selectedDisplays : List DisplayId

inductive SnapshotPhase where
  | active
  | grace
  | blanked
  | other
  deriving DecidableEq, Repr

/-- A display in a snapshot. -/
structure WearSnapshot where
  phase : SnapshotPhase
  stage : Option StageKind
  deriving DecidableEq, Repr

inductive SampleFallbackTag where
  | missing
  | stale
  | suspended
  | sourceMismatch
  | sourceUnknown
  deriving DecidableEq, Repr

structure ScreensaverExposureSlice where
  span : ℕ
  luma : Option LumaGrid
  deriving DecidableEq, Repr

/-- What a tick knows of a display. A sample is a brightness that was read. -/
structure WearInputs where
  snapshot : WearSnapshot
  sample : Option (Option UInt16)
  injectedGrid : Option LumaGrid
  fallback : Option SampleFallbackTag
  exposures : Option (List ScreensaverExposureSlice)

inductive WearAttributionMode where
  | uniform
  | sampled
  deriving DecidableEq, Repr

inductive TrackerAction where
  | sampledSelection (display : DisplayId) (grid : LumaGrid)
  | uniformSelection (display : DisplayId) (fallback : Option SampleFallbackTag)
  | attributeWear (display : DisplayId) (span : ℕ) (norm : ℚ) (mode : WearAttributionMode)
  | persist (display : DisplayId)
  | emitSnapshot (display : DisplayId) (totalOnHours : ℚ) (sampleCount : UInt64)
      (attributionMode : WearAttributionMode)
  | emitAdvisory (display : DisplayId) (hoursSinceLongDwell : ℕ)
  | seed (display : DisplayId)
  deriving DecidableEq, Repr

/-- The entries of the tracker's maps for a display; an absent time is zero, and an absent flag is
not set. -/
structure DisplayWear where
  ledger : Option WearLedger
  pendingSeed : Bool
  advisoryActive : Bool
  dwellStart : Option UInt64
  lastPersistEpochS : UInt64
  nativeMax : Option UInt16
  deriving DecidableEq, Repr

/-! ## The stage of a display -/

inductive StageLiteral where
  | renderScreensaver
  | renderBlack
  | blanked
  | active
  | unknown
  deriving DecidableEq, Repr

def stageLiteral (snapshot : WearSnapshot) : StageLiteral :=
  match snapshot.stage, snapshot.phase with
  | some .renderScreensaver, _ => .renderScreensaver
  | some .renderBlack, _ => .renderBlack
  | some (.controller _), _ => .blanked
  | none, .active | none, .grace => .active
  | none, .blanked => .blanked
  | none, .other => .unknown

def clampUnit (value : ℚ) : ℚ := max 0 (min value 1)

def nativeMaxDefault : UInt16 := 100

def brightnessNorm (brightness : Option UInt16) (nativeMax : UInt16) (fallback : ℚ) : ℚ :=
  clampUnit (match brightness with
    | some b => (b.toNat : ℚ) / nativeMax.toNat
    | none => fallback)

inductive AttributionSelection where
  | sampled (grid : LumaGrid)
  | uniform (fallback : Option SampleFallbackTag)
  deriving DecidableEq, Repr

def selectSampleForAttribution (snapshot : WearSnapshot) (sampled : Option LumaGrid)
    (fallback : Option SampleFallbackTag) : AttributionSelection :=
  if snapshot.stage = none ∧ (snapshot.phase = .active ∨ snapshot.phase = .grace) then
    match sampled with
    | some grid => .sampled grid
    | none => .uniform fallback
  else .uniform none

/-! ## Attribution -/

/-- What is attributed, and the actions that tell of it. -/
structure Attributed where
  ledger : WearLedger
  mode : WearAttributionMode
  actions : List TrackerAction

namespace Attributed
variable (a : Attributed) (display : DisplayId) (span : ℕ) (norm : ℚ)

def push (action : TrackerAction) : Attributed := { a with actions := a.actions ++ [action] }

/-- `screensaver_uniform_fallback` and `sampled_uniform_fallback`, which differ in what they log. -/
def uniform : Attributed where
  ledger := a.ledger.attributeUniform span (some norm)
  mode := a.mode
  actions := a.actions ++ [.attributeWear display span norm .uniform]

/-- A grid that does not fit falls back to a uniform attribution. -/
def spatial (luma : Option LumaGrid) (mode : WearAttributionMode) : Attributed :=
  match luma.bind fun grid =>
    resampleArea grid.cells lumaGridRows lumaGridCols a.ledger.gridRows a.ledger.gridCols with
  | none => a.uniform display span norm
  | some cells =>
    match a.ledger.attributeSpatial span (some norm) (cells.map some) with
    | .error _ => a.uniform display span norm
    | .ok ledger => ⟨ledger, mode, a.actions ++ [.attributeWear display span norm mode]⟩

def screensaver (exposures : Option (List ScreensaverExposureSlice)) : Attributed :=
  match exposures with
  | none => a.uniform display span norm
  | some slices =>
    if slices.isEmpty ∨ (slices.map ScreensaverExposureSlice.span).sum ≠ span then
      a.uniform display span norm
    else
      slices.foldl (fun a slice => a.spatial display slice.span norm slice.luma .uniform) a

end Attributed

/-! ## Dwell and advisory -/

def secondsSinceEffectiveDwell (ledger : WearLedger) (nowEpochS : UInt64) : ℕ :=
  let observed := ledger.lastLongDwellEpochS.getD 0
  let reference := max observed.toNat ledger.advisoryBaselineEpochS.toNat
  nowEpochS.toNat - reference

def hoursSinceEffectiveDwell (ledger : WearLedger) (nowEpochS : UInt64) : ℕ :=
  secondsSinceEffectiveDwell ledger nowEpochS / 3600

def advisoryActive (ledger : WearLedger) (advisoryAfter : ℕ) (nowEpochS : UInt64) : Bool :=
  secondsSinceEffectiveDwell ledger nowEpochS > secs advisoryAfter

/-- The ledger, the latch of the advisory and the start of a dark dwell. -/
structure Dwelt where
  ledger : WearLedger
  advisoryActive : Bool
  dwellStart : Option UInt64

def trackDwell (stage : StageLiteral) (shortCycleS : ℕ) (nowEpochS : UInt64) (w : Dwelt) :
    Dwelt :=
  let isDark := stage = .renderBlack ∨ stage = .blanked
  match w.dwellStart with
  | none => { w with dwellStart := if isDark then some nowEpochS else none }
  | some start =>
    if isDark then w
    else if shortCycleS ≤ nowEpochS.toNat - start.toNat then
      { ledger := { w.ledger with lastLongDwellEpochS := some nowEpochS }
        advisoryActive := false
        dwellStart := none }
    else { w with dwellStart := none }

/-! ## A tick -/

namespace WearConfig
variable (cfg : WearConfig)

def maxSpan : ℕ := 2 * cfg.sampleInterval

def persistIntervalS : ℕ := max (secs cfg.persistInterval) 1

def samples (display : DisplayId) : Bool :=
  cfg.activeSampling && cfg.selectedDisplays.contains display

/-- The span of a stage. -/
def span (monotonicSpan : ℕ) (stage : StageLiteral)
    (exposures : Option (List ScreensaverExposureSlice)) : ℕ :=
  match stage, exposures with
  | .renderScreensaver, some slices => (slices.map ScreensaverExposureSlice.span).sum
  | _, _ => min monotonicSpan cfg.maxSpan

def norm (stage : StageLiteral) (nativeMax : Option UInt16) (sample : Option (Option UInt16)) :
    ℚ :=
  match stage with
  | .renderScreensaver => clampUnit cfg.screensaverFactor
  | .renderBlack | .blanked => 0
  | .active =>
    brightnessNorm (sample.getD none) (nativeMax.getD nativeMaxDefault) cfg.fallbackBrightness
  | .unknown => clampUnit cfg.fallbackBrightness

/-- The attribution of a tick. -/
def attributeDisplay (display : DisplayId) (monotonicSpan : ℕ) (nativeMax : Option UInt16)
    (inputs : WearInputs) (a : Attributed) : Attributed :=
  let stage := stageLiteral inputs.snapshot
  let span := cfg.span monotonicSpan stage inputs.exposures
  let norm := cfg.norm stage nativeMax inputs.sample
  match stage with
  | .renderScreensaver => a.screensaver display span norm inputs.exposures
  | .active =>
    if cfg.samples display then
      match selectSampleForAttribution inputs.snapshot inputs.injectedGrid inputs.fallback with
      | .sampled grid =>
        (a.push (.sampledSelection display grid)).spatial display span norm (some grid) .sampled
      | .uniform fallback =>
        (a.push (.uniformSelection display fallback)).uniform display span norm
    else a.uniform display span norm
  | _ => a.uniform display span norm

/-- The head of a tick. -/
def regridded (ledger : WearLedger) : Option WearLedger :=
  if ledger.gridRows ≠ cfg.gridRows ∨ ledger.gridCols ≠ cfg.gridCols then
    ledger.resizeGrid cfg.gridRows cfg.gridCols
  else some ledger

/-- The attribution of a tick, after the seed of a ledger without a file. -/
def tickAttributed (display : DisplayId) (monotonicSpan : ℕ) (inputs : WearInputs)
    (d : DisplayWear) (ledger : WearLedger) : Attributed :=
  cfg.attributeDisplay display monotonicSpan d.nativeMax inputs
    { ledger, mode := .uniform, actions := if d.pendingSeed then [.seed display] else [] }

/-- The rest of a tick, with the ledger that it works on. -/
def tickLedger (display : DisplayId) (nowEpochS : UInt64) (monotonicSpan : ℕ)
    (inputs : WearInputs) (d : DisplayWear) (ledger : WearLedger) :
    DisplayWear × List TrackerAction :=
  let a := cfg.tickAttributed display monotonicSpan inputs d ledger
  let w := trackDwell (stageLiteral inputs.snapshot) (secs cfg.shortCycleDwell) nowEpochS
    { ledger := { a.ledger with lastSampleAtEpochS := some nowEpochS }
      advisoryActive := d.advisoryActive
      dwellStart := d.dwellStart }
  let advises := advisoryActive w.ledger cfg.advisoryAfter nowEpochS && !w.advisoryActive
  let advisories :=
    if advises then [.emitAdvisory display (hoursSinceEffectiveDwell w.ledger nowEpochS)] else []
  let persists := decide (cfg.persistIntervalS ≤ nowEpochS.toNat - d.lastPersistEpochS.toNat)
  let saves :=
    if persists then
      [.persist display, .emitSnapshot display w.ledger.totalOnHours w.ledger.sampleCount a.mode]
    else []
  ({ d with
    ledger := some w.ledger
    pendingSeed := false
    advisoryActive := w.advisoryActive || advises
    dwellStart := w.dwellStart
    lastPersistEpochS := if persists then nowEpochS else d.lastPersistEpochS },
    a.actions ++ advisories ++ saves)

/-- A display in a tick. -/
def tickDisplay (display : DisplayId) (nowEpochS : UInt64) (monotonicSpan : ℕ)
    (inputs : WearInputs) (d : DisplayWear) : Option (DisplayWear × List TrackerAction) :=
  match d.ledger with
  | none => some (d, [])
  | some ledger =>
    (cfg.regridded ledger).map (cfg.tickLedger display nowEpochS monotonicSpan inputs d)

end WearConfig

/-- The tracker's maps. -/
abbrev TrackerState := DisplayId → DisplayWear

namespace TrackerState

def tickOne (cfg : WearConfig) (nowEpochS : UInt64) (monotonicSpan : ℕ)
    (result : TrackerState × List TrackerAction) (entry : DisplayId × WearInputs) :
    Option (TrackerState × List TrackerAction) := do
  let (d, actions) ← cfg.tickDisplay entry.1 nowEpochS monotonicSpan entry.2 (result.1 entry.1)
  return (Function.update result.1 entry.1 d, result.2 ++ actions)

/-- The displays come in the order of the snapshot's map. -/
def tickWithGrids (s : TrackerState) (cfg : WearConfig) (nowEpochS : UInt64) (monotonicSpan : ℕ)
    (displays : List (DisplayId × WearInputs)) : Option (TrackerState × List TrackerAction) :=
  if cfg.enabled then displays.foldlM (tickOne cfg nowEpochS monotonicSpan) (s, [])
  else some (s, [])

end TrackerState

end Dormant
