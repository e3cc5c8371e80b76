import Dormant.Foundations.Loops
import Dormant.Wear.Conserved
import Dormant.Wear.Mean
import Dormant.Wear.Tracker

/-!
# Ledgers from files

A file is accepted whatever number of cells it has. A resize needs a cell for each place of the
grid that the file names, and a file with the configured dimensions is never resized.
-/

namespace Dormant
set_option autoImplicit false

/-! ## Apportioning too few cells -/

namespace Regrid
variable {g : Regrid}

/-- The last place of the old grid has no cell. -/
theorem buildOldPrefix_short (hrows : 0 < g.oldRows) (hcols : 0 < g.oldCols)
    (hshort : g.oldNanos.length < g.oldRows * g.oldCols) : g.buildOldPrefix = none := by
  refine Loops.foldlM_stops (Nat.sub_lt hrows Nat.one_pos) (fun sums => ?_) _
  have hlast : (g.oldRows - 1) * g.oldCols + (g.oldCols - 1) + 1 = g.oldRows * g.oldCols := by
    have hsplit : (g.oldRows - 1 + 1) * g.oldCols = g.oldRows * g.oldCols := by
      rw [Nat.sub_add_cancel hrows]
    rw [Nat.add_mul, Nat.one_mul] at hsplit
    omega
  have hnone : g.oldNanos[(g.oldRows - 1) * g.oldCols + (g.oldCols - 1)]? = none :=
    List.getElem?_eq_none (by omega)
  have hcell (table : List ℕ × ℕ) :
      g.prefixCell (g.oldRows - 1) table (g.oldCols - 1) = none := by
    unfold prefixCell
    rw [hnone]
    rfl
  unfold prefixRow
  rw [Loops.foldlM_stops (Nat.sub_lt hcols Nat.one_pos) hcell]
  rfl

theorem apportionNanos_short (hrows : 0 < g.oldRows) (hcols : 0 < g.oldCols)
    (hshort : g.oldNanos.length < g.oldRows * g.oldCols) : g.apportionNanos = none := by
  unfold apportionNanos
  rw [buildOldPrefix_short hrows hcols hshort]
  cases g.newCountU <;> rfl

end Regrid

/-! ## The grid of a ledger -/

namespace WearLedger
variable {ledger ledger' : WearLedger} {rows cols : UInt16}

structure HasGrid (ledger : WearLedger) (rows cols : UInt16) : Prop where
  rows_eq : ledger.gridRows = rows
  cols_eq : ledger.gridCols = cols
  length : ledger.cells.length = rows.toNat * cols.toNat

/-- A file that says that it has the configured grid has it, and another has a cell for each of its
places. -/
def Usable (file : WearLedger) (rows cols : UInt16) : Prop :=
  if file.gridRows = rows ∧ file.gridCols = cols then
    file.cells.length = rows.toNat * cols.toNat
  else file.gridRows.toNat * file.gridCols.toNat ≤ file.cells.length

instance (file : WearLedger) (rows cols : UInt16) : Decidable (file.Usable rows cols) :=
  inferInstanceAs (Decidable (if file.gridRows = rows ∧ file.gridCols = cols then
      file.cells.length = rows.toNat * cols.toNat
    else file.gridRows.toNat * file.gridCols.toNat ≤ file.cells.length))

theorem toNat_pos {n : UInt16} (hn : n ≠ 0) : 0 < n.toNat :=
  Nat.pos_of_ne_zero fun hzero => hn (UInt16.toNat.inj hzero)

theorem HasGrid.usable (h : ledger.HasGrid rows cols) (rows' cols' : UInt16) :
    ledger.Usable rows' cols' := by
  have hlength := h.length
  rw [← h.rows_eq, ← h.cols_eq] at hlength
  unfold Usable
  split
  · rename_i hsame
    rw [hlength, hsame.1, hsame.2]
  · exact hlength.ge

theorem resizeGrid_covers (hrows : rows ≠ 0) (hcols : cols ≠ 0)
    (hother : ¬(ledger.gridRows = rows ∧ ledger.gridCols = cols))
    (hcovers : ledger.gridRows.toNat * ledger.gridCols.toNat ≤ ledger.cells.length) :
    ∃ ledger', ledger.resizeGrid rows cols = some ledger' ∧ ledger'.HasGrid rows cols := by
  unfold resizeGrid
  by_cases hempty : ledger.gridRows = 0 ∨ ledger.gridCols = 0 ∨ rows = 0 ∨ cols = 0
  · rw [if_pos hempty]
    exact ⟨_, rfl, rfl, rfl, List.length_replicate ..⟩
  · rw [if_neg hempty, if_neg hother]
    rw [not_or, not_or] at hempty
    have hcovered : (ledger.regrid rows cols).Covered := {
      oldRows_pos := toNat_pos hempty.1
      oldRows_lt := ledger.gridRows.toNat_lt
      oldCols_pos := toNat_pos hempty.2.1
      oldCols_lt := ledger.gridCols.toNat_lt
      newRows_pos := toNat_pos hrows
      newRows_lt := rows.toNat_lt
      newCols_pos := toNat_pos hcols
      newCols_lt := cols.toNat_lt
      length := hcovers.trans (List.length_map _).ge }
    rw [Regrid.apportionNanos_eq hcovered]
    refine ⟨_, rfl, rfl, rfl, ?_⟩
    refine (length_rebuildWearCells _ _).trans ?_
    rw [List.length_map, List.length_range]
    rfl

theorem resizeGrid_short
    (hother : ¬(ledger.gridRows = rows ∧ ledger.gridCols = cols)) (hrows : rows ≠ 0)
    (hcols : cols ≠ 0)
    (hshort : ledger.cells.length < ledger.gridRows.toNat * ledger.gridCols.toNat) :
    ledger.resizeGrid rows cols = none := by
  have hrows' : ledger.gridRows ≠ 0 := by
    intro hzero
    rw [hzero] at hshort
    simp at hshort
  have hcols' : ledger.gridCols ≠ 0 := by
    intro hzero
    rw [hzero] at hshort
    simp at hshort
  have hfull : ¬(ledger.gridRows = 0 ∨ ledger.gridCols = 0 ∨ rows = 0 ∨ cols = 0) := by
    simp [hrows, hcols, hrows', hcols']
  have hnone : (ledger.regrid rows cols).apportionNanos = none :=
    Regrid.apportionNanos_short (toNat_pos hrows') (toNat_pos hcols')
      ((List.length_map _).trans_lt hshort)
  unfold resizeGrid
  rw [if_neg hfull, if_neg hother, hnone]
  rfl

/-- The cells and the dimensions stay, but for the wear. -/
structure SameGrid (ledger ledger' : WearLedger) : Prop where
  rows : ledger'.gridRows = ledger.gridRows
  cols : ledger'.gridCols = ledger.gridCols
  length : ledger'.cells.length = ledger.cells.length

theorem SameGrid.refl (ledger : WearLedger) : ledger.SameGrid ledger := ⟨rfl, rfl, rfl⟩

theorem SameGrid.trans {ledger'' : WearLedger} (h : ledger.SameGrid ledger')
    (h' : ledger'.SameGrid ledger'') : ledger.SameGrid ledger'' :=
  ⟨h'.rows.trans h.rows, h'.cols.trans h.cols, h'.length.trans h.length⟩

theorem SameGrid.hasGrid_iff (h : ledger.SameGrid ledger') :
    ledger'.HasGrid rows cols ↔ ledger.HasGrid rows cols := by
  constructor
  · intro hgrid
    exact ⟨h.rows.symm.trans hgrid.rows_eq, h.cols.symm.trans hgrid.cols_eq,
      h.length.symm.trans hgrid.length⟩
  · intro hgrid
    exact ⟨h.rows.trans hgrid.rows_eq, h.cols.trans hgrid.cols_eq, h.length.trans hgrid.length⟩

theorem sameGrid_attributeUniform (ledger : WearLedger) (span : ℕ) (norm : Option ℚ) :
    ledger.SameGrid (ledger.attributeUniform span norm) := ⟨rfl, rfl, List.length_map _⟩

theorem sameGrid_attributeSpatial {span : ℕ} {norm : Option ℚ} {luma : List (Option ℚ)}
    (hdone : ledger.attributeSpatial span norm luma = .ok ledger') : ledger.SameGrid ledger' := by
  unfold attributeSpatial at hdone
  split at hdone
  · cases hdone
  · rename_i hlength
    cases hdone
    refine ⟨rfl, rfl, length_zipWith_add ?_⟩
    rw [List.length_map]
    exact not_not.mp hlength

theorem length_heatMap (ledger : WearLedger) : ledger.heatMap.length = ledger.cells.length := by
  unfold heatMap
  dsimp only
  split
  · exact List.length_replicate ..
  · exact List.length_map _

end WearLedger

open WearLedger

/-! ## What an attribution keeps -/

namespace WearLedger

/-- What every attribution of a span keeps. -/
structure Keeps (P : WearLedger → Prop) : Prop where
  uniform : ∀ ledger span norm, P ledger → P (ledger.attributeUniform span norm)
  spatial : ∀ {ledger ledger' span norm luma},
    ledger.attributeSpatial span norm luma = .ok ledger' → P ledger → P ledger'

namespace Keeps
variable {P : WearLedger → Prop} (hkeeps : Keeps P) {a : Attributed}
include hkeeps

theorem attributed_spatial (h : P a.ledger) (display : DisplayId) (span : ℕ) (norm : ℚ)
    (luma : Option LumaGrid) (mode : WearAttributionMode) :
    P (a.spatial display span norm luma mode).ledger := by
  unfold Attributed.spatial
  split
  · exact hkeeps.uniform _ _ _ h
  · split
    · exact hkeeps.uniform _ _ _ h
    · rename_i hdone
      exact hkeeps.spatial hdone h

theorem attributed_slices (h : P a.ledger) (display : DisplayId) (norm : ℚ)
    (slices : List ScreensaverExposureSlice) :
    P (slices.foldl (fun a slice =>
      a.spatial display slice.span norm slice.luma .uniform) a).ledger := by
  induction slices generalizing a with
  | nil => exact h
  | cons slice slices ih => exact ih (hkeeps.attributed_spatial h _ _ _ _ _)

theorem attributed_screensaver (h : P a.ledger) (display : DisplayId) (span : ℕ) (norm : ℚ)
    (exposures : Option (List ScreensaverExposureSlice)) :
    P (a.screensaver display span norm exposures).ledger := by
  unfold Attributed.screensaver
  split
  · exact hkeeps.uniform _ _ _ h
  · split
    · exact hkeeps.uniform _ _ _ h
    · exact hkeeps.attributed_slices h _ _ _

theorem attributeDisplay (h : P a.ledger) (cfg : WearConfig) (display : DisplayId)
    (monotonicSpan : ℕ) (nativeMax : Option UInt16) (inputs : WearInputs) :
    P (cfg.attributeDisplay display monotonicSpan nativeMax inputs a).ledger := by
  unfold WearConfig.attributeDisplay
  dsimp only
  cases stageLiteral inputs.snapshot with
  | renderScreensaver => exact hkeeps.attributed_screensaver h _ _ _ _
  | active =>
    dsimp only
    split
    · cases selectSampleForAttribution inputs.snapshot inputs.injectedGrid inputs.fallback with
      | sampled grid =>
        have hpushed : P (a.push (.sampledSelection display grid)).ledger := h
        exact hkeeps.attributed_spatial hpushed _ _ _ _ _
      | uniform fallback => exact hkeeps.uniform _ _ _ h
    · exact hkeeps.uniform _ _ _ h
  | renderBlack | blanked | unknown => exact hkeeps.uniform _ _ _ h

end Keeps
end WearLedger

theorem trackDwell_ledger (stage : StageLiteral) (shortCycleS : ℕ) (nowEpochS : UInt64)
    (w : Dwelt) : ∃ dwell, (trackDwell stage shortCycleS nowEpochS w).ledger =
      { w.ledger with lastLongDwellEpochS := dwell } := by
  unfold trackDwell
  dsimp only
  split
  · exact ⟨_, rfl⟩
  · split
    · exact ⟨_, rfl⟩
    · split
      · exact ⟨_, rfl⟩
      · exact ⟨_, rfl⟩

/-! ## A tick keeps the grid -/

theorem keeps_sameGrid (ledger : WearLedger) : Keeps ledger.SameGrid where
  uniform other span norm h := h.trans (sameGrid_attributeUniform other span norm)
  spatial hdone h := h.trans (sameGrid_attributeSpatial hdone)

theorem sameGrid_trackDwell {ledger : WearLedger} {w : Dwelt} (h : ledger.SameGrid w.ledger)
    (stage : StageLiteral) (shortCycleS : ℕ) (nowEpochS : UInt64) :
    ledger.SameGrid (trackDwell stage shortCycleS nowEpochS w).ledger := by
  obtain ⟨dwell, hdwell⟩ := trackDwell_ledger stage shortCycleS nowEpochS w
  rw [hdwell]
  exact ⟨h.rows, h.cols, h.length⟩

namespace WearConfig
variable {cfg : WearConfig} {display : DisplayId} {nowEpochS : UInt64} {monotonicSpan : ℕ}
variable {inputs : WearInputs} {d d' : DisplayWear} {ledger : WearLedger}

theorem regridded_same (hsame : ledger.gridRows = cfg.gridRows ∧ ledger.gridCols = cfg.gridCols) :
    cfg.regridded ledger = some ledger :=
  if_neg fun hother => hother.elim (fun h => h hsame.1) (fun h => h hsame.2)

theorem regridded_other
    (hother : ¬(ledger.gridRows = cfg.gridRows ∧ ledger.gridCols = cfg.gridCols)) :
    cfg.regridded ledger = ledger.resizeGrid cfg.gridRows cfg.gridCols :=
  if_pos (not_and_or.mp hother)

/-- A resize to the configured grid comes to it just when the ledger is usable. -/
theorem regridded_iff (hrows : cfg.gridRows ≠ 0) (hcols : cfg.gridCols ≠ 0) :
    (∃ ledger', cfg.regridded ledger = some ledger' ∧
      ledger'.HasGrid cfg.gridRows cfg.gridCols) ↔
        ledger.Usable cfg.gridRows cfg.gridCols := by
  unfold Usable
  by_cases hsame : ledger.gridRows = cfg.gridRows ∧ ledger.gridCols = cfg.gridCols
  · rw [if_pos hsame, regridded_same hsame]
    constructor
    · rintro ⟨_, hsome, hgrid⟩
      cases hsome
      exact hgrid.length
    · intro hlength
      exact ⟨_, rfl, hsame.1, hsame.2, hlength⟩
  · rw [if_neg hsame, regridded_other hsame]
    constructor
    · rintro ⟨_, hsome, -⟩
      refine Nat.le_of_not_lt fun hshort => ?_
      rw [resizeGrid_short hsame hrows hcols hshort] at hsome
      cases hsome
    · exact resizeGrid_covers hrows hcols hsame

theorem sameGrid_tickLedger (cfg : WearConfig) (display : DisplayId) (nowEpochS : UInt64)
    (monotonicSpan : ℕ) (inputs : WearInputs) (d : DisplayWear) (ledger : WearLedger) :
    ∃ ledger', (cfg.tickLedger display nowEpochS monotonicSpan inputs d ledger).1.ledger =
      some ledger' ∧ ledger.SameGrid ledger' := by
  have hattributed : ledger.SameGrid
      (cfg.tickAttributed display monotonicSpan inputs d ledger).ledger :=
    (keeps_sameGrid ledger).attributeDisplay (SameGrid.refl ledger) _ _ _ _ _
  refine ⟨_, rfl, sameGrid_trackDwell ?_ ..⟩
  exact ⟨hattributed.rows, hattributed.cols, hattributed.length⟩

theorem tickDisplay_eq (hledger : d.ledger = some ledger) :
    cfg.tickDisplay display nowEpochS monotonicSpan inputs d =
      (cfg.regridded ledger).map (cfg.tickLedger display nowEpochS monotonicSpan inputs d) := by
  unfold tickDisplay
  rw [hledger]

end WearConfig

/-! ## Runs of ticks -/

/-- A tick under a configuration with a grid. -/
structure WearTick where
  cfg : WearConfig
  rows_ne : cfg.gridRows ≠ 0
  cols_ne : cfg.gridCols ≠ 0
  nowEpochS : UInt64
  monotonicSpan : ℕ
  inputs : WearInputs

namespace WearTick

def next (tick : WearTick) (display : DisplayId) (d : DisplayWear) :
    Option (DisplayWear × List TrackerAction) :=
  tick.cfg.tickDisplay display tick.nowEpochS tick.monotonicSpan tick.inputs d

end WearTick

namespace DisplayWear

/-- No tick panics, and after each the ledger has the configured grid, with a heat for each cell. -/
def Survives (display : DisplayId) : DisplayWear → List WearTick → Prop
  | _, [] => True
  | d, tick :: ticks =>
    ∃ d' actions ledger, tick.next display d = some (d', actions) ∧ d'.ledger = some ledger ∧
      ledger.HasGrid tick.cfg.gridRows tick.cfg.gridCols ∧
        ledger.heatMap.length = ledger.cells.length ∧ Survives display d' ticks

variable {display : DisplayId} {d : DisplayWear} {ledger : WearLedger}

theorem survives_of_usable (hledger : d.ledger = some ledger) (ticks : List WearTick)
    (husable : ∀ tick ∈ ticks.head?, ledger.Usable tick.cfg.gridRows tick.cfg.gridCols) :
    d.Survives display ticks := by
  induction ticks generalizing d ledger with
  | nil => trivial
  | cons tick ticks ih =>
    obtain ⟨resized, hresized, hgrid⟩ :=
      (WearConfig.regridded_iff tick.rows_ne tick.cols_ne).mpr (husable tick rfl)
    obtain ⟨ledger', hledger', hsame⟩ := WearConfig.sameGrid_tickLedger tick.cfg display
      tick.nowEpochS tick.monotonicSpan tick.inputs d resized
    have hgrid' := hsame.hasGrid_iff.mpr hgrid
    have hnext : tick.next display d = some (tick.cfg.tickLedger display tick.nowEpochS
        tick.monotonicSpan tick.inputs d resized) := by
      unfold WearTick.next
      rw [WearConfig.tickDisplay_eq hledger, hresized]
      rfl
    exact ⟨_, _, ledger', hnext, hledger', hgrid', length_heatMap ledger',
      ih hledger' fun _ _ => hgrid'.usable _ _⟩

theorem usable_of_survives (hledger : d.ledger = some ledger) {tick : WearTick}
    {ticks : List WearTick} (h : d.Survives display (tick :: ticks)) :
    ledger.Usable tick.cfg.gridRows tick.cfg.gridCols := by
  obtain ⟨d', actions, ledger', hnext, hledger', hgrid, -⟩ := h
  refine (WearConfig.regridded_iff tick.rows_ne tick.cols_ne).mp ?_
  unfold WearTick.next at hnext
  rw [WearConfig.tickDisplay_eq hledger] at hnext
  obtain ⟨resized, hresized, hticked⟩ := Option.map_eq_some_iff.mp hnext
  obtain ⟨ledger'', hledger'', hsame⟩ := WearConfig.sameGrid_tickLedger tick.cfg display
    tick.nowEpochS tick.monotonicSpan tick.inputs d resized
  rw [hticked] at hledger''
  cases hledger''.symm.trans hledger'
  exact ⟨resized, hresized, hsame.hasGrid_iff.mp hgrid⟩

end DisplayWear

/-- The ledger of a file of a supported version survives every run of ticks, with exactly the
configured cells after the first, just when the file is usable with the first tick's grid. -/
theorem ledger_file_survives (display : DisplayId) (file : WearLedger)
    (hversion : ¬ file.schemaVersion > wearSchemaVersion) (persistReadonly renamed : Bool)
    (identity : WearIdentity) (panelType : PanelType) (rows cols : UInt16) (loadedAt : UInt64)
    (d : DisplayWear)
    (hloaded : d.ledger = some (loadOrCreateLedger (.contents (some file) persistReadonly) renamed
      identity panelType rows cols loadedAt).ledger)
    (tick : WearTick) (ticks : List WearTick) :
    d.Survives display (tick :: ticks) ↔
      file.Usable tick.cfg.gridRows tick.cfg.gridCols := by
  have hledger : d.ledger = some { file with identity := identity, panelType := panelType } := by
    rw [hloaded]
    unfold loadOrCreateLedger
    dsimp only
    rw [if_neg hversion]
  constructor
  · exact fun h => DisplayWear.usable_of_survives hledger h
  · intro husable
    refine DisplayWear.survives_of_usable hledger _ fun first hfirst => ?_
    cases hfirst
    exact husable

/-! ## Files with missing cells -/

/-- The grid is two by two. -/
def squareConfig : WearConfig where
  enabled := true
  sampleInterval := 60000000000
  persistInterval := 300000000000
  gridRows := 2
  gridCols := 2
  fallbackBrightness := 1
  screensaverFactor := 1
  shortCycleDwell := 600000000000
  advisoryAfter := 3600000000000
  activeSampling := false
  selectedDisplays := []

def squareTick : WearTick where
  cfg := squareConfig
  rows_ne := by decide
  cols_ne := by decide
  nowEpochS := 1000
  monotonicSpan := 60000000000
  inputs := ⟨⟨.active, none⟩, none, none, none, none⟩

def fileWith (rows cols : UInt16) (cells : List ℚ) : WearLedger :=
  { WearLedger.new deskIdentity .unknown rows cols 0 with cells := cells }

def loadedFrom (file : WearLedger) : DisplayWear where
  ledger := some (loadOrCreateLedger (.contents (some file) false) true deskIdentity .unknown 2 2
    1000).ledger
  pendingSeed := false
  advisoryActive := false
  dwellStart := none
  lastPersistEpochS := 0
  nativeMax := none

/-- A row of two places with one cell panics, and a square with one cell stays so. -/
theorem short_files_accepted :
    squareTick.next ⟨"panel"⟩ (loadedFrom (fileWith 1 2 [1])) = none ∧
      ∃ d actions ledger,
        squareTick.next ⟨"panel"⟩ (loadedFrom (fileWith 2 2 [1])) = some (d, actions) ∧
          d.ledger = some ledger ∧ ledger.cells.length = 1 := by
  refine ⟨by decide +kernel, _, _, _, rfl, rfl, by decide +kernel⟩

theorem ledger_file_survives_square :
    (loadedFrom (fileWith 1 2 [1, 2])).Survives ⟨"panel"⟩ [squareTick, squareTick] ↔
      (fileWith 1 2 [1, 2]).Usable 2 2 :=
  ledger_file_survives ⟨"panel"⟩ (fileWith 1 2 [1, 2]) (by decide) false true deskIdentity .unknown
    2 2 1000 (loadedFrom (fileWith 1 2 [1, 2])) rfl squareTick [squareTick]

end Dormant
