import Mathlib.Algebra.BigOperators.Group.List.Basic
import Mathlib.Algebra.Order.BigOperators.Group.List
import Mathlib.Tactic.Linarith
import Mathlib.Tactic.Positivity
import Dormant.Foundations.Runs
import Dormant.Wear.Conserved
import Dormant.Wear.Ledger

/-!
# The total hours as the mean of the panel

Runs of a ledger: attributions and resizes in any order. Attributions keep `total_on_hours` at the
mean of the cells. A resize conserves the sum of the cells and leaves `total_on_hours` as it is, so
it keeps the mean if it keeps the number of cells.
-/

namespace Dormant
set_option autoImplicit false

structure GridSize where
  rows : UInt16
  cols : UInt16
  rows_ne : rows ≠ 0
  cols_ne : cols ≠ 0

def GridSize.count (size : GridSize) : ℕ := size.rows.toNat * size.cols.toNat

theorem GridSize.count_pos (size : GridSize) : 0 < size.count :=
  Nat.mul_pos (Nat.pos_of_ne_zero fun hzero => size.rows_ne (UInt16.toNat.inj hzero))
    (Nat.pos_of_ne_zero fun hzero => size.cols_ne (UInt16.toNat.inj hzero))

inductive LedgerOp where
  | attributeUniform (span : ℕ) (brightnessNorm : Option ℚ)
  | attributeSpatial (span : ℕ) (brightnessNorm : Option ℚ) (luma : List (Option ℚ))
  | resizeGrid (size : GridSize)

/-- Nothing comes of a panic. -/
def WearLedger.after (ledger : WearLedger) : LedgerOp → Option WearLedger
  | .attributeUniform span brightnessNorm => some (ledger.attributeUniform span brightnessNorm)
  | .attributeSpatial span brightnessNorm luma =>
    match ledger.attributeSpatial span brightnessNorm luma with
    | .ok ledger' => some ledger'
    | .error _ => some ledger
  | .resizeGrid size => ledger.resizeGrid size.rows size.cols

def ledgers : Runs.System WearLedger LedgerOp Unit where
  next ledger op := ((ledger.after op).getD ledger, [])

namespace WearLedger
variable (ledger : WearLedger)

/-- One cell for each place of a nonempty grid. -/
structure Shaped : Prop where
  rows_ne : ledger.gridRows ≠ 0
  cols_ne : ledger.gridCols ≠ 0
  length : ledger.cells.length = ledger.gridRows.toNat * ledger.gridCols.toNat

def TotalIsMean : Prop := ledger.totalOnHours * ledger.cells.length = ledger.cells.sum

/-- The rounding of the cells to nanoseconds adds no more than what the last new cell gets. -/
def RoundsWithin (size : GridSize) : Prop :=
  let g := ledger.regrid size.rows size.cols
  ((g.oldNanos.map UInt64.toNat).sum : ℕ) ≤
    ledger.cells.sum * nanosPerHour + (⌊g.share (size.count - 1)⌋₊ + g.extra (size.count - 1) : ℕ)

/-- A resize keeps the grid, or the number of cells, or there is no wear yet. -/
def KeepsMean : LedgerOp → Prop
  | .resizeGrid size =>
    ledger.gridRows = size.rows ∧ ledger.gridCols = size.cols ∨ (∀ cell ∈ ledger.cells, cell = 0) ∨
      size.count = ledger.cells.length ∧ ledger.RoundsWithin size
  | _ => True

instance (size : GridSize) : Decidable (ledger.RoundsWithin size) :=
  inferInstanceAs (Decidable (_ ≤ _))

instance decidableKeepsMean : ∀ op, Decidable (ledger.KeepsMean op)
  | .resizeGrid _ => inferInstanceAs (Decidable (_ ∨ _ ∨ _))
  | .attributeUniform _ _ => isTrue trivial
  | .attributeSpatial _ _ _ => isTrue trivial

instance : Decidable ledger.TotalIsMean := inferInstanceAs (Decidable (_ = _))

variable {ledger}

/-! ## Attributions -/

theorem sum_map_add (xs : List ℚ) (h : ℚ) : (xs.map (· + h)).sum = xs.sum + xs.length * h := by
  induction xs with
  | nil => simp
  | cons x xs ih =>
    rw [List.map_cons, List.sum_cons, ih, List.sum_cons, List.length_cons]
    push_cast
    ring

theorem sum_zipWith_add {xs ys : List ℚ} (h : ys.length = xs.length) :
    (xs.zipWith (· + ·) ys).sum = xs.sum + ys.sum := by
  induction xs generalizing ys with
  | nil =>
    obtain rfl := List.length_eq_zero_iff.mp h
    simp
  | cons x xs ih =>
    cases ys with
    | nil => cases h
    | cons y ys =>
      rw [List.zipWith_cons_cons, List.sum_cons, ih (Nat.succ.inj h), List.sum_cons, List.sum_cons]
      ring

theorem attributeUniform_mean {span : ℕ} {brightnessNorm : Option ℚ} (h : ledger.TotalIsMean) :
    (ledger.attributeUniform span brightnessNorm).TotalIsMean := by
  unfold TotalIsMean attributeUniform
  dsimp only
  rw [sum_map_add, List.length_map, add_mul, h]
  ring

theorem Shaped.length_pos (h : ledger.Shaped) : 0 < ledger.cells.length := by
  rw [h.length]
  exact Nat.mul_pos (Nat.pos_of_ne_zero fun hzero => h.rows_ne (UInt16.toNat.inj hzero))
    (Nat.pos_of_ne_zero fun hzero => h.cols_ne (UInt16.toNat.inj hzero))

theorem Shaped.length_le (h : ledger.Shaped) : ledger.cells.length ≤ UInt32.size - 1 := by
  rw [h.length]
  have hrows : ledger.gridRows.toNat ≤ 65535 := Nat.le_of_lt_succ ledger.gridRows.toNat_lt
  have hcols : ledger.gridCols.toNat ≤ 65535 := Nat.le_of_lt_succ ledger.gridCols.toNat_lt
  exact (Nat.mul_le_mul hrows hcols).trans (by decide)

/-- What a spatial attribution comes to. -/
theorem attributeSpatial_eq {span : ℕ} {brightnessNorm : Option ℚ} {luma : List (Option ℚ)}
    {ledger' : WearLedger}
    (hdone : ledger.attributeSpatial span brightnessNorm luma = .ok ledger') :
    ∃ contributions : List ℚ, contributions.length = ledger.cells.length ∧
      ledger' = { ledger with
        cells := ledger.cells.zipWith (· + ·) contributions
        totalOnHours :=
          if ledger.cells.isEmpty then ledger.totalOnHours
          else ledger.totalOnHours +
            contributions.sum / (min ledger.cells.length (UInt32.size - 1) : ℕ)
        sampleCount := ledger.sampleCount + 1 } := by
  unfold attributeSpatial at hdone
  split at hdone
  · cases hdone
  · rename_i hlength
    exact ⟨_, (List.length_map _).trans (not_not.mp hlength), (Except.ok.inj hdone).symm⟩

theorem length_zipWith_add {xs ys : List ℚ} (h : ys.length = xs.length) :
    (xs.zipWith (· + ·) ys).length = xs.length := by
  rw [List.length_zipWith, h, Nat.min_self]

theorem attributeSpatial_shaped {span : ℕ} {brightnessNorm : Option ℚ} {luma : List (Option ℚ)}
    {ledger' : WearLedger} (h : ledger.Shaped)
    (hdone : ledger.attributeSpatial span brightnessNorm luma = .ok ledger') :
    ledger'.Shaped := by
  obtain ⟨contributions, hlength, rfl⟩ := attributeSpatial_eq hdone
  exact ⟨h.rows_ne, h.cols_ne, (length_zipWith_add hlength).trans h.length⟩

theorem attributeSpatial_mean {span : ℕ} {brightnessNorm : Option ℚ} {luma : List (Option ℚ)}
    {ledger' : WearLedger} (h : ledger.Shaped) (hmean : ledger.TotalIsMean)
    (hdone : ledger.attributeSpatial span brightnessNorm luma = .ok ledger') :
    ledger'.TotalIsMean := by
  obtain ⟨contributions, hlength, rfl⟩ := attributeSpatial_eq hdone
  have hpos : (0 : ℚ) < ledger.cells.length := Nat.cast_pos.mpr h.length_pos
  have hne : ¬ledger.cells.isEmpty = true := by
    rw [List.isEmpty_iff]
    exact List.length_pos_iff.mp h.length_pos
  unfold TotalIsMean
  dsimp only
  rw [length_zipWith_add hlength, sum_zipWith_add hlength, if_neg hne,
    Nat.min_eq_left h.length_le, add_mul, hmean, div_mul_cancel₀ _ hpos.ne']

/-! ## Resizes -/

theorem regrid_wellFormed (h : ledger.Shaped) (size : GridSize) :
    (ledger.regrid size.rows size.cols).WellFormed := by
  have hpos {n : UInt16} (hn : n ≠ 0) : 0 < n.toNat :=
    Nat.pos_of_ne_zero fun hzero => hn (UInt16.toNat.inj hzero)
  refine ⟨hpos h.rows_ne, ledger.gridRows.toNat_lt, hpos h.cols_ne, ledger.gridCols.toNat_lt,
    hpos size.rows_ne, size.rows.toNat_lt, hpos size.cols_ne, size.cols.toNat_lt, ?_⟩
  exact (List.length_map _).trans h.length

theorem rebuildWearCells_eq {newNanos : List ℕ} (hne : newNanos ≠ []) (oldSum : ℚ) :
    rebuildWearCells newNanos oldSum =
      (newNanos.map nanosToHours).dropLast ++
        [max (oldSum - (newNanos.map nanosToHours).dropLast.sum) 0] := by
  unfold rebuildWearCells
  dsimp only
  rw [if_neg]
  rw [List.isEmpty_iff, List.map_eq_nil_iff]
  exact hne

theorem sum_nanosToHours (newNanos : List ℕ) :
    (newNanos.map nanosToHours).sum = nanosToHours newNanos.sum := by
  induction newNanos with
  | nil => simp [nanosToHours]
  | cons nanos newNanos ih =>
    rw [List.map_cons, List.sum_cons, ih, List.sum_cons]
    unfold nanosToHours
    push_cast
    ring

theorem length_rebuildWearCells (newNanos : List ℕ) (oldSum : ℚ) :
    (rebuildWearCells newNanos oldSum).length = newNanos.length := by
  by_cases hne : newNanos = []
  · subst hne
    rfl
  · rw [rebuildWearCells_eq hne]
    have hpos := List.length_pos_iff.mpr hne
    simp
    omega

/-- The sum is conserved unless the last cell is clamped. -/
theorem sum_rebuildWearCells {newNanos : List ℕ} {oldSum : ℚ} (hne : newNanos ≠ [])
    (h : (newNanos.dropLast.sum : ℕ) ≤ oldSum * nanosPerHour) :
    (rebuildWearCells newNanos oldSum).sum = oldSum := by
  have hprefix : (newNanos.map nanosToHours).dropLast.sum ≤ oldSum := by
    rw [← List.map_dropLast, sum_nanosToHours]
    exact (div_le_iff₀ (by norm_num [nanosPerHour])).mpr h
  rw [rebuildWearCells_eq hne, List.sum_append, max_eq_left (sub_nonneg.mpr hprefix),
    List.sum_singleton]
  ring

theorem resizeGrid_nonempty (h : ledger.Shaped) (size : GridSize) :
    ¬(ledger.gridRows = 0 ∨ ledger.gridCols = 0 ∨ size.rows = 0 ∨ size.cols = 0) := by
  rintro (hzero | hzero | hzero | hzero)
  · exact h.rows_ne hzero
  · exact h.cols_ne hzero
  · exact size.rows_ne hzero
  · exact size.cols_ne hzero

theorem resizeGrid_same (h : ledger.Shaped) {size : GridSize}
    (hsame : ledger.gridRows = size.rows ∧ ledger.gridCols = size.cols) :
    ledger.resizeGrid size.rows size.cols = some ledger := by
  unfold resizeGrid
  rw [if_neg (resizeGrid_nonempty h size), if_pos hsame]

/-- What a resize to another grid comes to. -/
theorem resizeGrid_other (h : ledger.Shaped) {size : GridSize}
    (hother : ¬(ledger.gridRows = size.rows ∧ ledger.gridCols = size.cols)) :
    ∃ newNanos, (ledger.regrid size.rows size.cols).apportionNanos = some newNanos ∧
      newNanos.length = size.count ∧ ledger.resizeGrid size.rows size.cols = some { ledger with
        gridRows := size.rows
        gridCols := size.cols
        cells := rebuildWearCells newNanos ledger.cells.sum } := by
  have hnew := Regrid.apportionNanos_shares (regrid_wellFormed h size)
  refine ⟨_, hnew, ?_, ?_⟩
  · rw [List.length_map, List.length_range]
    rfl
  · unfold resizeGrid
    rw [if_neg (resizeGrid_nonempty h size), if_neg hother, hnew]
    rfl

theorem resizeGrid_shaped (h : ledger.Shaped) (size : GridSize) :
    ∃ ledger', ledger.resizeGrid size.rows size.cols = some ledger' ∧ ledger'.Shaped ∧
      ledger'.cells.length = size.count := by
  by_cases hsame : ledger.gridRows = size.rows ∧ ledger.gridCols = size.cols
  · refine ⟨ledger, resizeGrid_same h hsame, h, ?_⟩
    rw [h.length, hsame.1, hsame.2]
    rfl
  · obtain ⟨newNanos, -, hlength, hresized⟩ := resizeGrid_other h hsame
    have hcells := (length_rebuildWearCells newNanos ledger.cells.sum).trans hlength
    exact ⟨_, hresized, ⟨size.rows_ne, size.cols_ne, hcells⟩, hcells⟩

theorem hoursToNanos_zero : (hoursToNanos 0).toNat = 0 := by
  decide +kernel

/-- Without wear, there is nothing to apportion. -/
theorem oldNanos_unworn (hunworn : ∀ cell ∈ ledger.cells, cell = 0) (rows cols : UInt16) :
    ((ledger.regrid rows cols).oldNanos.map UInt64.toNat).sum = 0 := by
  refine List.sum_eq_zero fun nanos hnanos => ?_
  obtain ⟨cell, hcell, rfl⟩ := List.mem_map.mp hnanos
  obtain ⟨hours, hhours, rfl⟩ := List.mem_map.mp hcell
  rw [hunworn hours hhours]
  exact hoursToNanos_zero

/-- What the cells but the last are given, of what the last is not. -/
theorem sum_dropLast {size : GridSize} {newNanos : List ℕ} {last : ℕ}
    (hlength : newNanos.length = size.count) (hlast : newNanos[size.count - 1]? = some last) :
    newNanos.dropLast.sum + last = newNanos.sum := by
  have hne : newNanos ≠ [] := by
    refine List.length_pos_iff.mp ?_
    rw [hlength]
    exact size.count_pos
  have hgetLast : newNanos.getLast hne = last := by
    refine Option.some.inj (Eq.trans ?_ hlast)
    rw [← hlength, ← List.getLast?_eq_getElem?, List.getLast?_eq_some_getLast hne]
  rw [← hgetLast]
  conv_rhs => rw [← List.dropLast_append_getLast hne]
  rw [List.sum_append, List.sum_singleton]

/-- A resize that keeps the mean conserves the sum of the cells. -/
theorem resizeGrid_mean (h : ledger.Shaped) (hmean : ledger.TotalIsMean) {size : GridSize}
    (hkeeps : ledger.KeepsMean (.resizeGrid size)) {ledger' : WearLedger}
    (hdone : ledger.resizeGrid size.rows size.cols = some ledger') : ledger'.TotalIsMean := by
  by_cases hsame : ledger.gridRows = size.rows ∧ ledger.gridCols = size.cols
  · obtain rfl := Option.some.inj ((resizeGrid_same h hsame).symm.trans hdone)
    exact hmean
  · obtain ⟨newNanos, hnew, hlength, hresized⟩ := resizeGrid_other h hsame
    have hsum := Regrid.sum_apportioned (regrid_wellFormed h size) hnew
    obtain rfl := Option.some.inj (hresized.symm.trans hdone)
    have hindex : size.count - 1 < (ledger.regrid size.rows size.cols).newCount :=
      Nat.sub_lt size.count_pos Nat.one_pos
    have hlast := Regrid.apportionNanos_entry (regrid_wellFormed h size) hnew hindex
    have hdropLast := sum_dropLast hlength hlast
    have hne : newNanos ≠ [] := by
      refine List.length_pos_iff.mp ?_
      rw [hlength]
      exact size.count_pos
    show ledger.totalOnHours * (rebuildWearCells newNanos ledger.cells.sum).length =
      (rebuildWearCells newNanos ledger.cells.sum).sum
    rw [length_rebuildWearCells, hlength]
    rcases hkeeps.resolve_left hsame with hunworn | ⟨hcount, hrounds⟩
    · have hzero : ledger.cells.sum = 0 := List.sum_eq_zero hunworn
      rw [oldNanos_unworn hunworn] at hsum
      have hnone : newNanos.dropLast.sum = 0 := by omega
      have htotal : ledger.totalOnHours = 0 := by
        have hpos : (0 : ℚ) < ledger.cells.length := Nat.cast_pos.mpr h.length_pos
        rw [TotalIsMean, hzero] at hmean
        exact (mul_eq_zero.mp hmean).resolve_right hpos.ne'
      rw [sum_rebuildWearCells hne, hzero, htotal, zero_mul]
      rw [hnone, hzero, zero_mul]
      exact le_rfl
    · rw [sum_rebuildWearCells hne, hcount]
      · exact hmean
      · unfold RoundsWithin at hrounds
        dsimp only at hrounds
        rw [← hsum, ← hdropLast] at hrounds
        push_cast at hrounds ⊢
        linarith

/-! ## A panel that is worn evenly -/

/-- A whole number of nanoseconds, as far as a `u64` counts. -/
def WholeNanos (hours : ℚ) : Prop := ∃ nanos : UInt64, hours = nanosToHours nanos.toNat

theorem hoursToNanos_whole (nanos : UInt64) : hoursToNanos (nanosToHours nanos.toNat) = nanos := by
  have hround : ⌊nanosToHours nanos.toNat * nanosPerHour + 1 / 2⌋₊ = nanos.toNat := by
    have hhours : nanosToHours nanos.toNat * nanosPerHour = nanos.toNat :=
      div_mul_cancel₀ _ (by norm_num [nanosPerHour])
    rw [hhours, Nat.floor_eq_iff (by positivity)]
    constructor
    · linarith
    · linarith
  have hlt : nanos.toNat ≤ UInt64.size - 1 := Nat.le_of_lt_succ nanos.toNat_lt
  unfold hoursToNanos
  rw [hround, Nat.min_eq_left hlt, UInt64.ofNat_toNat]

/-- On as many cells as before, a resize leaves even wear as it is. -/
theorem resizeGrid_even (h : ledger.Shaped) {size : GridSize}
    (hcount : size.count = ledger.cells.length) {hours : ℚ} (hwhole : WholeNanos hours)
    (heven : ∀ cell ∈ ledger.cells, cell = hours) {ledger' : WearLedger}
    (hdone : ledger.resizeGrid size.rows size.cols = some ledger') :
    ledger'.cells = ledger.cells := by
  by_cases hsame : ledger.gridRows = size.rows ∧ ledger.gridCols = size.cols
  · obtain rfl := Option.some.inj ((resizeGrid_same h hsame).symm.trans hdone)
    rfl
  · obtain ⟨nanos, rfl⟩ := hwhole
    have hcells : ledger.cells = List.replicate size.count (nanosToHours nanos.toNat) :=
      List.eq_replicate_iff.mpr ⟨hcount.symm, heven⟩
    have hcell (r : ℕ) (hr : r < ledger.gridRows.toNat) (c : ℕ) (hc : c < ledger.gridCols.toNat) :
        (ledger.regrid size.rows size.cols).cell r c = nanos.toNat := by
      obtain ⟨value, hvalue, hnanos⟩ := Regrid.cell_eq (regrid_wellFormed h size).covered hr hc
      obtain ⟨cell, hcell, rfl⟩ := List.mem_map.mp (List.mem_of_getElem? hvalue)
      rw [← hnanos, heven cell hcell, hoursToNanos_whole]
    have harea : (ledger.regrid size.rows size.cols).newCount =
        ledger.gridRows.toNat * ledger.gridCols.toNat := hcount.trans h.length
    obtain ⟨newNanos, hnew, hlength, hresized⟩ := resizeGrid_other h hsame
    rw [Regrid.apportionNanos_even (regrid_wellFormed h size) harea hcell] at hnew
    obtain rfl := Option.some.inj hnew
    obtain rfl := Option.some.inj (hresized.symm.trans hdone)
    show rebuildWearCells _ _ = _
    have hne : List.replicate (ledger.regrid size.rows size.cols).newCount nanos.toNat ≠ [] := by
      refine List.length_pos_iff.mp ?_
      rw [hlength]
      exact size.count_pos
    have hnonneg : 0 ≤ nanosToHours nanos.toNat :=
      div_nonneg (Nat.cast_nonneg _) (by norm_num [nanosPerHour])
    obtain ⟨n, hn⟩ : ∃ n, size.count = n + 1 := ⟨size.count - 1, by
      have hpos := size.count_pos
      omega⟩
    have hnew : (ledger.regrid size.rows size.cols).newCount = n + 1 := hn
    rw [rebuildWearCells_eq hne, hcells, hnew, hn, List.map_replicate, List.dropLast_replicate,
      Nat.add_sub_cancel, List.sum_replicate, List.sum_replicate, List.replicate_succ']
    rw [succ_nsmul', add_sub_cancel_right, max_eq_left hnonneg]

end WearLedger

/-! ## Runs -/

open WearLedger

theorem after_shaped {ledger : WearLedger} (h : ledger.Shaped) (op : LedgerOp) :
    ∃ ledger', ledger.after op = some ledger' ∧ ledger'.Shaped ∧
      (ledger.TotalIsMean → ledger.KeepsMean op → ledger'.TotalIsMean) := by
  cases op with
  | attributeUniform span brightnessNorm =>
    exact ⟨_, rfl, ⟨h.rows_ne, h.cols_ne, (List.length_map _).trans h.length⟩,
      fun hmean _ => attributeUniform_mean hmean⟩
  | attributeSpatial span brightnessNorm luma =>
    cases hdone : ledger.attributeSpatial span brightnessNorm luma with
    | error e =>
      refine ⟨ledger, ?_, h, fun hmean _ => hmean⟩
      unfold after
      dsimp only
      rw [hdone]
    | ok ledger' =>
      refine ⟨ledger', ?_, attributeSpatial_shaped h hdone,
        fun hmean _ => attributeSpatial_mean h hmean hdone⟩
      unfold after
      dsimp only
      rw [hdone]
  | resizeGrid size =>
    obtain ⟨ledger', hdone, hshaped, -⟩ := resizeGrid_shaped h size
    exact ⟨ledger', hdone, hshaped, fun hmean hkeeps => resizeGrid_mean h hmean hkeeps hdone⟩

/-- No operation panics, and a resize to as many cells keeps even wear of whole nanoseconds. -/
structure KeepsEven (ledger : WearLedger) : Prop where
  total (op : LedgerOp) : (ledger.after op).isSome
  even (size : GridSize) (hours : ℚ) (ledger' : WearLedger)
    (hcount : size.count = ledger.cells.length) (hwhole : WholeNanos hours)
    (heven : ∀ cell ∈ ledger.cells, cell = hours)
    (hdone : ledger.after (.resizeGrid size) = some ledger') : ledger'.cells = ledger.cells

theorem new_mean (identity : WearIdentity) (panelType : PanelType) (size : GridSize)
    (now : UInt64) :
    (new identity panelType size.rows size.cols now).Shaped ∧
      (new identity panelType size.rows size.cols now).TotalIsMean := by
  refine ⟨⟨size.rows_ne, size.cols_ne, List.length_replicate⟩, ?_⟩
  show (0 : ℚ) * _ = (List.replicate _ 0).sum
  simp

/-- The total is the mean of the panel as long as resizes keep it. -/
theorem total_is_mean (identity : WearIdentity) (panelType : PanelType) (size : GridSize)
    (now : UInt64) (ops : List LedgerOp)
    (h : ledgers.Steps (fun ledger op => ledger.KeepsMean op)
      (new identity panelType size.rows size.cols now) ops) :
    ledgers.Throughout (fun ledger => ledger.TotalIsMean ∧ KeepsEven ledger)
      (new identity panelType size.rows size.cols now) ops := by
  obtain ⟨hshaped, hmean⟩ := new_mean identity panelType size now
  refine h.throughout (fun ledger => ledger.Shaped ∧ ledger.TotalIsMean)
    (fun ledger op ⟨hshaped, hmean⟩ hkeeps => ?_)
    (fun ledger ⟨hshaped, hmean⟩ => ⟨hmean, fun op => ?_, ?_⟩) ⟨hshaped, hmean⟩
  · obtain ⟨ledger', hdone, hshaped', hmean'⟩ := after_shaped hshaped op
    have hnext : (ledgers.next ledger op).1 = ledger' := congrArg (Option.getD · ledger) hdone
    rw [hnext]
    exact ⟨hshaped', hmean' hmean hkeeps⟩
  · obtain ⟨ledger', hdone, -⟩ := after_shaped hshaped op
    rw [hdone]
    rfl
  · intro size hours ledger' hcount hwhole heven hdone
    exact resizeGrid_even hshaped hcount hwhole heven hdone

/-! ## A panel of one cell -/

def oneCell : GridSize := ⟨1, 1, by decide, by decide⟩

def oneByTwo : GridSize := ⟨1, 2, by decide, by decide⟩

def twoByOne : GridSize := ⟨2, 1, by decide, by decide⟩

def deskIdentity : WearIdentity where
  key := "edid-1"
  displayName := "desk"
  configDisplayId := none

def tenHours : ℕ := 36000000000000

/-- Ten hours on the one cell, and five on each of two. The total still says ten. -/
theorem total_is_not_mean :
    let ledger := ledgers.run (new deskIdentity .unknown oneCell.rows oneCell.cols 0)
      [.attributeUniform tenHours (some 1), .resizeGrid oneByTwo]
    ledger.cells = [5, 5] ∧ ledger.totalOnHours = 10 ∧ ¬ledger.TotalIsMean := by
  decide +kernel

/-- A resize before the first wear, and one to as many cells. -/
theorem total_is_mean_desk :
    let ops := [.resizeGrid oneByTwo, .attributeUniform tenHours (some 1), .resizeGrid twoByOne]
    let start := new deskIdentity .unknown oneCell.rows oneCell.cols 0
    (ledgers.run start ops).cells = [10, 10] ∧
      ledgers.Throughout (fun ledger => ledger.TotalIsMean ∧ KeepsEven ledger) start ops :=
  ⟨by decide +kernel,
    total_is_mean deskIdentity .unknown oneCell 0 _ (by decide +kernel)⟩

end Dormant
