import Mathlib.Algebra.BigOperators.Field
import Mathlib.Algebra.Order.Floor.Semifield
import Mathlib.Data.Rat.Floor
import Dormant.Foundations.Strips
import Dormant.Wear.Hamilton

/-!
# Apportioning conserves every nanosecond

`apportion_nanos` on grids of `u64` cells with positive `u16` dimensions: the prefix sums, the area
integrals, their floors, and who gets the units that are left.
-/

namespace Dormant
set_option autoImplicit false

open Finset Strips

theorem asU32_eq {n : ℕ} (h : n < UInt16.size) : asU32 n = n := by
  have h' : n < 65536 := h
  refine Nat.mod_eq_of_lt (show n < 4294967296 from ?_)
  omega

theorem tryU32_eq {n : ℕ} (h : n < UInt16.size) : tryU32 n = some n := by
  have h' : n < 65536 := h
  refine if_pos (show n < 4294967296 from ?_)
  omega

namespace Regrid
variable (g : Regrid)

/-- One cell for each place of the old grid, and no dimension is zero. -/
structure WellFormed : Prop where
  oldRows_pos : 0 < g.oldRows
  oldRows_lt : g.oldRows < UInt16.size
  oldCols_pos : 0 < g.oldCols
  oldCols_lt : g.oldCols < UInt16.size
  newRows_pos : 0 < g.newRows
  newRows_lt : g.newRows < UInt16.size
  newCols_pos : 0 < g.newCols
  newCols_lt : g.newCols < UInt16.size
  length : g.oldNanos.length = g.oldRows * g.oldCols

/-- At least one cell for each place of the old grid; those behind them do not matter. -/
structure Covered : Prop where
  oldRows_pos : 0 < g.oldRows
  oldRows_lt : g.oldRows < UInt16.size
  oldCols_pos : 0 < g.oldCols
  oldCols_lt : g.oldCols < UInt16.size
  newRows_pos : 0 < g.newRows
  newRows_lt : g.newRows < UInt16.size
  newCols_pos : 0 < g.newCols
  newCols_lt : g.newCols < UInt16.size
  length : g.oldRows * g.oldCols ≤ g.oldNanos.length

def cell (r c : ℕ) : ℕ := (g.oldNanos[r * g.oldCols + c]?).elim 0 UInt64.toNat

/-- The sum of the first rows and columns. -/
def prefixSum (r c : ℕ) : ℕ := ∑ i ∈ range r, ∑ j ∈ range c, g.cell i j

variable {g}

theorem WellFormed.covered (h : g.WellFormed) : g.Covered :=
  { h with length := h.length.ge }

theorem cell_lt (r c : ℕ) : g.cell r c < UInt64.size := by
  unfold cell
  cases g.oldNanos[r * g.oldCols + c]? with
  | none => exact Nat.zero_lt_of_lt (UInt64.toNat_lt 0)
  | some nanos => exact nanos.toNat_lt

theorem cell_eq (h : g.Covered) {r c : ℕ} (hr : r < g.oldRows) (hc : c < g.oldCols) :
    ∃ nanos, g.oldNanos[r * g.oldCols + c]? = some nanos ∧ nanos.toNat = g.cell r c := by
  have hindex : r * g.oldCols + c < g.oldNanos.length := by
    have hlength := h.length
    have hnext : (r + 1) * g.oldCols ≤ g.oldRows * g.oldCols := Nat.mul_le_mul_right _ hr
    rw [Nat.add_mul, Nat.one_mul] at hnext
    omega
  refine ⟨g.oldNanos[r * g.oldCols + c], List.getElem?_eq_getElem hindex, ?_⟩
  unfold cell
  rw [List.getElem?_eq_getElem hindex]
  rfl

theorem prefixSum_zero_right (r : ℕ) : g.prefixSum r 0 = 0 := by
  simp [prefixSum]

theorem prefixSum_succ (r c : ℕ) :
    g.prefixSum (r + 1) c = g.prefixSum r c + ∑ j ∈ range c, g.cell r j :=
  sum_range_succ _ _

theorem prefixSum_succ_right (r c : ℕ) :
    g.prefixSum r (c + 1) = g.prefixSum r c + ∑ i ∈ range r, g.cell i c := by
  unfold prefixSum
  rw [← sum_add_distrib]
  exact sum_congr rfl fun i _ => sum_range_succ _ _

/-- A bound on every sum of the old grid. -/
def nanosBound : ℕ := 65535 * (65535 * 18446744073709551615)

theorem prefixSum_le {r c : ℕ} (hr : r < UInt16.size) (hc : c < UInt16.size) :
    g.prefixSum r c ≤ nanosBound := by
  have hr : r ≤ 65535 := Nat.le_of_lt_succ hr
  have hc : c ≤ 65535 := Nat.le_of_lt_succ hc
  have hrow (i : ℕ) : ∑ j ∈ range c, g.cell i j ≤ 65535 * 18446744073709551615 := by
    have hcells := sum_le_card_nsmul (range c) (g.cell i) 18446744073709551615
      fun j _ => Nat.le_of_lt_succ (cell_lt i j)
    rw [card_range, nsmul_eq_mul, Nat.cast_id] at hcells
    exact hcells.trans (Nat.mul_le_mul_right _ hc)
  have hrows := sum_le_card_nsmul (range r) (fun i => ∑ j ∈ range c, g.cell i j) _
    fun i _ => hrow i
  rw [card_range, nsmul_eq_mul, Nat.cast_id] at hrows
  exact hrows.trans (Nat.mul_le_mul_right _ hr)

/-! ## The table of prefix sums -/

/-- The table up to a row, and to a column of the next. -/
structure Filled (g : Regrid) (row col : ℕ) (sums : List ℕ) : Prop where
  length : sums.length = (g.oldRows + 1) * g.stride
  entry (r c : ℕ) (hr : r ≤ g.oldRows) (hc : c ≤ g.oldCols) :
    sums[r * g.stride + c]? = some (if r ≤ row ∨ r = row + 1 ∧ c ≤ col then g.prefixSum r c else 0)

theorem index_lt {r c : ℕ} (hr : r ≤ g.oldRows) (hc : c ≤ g.oldCols) :
    r * g.stride + c < (g.oldRows + 1) * g.stride := by
  have hrow : r * g.stride ≤ g.oldRows * g.stride := Nat.mul_le_mul_right _ hr
  rw [Nat.add_mul, Nat.one_mul]
  have hstride : g.stride = g.oldCols + 1 := rfl
  omega

theorem index_inj {r r' c c' : ℕ} (hc : c ≤ g.oldCols) (hc' : c' ≤ g.oldCols)
    (h : r * g.stride + c = r' * g.stride + c') : r = r' ∧ c = c' := by
  have hdiv (r c : ℕ) (hc : c ≤ g.oldCols) : (r * g.stride + c) / g.stride = r := by
    have hstride : c < g.stride := Nat.lt_succ_of_le hc
    rw [Nat.mul_comm, Nat.mul_add_div (Nat.zero_lt_of_lt hstride), Nat.div_eq_of_lt hstride,
      Nat.add_zero]
  have hr : r = r' := (hdiv r c hc).symm.trans ((congrArg (· / g.stride) h).trans (hdiv r' c' hc'))
  subst hr
  exact ⟨rfl, Nat.add_left_cancel h⟩

theorem filled_start : Filled g 0 0 (List.replicate ((g.oldRows + 1) * g.stride) 0) := by
  refine ⟨List.length_replicate, fun r c hr hc => ?_⟩
  rw [List.getElem?_replicate_of_lt (index_lt hr hc)]
  split
  · rename_i hfilled
    rcases hfilled with hzero | ⟨-, hzero⟩
    · rw [Nat.le_zero.mp hzero]
      rfl
    · rw [Nat.le_zero.mp hzero, prefixSum_zero_right]
  · rfl

theorem Filled.nextRow {row : ℕ} {sums : List ℕ} (h : Filled g row g.oldCols sums) :
    Filled g (row + 1) 0 sums := by
  refine ⟨h.length, fun r c hr hc => ?_⟩
  rw [h.entry r c hr hc]
  by_cases hbefore : r ≤ row + 1
  · rw [if_pos (by omega), if_pos (.inl hbefore)]
  · rw [if_neg (by omega)]
    split
    · rename_i hzero
      rw [show c = 0 by omega, prefixSum_zero_right]
    · rfl

theorem prefixCell_eq (h : g.Covered) {row col : ℕ} {sums : List ℕ} (hrow : row < g.oldRows)
    (hcol : col < g.oldCols) (hfilled : Filled g row col sums) :
    ∃ sums', g.prefixCell row (sums, ∑ j ∈ range col, g.cell row j) col =
        some (sums', ∑ j ∈ range (col + 1), g.cell row j) ∧ Filled g row (col + 1) sums' := by
  obtain ⟨nanos, hnanos, hcell⟩ := cell_eq h hrow hcol
  have hrows := h.oldRows_lt
  have hcols := h.oldCols_lt
  have hbound : g.prefixSum (row + 1) (col + 1) ≤ nanosBound :=
    prefixSum_le (by omega) (by omega)
  have hsucc := prefixSum_succ (g := g) row (col + 1)
  have hrowSum := sum_range_succ (g.cell row) col
  have hsize : nanosBound < U128.size := by decide
  have habove : sums[row * g.stride + col + 1]? = some (g.prefixSum row (col + 1)) := by
    rw [Nat.add_assoc, hfilled.entry row (col + 1) hrow.le hcol, if_pos (.inl le_rfl)]
  have hindex : (row + 1) * g.stride + col + 1 < sums.length := by
    rw [hfilled.length, Nat.add_assoc]
    exact index_lt hrow hcol
  refine ⟨sums.set ((row + 1) * g.stride + col + 1) (g.prefixSum (row + 1) (col + 1)), ?_, ?_, ?_⟩
  · unfold prefixCell
    rw [hnanos]
    show (U128.add (∑ j ∈ range col, g.cell row j) nanos.toNat >>= _) = _
    rw [hcell, U128.add_eq (by omega), ← hrowSum]
    show (sums[row * g.stride + col + 1]? >>= _) = _
    rw [habove]
    show (U128.add (g.prefixSum row (col + 1)) _ >>= _) = _
    rw [U128.add_eq (by omega), ← hsucc]
    show (setIndex sums _ _ >>= _) = _
    rw [setIndex_eq hindex]
    rfl
  · rw [List.length_set]
    exact hfilled.length
  · intro r c hr hc
    by_cases hplace : r = row + 1 ∧ c = col + 1
    · obtain ⟨rfl, rfl⟩ := hplace
      rw [← Nat.add_assoc, List.getElem?_set_self hindex, if_pos (.inr ⟨rfl, le_rfl⟩)]
    · rw [List.getElem?_set_ne, hfilled.entry r c hr hc]
      · exact congrArg some (if_congr (by omega) rfl rfl)
      · intro heq
        rw [Nat.add_assoc] at heq
        obtain ⟨hr', hc'⟩ := index_inj hcol hc heq
        exact hplace ⟨hr'.symm, hc'.symm⟩

theorem buildOldPrefix_eq (h : g.Covered) :
    ∃ sums, g.buildOldPrefix = some sums ∧ ∀ r ≤ g.oldRows, ∀ c ≤ g.oldCols,
      g.prefixAt sums r c = some (g.prefixSum r c) := by
  have hrow (row : ℕ) (hrow : row < g.oldRows) (sums : List ℕ) (hfilled : Filled g row 0 sums) :
      ∃ sums', g.prefixRow sums row = some sums' ∧ Filled g (row + 1) 0 sums' := by
    obtain ⟨table, htable, hend, -⟩ := Loops.foldlM_range
      (f := g.prefixCell row) (s := (sums, 0)) (n := g.oldCols)
      (fun col table => Filled g row col table.1 ∧ table.2 = ∑ j ∈ range col, g.cell row j)
      ⟨hfilled, rfl⟩ fun col hcol table ⟨hfilled, hsum⟩ => by
        obtain ⟨sums, rowSum⟩ := table
        subst hsum
        obtain ⟨sums', hstep, hfilled'⟩ := prefixCell_eq h hrow hcol hfilled
        exact ⟨_, hstep, hfilled', rfl⟩
    refine ⟨table.1, ?_, hend.nextRow⟩
    unfold prefixRow
    rw [htable]
    rfl
  obtain ⟨sums, hsums, hend⟩ := Loops.foldlM_range (f := g.prefixRow) (n := g.oldRows)
    (fun row sums => Filled g row 0 sums) filled_start hrow
  refine ⟨sums, hsums, fun r hr c hc => ?_⟩
  unfold prefixAt
  rw [show r * (g.oldCols + 1) + c = r * g.stride + c from rfl, hend.entry r c hr hc,
    if_pos (.inl hr)]

/-! ## The area integral -/

/-- The edges of the new rows, an old row being `newRows` long. -/
def rowEdge (g : Regrid) (row : ℕ) : ℕ := row * g.oldRows

/-- The edges of the new columns, an old column being `newCols` long. -/
def colEdge (g : Regrid) (col : ℕ) : ℕ := col * g.oldCols

/-- The old grid over the first new rows and columns, in units of an old cell over `newCount`. -/
def cumulative (g : Regrid) (row col : ℕ) : ℕ :=
  area g.cell g.oldRows g.oldCols (cover g.newRows (g.rowEdge row))
    (cover g.newCols (g.colEdge col))

theorem cumulative_eq (h : g.Covered) {row col : ℕ} (hrow : row ≤ g.newRows)
    (hcol : col ≤ g.newCols) :
    let fullRows := g.rowEdge row / g.newRows
    let fullCols := g.colEdge col / g.newCols
    let rowFraction := g.rowEdge row % g.newRows
    let colFraction := g.colEdge col % g.newCols
    g.cumulative row col =
      g.prefixSum fullRows fullCols * (g.newRows * g.newCols) +
        (∑ r ∈ range fullRows, g.cell r fullCols) * g.newRows * colFraction +
        (∑ c ∈ range fullCols, g.cell fullRows c) * rowFraction * g.newCols +
        g.cell fullRows fullCols * rowFraction * colFraction := by
  intro fullRows fullCols rowFraction colFraction
  have hrows : g.rowEdge row ≤ g.oldRows * g.newRows := by
    rw [Nat.mul_comm]
    exact Nat.mul_le_mul_right _ hrow
  have hcols : g.colEdge col ≤ g.oldCols * g.newCols := by
    rw [Nat.mul_comm]
    exact Nat.mul_le_mul_right _ hcol
  have hline (r : ℕ) : ∑ c ∈ range g.oldCols, g.cell r c * cover g.newCols (g.colEdge col) c =
      g.newCols * ∑ c ∈ range fullCols, g.cell r c + colFraction * g.cell r fullCols :=
    sum_cover h.newCols_pos hcols (g.cell r)
  unfold cumulative area
  rw [sum_cover h.newRows_pos hrows, hline, sum_congr rfl fun r _ => hline r, sum_add_distrib,
    ← mul_sum, ← mul_sum]
  show g.newRows * (g.newCols * g.prefixSum fullRows fullCols + _) + rowFraction * _ = _
  ring

theorem cumulative_le (row col : ℕ) :
    g.cumulative row col ≤ g.prefixSum g.oldRows g.oldCols * (g.newRows * g.newCols) := by
  have hwhole : area g.cell g.oldRows g.oldCols (fun _ => g.newRows) (fun _ => g.newCols) =
      g.prefixSum g.oldRows g.oldCols * (g.newRows * g.newCols) := by
    unfold area prefixSum
    rw [sum_mul]
    refine sum_congr rfl fun r _ => ?_
    rw [← sum_mul]
    ring
  rw [← hwhole]
  exact area_mono (fun _ => Nat.min_le_left _ _) fun _ => Nat.min_le_left _ _

theorem newCount_bounds (h : g.Covered) :
    0 < g.newCount ∧ g.newCount ≤ 65535 * 65535 :=
  ⟨Nat.mul_pos h.newRows_pos h.newCols_pos,
    Nat.mul_le_mul (Nat.le_of_lt_succ h.newRows_lt) (Nat.le_of_lt_succ h.newCols_lt)⟩

/-- The whole old grid over `newCount` fits. -/
theorem whole_lt (h : g.Covered) :
    g.prefixSum g.oldRows g.oldCols * g.newCount < U128.size := by
  have hsum : g.prefixSum g.oldRows g.oldCols ≤ nanosBound :=
    prefixSum_le h.oldRows_lt h.oldCols_lt
  have hsize : nanosBound * (65535 * 65535) < U128.size := by decide
  exact (Nat.mul_le_mul hsum (newCount_bounds h).2).trans_lt hsize

theorem newCountU_eq (h : g.Covered) : g.newCountU = some g.newCount := by
  have hcount := (newCount_bounds h).2
  have hsize : 65535 * 65535 < U128.size := by decide
  unfold newCountU
  rw [asU32_eq h.newRows_lt, asU32_eq h.newCols_lt]
  exact U128.mul_eq (hcount.trans_lt hsize)

/-- An edge lies within the grid, and before its end if it cuts a strip. -/
theorem edge_div {edge width n : ℕ} (h : edge ≤ width * n) :
    edge / width ≤ n ∧ (edge % width ≠ 0 → edge / width < n) := by
  have hle : edge / width ≤ n := Nat.div_le_of_le_mul h
  refine ⟨hle, fun hmod => lt_of_le_of_ne hle fun heq => hmod ?_⟩
  have hsplit := Nat.div_add_mod edge width
  rw [heq] at hsplit
  omega

theorem accumulate_eq {total a b c : ℕ} (hc : 0 < c) (h : total + a * b * c < U128.size) :
    accumulate total a b c = some (total + a * b * c) := by
  have hproduct : a * b ≤ a * b * c := Nat.le_mul_of_pos_right _ hc
  unfold accumulate
  rw [U128.mul_eq (by omega)]
  show (U128.mul (a * b) c >>= _) = _
  rw [U128.mul_eq (by omega)]
  exact U128.add_eq h

/-- The table holds the prefix sums. -/
def Tabulated (g : Regrid) (sums : List ℕ) : Prop :=
  ∀ r ≤ g.oldRows, ∀ c ≤ g.oldCols, g.prefixAt sums r c = some (g.prefixSum r c)

section
variable {sums : List ℕ} {fullRows fullCols rowFraction colFraction total : ℕ}

theorem addColumn_eq (h : g.Covered) (hsums : Tabulated g sums) (hfull : fullRows ≤ g.oldRows)
    (hpart : colFraction ≠ 0 → fullCols < g.oldCols) (hfraction : colFraction < UInt16.size)
    (hbound : total + (∑ r ∈ range fullRows, g.cell r fullCols) * g.newRows * colFraction <
      U128.size) :
    g.addColumn sums fullRows fullCols colFraction (g.prefixSum fullRows fullCols) total =
      some (total + (∑ r ∈ range fullRows, g.cell r fullCols) * g.newRows * colFraction) := by
  unfold addColumn
  by_cases hzero : colFraction = 0
  · rw [if_neg fun hne => hne hzero, hzero]
    rfl
  · rw [if_pos hzero, hsums _ hfull _ (hpart hzero)]
    show (U128.sub (g.prefixSum fullRows (fullCols + 1)) _ >>= _) = _
    rw [prefixSum_succ_right, U128.sub_eq (Nat.le_add_right _ _), Nat.add_sub_cancel_left,
      tryU32_eq hfraction, asU32_eq h.newRows_lt]
    exact accumulate_eq (Nat.pos_of_ne_zero hzero) hbound

theorem addRow_eq (h : g.Covered) (hsums : Tabulated g sums) (hfull : fullCols ≤ g.oldCols)
    (hpart : rowFraction ≠ 0 → fullRows < g.oldRows) (hfraction : rowFraction < UInt16.size)
    (hbound : total + (∑ c ∈ range fullCols, g.cell fullRows c) * rowFraction * g.newCols <
      U128.size) :
    g.addRow sums fullRows fullCols rowFraction (g.prefixSum fullRows fullCols) total =
      some (total + (∑ c ∈ range fullCols, g.cell fullRows c) * rowFraction * g.newCols) := by
  unfold addRow
  by_cases hzero : rowFraction = 0
  · rw [if_neg fun hne => hne hzero, hzero, Nat.mul_zero, Nat.zero_mul]
    rfl
  · rw [if_pos hzero, hsums _ (hpart hzero) _ hfull]
    show (U128.sub (g.prefixSum (fullRows + 1) fullCols) _ >>= _) = _
    rw [prefixSum_succ, U128.sub_eq (Nat.le_add_right _ _), Nat.add_sub_cancel_left,
      tryU32_eq hfraction, asU32_eq h.newCols_lt]
    exact accumulate_eq h.newCols_pos hbound

theorem addCorner_eq (h : g.Covered) (hpart : rowFraction ≠ 0 → fullRows < g.oldRows)
    (hpart' : colFraction ≠ 0 → fullCols < g.oldCols) (hfraction : rowFraction < UInt16.size)
    (hfraction' : colFraction < UInt16.size)
    (hbound : total + g.cell fullRows fullCols * rowFraction * colFraction < U128.size) :
    g.addCorner fullRows fullCols rowFraction colFraction total =
      some (total + g.cell fullRows fullCols * rowFraction * colFraction) := by
  unfold addCorner
  by_cases hcut : rowFraction ≠ 0 ∧ colFraction ≠ 0
  · obtain ⟨nanos, hnanos, hcell⟩ := cell_eq h (hpart hcut.1) (hpart' hcut.2)
    rw [if_pos hcut, hnanos, tryU32_eq hfraction, tryU32_eq hfraction', ← hcell]
    rw [← hcell] at hbound
    exact accumulate_eq (Nat.pos_of_ne_zero hcut.2) hbound
  · rw [if_neg hcut]
    have hzero : g.cell fullRows fullCols * rowFraction * colFraction = 0 := by
      rcases not_and_or.mp hcut with hrow | hcol
      · rw [not_not.mp hrow, Nat.mul_zero, Nat.zero_mul]
      · rw [not_not.mp hcol, Nat.mul_zero]
    rw [hzero]
    rfl

end

/-- Nothing overflows on the way to the area integral, and no index is out of range. -/
theorem cumulativeNumerator_eq (h : g.Covered) {sums : List ℕ} (hsums : Tabulated g sums)
    {row col : ℕ} (hrow : row ≤ g.newRows) (hcol : col ≤ g.newCols) :
    g.cumulativeNumerator sums g.newCount row col = some (g.cumulative row col) := by
  have hbound := (cumulative_le row col).trans_lt (whole_lt h)
  have hsplit := cumulative_eq h hrow hcol
  have hfraction : g.rowEdge row % g.newRows < UInt16.size :=
    (Nat.mod_lt _ h.newRows_pos).trans h.newRows_lt
  have hfraction' : g.colEdge col % g.newCols < UInt16.size :=
    (Nat.mod_lt _ h.newCols_pos).trans h.newCols_lt
  have hedge : g.rowEdge row ≤ g.newRows * g.oldRows := Nat.mul_le_mul_right _ hrow
  have hedge' : g.colEdge col ≤ g.newCols * g.oldCols := Nat.mul_le_mul_right _ hcol
  obtain ⟨hfull, hpart⟩ := edge_div hedge
  obtain ⟨hfull', hpart'⟩ := edge_div hedge'
  show (g.prefixAt sums (g.rowEdge row / g.newRows) (g.colEdge col / g.newCols) >>= fun full =>
    U128.mul full g.newCount >>= fun total =>
    g.addColumn sums (g.rowEdge row / g.newRows) (g.colEdge col / g.newCols)
      (g.colEdge col % g.newCols) full total >>= fun total =>
    g.addRow sums (g.rowEdge row / g.newRows) (g.colEdge col / g.newCols)
      (g.rowEdge row % g.newRows) full total >>= fun total =>
    g.addCorner (g.rowEdge row / g.newRows) (g.colEdge col / g.newCols)
      (g.rowEdge row % g.newRows) (g.colEdge col % g.newCols) total) = _
  generalize g.rowEdge row / g.newRows = fullRows, g.colEdge col / g.newCols = fullCols,
    g.rowEdge row % g.newRows = rowFraction, g.colEdge col % g.newCols = colFraction at *
  rw [hsplit] at hbound
  simp only [Option.bind_eq_bind]
  rw [hsums _ hfull _ hfull', Option.bind_some, U128.mul_eq (by unfold newCount; omega),
    Option.bind_some, addColumn_eq h hsums hfull hpart' hfraction' (by unfold newCount; omega),
    Option.bind_some, addRow_eq h hsums hfull' hpart hfraction (by unfold newCount; omega),
    Option.bind_some,
    addCorner_eq h hpart hpart' hfraction hfraction' (by unfold newCount; omega), hsplit]
  rfl

/-! ## The new cells -/

theorem rowEdge_mono (g : Regrid) : Monotone g.rowEdge :=
  fun _ _ h => Nat.mul_le_mul_right g.oldRows h

theorem colEdge_mono (g : Regrid) : Monotone g.colEdge :=
  fun _ _ h => Nat.mul_le_mul_right g.oldCols h

/-- The old grid over a new cell, in units of an old cell over `newCount`. -/
def part (g : Regrid) (row col : ℕ) : ℕ :=
  area g.cell g.oldRows g.oldCols (step g.newRows g.rowEdge row) (step g.newCols g.colEdge col)

/-- The cells of the new grid are numbered row by row. -/
def numerator (g : Regrid) (i : ℕ) : ℕ := g.part (i / g.newCols) (i % g.newCols)

theorem numerator_eq (h : g.Covered) (row : ℕ) {col : ℕ} (hcol : col < g.newCols) :
    g.numerator (row * g.newCols + col) = g.part row col := by
  unfold numerator
  rw [Nat.mul_comm, Nat.mul_add_div h.newCols_pos, Nat.div_eq_of_lt hcol, Nat.mul_add_mod,
    Nat.mod_eq_of_lt hcol, Nat.add_zero]

/-- Together the new cells are the old grid. -/
theorem sum_numerator (h : g.Covered) :
    ∑ i ∈ range g.newCount, g.numerator i =
      g.prefixSum g.oldRows g.oldCols * g.newCount := by
  have hrows (r : ℕ) (hr : r < g.oldRows) :
      ∑ row ∈ range g.newRows, step g.newRows g.rowEdge row r = g.newRows := by
    rw [sum_step g.rowEdge_mono (Nat.zero_mul _)]
    exact cover_of_le (Nat.mul_comm _ _).le hr
  have hcols (c : ℕ) (hc : c < g.oldCols) :
      ∑ col ∈ range g.newCols, step g.newCols g.colEdge col c = g.newCols := by
    rw [sum_step g.colEdge_mono (Nat.zero_mul _)]
    exact cover_of_le (Nat.mul_comm _ _).le hc
  have hparts : ∑ i ∈ range g.newCount, g.numerator i =
      ∑ row ∈ range g.newRows, ∑ col ∈ range g.newCols, g.part row col := by
    unfold newCount
    rw [sum_rowMajor]
    exact sum_congr rfl fun row _ => sum_congr rfl fun col hcol =>
      numerator_eq h row (mem_range.mp hcol)
  rw [hparts]
  unfold part
  rw [sum_congr rfl fun row _ => area_sum_right, area_sum_left, area_congr hrows hcols]
  unfold area prefixSum newCount
  rw [sum_mul]
  refine sum_congr rfl fun r _ => ?_
  rw [← sum_mul]
  ring

/-- What the loop keeps after the first new cells. -/
def floorsAfter (g : Regrid) (n : ℕ) : Floors where
  newNanos := (List.range n).map fun i => g.numerator i / g.newCount
  fractionalRemainders := (List.range n).map fun i => g.numerator i % g.newCount
  floorTotal := ∑ i ∈ range n, g.numerator i / g.newCount

theorem floorTotal_lt (h : g.Covered) {n : ℕ} (hn : n ≤ g.newCount) :
    ∑ i ∈ range n, g.numerator i / g.newCount < U128.size := by
  refine lt_of_le_of_lt ?_ (whole_lt h)
  rw [← sum_numerator h]
  calc ∑ i ∈ range n, g.numerator i / g.newCount
      ≤ ∑ i ∈ range n, g.numerator i := sum_le_sum fun i _ => Nat.div_le_self _ _
    _ ≤ ∑ i ∈ range g.newCount, g.numerator i :=
        sum_le_sum_of_subset (range_subset_range.mpr hn)

theorem cell_index_lt {row col : ℕ} (hrow : row < g.newRows) (hcol : col < g.newCols) :
    row * g.newCols + col < g.newCount := by
  have hnext : (row + 1) * g.newCols ≤ g.newRows * g.newCols := Nat.mul_le_mul_right _ hrow
  rw [Nat.add_mul, Nat.one_mul] at hnext
  unfold newCount
  omega

theorem floorCell_eq (h : g.Covered) {sums : List ℕ} (hsums : Tabulated g sums) {row col : ℕ}
    (hrow : row < g.newRows) (hcol : col < g.newCols) :
    g.floorCell sums g.newCount row (g.floorsAfter (row * g.newCols + col)) col =
      some (g.floorsAfter (row * g.newCols + (col + 1))) := by
  obtain ⟨hright, hleft, hstrips, hpart⟩ :=
    area_step g.cell g.oldRows g.oldCols g.newRows g.newCols g.rowEdge_mono g.colEdge_mono row col
  have hnumerator : g.cumulative (row + 1) (col + 1) - g.cumulative row (col + 1) -
      (g.cumulative (row + 1) col - g.cumulative row col) =
        g.numerator (row * g.newCols + col) := by
    rw [numerator_eq h row hcol]
    exact hpart
  have hindex := cell_index_lt hrow hcol
  have htotal := floorTotal_lt h (Nat.succ_le_of_lt hindex)
  rw [sum_range_succ] at htotal
  unfold floorCell
  rw [cumulativeNumerator_eq h hsums hrow hcol, cumulativeNumerator_eq h hsums hrow.le hcol,
    cumulativeNumerator_eq h hsums hrow hcol.le, cumulativeNumerator_eq h hsums hrow.le hcol.le]
  simp only [Option.bind_eq_bind, Option.bind_some]
  change g.cumulative row (col + 1) ≤ g.cumulative (row + 1) (col + 1) at hright
  change g.cumulative row col ≤ g.cumulative (row + 1) col at hleft
  change g.cumulative (row + 1) col - g.cumulative row col ≤
    g.cumulative (row + 1) (col + 1) - g.cumulative row (col + 1) at hstrips
  rw [U128.sub_eq hright, Option.bind_some, U128.sub_eq hleft, Option.bind_some,
    U128.sub_eq hstrips, Option.bind_some, hnumerator]
  have hadded : U128.add (g.floorsAfter (row * g.newCols + col)).floorTotal
      (g.numerator (row * g.newCols + col) / g.newCount) =
        some (g.floorsAfter (row * g.newCols + (col + 1))).floorTotal := by
    exact (U128.add_eq htotal).trans (congrArg some (sum_range_succ _ _).symm)
  rw [hadded, Option.bind_some]
  unfold floorsAfter
  rw [← Nat.add_assoc, List.range_succ, List.map_append, List.map_append]
  rfl

theorem floors_eq (h : g.Covered) {sums : List ℕ} (hsums : Tabulated g sums) :
    (List.range g.newRows).foldlM (g.floorRow sums g.newCount)
        { newNanos := [], fractionalRemainders := [], floorTotal := 0 } =
      some (g.floorsAfter g.newCount) := by
  have hrow (row : ℕ) (hrow : row < g.newRows) :
      g.floorRow sums g.newCount (g.floorsAfter (row * g.newCols)) row =
        some (g.floorsAfter ((row + 1) * g.newCols)) := by
    obtain ⟨floors, hloop, rfl⟩ := Loops.foldlM_range
      (f := g.floorCell sums g.newCount row) (s := g.floorsAfter (row * g.newCols))
      (n := g.newCols) (fun col floors => floors = g.floorsAfter (row * g.newCols + col)) rfl
      fun col hcol floors hfloors => ⟨_, hfloors ▸ floorCell_eq h hsums hrow hcol, rfl⟩
    rw [Nat.add_mul, Nat.one_mul]
    exact hloop
  obtain ⟨floors, hloop, rfl⟩ := Loops.foldlM_range (f := g.floorRow sums g.newCount)
    (s := g.floorsAfter 0) (n := g.newRows)
    (fun row floors => floors = g.floorsAfter (row * g.newCols))
    (congrArg g.floorsAfter (Nat.zero_mul _).symm)
    fun row hlt floors hfloors => ⟨_, hfloors ▸ hrow row hlt, rfl⟩
  exact hloop

/-- How many units the floors leave. -/
def seats (g : Regrid) : ℕ :=
  g.prefixSum g.oldRows g.oldCols - ∑ i ∈ range g.newCount, g.numerator i / g.newCount

/-- The units that are left are what the remainders come to, and fewer than the new cells. -/
theorem seats_spec (h : g.Covered) :
    g.prefixSum g.oldRows g.oldCols =
        ∑ i ∈ range g.newCount, g.numerator i / g.newCount + g.seats ∧ g.seats < g.newCount := by
  have hcount := (newCount_bounds h).1
  have hdivided : g.newCount * ∑ i ∈ range g.newCount, g.numerator i / g.newCount +
      ∑ i ∈ range g.newCount, g.numerator i % g.newCount =
        g.newCount * g.prefixSum g.oldRows g.oldCols := by
    rw [mul_sum, ← sum_add_distrib, Nat.mul_comm _ (g.prefixSum _ _), ← sum_numerator h]
    exact sum_congr rfl fun i _ => Nat.div_add_mod _ _
  have hremainders : ∑ i ∈ range g.newCount, g.numerator i % g.newCount <
      g.newCount * g.newCount := by
    calc ∑ i ∈ range g.newCount, g.numerator i % g.newCount
        < ∑ _i ∈ range g.newCount, g.newCount :=
          sum_lt_sum_of_nonempty (nonempty_range_iff.mpr hcount.ne') fun i _ =>
            Nat.mod_lt _ hcount
      _ = g.newCount * g.newCount := by
          rw [sum_const, card_range, nsmul_eq_mul, Nat.cast_id]
  have hfloors : ∑ i ∈ range g.newCount, g.numerator i / g.newCount ≤
      g.prefixSum g.oldRows g.oldCols :=
    Nat.le_of_mul_le_mul_left (by omega) hcount
  have hseats : g.newCount * g.seats = ∑ i ∈ range g.newCount, g.numerator i % g.newCount := by
    unfold seats
    rw [Nat.mul_sub]
    omega
  refine ⟨(Nat.add_sub_of_le hfloors).symm, ?_⟩
  exact Nat.lt_of_mul_lt_mul_left (hseats ▸ hremainders)

/-- What is apportioned, in terms of the numerators. -/
theorem apportionNanos_eq (h : g.Covered) :
    g.apportionNanos = some ((List.range g.newCount).map fun i =>
      g.numerator i / g.newCount +
        if LargestRemainder.rank (fun j => g.numerator j % g.newCount) g.newCount i < g.seats
        then 1 else 0) := by
  obtain ⟨sums, hsums, htable⟩ := buildOldPrefix_eq h
  obtain ⟨htotal, hseats⟩ := seats_spec h
  have hcount := newCount_bounds h
  have hsize : g.newCount ≤ UInt64.size := hcount.2.trans (by decide)
  have hfloor : ∀ i < g.newCount, g.numerator i / g.newCount + 1 < U128.size := by
    intro i hi
    have hone : g.numerator i / g.newCount ≤
        ∑ j ∈ range g.newCount, g.numerator j / g.newCount :=
      single_le_sum (f := fun j => g.numerator j / g.newCount) (fun _ _ => Nat.zero_le _)
        (mem_range.mpr hi)
    have hbound : g.prefixSum g.oldRows g.oldCols ≤ nanosBound :=
      prefixSum_le h.oldRows_lt h.oldCols_lt
    have hroom : nanosBound + 1 < U128.size := by decide
    omega
  simp only [apportionNanos, newCountU_eq h, hsums, htable _ le_rfl _ le_rfl,
    floors_eq h htable, Option.bind_eq_bind, Option.bind_some]
  rw [htotal]
  exact hamiltonDistribute_eq (fun i => Nat.mod_lt _ hcount.1) hsize hfloor hseats

/-- On as many cells as before, even wear stays as it is. -/
theorem apportionNanos_even (h : g.WellFormed) (hcount : g.newCount = g.oldRows * g.oldCols)
    {nanos : ℕ} (heven : ∀ r < g.oldRows, ∀ c < g.oldCols, g.cell r c = nanos) :
    g.apportionNanos = some (List.replicate g.newCount nanos) := by
  have hnumerator (i : ℕ) (hi : i < g.newCount) :
      g.numerator i = nanos * g.newCount := by
    have hrow : i / g.newCols + 1 ≤ g.newRows := Nat.div_lt_of_lt_mul (Nat.mul_comm _ _ ▸ hi)
    have hcol : i % g.newCols + 1 ≤ g.newCols := Nat.mod_lt _ h.newCols_pos
    have hrows : ∑ r ∈ range g.oldRows, step g.newRows g.rowEdge (i / g.newCols) r =
        g.oldRows := by
      have hsum := sum_step_strips (n := g.oldRows) h.newRows_pos g.rowEdge_mono
        (k := i / g.newCols) ((Nat.mul_le_mul_right _ hrow).trans (Nat.mul_comm _ _).le)
      unfold rowEdge at hsum
      rw [Nat.add_mul, Nat.one_mul] at hsum
      exact Nat.add_left_cancel hsum
    have hcols : ∑ c ∈ range g.oldCols, step g.newCols g.colEdge (i % g.newCols) c =
        g.oldCols := by
      have hsum := sum_step_strips (n := g.oldCols) h.newCols_pos g.colEdge_mono
        (k := i % g.newCols) ((Nat.mul_le_mul_right _ hcol).trans (Nat.mul_comm _ _).le)
      unfold colEdge at hsum
      rw [Nat.add_mul, Nat.one_mul] at hsum
      exact Nat.add_left_cancel hsum
    have hpart : g.numerator i = area (fun _ _ => nanos) g.oldRows g.oldCols
        (step g.newRows g.rowEdge (i / g.newCols)) (step g.newCols g.colEdge (i % g.newCols)) := by
      unfold numerator part area
      refine sum_congr rfl fun r hr => ?_
      have hcells := heven r (mem_range.mp hr)
      rw [sum_congr rfl fun c hc => congrArg (· * _) (hcells c (mem_range.mp hc))]
    rw [hpart, area_const, hrows, hcols, hcount]
  have hpos := (newCount_bounds h.covered).1
  have hfloor (i : ℕ) (hi : i < g.newCount) : g.numerator i / g.newCount = nanos := by
    rw [hnumerator i hi, Nat.mul_div_cancel _ hpos]
  have hseats : g.seats = 0 := by
    have hsum : ∑ i ∈ range g.newCount, g.numerator i / g.newCount =
        g.prefixSum g.oldRows g.oldCols := by
      refine Nat.eq_of_mul_eq_mul_right hpos ?_
      rw [← sum_numerator h.covered, sum_mul]
      refine sum_congr rfl fun i hi => ?_
      rw [hfloor i (mem_range.mp hi), hnumerator i (mem_range.mp hi)]
    unfold seats
    rw [hsum, Nat.sub_self]
  rw [apportionNanos_eq h.covered, hseats]
  refine congrArg some (List.eq_replicate_iff.mpr ⟨?_, ?_⟩)
  · rw [List.length_map, List.length_range]
  · intro value hvalue
    obtain ⟨i, hi, rfl⟩ := List.mem_map.mp hvalue
    rw [if_neg (Nat.not_lt_zero _), Nat.add_zero, hfloor i (List.mem_range.mp hi)]

/-! ## In rational coordinates -/

/-- The old grid over a new cell, the old cells being unit squares of uniform density. -/
def share (g : Regrid) (i : ℕ) : ℚ :=
  let row : ℚ := (i / g.newCols : ℕ)
  let col : ℚ := (i % g.newCols : ℕ)
  ∑ r ∈ range g.oldRows, ∑ c ∈ range g.oldCols,
    g.cell r c *
      (overlap (row * g.oldRows / g.newRows) ((row + 1) * g.oldRows / g.newRows) r (r + 1) *
        overlap (col * g.oldCols / g.newCols) ((col + 1) * g.oldCols / g.newCols) c (c + 1))

theorem share_eq (h : g.Covered) (i : ℕ) : g.share i = g.numerator i / g.newCount := by
  have hrow (r : ℕ) : overlap ((i / g.newCols : ℕ) * g.oldRows / g.newRows)
      (((i / g.newCols : ℕ) + 1) * g.oldRows / g.newRows) r (r + 1) =
        step g.newRows g.rowEdge (i / g.newCols) r / (g.newRows : ℚ) := by
    rw [← overlap_eq h.newRows_pos g.rowEdge_mono]
    unfold rowEdge
    push_cast
    rfl
  have hcol (c : ℕ) : overlap ((i % g.newCols : ℕ) * g.oldCols / g.newCols)
      (((i % g.newCols : ℕ) + 1) * g.oldCols / g.newCols) c (c + 1) =
        step g.newCols g.colEdge (i % g.newCols) c / (g.newCols : ℚ) := by
    rw [← overlap_eq h.newCols_pos g.colEdge_mono]
    unfold colEdge
    push_cast
    rfl
  unfold share numerator part area newCount
  push_cast
  rw [sum_div]
  refine sum_congr rfl fun r _ => ?_
  rw [sum_mul, sum_div]
  refine sum_congr rfl fun c _ => ?_
  rw [hrow, hcol, div_mul_div_comm, mul_div_assoc']
  ring

theorem floor_share (h : g.Covered) (i : ℕ) :
    ⌊g.share i⌋₊ = g.numerator i / g.newCount := by
  rw [share_eq h, Nat.floor_div_eq_div]

theorem fract_share (h : g.Covered) (i : ℕ) :
    Int.fract (g.share i) = ((g.numerator i % g.newCount : ℕ) : ℚ) / g.newCount := by
  rw [share_eq h]
  exact Int.fract_div_natCast_eq_div_natCast_mod

theorem sum_oldNanos (h : g.WellFormed) :
    (g.oldNanos.map UInt64.toNat).sum = g.prefixSum g.oldRows g.oldCols := by
  have hlist (xs : List UInt64) : (xs.map UInt64.toNat).sum =
      ∑ i ∈ range xs.length, (xs[i]?).elim 0 UInt64.toNat := by
    induction xs with
    | nil => rfl
    | cons x xs ih =>
      rw [List.map_cons, List.sum_cons, ih, List.length_cons, sum_range_succ', Nat.add_comm]
      rfl
  rw [hlist, h.length, sum_rowMajor]
  rfl

/-- The extra units, in the order of the fractional remainders. -/
def extra (g : Regrid) (i : ℕ) : ℕ :=
  if LargestRemainder.rank (fun j => Int.fract (g.share j)) g.newCount i <
      (g.oldNanos.map UInt64.toNat).sum - ∑ j ∈ range g.newCount, ⌊g.share j⌋₊
  then 1 else 0

/-- Each new cell gets the floor of its share, and perhaps an extra unit. -/
theorem apportionNanos_shares (h : g.WellFormed) :
    g.apportionNanos = some ((List.range g.newCount).map fun i => ⌊g.share i⌋₊ + g.extra i) := by
  have hcount := (newCount_bounds h.covered).1
  have hpos : (0 : ℚ) < g.newCount := Nat.cast_pos.mpr hcount
  have hmono : StrictMono fun m : ℕ => (m : ℚ) / g.newCount :=
    fun _ _ hlt => div_lt_div_of_pos_right (Nat.cast_lt.mpr hlt) hpos
  have hrank (i : ℕ) : LargestRemainder.rank (fun j => Int.fract (g.share j)) g.newCount i =
      LargestRemainder.rank (fun j => g.numerator j % g.newCount) g.newCount i := by
    rw [← LargestRemainder.rank_comp hmono]
    exact congrArg (fun f => LargestRemainder.rank f g.newCount i)
      (funext fun j => fract_share h.covered j)
  have hseats : (g.oldNanos.map UInt64.toNat).sum -
      ∑ j ∈ range g.newCount, ⌊g.share j⌋₊ = g.seats := by
    rw [sum_oldNanos h, sum_congr rfl fun j _ => floor_share h.covered j]
    rfl
  rw [apportionNanos_eq h.covered]
  refine congrArg some (List.map_congr_left fun i _ => ?_)
  unfold extra
  rw [floor_share h.covered, hrank, hseats]

theorem apportionNanos_entry (h : g.WellFormed) {newNanos : List ℕ}
    (hdone : g.apportionNanos = some newNanos) {i : ℕ} (hi : i < g.newCount) :
    newNanos[i]? = some (⌊g.share i⌋₊ + g.extra i) := by
  obtain rfl := Option.some.inj ((apportionNanos_shares h).symm.trans hdone)
  rw [List.getElem?_map, List.getElem?_range hi, Option.map_some]

/-- The shares and the extra units make up every nanosecond. -/
theorem sum_apportioned (h : g.WellFormed) {newNanos : List ℕ}
    (hdone : g.apportionNanos = some newNanos) :
    newNanos.sum = (g.oldNanos.map UInt64.toNat).sum := by
  have hcount := newCount_bounds h.covered
  have hsum (f : ℕ → ℕ) (n : ℕ) : ((List.range n).map f).sum = ∑ i ∈ range n, f i := rfl
  obtain ⟨htotal, hlt⟩ := seats_spec h.covered
  obtain rfl := Option.some.inj ((apportionNanos_eq h.covered).symm.trans hdone)
  rw [hsum, sum_add_distrib, sum_handedOut (fun i => Nat.mod_lt _ hcount.1)
    (hcount.2.trans (by decide)) hlt.le, sum_oldNanos h]
  exact htotal.symm

/-- Apportioning conserves every nanosecond. Each new cell gets the floor of its share, and the
units that are left go to the largest remainders, the lowest index first. -/
theorem apportionNanos_conserves (h : g.WellFormed) :
    ∃ newNanos, g.apportionNanos = some newNanos ∧
      newNanos.length = g.newRows * g.newCols ∧
      newNanos.sum = (g.oldNanos.map UInt64.toNat).sum ∧
      ∀ i < g.newRows * g.newCols, newNanos[i]? = some (⌊g.share i⌋₊ + g.extra i) := by
  have hshares := apportionNanos_shares h
  refine ⟨_, hshares, ?_, sum_apportioned h hshares,
    fun i hi => apportionNanos_entry h hshares hi⟩
  rw [List.length_map, List.length_range]
  rfl

/-- Two rows of two, to be one row of three. -/
def deskRegrid : Regrid where
  oldNanos := [10, 20, 30, 41]
  oldRows := 2
  oldCols := 2
  newRows := 1
  newCols := 3

theorem apportionNanos_conserves_desk :
    deskRegrid.apportionNanos = some [27, 34, 40] ∧
      ∃ newNanos, deskRegrid.apportionNanos = some newNanos ∧ newNanos.length = 1 * 3 ∧
        newNanos.sum = 101 ∧
        ∀ i < 1 * 3, newNanos[i]? = some (⌊deskRegrid.share i⌋₊ + deskRegrid.extra i) :=
  ⟨by decide, apportionNanos_conserves (g := deskRegrid) ⟨by decide, by decide, by decide,
    by decide, by decide, by decide, by decide, by decide, by decide⟩⟩

end Regrid

end Dormant
