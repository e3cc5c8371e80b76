import Dormant.Wear.Tracker
import Mathlib.Algebra.BigOperators.Field

/-!
# Resampled grids

`resample_area` gives each cell of the new grid the average of the source over it, so that the mean
stays what it was, and a grid that is cut finer and joined again is the same grid.
-/

namespace Dormant
set_option autoImplicit false

open Finset Strips

variable {values : List ℚ} {srcRows srcCols dstRows dstCols : ℕ}

/-- The cell shares more than an edge with the source cell. -/
def Meets (srcRows srcCols dstRows dstCols dstRow dstCol r c : ℕ) : Prop :=
  0 < shared dstRow dstRows r srcRows ∧ 0 < shared dstCol dstCols c srcCols

theorem resampledCell_eq (values : List ℚ) (srcRows srcCols dstRows dstCols dstRow dstCol : ℕ) :
    resampledCell values srcRows srcCols dstRows dstCols dstRow dstCol =
      (∑ p ∈ range srcRows ×ˢ range srcCols, values.getD (p.1 * srcCols + p.2) 0 *
        (shared dstRow dstRows p.1 srcRows * shared dstCol dstCols p.2 srcCols)) /
          (1 / dstRows * (1 / dstCols)) := by
  unfold resampledCell
  dsimp only
  rw [part_width, part_width, sum_product, sum_map_range]
  refine congrArg (· / _) (sum_congr rfl fun r _ => ?_)
  rw [sum_map_range]
  exact sum_congr rfl fun c _ => mul_assoc _ _ _

/-- The cell is covered. -/
theorem sum_weights {dstRow dstCol : ℕ} (hrow : dstRow < dstRows) (hcol : dstCol < dstCols)
    (hrows : 0 < srcRows) (hcols : 0 < srcCols) :
    ∑ p ∈ range srcRows ×ˢ range srcCols,
      shared dstRow dstRows p.1 srcRows * shared dstCol dstCols p.2 srcCols =
        1 / dstRows * (1 / dstCols) := by
  rw [sum_product, ← sum_shared hrow hrows, ← sum_shared hcol hcols, sum_mul_sum]

theorem area_pos {dstRow dstCol : ℕ} (hrow : dstRow < dstRows) (hcol : dstCol < dstCols) :
    (0 : ℚ) < 1 / dstRows * (1 / dstCols) := by
  have hrows : (0 : ℚ) < dstRows := Nat.cast_pos.mpr (by omega)
  have hcols : (0 : ℚ) < dstCols := Nat.cast_pos.mpr (by omega)
  exact mul_pos (one_div_pos.mpr hrows) (one_div_pos.mpr hcols)

/-- Some source cell that the cell meets is no greater, and some no less. -/
theorem resampledCell_between {dstRow dstCol : ℕ} (hrow : dstRow < dstRows)
    (hcol : dstCol < dstCols) (hrows : 0 < srcRows) (hcols : 0 < srcCols) (values : List ℚ) :
    let cell := resampledCell values srcRows srcCols dstRows dstCols dstRow dstCol
    (∃ r < srcRows, ∃ c < srcCols, Meets srcRows srcCols dstRows dstCols dstRow dstCol r c ∧
        values.getD (r * srcCols + c) 0 ≤ cell) ∧
      ∃ r < srcRows, ∃ c < srcCols, Meets srcRows srcCols dstRows dstCols dstRow dstCol r c ∧
        cell ≤ values.getD (r * srcCols + c) 0 := by
  intro cell
  have hweights := sum_weights hrow hcol hrows hcols
  have harea := area_pos hrow hcol
  have hnonneg : ∀ p ∈ range srcRows ×ˢ range srcCols,
      0 ≤ shared dstRow dstRows p.1 srcRows * shared dstCol dstCols p.2 srcCols := fun p _ =>
    mul_nonneg (shared_nonneg _ _ _ _) (shared_nonneg _ _ _ _)
  have hcell : ∑ p ∈ range srcRows ×ˢ range srcCols, values.getD (p.1 * srcCols + p.2) 0 *
      (shared dstRow dstRows p.1 srcRows * shared dstCol dstCols p.2 srcCols) =
        cell * ∑ p ∈ range srcRows ×ˢ range srcCols,
          shared dstRow dstRows p.1 srcRows * shared dstCol dstCols p.2 srcCols := by
    unfold cell
    rw [resampledCell_eq, hweights, div_mul_cancel₀ _ harea.ne']
  have hmeets {p : ℕ × ℕ}
      (hp : 0 < shared dstRow dstRows p.1 srcRows * shared dstCol dstCols p.2 srcCols) :
      Meets srcRows srcCols dstRows dstCols dstRow dstCol p.1 p.2 := by
    have hleft := shared_nonneg dstRow dstRows p.1 srcRows
    have hright := shared_nonneg dstCol dstCols p.2 srcCols
    exact ⟨lt_of_le_of_ne hleft fun h => by rw [← h, zero_mul] at hp; exact lt_irrefl _ hp,
      lt_of_le_of_ne hright fun h => by rw [← h, mul_zero] at hp; exact lt_irrefl _ hp⟩
  rw [← hweights] at harea
  obtain ⟨p, hp, hpos, hle⟩ := exists_le_average hnonneg harea hcell.le
  obtain ⟨q, hq, hpos', hge⟩ := exists_average_le hnonneg harea hcell.ge
  rw [mem_product, mem_range, mem_range] at hp hq
  exact ⟨⟨p.1, hp.1, p.2, hp.2, hmeets hpos, hle⟩, ⟨q.1, hq.1, q.2, hq.2, hmeets hpos', hge⟩⟩

/-- Where the source is the same all over the cell, so is the cell. -/
theorem resampledCell_uniform {dstRow dstCol : ℕ} (hrow : dstRow < dstRows)
    (hcol : dstCol < dstCols) (hrows : 0 < srcRows) (hcols : 0 < srcCols) {x : ℚ}
    (h : ∀ r < srcRows, ∀ c < srcCols, Meets srcRows srcCols dstRows dstCols dstRow dstCol r c →
      values.getD (r * srcCols + c) 0 = x) :
    resampledCell values srcRows srcCols dstRows dstCols dstRow dstCol = x := by
  obtain ⟨⟨r, hr, c, hc, hmeets, hle⟩, r', hr', c', hc', hmeets', hge⟩ :=
    resampledCell_between hrow hcol hrows hcols values
  rw [h r hr c hc hmeets] at hle
  rw [h r' hr' c' hc' hmeets'] at hge
  exact le_antisymm hge hle

/-- Together the cells hold what the source holds, in proportion to their area. -/
theorem sum_resampled (hrows : 0 < dstRows) (hcols : 0 < dstCols) (values : List ℚ) :
    (∑ q ∈ range dstRows ×ˢ range dstCols,
        resampledCell values srcRows srcCols dstRows dstCols q.1 q.2) /
          (dstRows * dstCols) =
      (∑ p ∈ range srcRows ×ˢ range srcCols, values.getD (p.1 * srcCols + p.2) 0) /
        (srcRows * srcCols) := by
  have hdst : (0 : ℚ) < dstRows * dstCols :=
    mul_pos (Nat.cast_pos.mpr hrows) (Nat.cast_pos.mpr hcols)
  have hpart (p : ℕ × ℕ) (hp : p ∈ range srcRows ×ˢ range srcCols) :
      ∑ q ∈ range dstRows ×ˢ range dstCols, values.getD (p.1 * srcCols + p.2) 0 *
        (shared q.1 dstRows p.1 srcRows * shared q.2 dstCols p.2 srcCols) =
      values.getD (p.1 * srcCols + p.2) 0 * (1 / srcRows * (1 / srcCols)) := by
    rw [mem_product, mem_range, mem_range] at hp
    rw [← mul_sum, ← sum_weights hp.1 hp.2 hrows hcols]
    refine congrArg (_ * ·) (sum_congr rfl fun q _ => ?_)
    rw [shared_comm q.1, shared_comm q.2]
  calc (∑ q ∈ range dstRows ×ˢ range dstCols,
        resampledCell values srcRows srcCols dstRows dstCols q.1 q.2) / (dstRows * dstCols)
      = ∑ q ∈ range dstRows ×ˢ range dstCols, ∑ p ∈ range srcRows ×ˢ range srcCols,
          values.getD (p.1 * srcCols + p.2) 0 *
            (shared q.1 dstRows p.1 srcRows * shared q.2 dstCols p.2 srcCols) := by
        rw [sum_div]
        refine sum_congr rfl fun q _ => ?_
        rw [resampledCell_eq, one_div_mul_one_div, div_div, one_div_mul_cancel hdst.ne', div_one]
    _ = ∑ p ∈ range srcRows ×ˢ range srcCols,
          values.getD (p.1 * srcCols + p.2) 0 * (1 / srcRows * (1 / srcCols)) := by
        rw [sum_comm]
        exact sum_congr rfl hpart
    _ = _ := by
        rw [← sum_mul, one_div_mul_one_div, mul_one_div]

/-! ## Finer and coarser -/

section
variable {rows cols a b : ℕ}

theorem resampledCell_finer {row col : ℕ} (hrow : row < a * rows) (hcol : col < b * cols)
    (values : List ℚ) :
    resampledCell values rows cols (a * rows) (b * cols) row col =
      values.getD (row / a * cols + col / b) 0 := by
  have ha : 0 < a := Nat.pos_of_mul_pos_right (Nat.zero_lt_of_lt hrow)
  have hb : 0 < b := Nat.pos_of_mul_pos_right (Nat.zero_lt_of_lt hcol)
  have hrows : 0 < rows := Nat.pos_of_mul_pos_left (Nat.zero_lt_of_lt hrow)
  have hcols : 0 < cols := Nat.pos_of_mul_pos_left (Nat.zero_lt_of_lt hcol)
  refine resampledCell_uniform hrow hcol hrows hcols fun r _ c _ hmeets => ?_
  obtain ⟨hr, hc⟩ := hmeets
  rw [shared_comm, shared_pos_mul hrows ha] at hr
  rw [shared_comm, shared_pos_mul hcols hb] at hc
  rw [hr, hc]

theorem resampledCell_coarser (ha : 0 < a) (hb : 0 < b) {row col : ℕ} (hrow : row < rows)
    (hcol : col < cols) {values : List ℚ} {f : ℕ → ℕ → ℚ}
    (hvalues : ∀ r < a * rows, ∀ c < b * cols,
      values.getD (r * (b * cols) + c) 0 = f (r / a) (c / b)) :
    resampledCell values (a * rows) (b * cols) rows cols row col = f row col := by
  have hrows : 0 < rows := Nat.zero_lt_of_lt hrow
  have hcols : 0 < cols := Nat.zero_lt_of_lt hcol
  refine resampledCell_uniform hrow hcol (Nat.mul_pos ha hrows) (Nat.mul_pos hb hcols)
    fun r hr c hc hmeets => ?_
  obtain ⟨hmeetsRow, hmeetsCol⟩ := hmeets
  rw [shared_pos_mul hrows ha] at hmeetsRow
  rw [shared_pos_mul hcols hb] at hmeetsCol
  rw [hvalues r hr c hc, hmeetsRow, hmeetsCol]

end

/-! ## The grid -/

/-- The cells of the new grid, row by row. -/
def resampled (values : List ℚ) (srcRows srcCols dstRows dstCols : ℕ) : List ℚ :=
  (List.range (dstRows * dstCols)).map fun i =>
    resampledCell values srcRows srcCols dstRows dstCols (i / dstCols) (i % dstCols)

theorem length_resampled (values : List ℚ) (srcRows srcCols dstRows dstCols : ℕ) :
    (resampled values srcRows srcCols dstRows dstCols).length = dstRows * dstCols := by
  unfold resampled
  rw [List.length_map, List.length_range]

theorem getD_resampled (values : List ℚ) {row col : ℕ} (hrow : row < dstRows)
    (hcol : col < dstCols) :
    (resampled values srcRows srcCols dstRows dstCols).getD (row * dstCols + col) 0 =
      resampledCell values srcRows srcCols dstRows dstCols row col := by
  unfold resampled
  rw [List.getD_eq_getElem?_getD, List.getElem?_map, List.getElem?_range (rowMajor_lt hrow hcol),
    Option.map_some, Option.getD_some, rowMajor_div row hcol, rowMajor_mod row hcol]

/-- Two grids with the same cells are the same. -/
theorem eq_of_cells {xs ys : List ℚ} {rows cols : ℕ} (hxs : xs.length = rows * cols)
    (hys : ys.length = rows * cols)
    (h : ∀ row < rows, ∀ col < cols,
      xs.getD (row * cols + col) 0 = ys.getD (row * cols + col) 0) : xs = ys := by
  refine List.ext_getElem (hxs.trans hys.symm) fun i hi hi' => ?_
  rw [hxs] at hi
  have hcols : 0 < cols := Nat.pos_of_mul_pos_left (Nat.zero_lt_of_lt hi)
  have hcell := h (i / cols) (Nat.div_lt_of_lt_mul (by rwa [Nat.mul_comm] at hi)) (i % cols)
    (Nat.mod_lt i hcols)
  rw [Nat.div_add_mod'] at hcell
  rw [List.getD_eq_getElem?_getD, List.getD_eq_getElem?_getD, List.getElem?_eq_getElem,
    List.getElem?_eq_getElem] at hcell
  exact hcell

/-- The sum of a grid, row by row. -/
theorem sum_cells {xs : List ℚ} {rows cols : ℕ} (hxs : xs.length = rows * cols) :
    xs.sum = ∑ p ∈ range rows ×ˢ range cols, xs.getD (p.1 * cols + p.2) 0 := by
  have hlist : xs = (List.range (rows * cols)).map (xs.getD · 0) := by
    refine List.ext_getElem (by rw [List.length_map, List.length_range, hxs]) fun i hi hi' => ?_
    rw [List.getElem_map, List.getElem_range, List.getD_eq_getElem?_getD,
      List.getElem?_eq_getElem hi, Option.getD_some]
  rw [sum_product, ← sum_rowMajor (xs.getD · 0), ← sum_map_range, ← hlist]

theorem resampleArea_eq {srcRows srcCols dstRows dstCols : UInt16}
    (hsrc : 0 < srcRows ∧ 0 < srcCols) (hdst : 0 < dstRows ∧ 0 < dstCols)
    (hlength : values.length = srcRows.toNat * srcCols.toNat) :
    resampleArea values srcRows srcCols dstRows dstCols =
      some (resampled values srcRows.toNat srcCols.toNat dstRows.toNat dstCols.toNat) := by
  have hpos {n : UInt16} (hn : 0 < n) : n ≠ 0 := fun hzero => by
    rw [hzero] at hn
    cases hn
  unfold resampleArea checkedCellCount
  rw [if_pos ⟨hpos hsrc.1, hpos hsrc.2⟩, if_pos ⟨hpos hdst.1, hpos hdst.2⟩]
  simp only [Option.bind_eq_bind, Option.bind_some]
  rw [if_neg (not_not.mpr hlength)]
  by_cases hsame : srcRows = dstRows ∧ srcCols = dstCols
  · obtain ⟨rfl, rfl⟩ := hsame
    rw [if_pos ⟨rfl, rfl⟩]
    refine congrArg some (eq_of_cells hlength (length_resampled _ _ _ _ _)
      fun row hrow col hcol => ?_)
    have hrow' : row < 1 * srcRows.toNat := by rwa [Nat.one_mul]
    have hcol' : col < 1 * srcCols.toNat := by rwa [Nat.one_mul]
    have hcell := resampledCell_finer hrow' hcol' values
    rw [Nat.one_mul, Nat.one_mul, Nat.div_one, Nat.div_one] at hcell
    rw [getD_resampled values hrow hcol, hcell]
  · rw [if_neg hsame]
    exact congrArg some (flatMap_range _ _ _)

/-- The new grid has its cells and the mean of the source; each cell is between source cells that
it meets; a uniform grid stays so; and a grid that is cut finer comes back. -/
theorem resample_area_conserves (values : List ℚ) (srcRows srcCols dstRows dstCols : UInt16)
    (hsrc : 0 < srcRows ∧ 0 < srcCols) (hdst : 0 < dstRows ∧ 0 < dstCols)
    (hlength : values.length = srcRows.toNat * srcCols.toNat) :
    ∃ output, resampleArea values srcRows srcCols dstRows dstCols = some output ∧
      output.length = dstRows.toNat * dstCols.toNat ∧
      output.sum / output.length = values.sum / values.length ∧
      (∀ row < dstRows.toNat, ∀ col < dstCols.toNat,
        let cell := output.getD (row * dstCols.toNat + col) 0
        let met := Meets srcRows.toNat srcCols.toNat dstRows.toNat dstCols.toNat row col
        (∃ r < srcRows.toNat, ∃ c < srcCols.toNat, met r c ∧
            values.getD (r * srcCols.toNat + c) 0 ≤ cell) ∧
          ∃ r < srcRows.toNat, ∃ c < srcCols.toNat, met r c ∧
            cell ≤ values.getD (r * srcCols.toNat + c) 0) ∧
      (∀ x, (∀ value ∈ values, value = x) → ∀ cell ∈ output, cell = x) ∧
      ∀ a b : ℕ, dstRows.toNat = a * srcRows.toNat → dstCols.toNat = b * srcCols.toNat →
        resampleArea output dstRows dstCols srcRows srcCols = some values := by
  have hrows : 0 < srcRows.toNat := UInt16.lt_iff_toNat_lt.mp hsrc.1
  have hcols : 0 < srcCols.toNat := UInt16.lt_iff_toNat_lt.mp hsrc.2
  have hrows' : 0 < dstRows.toNat := UInt16.lt_iff_toNat_lt.mp hdst.1
  have hcols' : 0 < dstCols.toNat := UInt16.lt_iff_toNat_lt.mp hdst.2
  have hsize := length_resampled values srcRows.toNat srcCols.toNat dstRows.toNat dstCols.toNat
  refine ⟨_, resampleArea_eq hsrc hdst hlength, hsize, ?_, fun row hrow col hcol => ?_,
    fun x hx cell hcell => ?_, fun a b ha hb => ?_⟩
  · rw [sum_cells hsize, sum_cells hlength, hsize, hlength, Nat.cast_mul, Nat.cast_mul,
      ← sum_resampled hrows' hcols' values]
    refine congrArg (· / _) (sum_congr rfl fun q hq => ?_)
    rw [mem_product, mem_range, mem_range] at hq
    exact getD_resampled values hq.1 hq.2
  · dsimp only
    rw [getD_resampled values hrow hcol]
    exact resampledCell_between hrow hcol hrows hcols values
  · obtain ⟨i, hi, rfl⟩ := List.mem_map.mp hcell
    have hlt := List.mem_range.mp hi
    refine resampledCell_uniform (Nat.div_lt_of_lt_mul (by rwa [Nat.mul_comm] at hlt))
      (Nat.mod_lt i hcols') hrows hcols fun r hr c hc _ => ?_
    have hindex := rowMajor_lt hr hc
    rw [← hlength] at hindex
    rw [List.getD_eq_getElem?_getD, List.getElem?_eq_getElem hindex, Option.getD_some]
    exact hx _ (List.getElem_mem hindex)
  · rw [resampleArea_eq hdst hsrc hsize]
    refine congrArg some (eq_of_cells (length_resampled _ _ _ _ _) hlength
      fun row hrow col hcol => ?_)
    rw [getD_resampled _ hrow hcol, ha, hb]
    rw [ha] at hrows'
    rw [hb] at hcols'
    refine resampledCell_coarser (Nat.pos_of_mul_pos_right hrows')
      (Nat.pos_of_mul_pos_right hcols') hrow hcol
      (f := fun r c => values.getD (r * srcCols.toNat + c) 0) fun r hr c hc => ?_
    rw [getD_resampled values hr hc, resampledCell_finer hr hc]

/-- Three rows over two, and back. -/
theorem resample_area_conserves_thirds :
    (0 < (3 : UInt16) ∧ 0 < (1 : UInt16)) ∧ (0 < (2 : UInt16) ∧ 0 < (1 : UInt16)) ∧
      ([0, 0, 6] : List ℚ).length = 3 * 1 ∧
      ∃ output, resampleArea [0, 0, 6] 3 1 2 1 = some output ∧ output.sum / output.length = 2 := by
  refine ⟨by decide, by decide, rfl, ?_⟩
  obtain ⟨output, houtput, -, hmean, -⟩ :=
    resample_area_conserves [0, 0, 6] 3 1 2 1 (by decide) (by decide) rfl
  refine ⟨output, houtput, hmean.trans ?_⟩
  norm_num

end Dormant
