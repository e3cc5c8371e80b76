import Dormant.Wear.Resample

/-!
# Reduced frames

`reduce_rgba8_to_luma_grid` of `spatial_grid.rs` averages the pixels of a frame over the cells of a
grid. Sums are exact and the transfer function is a parameter. `none` is a panic: an index outside
its list, or an overflow of 64-bit arithmetic.
-/

namespace Dormant
set_option autoImplicit false

inductive GridError where
  | invalidDimensions
  | invalidStride (minimum actual : ℕ)
  | invalidLength (expected actual : ℕ)
  | invalidOutputDimensions (rows cols : UInt16)
  | emptyCell
  | invalidGrid
  deriving DecidableEq, Repr

def LumaGrid.new (cells : List ℚ) : Option LumaGrid :=
  if cells.length = lumaGridRows.toNat * lumaGridCols.toNat ∧
      ∀ value ∈ cells, 0 ≤ value ∧ value ≤ 1 then
    some { cells := cells }
  else none

/-- Rec. 709. -/
def linearLuma (srgbToLinear : ℚ → ℚ) (red green blue : ℚ) : ℚ :=
  2126 / 10000 * srgbToLinear red + 7152 / 10000 * srgbToLinear green +
    722 / 10000 * srgbToLinear blue

namespace Frame

def checkedAdd (a b : ℕ) : Option ℕ := if a + b < UInt64.size then some (a + b) else none

def checkedMul (a b : ℕ) : Option ℕ := if a * b < UInt64.size then some (a * b) else none

def channel (byte : UInt8) : ℚ := byte.toNat / 255

/-- What the loops build up. -/
structure Tally where
  sums : List ℚ
  counts : List ℕ

/-- The body of the loops. -/
def addPixel (srgbToLinear : ℚ → ℚ) (rgba : List UInt8) (width height stride rows cols : ℕ)
    (y : ℕ) (tally : Tally) (x : ℕ) : Option Tally := do
  let cellRow := (← checkedMul y rows) / height
  let cellCol := (← checkedMul x cols) / width
  let cell ← checkedAdd (← checkedMul cellRow cols) cellCol
  let offset ← checkedAdd (← checkedMul y stride) (← checkedMul x 4)
  let alpha ← rgba[← checkedAdd offset 3]?
  let red ← rgba[offset]?
  let green ← rgba[← checkedAdd offset 1]?
  let blue ← rgba[← checkedAdd offset 2]?
  let luma := linearLuma srgbToLinear (channel red) (channel green) (channel blue) * channel alpha
  let sum ← tally.sums[cell]?
  let count ← tally.counts[cell]?
  let next ← checkedAdd count 1
  some { sums := tally.sums.set cell (sum + luma), counts := tally.counts.set cell next }

def tallyPixels (srgbToLinear : ℚ → ℚ) (rgba : List UInt8) (width height stride rows cols : ℕ) :
    Option Tally :=
  (List.range height).foldlM
    (fun tally y => (List.range width).foldlM
      (addPixel srgbToLinear rgba width height stride rows cols y) tally)
    { sums := List.replicate (rows * cols) 0, counts := List.replicate (rows * cols) 0 }

def cellMean (cell : ℚ × ℕ) : Except GridError ℚ :=
  if cell.2 = 0 then .error .emptyCell else .ok (cell.1 / cell.2)

def finish (tally : Tally) : Except GridError LumaGrid :=
  match (tally.sums.zip tally.counts).mapM cellMean with
  | .error e => .error e
  | .ok cells =>
    match LumaGrid.new cells with
    | none => .error .invalidGrid
    | some grid => .ok grid

end Frame

open Frame

def reduceRgba8ToLumaGrid (srgbToLinear : ℚ → ℚ) (rgba : List UInt8) (width height : UInt32)
    (stride : UInt64) (rows cols : UInt16) : Option (Except GridError LumaGrid) :=
  if width = 0 ∨ height = 0 ∨ rows = 0 ∨ cols = 0 then some (.error .invalidDimensions)
  else if rows ≠ lumaGridRows ∨ cols ≠ lumaGridCols then
    some (.error (.invalidOutputDimensions rows cols))
  else
    match checkedMul width.toNat 4 with
    | none => some (.error .invalidDimensions)
    | some minimumStride =>
      if stride.toNat < minimumStride then
        some (.error (.invalidStride minimumStride stride.toNat))
      else
        match checkedMul stride.toNat height.toNat with
        | none => some (.error .invalidDimensions)
        | some expectedLength =>
          if rgba.length ≠ expectedLength then
            some (.error (.invalidLength expectedLength rgba.length))
          else
            (tallyPixels srgbToLinear rgba width.toNat height.toNat stride.toNat rows.toNat
              cols.toNat).map finish

/-! ## Cells -/

namespace Frame

/-- The pixels in the order of the loops, rows first. -/
def pixels (width height : ℕ) : List (ℕ × ℕ) :=
  (List.range height).flatMap fun y => (List.range width).map fun x => (y, x)

/-- The cell of the grid in which a pixel is counted. -/
def cellOf (width height rows cols : ℕ) (p : ℕ × ℕ) : ℕ :=
  p.1 * rows / height * cols + p.2 * cols / width

/-- The luma of a pixel in the buffer. -/
def lumaAt (srgbToLinear : ℚ → ℚ) (rgba : List UInt8) (stride : ℕ) (p : ℕ × ℕ) : ℚ :=
  let byte k := channel (rgba.getD (p.1 * stride + p.2 * 4 + k) 0)
  linearLuma srgbToLinear (byte 0) (byte 1) (byte 2) * byte 3

/-- The pixels so far, by cell. -/
def tallyOf (n : ℕ) (cell : ℕ × ℕ → ℕ) (luma : ℕ × ℕ → ℚ) (done : List (ℕ × ℕ)) : Tally where
  sums := (List.range n).map fun c => ((done.filter (cell · = c)).map luma).sum
  counts := (List.range n).map fun c => done.countP (cell · = c)

variable {width height rows cols : ℕ}

theorem floor_lt {i n m : ℕ} (hi : i < n) (hm : 0 < m) : i * m / n < m := by
  refine Nat.div_lt_of_lt_mul ?_
  exact Nat.mul_lt_mul_of_pos_right hi hm

/-- A floored multiple hits every number below, when there are enough. -/
theorem exists_floor {n m k : ℕ} (hm : m ≤ n) (hk : k < m) : ∃ i < n, i * m / n = k := by
  have hmod := Nat.mod_lt (k * n + (m - 1)) (Nat.zero_lt_of_lt hk)
  have hdiv := Nat.div_add_mod' (k * n + (m - 1)) m
  have hnext : (k + 1) * n ≤ m * n := Nat.mul_le_mul_right n hk
  have hsucc : (k + 1) * n = k * n + n := Nat.succ_mul k n
  refine ⟨(k * n + (m - 1)) / m, ?_, Nat.div_eq_of_lt_le (by omega) (by omega)⟩
  refine Nat.lt_of_mul_lt_mul_right (a := m) ?_
  rw [Nat.mul_comm n m]
  omega

/-- With fewer, it misses one. -/
theorem exists_missed {n m : ℕ} (h : n < m) : ∃ k < m, ∀ i < n, i * m / n ≠ k := by
  by_contra hnone
  push Not at hnone
  have hsub : Finset.range m ⊆ (Finset.range n).image fun i => i * m / n := by
    intro k hk
    obtain ⟨i, hi, heq⟩ := hnone k (Finset.mem_range.mp hk)
    exact Finset.mem_image.mpr ⟨i, Finset.mem_range.mpr hi, heq⟩
  have hcard := (Finset.card_le_card hsub).trans Finset.card_image_le
  rw [Finset.card_range, Finset.card_range] at hcard
  omega

theorem mem_pixels {p : ℕ × ℕ} : p ∈ pixels width height ↔ p.1 < height ∧ p.2 < width := by
  unfold pixels
  rw [List.mem_flatMap]
  constructor
  · rintro ⟨y, hy, hp⟩
    obtain ⟨x, hx, rfl⟩ := List.mem_map.mp hp
    exact ⟨List.mem_range.mp hy, List.mem_range.mp hx⟩
  · rintro ⟨hy, hx⟩
    exact ⟨p.1, List.mem_range.mpr hy, List.mem_map.mpr ⟨p.2, List.mem_range.mpr hx, rfl⟩⟩

theorem length_pixels (width height : ℕ) : (pixels width height).length = height * width := by
  unfold pixels
  rw [List.length_flatMap]
  simp

theorem cellOf_lt {p : ℕ × ℕ} (hp : p ∈ pixels width height) (hrows : 0 < rows) (hcols : 0 < cols) :
    cellOf width height rows cols p < rows * cols := by
  obtain ⟨hy, hx⟩ := mem_pixels.mp hp
  exact Strips.rowMajor_lt (floor_lt hy hrows) (floor_lt hx hcols)

/-- Every cell has a pixel just when there are as many columns and rows of pixels as of cells. -/
theorem covered_iff (hrows : 0 < rows) (hcols : 0 < cols) :
    (∀ c < rows * cols, ∃ p ∈ pixels width height, cellOf width height rows cols p = c) ↔
      cols ≤ width ∧ rows ≤ height := by
  have hcell {p : ℕ × ℕ} (hp : p ∈ pixels width height) :
      cellOf width height rows cols p / cols = p.1 * rows / height ∧
        cellOf width height rows cols p % cols = p.2 * cols / width := by
    have hlt := floor_lt (mem_pixels.mp hp).2 hcols
    exact ⟨Strips.rowMajor_div _ hlt, Strips.rowMajor_mod _ hlt⟩
  constructor
  · intro hall
    by_contra hfew
    rcases not_and_or.mp hfew with hwidth | hheight
    · obtain ⟨col, hcol, hmissed⟩ := exists_missed (not_le.mp hwidth)
      obtain ⟨p, hp, heq⟩ := hall (0 * cols + col) (Strips.rowMajor_lt hrows hcol)
      refine hmissed p.2 (mem_pixels.mp hp).2 ?_
      rw [← (hcell hp).2, heq, Strips.rowMajor_mod 0 hcol]
    · obtain ⟨row, hrow, hmissed⟩ := exists_missed (not_le.mp hheight)
      obtain ⟨p, hp, heq⟩ := hall (row * cols + 0) (Strips.rowMajor_lt hrow hcols)
      refine hmissed p.1 (mem_pixels.mp hp).1 ?_
      rw [← (hcell hp).1, heq, Strips.rowMajor_div row hcols]
  · rintro ⟨hwidth, hheight⟩ c hc
    rw [Nat.mul_comm] at hc
    obtain ⟨y, hy, hrow⟩ := exists_floor hheight (Nat.div_lt_of_lt_mul hc)
    obtain ⟨x, hx, hcol⟩ := exists_floor hwidth (Nat.mod_lt c hcols)
    refine ⟨(y, x), mem_pixels.mpr ⟨hy, hx⟩, ?_⟩
    unfold cellOf
    rw [hrow, hcol]
    exact Nat.div_add_mod' c cols

/-! ## The tally -/

theorem set_map_range {α : Type} (f : ℕ → α) (n i : ℕ) (a : α) :
    ((List.range n).map f).set i a = (List.range n).map (Function.update f i a) := by
  refine List.ext_getElem (by simp) fun j hj hj' => ?_
  rw [List.getElem_set, List.getElem_map, List.getElem_map, List.getElem_range]
  by_cases heq : i = j
  · rw [if_pos heq, heq, Function.update_self]
  · rw [if_neg heq, Function.update_of_ne (Ne.symm heq)]

/-- One more pixel goes to its cell. -/
theorem tallyOf_concat {n : ℕ} {cell : ℕ × ℕ → ℕ} {luma : ℕ × ℕ → ℚ} (done : List (ℕ × ℕ))
    (p : ℕ × ℕ) :
    tallyOf n cell luma (done ++ [p]) =
      { sums := (tallyOf n cell luma done).sums.set (cell p)
          (((done.filter (cell · = cell p)).map luma).sum + luma p)
        counts := (tallyOf n cell luma done).counts.set (cell p)
          (done.countP (cell · = cell p) + 1) } := by
  unfold tallyOf
  rw [set_map_range, set_map_range, Tally.mk.injEq]
  constructor
  · refine List.map_congr_left fun c _ => ?_
    rw [List.filter_append, List.map_append, List.sum_append]
    by_cases heq : c = cell p
    · subst heq
      simp
    · rw [Function.update_of_ne heq]
      simp [Ne.symm heq]
  · refine List.map_congr_left fun c _ => ?_
    rw [List.countP_append]
    by_cases heq : c = cell p
    · subst heq
      simp
    · rw [Function.update_of_ne heq]
      simp [Ne.symm heq]

theorem checkedAdd_eq {a b : ℕ} (h : a + b < UInt64.size) : checkedAdd a b = some (a + b) :=
  if_pos h

theorem checkedMul_eq {a b : ℕ} (h : a * b < UInt64.size) : checkedMul a b = some (a * b) :=
  if_pos h

theorem bind_some_eq {α β : Type} {o : Option α} {a : α} (h : o = some a) (f : α → Option β) :
    (o >>= f) = f a := by
  rw [h]
  rfl

theorem foldlM_flatMap {α β σ : Type} (f : σ → β → Option σ) (each : α → List β) (xs : List α)
    (s : σ) : (xs.flatMap each).foldlM f s = xs.foldlM (fun s x => (each x).foldlM f s) s := by
  induction xs generalizing s with
  | nil => rfl
  | cons x xs ih =>
    rw [List.flatMap_cons, List.foldlM_append, List.foldlM_cons]
    exact congrArg (Option.bind ((each x).foldlM f s)) (funext ih)

/-- The two loops are one. -/
theorem foldlM_pixels {σ : Type} (f : ℕ → σ → ℕ → Option σ) (width height : ℕ) (s : σ) :
    (List.range height).foldlM (fun s y => (List.range width).foldlM (f y) s) s =
      (pixels width height).foldlM (fun s p => f p.1 s p.2) s := by
  unfold pixels
  rw [foldlM_flatMap]
  simp only [List.foldlM_map]

/-- What the checks before the loops establish, of sizes as they come. -/
structure Checked (rgba : List UInt8) (width height stride rows cols : ℕ) : Prop where
  someRows : 0 < rows ∧ rows < UInt16.size
  someCols : 0 < cols ∧ cols < UInt16.size
  someWidth : 0 < width ∧ width < UInt32.size
  someHeight : 0 < height ∧ height < UInt32.size
  wide : width * 4 ≤ stride
  length : rgba.length = stride * height
  fits : stride * height < UInt64.size

namespace Checked
variable {rgba : List UInt8} {stride : ℕ}

theorem scaled {i n m : ℕ} (hi : i < n) (hn : n < UInt32.size) (hm : m < UInt16.size) :
    i * m < UInt64.size := by
  have hle : i * m ≤ UInt32.size * UInt16.size := Nat.mul_le_mul (by omega) hm.le
  have hsize : UInt32.size * UInt16.size < UInt64.size := by decide
  omega

variable (h : Checked rgba width height stride rows cols)
include h

theorem offset_lt {p : ℕ × ℕ} (hp : p ∈ pixels width height) {k : ℕ} (hk : k < 4) :
    p.1 * stride + p.2 * 4 + k < stride * height := by
  obtain ⟨hy, hx⟩ := mem_pixels.mp hp
  have hrow : (p.1 + 1) * stride ≤ height * stride := Nat.mul_le_mul_right stride hy
  have hstride := h.wide
  rw [Nat.add_mul, Nat.one_mul] at hrow
  rw [Nat.mul_comm stride]
  omega

theorem cell_lt {p : ℕ × ℕ} (hp : p ∈ pixels width height) :
    cellOf width height rows cols p < rows * cols :=
  cellOf_lt hp h.someRows.1 h.someCols.1

theorem cells_lt : rows * cols < UInt64.size := by
  have hsize : UInt16.size * UInt16.size < UInt64.size := by decide
  exact (Nat.mul_le_mul h.someRows.2.le h.someCols.2.le).trans_lt hsize

theorem pixels_lt : (pixels width height).length < UInt64.size := by
  rw [length_pixels]
  have hle : height * width ≤ stride * height := by
    rw [Nat.mul_comm]
    exact Nat.mul_le_mul_right height (by have := h.wide; omega)
  exact hle.trans_lt h.fits

/-- A pixel is read inside the buffer and counted inside the grid. -/
theorem addPixel_eq (srgbToLinear : ℚ → ℚ) {p : ℕ × ℕ} (hp : p ∈ pixels width height)
    {done : List (ℕ × ℕ)} (hdone : done.length + 1 < UInt64.size) :
    let tally := tallyOf (rows * cols) (cellOf width height rows cols)
      (lumaAt srgbToLinear rgba stride)
    addPixel srgbToLinear rgba width height stride rows cols p.1 (tally done) p.2 =
      some (tally (done ++ [p])) := by
  obtain ⟨hy, hx⟩ := mem_pixels.mp hp
  have hcell := h.cell_lt hp
  have hcells := h.cells_lt
  have hoffset {k : ℕ} (hk : k < 4) := h.offset_lt hp hk
  have hfits := h.fits
  have hbyte {k : ℕ} (hk : k < 4) : rgba[p.1 * stride + p.2 * 4 + k]? =
      some (rgba.getD (p.1 * stride + p.2 * 4 + k) 0) := by
    have hlt : p.1 * stride + p.2 * 4 + k < rgba.length := by
      rw [h.length]
      exact hoffset hk
    rw [List.getD_eq_getElem?_getD, List.getElem?_eq_getElem hlt, Option.getD_some]
  have hlast := hoffset (k := 3) (by decide)
  have hcount : done.countP (cellOf width height rows cols · = cellOf width height rows cols p) +
      1 < UInt64.size := by
    have hle := List.countP_le_length (l := done)
      (p := fun q => decide (cellOf width height rows cols q = cellOf width height rows cols p))
    omega
  intro tally
  have hadded : p.1 * rows / height * cols + p.2 * cols / width < UInt64.size :=
    hcell.trans hcells
  have hsum : (tally done).sums[cellOf width height rows cols p]? =
      some (((done.filter (cellOf width height rows cols · =
        cellOf width height rows cols p)).map (lumaAt srgbToLinear rgba stride)).sum) := by
    unfold tally tallyOf
    rw [List.getElem?_map, List.getElem?_range hcell, Option.map_some]
  have hcounts : (tally done).counts[cellOf width height rows cols p]? =
      some (done.countP (cellOf width height rows cols · = cellOf width height rows cols p)) := by
    unfold tally tallyOf
    rw [List.getElem?_map, List.getElem?_range hcell, Option.map_some]
  refine (bind_some_eq (checkedMul_eq (scaled hy h.someHeight.2 h.someRows.2)) _).trans ?_
  refine (bind_some_eq (checkedMul_eq (scaled hx h.someWidth.2 h.someCols.2)) _).trans ?_
  refine (bind_some_eq (checkedMul_eq ((Nat.le_add_right _ _).trans_lt hadded)) _).trans ?_
  refine (bind_some_eq (checkedAdd_eq hadded) _).trans ?_
  refine (bind_some_eq (checkedMul_eq (by omega)) _).trans ?_
  refine (bind_some_eq (checkedMul_eq (by omega)) _).trans ?_
  refine (bind_some_eq (checkedAdd_eq (by omega)) _).trans ?_
  refine (bind_some_eq (checkedAdd_eq (by omega)) _).trans ?_
  refine (bind_some_eq (hbyte (by decide)) _).trans ?_
  refine (bind_some_eq (hbyte (k := 0) (by decide)) _).trans ?_
  refine (bind_some_eq (checkedAdd_eq (by omega)) _).trans ?_
  refine (bind_some_eq (hbyte (by decide)) _).trans ?_
  refine (bind_some_eq (checkedAdd_eq (by omega)) _).trans ?_
  refine (bind_some_eq (hbyte (by decide)) _).trans ?_
  refine (bind_some_eq hsum _).trans ?_
  refine (bind_some_eq hcounts _).trans ?_
  refine (bind_some_eq (checkedAdd_eq hcount) _).trans ?_
  unfold tally
  rw [tallyOf_concat]
  rfl

theorem tallyPixels_eq (srgbToLinear : ℚ → ℚ) :
    tallyPixels srgbToLinear rgba width height stride rows cols =
      some (tallyOf (rows * cols) (cellOf width height rows cols)
        (lumaAt srgbToLinear rgba stride) (pixels width height)) := by
  have hloop (rest : List (ℕ × ℕ)) (done : List (ℕ × ℕ))
      (hall : done ++ rest = pixels width height) :
      rest.foldlM (fun tally p =>
          addPixel srgbToLinear rgba width height stride rows cols p.1 tally p.2)
        (tallyOf (rows * cols) (cellOf width height rows cols)
          (lumaAt srgbToLinear rgba stride) done) =
        some (tallyOf (rows * cols) (cellOf width height rows cols)
          (lumaAt srgbToLinear rgba stride) (pixels width height)) := by
    induction rest generalizing done with
    | nil =>
      rw [List.append_nil] at hall
      rw [hall]
      rfl
    | cons p rest ih =>
      have hp : p ∈ pixels width height := by
        rw [← hall]
        exact List.mem_append_right _ List.mem_cons_self
      have hlength := congrArg List.length hall
      rw [List.length_append, List.length_cons] at hlength
      have hfew := h.pixels_lt
      rw [List.foldlM_cons, h.addPixel_eq srgbToLinear hp (by omega)]
      exact ih (done ++ [p]) (by rw [List.append_assoc]; exact hall)
  have hempty : Tally.mk (List.replicate (rows * cols) 0) (List.replicate (rows * cols) 0) =
      tallyOf (rows * cols) (cellOf width height rows cols)
        (lumaAt srgbToLinear rgba stride) [] := by
    unfold tallyOf
    simp
  unfold tallyPixels
  rw [hempty, ← hloop (pixels width height) [] rfl]
  exact foldlM_pixels _ _ _ _

end Checked

/-! ## The grid -/

theorem mapM_cellMean (cells : List (ℚ × ℕ)) :
    cells.mapM cellMean =
      if ∀ cell ∈ cells, cell.2 ≠ 0 then .ok (cells.map fun cell => cell.1 / cell.2)
      else .error .emptyCell := by
  induction cells with
  | nil => rfl
  | cons cell cells ih =>
    rw [List.mapM_cons, ih]
    unfold cellMean
    by_cases hcell : cell.2 = 0
    · have hsome : ¬ ∀ other ∈ cell :: cells, other.2 ≠ 0 := fun hall =>
        hall cell List.mem_cons_self hcell
      rw [if_pos hcell, if_neg hsome]
      rfl
    · rw [if_neg hcell]
      by_cases hcells : ∀ other ∈ cells, other.2 ≠ 0
      · have hall : ∀ other ∈ cell :: cells, other.2 ≠ 0 := by
          intro other hother
          rcases List.mem_cons.mp hother with rfl | hother
          · exact hcell
          · exact hcells other hother
        rw [if_pos hcells, if_pos hall]
        rfl
      · have hsome : ¬ ∀ other ∈ cell :: cells, other.2 ≠ 0 := fun hall =>
          hcells fun other hother => hall other (List.mem_cons_of_mem _ hother)
        rw [if_neg hcells, if_neg hsome]
        rfl

/-- The mean luma of the pixels of a cell. -/
def meanOf (cell : ℕ × ℕ → ℕ) (luma : ℕ × ℕ → ℚ) (all : List (ℕ × ℕ)) (c : ℕ) : ℚ :=
  ((all.filter (cell · = c)).map luma).sum / (all.countP (cell · = c) : ℕ)

theorem zip_tallyOf (n : ℕ) (cell : ℕ × ℕ → ℕ) (luma : ℕ × ℕ → ℚ) (all : List (ℕ × ℕ)) :
    (tallyOf n cell luma all).sums.zip (tallyOf n cell luma all).counts =
      (List.range n).map fun c =>
        (((all.filter (cell · = c)).map luma).sum, all.countP (cell · = c)) := by
  unfold tallyOf
  exact List.zip_map'

/-- Values between 0 and 1 have such a mean. -/
theorem meanOf_mem (cell : ℕ × ℕ → ℕ) {luma : ℕ × ℕ → ℚ} (hluma : ∀ p, 0 ≤ luma p ∧ luma p ≤ 1)
    (all : List (ℕ × ℕ)) (c : ℕ) : 0 ≤ meanOf cell luma all c ∧ meanOf cell luma all c ≤ 1 := by
  unfold meanOf
  rw [List.countP_eq_length_filter]
  generalize all.filter (cell · = c) = members
  have hsum : 0 ≤ (members.map luma).sum ∧ (members.map luma).sum ≤ members.length := by
    induction members with
    | nil => simp
    | cons p members ih =>
      rw [List.map_cons, List.sum_cons, List.length_cons, Nat.cast_succ]
      have hp := hluma p
      constructor <;> linarith [ih.1, ih.2]
  refine ⟨div_nonneg hsum.1 (Nat.cast_nonneg _), ?_⟩
  rcases Nat.eq_zero_or_pos members.length with hnone | hsome
  · rw [hnone, Nat.cast_zero, div_zero]
    exact zero_le_one
  · exact (div_le_one (Nat.cast_pos.mpr hsome)).mpr hsum.2

/-- Every pixel is in one cell. -/
theorem sum_counts {n : ℕ} {cell : ℕ × ℕ → ℕ} {luma : ℕ × ℕ → ℚ} {all : List (ℕ × ℕ)}
    (hall : ∀ p ∈ all, cell p < n) : (tallyOf n cell luma all).counts.sum = all.length := by
  have hsum (counts : ℕ → ℕ) : ((List.range n).map counts).sum = ∑ c ∈ Finset.range n, counts c :=
    rfl
  unfold tallyOf
  rw [hsum]
  induction all with
  | nil => simp
  | cons p all ih =>
    have hp := hall p List.mem_cons_self
    have hone : ∑ c ∈ Finset.range n, (if cell p = c then 1 else 0) = 1 := by
      rw [Finset.sum_ite_eq, if_pos (Finset.mem_range.mpr hp)]
    simp only [List.countP_cons, decide_eq_true_eq]
    rw [Finset.sum_add_distrib, hone, ih fun q hq => hall q (List.mem_cons_of_mem _ hq),
      List.length_cons]

theorem linearLuma_mem {srgbToLinear : ℚ → ℚ} (hunit : ∀ x, 0 ≤ srgbToLinear x ∧ srgbToLinear x ≤ 1)
    (red green blue : ℚ) :
    0 ≤ linearLuma srgbToLinear red green blue ∧ linearLuma srgbToLinear red green blue ≤ 1 := by
  unfold linearLuma
  have hred := hunit red
  have hgreen := hunit green
  have hblue := hunit blue
  constructor <;> linarith [hred.1, hred.2, hgreen.1, hgreen.2, hblue.1, hblue.2]

theorem channel_mem (byte : UInt8) : 0 ≤ channel byte ∧ channel byte ≤ 1 := by
  have hbyte : byte.toNat ≤ 255 := Nat.le_of_lt_succ byte.toNat_lt
  have hcast : (byte.toNat : ℚ) ≤ 255 := by exact_mod_cast hbyte
  unfold channel
  exact ⟨by positivity, (div_le_one (by norm_num)).mpr hcast⟩

theorem lumaAt_mem {srgbToLinear : ℚ → ℚ} (hunit : ∀ x, 0 ≤ srgbToLinear x ∧ srgbToLinear x ≤ 1)
    (rgba : List UInt8) (stride : ℕ) (p : ℕ × ℕ) :
    0 ≤ lumaAt srgbToLinear rgba stride p ∧ lumaAt srgbToLinear rgba stride p ≤ 1 := by
  unfold lumaAt
  dsimp only
  generalize hluma : linearLuma srgbToLinear _ _ _ = luma
  generalize halpha : channel _ = alpha
  have hluma' : 0 ≤ luma ∧ luma ≤ 1 := hluma ▸ linearLuma_mem hunit _ _ _
  have halpha' : 0 ≤ alpha ∧ alpha ≤ 1 := halpha ▸ channel_mem _
  exact ⟨mul_nonneg hluma'.1 halpha'.1, mul_le_one₀ hluma'.2 halpha'.1 halpha'.2⟩

/-- The grid of a tally, and the error of an empty cell. -/
theorem finish_tallyOf {n : ℕ} (hn : n = lumaGridRows.toNat * lumaGridCols.toNat)
    (cell : ℕ × ℕ → ℕ) {luma : ℕ × ℕ → ℚ} (hluma : ∀ p, 0 ≤ luma p ∧ luma p ≤ 1)
    (all : List (ℕ × ℕ)) :
    finish (tallyOf n cell luma all) =
      if ∀ c < n, ∃ p ∈ all, cell p = c then
        .ok { cells := (List.range n).map (meanOf cell luma all) }
      else .error .emptyCell := by
  have hcovered : (∀ entry ∈ (List.range n).map fun c =>
        (((all.filter (cell · = c)).map luma).sum, all.countP (cell · = c)), entry.2 ≠ 0) ↔
      ∀ c < n, ∃ p ∈ all, cell p = c := by
    simp only [List.mem_map, List.mem_range, forall_exists_index, and_imp,
      forall_apply_eq_imp_iff₂]
    refine forall_congr' fun c => imp_congr_right fun _ => ?_
    rw [← Nat.pos_iff_ne_zero, List.countP_pos_iff]
    simp only [decide_eq_true_eq]
  have hnew : LumaGrid.new ((List.range n).map (meanOf cell luma all)) =
      some { cells := (List.range n).map (meanOf cell luma all) } := by
    refine if_pos ⟨by rw [List.length_map, List.length_range, hn], fun value hvalue => ?_⟩
    obtain ⟨c, -, rfl⟩ := List.mem_map.mp hvalue
    exact meanOf_mem cell hluma all c
  have hmeans : ((List.range n).map fun c =>
      (((all.filter (cell · = c)).map luma).sum, all.countP (cell · = c))).map
        (fun entry => entry.1 / (entry.2 : ℚ)) = (List.range n).map (meanOf cell luma all) :=
    List.map_map
  unfold finish
  rw [zip_tallyOf, mapM_cellMean, hmeans]
  by_cases hall : ∀ c < n, ∃ p ∈ all, cell p = c
  · rw [if_pos (hcovered.mpr hall), if_pos hall]
    dsimp only
    rw [hnew]
  · rw [if_neg (mt hcovered.mp hall), if_neg hall]

end Frame

/-! ## What is read -/

/-- What the caller has to pass. -/
def Readable (rgba : List UInt8) (width height : UInt32) (stride : UInt64) (rows cols : UInt16) :
    Prop :=
  (rows = lumaGridRows ∧ cols = lumaGridCols) ∧ (width ≠ 0 ∧ height ≠ 0) ∧
    (width.toNat * 4 < UInt64.size ∧ width.toNat * 4 ≤ stride.toNat) ∧
    stride.toNat * height.toNat < UInt64.size ∧ rgba.length = stride.toNat * height.toNat

namespace Readable
variable {rgba : List UInt8} {width height : UInt32} {stride : UInt64} {rows cols : UInt16}

theorem checked (h : Readable rgba width height stride rows cols) :
    Checked rgba width.toNat height.toNat stride.toNat rows.toNat cols.toNat := by
  obtain ⟨⟨hrows, hcols⟩, ⟨hwidth, hheight⟩, ⟨-, hwide⟩, hfits, hlength⟩ := h
  have hpos {n : UInt32} (hn : n ≠ 0) : 0 < n.toNat :=
    Nat.pos_of_ne_zero fun hzero => hn (UInt32.toNat_inj.mp hzero)
  exact {
    someRows := hrows ▸ by decide
    someCols := hcols ▸ by decide
    someWidth := ⟨hpos hwidth, width.toNat_lt_size⟩
    someHeight := ⟨hpos hheight, height.toNat_lt_size⟩
    wide := hwide
    length := hlength
    fits := hfits }

theorem reduce_eq (h : Readable rgba width height stride rows cols) (srgbToLinear : ℚ → ℚ) :
    reduceRgba8ToLumaGrid srgbToLinear rgba width height stride rows cols =
      some (finish (tallyOf (rows.toNat * cols.toNat)
        (cellOf width.toNat height.toNat rows.toNat cols.toNat)
        (lumaAt srgbToLinear rgba stride.toNat) (pixels width.toNat height.toNat))) := by
  have htally := h.checked.tallyPixels_eq srgbToLinear
  obtain ⟨⟨hrows, hcols⟩, ⟨hwidth, hheight⟩, ⟨hsmall, hwide⟩, hfits, hlength⟩ := h
  have hsizes : ¬ (width = 0 ∨ height = 0 ∨ rows = 0 ∨ cols = 0) := by
    rw [hrows, hcols]
    exact not_or.mpr ⟨hwidth, not_or.mpr ⟨hheight, by decide⟩⟩
  have houtput : ¬ (rows ≠ lumaGridRows ∨ cols ≠ lumaGridCols) :=
    not_or.mpr ⟨not_not.mpr hrows, not_not.mpr hcols⟩
  unfold reduceRgba8ToLumaGrid
  rw [if_neg hsizes, if_neg houtput, checkedMul_eq hsmall]
  dsimp only
  rw [if_neg (not_lt.mpr hwide), checkedMul_eq hfits]
  dsimp only
  rw [if_neg (not_not.mpr hlength), htally]
  rfl

/-- Anything else is refused before a pixel is read. -/
theorem refuses (h : ¬ Readable rgba width height stride rows cols)
    (srgbToLinear : ℚ → ℚ) :
    ∃ e, reduceRgba8ToLumaGrid srgbToLinear rgba width height stride rows cols =
      some (.error e) ∧ e ≠ .emptyCell := by
  unfold reduceRgba8ToLumaGrid
  split
  · exact ⟨_, rfl, GridError.noConfusion⟩
  rename_i hsizes
  split
  · exact ⟨_, rfl, GridError.noConfusion⟩
  rename_i houtput
  unfold checkedMul
  by_cases hsmall : width.toNat * 4 < UInt64.size
  swap
  · rw [if_neg hsmall]
    exact ⟨_, rfl, GridError.noConfusion⟩
  rw [if_pos hsmall]
  dsimp only
  split
  · exact ⟨_, rfl, GridError.noConfusion⟩
  rename_i hwide
  by_cases hfits : stride.toNat * height.toNat < UInt64.size
  swap
  · rw [if_neg hfits]
    exact ⟨_, rfl, GridError.noConfusion⟩
  rw [if_pos hfits]
  dsimp only
  split
  · exact ⟨_, rfl, GridError.noConfusion⟩
  rename_i hlength
  refine absurd ?_ h
  push Not at hsizes houtput hwide hlength
  exact ⟨houtput, ⟨hsizes.1, hsizes.2.1⟩, ⟨hsmall, hwide⟩, hfits, hlength⟩

end Readable

/-- A pixel's luma depends on its four bytes. -/
theorem lumaAt_congr (srgbToLinear : ℚ → ℚ) {rgba rgba' : List UInt8} {stride : ℕ} {p : ℕ × ℕ}
    (h : ∀ k < 4, rgba'[p.1 * stride + p.2 * 4 + k]? = rgba[p.1 * stride + p.2 * 4 + k]?) :
    lumaAt srgbToLinear rgba' stride p = lumaAt srgbToLinear rgba stride p := by
  unfold lumaAt
  dsimp only
  simp only [List.getD_eq_getElem?_getD]
  rw [h 0 (by decide), h 1 (by decide), h 2 (by decide), h 3 (by decide)]

theorem tallyOf_congr {n : ℕ} {cell : ℕ × ℕ → ℕ} {luma luma' : ℕ × ℕ → ℚ} {all : List (ℕ × ℕ)}
    (h : ∀ p ∈ all, luma' p = luma p) : tallyOf n cell luma' all = tallyOf n cell luma all := by
  unfold tallyOf
  rw [Tally.mk.injEq]
  refine ⟨List.map_congr_left fun c _ => ?_, rfl⟩
  exact congrArg List.sum (List.map_congr_left fun p hp => h p (List.mem_of_mem_filter hp))

/-- A frame is read just inside its buffer, every pixel once, and what is between the rows never. -/
theorem reduce_reads_exactly {srgbToLinear : ℚ → ℚ}
    (hunit : ∀ x, 0 ≤ srgbToLinear x ∧ srgbToLinear x ≤ 1) (rgba : List UInt8)
    (width height : UInt32) (stride : UInt64) (rows cols : UInt16) :
    let reduce bytes := reduceRgba8ToLumaGrid srgbToLinear bytes width height stride rows cols
    let cell := cellOf width.toNat height.toNat rows.toNat cols.toNat
    let all := pixels width.toNat height.toNat
    ∃ result, reduce rgba = some result ∧
      (∀ grid, result = .ok grid → Readable rgba width height stride rows cols) ∧
      (result = .error .emptyCell ↔
        Readable rgba width height stride rows cols ∧ (width < 16 ∨ height < 9)) ∧
      (Readable rgba width height stride rows cols →
        (∀ y < height.toNat, ∀ x < width.toNat,
          (∀ k < 4, y * stride.toNat + x * 4 + k < rgba.length) ∧
            cell (y, x) < rows.toNat * cols.toNat) ∧
        (∃ tally, tallyPixels srgbToLinear rgba width.toNat height.toNat stride.toNat rows.toNat
            cols.toNat = some tally ∧ tally.counts.sum = height.toNat * width.toNat ∧
          ∀ c < rows.toNat * cols.toNat, tally.counts[c]? = some (all.countP (cell · = c))) ∧
        (∀ bytes : List UInt8, bytes.length = rgba.length →
          (∀ y < height.toNat, ∀ x < width.toNat, ∀ k < 4,
            bytes[y * stride.toNat + x * 4 + k]? = rgba[y * stride.toNat + x * 4 + k]?) →
          reduce bytes = some result) ∧
        (¬ (width < 16 ∨ height < 9) → ∃ grid, result = .ok grid ∧
          grid.cells = (List.range (rows.toNat * cols.toNat)).map
            (meanOf cell (lumaAt srgbToLinear rgba stride.toNat) all))) := by
  intro reduce cell all
  by_cases hreadable : Readable rgba width height stride rows cols
  swap
  · obtain ⟨e, he, hother⟩ := Readable.refuses hreadable srgbToLinear
    refine ⟨.error e, he, fun grid hgrid => ?_, ⟨fun hempty => ?_, fun hread => ?_⟩,
      fun hread => absurd hread hreadable⟩
    · cases hgrid
    · exact absurd (Except.error.inj hempty) hother
    · exact absurd hread.1 hreadable
  have hchecked := hreadable.checked
  have hcells : rows.toNat * cols.toNat = lumaGridRows.toNat * lumaGridCols.toNat := by
    rw [hreadable.1.1, hreadable.1.2]
  have hluma := lumaAt_mem hunit rgba stride.toNat
  have hfinish := finish_tallyOf hcells cell hluma all
  have hcovered : (∀ c < rows.toNat * cols.toNat, ∃ p ∈ all, cell p = c) ↔
      ¬ (width < 16 ∨ height < 9) := by
    rw [covered_iff hchecked.someRows.1 hchecked.someCols.1, hreadable.1.1, hreadable.1.2, not_or,
      UInt32.lt_iff_toNat_lt, UInt32.lt_iff_toNat_lt, not_lt, not_lt]
    rfl
  refine ⟨_, hreadable.reduce_eq srgbToLinear, fun _ _ => hreadable, ?_, fun _ =>
    ⟨fun y hy x hx => ?_, ⟨_, hchecked.tallyPixels_eq srgbToLinear, ?_, fun c hc => ?_⟩,
      fun bytes hlength hbytes => ?_, fun hlarge => ?_⟩⟩
  · rw [hfinish]
    constructor
    · intro hempty
      refine ⟨hreadable, by_contra fun hlarge => ?_⟩
      rw [if_pos (hcovered.mpr hlarge)] at hempty
      cases hempty
    · intro hread
      exact if_neg fun hall => hcovered.mp hall hread.2
  · have hp : (y, x) ∈ pixels width.toNat height.toNat := mem_pixels.mpr ⟨hy, hx⟩
    refine ⟨fun k hk => ?_, hchecked.cell_lt hp⟩
    rw [hchecked.length]
    exact hchecked.offset_lt hp hk
  · rw [sum_counts fun p hp => hchecked.cell_lt hp, length_pixels]
  · unfold tallyOf
    rw [List.getElem?_map, List.getElem?_range hc, Option.map_some]
  · have hread : Readable bytes width height stride rows cols := by
      obtain ⟨houtput, hsizes, hwide, hfits, hrgba⟩ := hreadable
      exact ⟨houtput, hsizes, hwide, hfits, hlength.trans hrgba⟩
    refine (hread.reduce_eq srgbToLinear).trans (congrArg (some <| finish ·) ?_)
    refine tallyOf_congr fun p hp => ?_
    obtain ⟨hy, hx⟩ := mem_pixels.mp hp
    exact lumaAt_congr srgbToLinear (hbytes p.1 hy p.2 hx)
  · exact ⟨_, hfinish.trans (if_pos (hcovered.mpr hlarge)), rfl⟩

/-- A frame of one pixel leaves cells empty. -/
theorem reduce_reads_exactly_single :
    let clamp (x : ℚ) := max 0 (min 1 x)
    (∀ x, 0 ≤ clamp x ∧ clamp x ≤ 1) ∧
      reduceRgba8ToLumaGrid clamp [0, 0, 0, 255] 1 1 4 9 16 = some (.error .emptyCell) := by
  intro clamp
  have hunit (x : ℚ) : 0 ≤ clamp x ∧ clamp x ≤ 1 :=
    ⟨le_max_left _ _, max_le zero_le_one (min_le_left _ _)⟩
  refine ⟨hunit, ?_⟩
  obtain ⟨result, hresult, -, hempty, -⟩ :=
    reduce_reads_exactly hunit [0, 0, 0, 255] 1 1 4 9 16
  rw [hempty.mpr ⟨⟨by decide, by decide, by decide, by decide, rfl⟩, by decide⟩] at hresult
  exact hresult

end Dormant
