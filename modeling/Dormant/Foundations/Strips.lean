import Mathlib.Algebra.BigOperators.Group.Finset.Basic
import Mathlib.Algebra.BigOperators.Ring.Finset
import Mathlib.Algebra.Order.BigOperators.Group.Finset
import Mathlib.Algebra.Order.Field.Rat
import Mathlib.Data.Nat.Cast.Order.Field
import Mathlib.Tactic.Ring

/-!
# Strips and areas

A line of strips of one width, and how much of each lies before an edge. Over a grid, the sum of
the cells weighted by the parts of their rows and columns is bilinear in these parts.
-/

namespace Strips
set_option autoImplicit false

open Finset

/-- How much of the strip lies before the edge. -/
def cover (width edge i : ℕ) : ℕ := min width (edge - i * width)

variable {width edge edge' n : ℕ}

theorem cover_mono (h : edge ≤ edge') (i : ℕ) : cover width edge i ≤ cover width edge' i := by
  unfold cover
  omega

theorem cover_of_le (h : n * width ≤ edge) {i : ℕ} (hi : i < n) : cover width edge i = width := by
  have hnext : (i + 1) * width ≤ n * width := Nat.mul_le_mul_right width hi
  rw [Nat.add_mul, Nat.one_mul] at hnext
  unfold cover
  omega

theorem cover_of_ge {i : ℕ} (h : edge ≤ i * width) : cover width edge i = 0 := by
  unfold cover
  omega

/-- The strips before the edge are covered, the one at the edge in part. -/
theorem sum_cover (hwidth : 0 < width) (h : edge ≤ n * width) (x : ℕ → ℕ) :
    ∑ i ∈ range n, x i * cover width edge i =
      width * ∑ i ∈ range (edge / width), x i + edge % width * x (edge / width) := by
  induction n with
  | zero =>
    have hedge : edge = 0 := by omega
    subst hedge
    simp
  | succ n ih =>
    rw [sum_range_succ]
    by_cases hbefore : edge ≤ n * width
    · rw [ih hbefore, cover_of_ge hbefore, Nat.mul_zero, Nat.add_zero]
    · have hfull : ∑ i ∈ range n, x i * cover width edge i = width * ∑ i ∈ range n, x i := by
        rw [mul_sum]
        refine sum_congr rfl fun i hi => ?_
        rw [cover_of_le (by omega) (mem_range.mp hi), Nat.mul_comm]
      rw [hfull]
      rw [Nat.add_mul, Nat.one_mul] at h
      by_cases hend : edge = (n + 1) * width
      · have hdiv : edge / width = n + 1 := by
          rw [hend, Nat.mul_div_cancel _ hwidth]
        have hmod : edge % width = 0 := by
          rw [hend, Nat.mul_mod_left]
        have hlast : cover width edge n = width := by
          unfold cover
          rw [hend, Nat.add_mul]
          omega
        rw [hdiv, hmod, hlast, sum_range_succ, Nat.mul_add]
        ring
      · rw [Nat.add_mul, Nat.one_mul] at hend
        have hdiv : edge / width = n := by
          refine Nat.div_eq_of_lt_le (by omega) ?_
          rw [Nat.add_mul, Nat.one_mul]
          omega
        have hmod : edge % width = edge - n * width := by
          rw [Nat.mod_eq_sub_mul_div, hdiv, Nat.mul_comm]
        have hlast : cover width edge n = edge - n * width := by
          unfold cover
          omega
        rw [hdiv, hmod, hlast, Nat.mul_comm (x n)]

/-- The strips before an edge come to the edge. -/
theorem sum_cover_one (hwidth : 0 < width) (h : edge ≤ n * width) :
    ∑ i ∈ range n, cover width edge i = edge := by
  have hcover := sum_cover hwidth h fun _ => 1
  simp only [Nat.one_mul, Nat.mul_one, sum_const, card_range, nsmul_eq_mul,
    Nat.cast_id] at hcover
  rw [hcover]
  exact Nat.div_add_mod edge width

/-! ## Over a grid -/

/-- The cells of the first rows and columns, weighted. -/
def area (a : ℕ → ℕ → ℕ) (rows cols : ℕ) (w v : ℕ → ℕ) : ℕ :=
  ∑ r ∈ range rows, (∑ c ∈ range cols, a r c * v c) * w r

variable {a : ℕ → ℕ → ℕ} {rows cols : ℕ} {w w' v v' : ℕ → ℕ}

theorem area_add_left :
    area a rows cols (fun r => w r + w' r) v = area a rows cols w v + area a rows cols w' v := by
  unfold area
  rw [← sum_add_distrib]
  exact sum_congr rfl fun r _ => Nat.mul_add _ _ _

theorem area_add_right :
    area a rows cols w (fun c => v c + v' c) = area a rows cols w v + area a rows cols w v' := by
  unfold area
  rw [← sum_add_distrib]
  refine sum_congr rfl fun r _ => ?_
  rw [← Nat.add_mul, ← sum_add_distrib]
  exact congrArg (· * w r) (sum_congr rfl fun c _ => Nat.mul_add _ _ _)

theorem area_congr (hw : ∀ r < rows, w r = w' r) (hv : ∀ c < cols, v c = v' c) :
    area a rows cols w v = area a rows cols w' v' := by
  refine sum_congr rfl fun r hr => ?_
  rw [hw r (mem_range.mp hr)]
  refine congrArg (· * w' r) (sum_congr rfl fun c hc => ?_)
  rw [hv c (mem_range.mp hc)]

theorem area_mono (hw : ∀ r, w r ≤ w' r) (hv : ∀ c, v c ≤ v' c) :
    area a rows cols w v ≤ area a rows cols w' v' := by
  refine sum_le_sum fun r _ => Nat.mul_le_mul (sum_le_sum fun c _ => ?_) (hw r)
  exact Nat.mul_le_mul_left _ (hv c)

/-- The part of each strip between two edges that follow each other. -/
def step (width : ℕ) (edge : ℕ → ℕ) (k i : ℕ) : ℕ :=
  cover width (edge (k + 1)) i - cover width (edge k) i

theorem cover_add_step {edge : ℕ → ℕ} (hedge : Monotone edge) (k i : ℕ) :
    cover width (edge k) i + step width edge k i = cover width (edge (k + 1)) i :=
  Nat.add_sub_of_le (cover_mono (hedge (Nat.le_succ k)) i)

/-- The cell of the new grid is what four differences leave. -/
theorem area_step (a : ℕ → ℕ → ℕ) (rows cols width width' : ℕ) {edge edge' : ℕ → ℕ}
    (hedge : Monotone edge) (hedge' : Monotone edge') (k l : ℕ) :
    let N := fun k l => area a rows cols (cover width (edge k)) (cover width' (edge' l))
    N k (l + 1) ≤ N (k + 1) (l + 1) ∧ N k l ≤ N (k + 1) l ∧
      N (k + 1) l - N k l ≤ N (k + 1) (l + 1) - N k (l + 1) ∧
      N (k + 1) (l + 1) - N k (l + 1) - (N (k + 1) l - N k l) =
        area a rows cols (step width edge k) (step width' edge' l) := by
  intro N
  have hrows (l : ℕ) : N (k + 1) l =
      N k l + area a rows cols (step width edge k) (cover width' (edge' l)) := by
    rw [← area_add_left]
    exact area_congr (fun r _ => (cover_add_step hedge k r).symm) fun _ _ => rfl
  have hcols : area a rows cols (step width edge k) (cover width' (edge' (l + 1))) =
      area a rows cols (step width edge k) (cover width' (edge' l)) +
        area a rows cols (step width edge k) (step width' edge' l) := by
    rw [← area_add_right]
    exact area_congr (fun _ _ => rfl) fun c _ => (cover_add_step hedge' l c).symm
  rw [hrows (l + 1), hrows l, hcols]
  omega

theorem sum_step {edge : ℕ → ℕ} (hedge : Monotone edge) (hzero : edge 0 = 0) (m i : ℕ) :
    ∑ k ∈ range m, step width edge k i = cover width (edge m) i := by
  induction m with
  | zero =>
    rw [hzero]
    exact (cover_of_ge (Nat.zero_le _)).symm
  | succ m ih => rw [sum_range_succ, ih, cover_add_step hedge]

/-- The strips between two edges come to their distance. -/
theorem sum_step_strips (hwidth : 0 < width) {edge : ℕ → ℕ} (hedge : Monotone edge) {k : ℕ}
    (h : edge (k + 1) ≤ n * width) :
    edge k + ∑ i ∈ range n, step width edge k i = edge (k + 1) := by
  have hle : edge k ≤ n * width := (hedge (Nat.le_succ k)).trans h
  calc edge k + ∑ i ∈ range n, step width edge k i
      = ∑ i ∈ range n, (cover width (edge k) i + step width edge k i) := by
        rw [sum_add_distrib, sum_cover_one hwidth hle]
    _ = edge (k + 1) := by
        rw [sum_congr rfl fun i _ => cover_add_step hedge k i, sum_cover_one hwidth h]

theorem area_const (x : ℕ) :
    area (fun _ _ => x) rows cols w v = x * ((∑ r ∈ range rows, w r) * ∑ c ∈ range cols, v c) := by
  unfold area
  rw [sum_congr rfl fun r _ => congrArg (· * w r) (mul_sum (range cols) v x).symm, ← mul_sum]
  ring

theorem area_sum_left {m : ℕ} {w : ℕ → ℕ → ℕ} :
    ∑ k ∈ range m, area a rows cols (w k) v =
      area a rows cols (fun r => ∑ k ∈ range m, w k r) v := by
  unfold area
  rw [sum_comm]
  exact sum_congr rfl fun r _ => (mul_sum _ _ _).symm

theorem area_sum_right {m : ℕ} {v : ℕ → ℕ → ℕ} :
    ∑ l ∈ range m, area a rows cols w (v l) =
      area a rows cols w fun c => ∑ l ∈ range m, v l c := by
  unfold area
  rw [sum_comm]
  refine sum_congr rfl fun r _ => ?_
  rw [← sum_mul, sum_comm]
  exact congrArg (· * w r) (sum_congr rfl fun c _ => (mul_sum _ _ _).symm)

/-- The places of a grid, numbered row by row. -/
theorem sum_rowMajor {M : Type*} [AddCommMonoid M] (x : ℕ → M) (rows cols : ℕ) :
    ∑ i ∈ range (rows * cols), x i = ∑ r ∈ range rows, ∑ c ∈ range cols, x (r * cols + c) := by
  induction rows with
  | zero => rw [Nat.zero_mul, range_zero, sum_empty, sum_empty]
  | succ rows ih => rw [Nat.add_mul, Nat.one_mul, sum_range_add, ih, sum_range_succ]

theorem sum_map_range (f : ℕ → ℚ) (n : ℕ) :
    ((List.range n).map f).sum = ∑ i ∈ range n, f i := rfl

theorem rowMajor_div {cols col : ℕ} (row : ℕ) (hcol : col < cols) :
    (row * cols + col) / cols = row := by
  rw [Nat.mul_comm, Nat.mul_add_div (by omega), Nat.div_eq_of_lt hcol, Nat.add_zero]

theorem rowMajor_mod {cols col : ℕ} (row : ℕ) (hcol : col < cols) :
    (row * cols + col) % cols = col := by
  rw [Nat.mul_comm, Nat.mul_add_mod, Nat.mod_eq_of_lt hcol]

theorem rowMajor_lt {rows cols row col : ℕ} (hrow : row < rows) (hcol : col < cols) :
    row * cols + col < rows * cols := by
  have hnext : (row + 1) * cols ≤ rows * cols := Nat.mul_le_mul_right cols hrow
  rw [Nat.add_mul, Nat.one_mul] at hnext
  omega

/-- A list made row by row. -/
theorem flatMap_range {α : Type*} (f : ℕ → ℕ → α) (rows cols : ℕ) :
    ((List.range rows).flatMap fun r => (List.range cols).map (f r)) =
      (List.range (rows * cols)).map fun i => f (i / cols) (i % cols) := by
  induction rows with
  | zero => simp
  | succ rows ih =>
    rw [List.range_succ, List.flatMap_append, ih, Nat.succ_mul, List.range_add, List.map_append,
      List.map_map, List.flatMap_singleton]
    refine congrArg (_ ++ ·) (List.map_congr_left fun c hc => ?_)
    have hlt := List.mem_range.mp hc
    rw [Function.comp_apply, rowMajor_div rows hlt, rowMajor_mod rows hlt]

/-! ## In rational coordinates -/

/-- The length of what two intervals share. -/
def overlap (a b c d : ℚ) : ℚ := max 0 (min b d - max a c)

theorem step_eq {edge : ℕ → ℕ} (hedge : Monotone edge) (k i : ℕ) :
    step width edge k i = min (edge (k + 1)) ((i + 1) * width) - max (edge k) (i * width) := by
  have hle := hedge (Nat.le_succ k)
  rw [Nat.add_mul, Nat.one_mul]
  unfold step cover
  omega

theorem overlap_div {a b c d w : ℚ} (hw : 0 ≤ w) :
    overlap (a / w) (b / w) (c / w) (d / w) = overlap a b c d / w := by
  unfold overlap
  rw [min_div_div_right hw, max_div_div_right hw, ← sub_div, ← zero_div w, max_div_div_right hw,
    zero_div]

theorem overlap_natCast (a b c d : ℕ) : overlap a b c d = (min b d - max a c : ℕ) := by
  unfold overlap
  rw [← Nat.cast_min, ← Nat.cast_max]
  rcases le_total (max a c) (min b d) with hle | hle
  · rw [Nat.cast_sub hle, max_eq_right (sub_nonneg.mpr (Nat.cast_le.mpr hle))]
  · rw [Nat.sub_eq_zero_of_le hle, max_eq_left (sub_nonpos.mpr (Nat.cast_le.mpr hle)),
      Nat.cast_zero]

/-- The part of a strip between two edges, with the strips as units. -/
theorem overlap_eq (hwidth : 0 < width) {edge : ℕ → ℕ} (hedge : Monotone edge) (k i : ℕ) :
    overlap (edge k / width) (edge (k + 1) / width) i (i + 1) =
      step width edge k i / (width : ℚ) := by
  have hpos : (0 : ℚ) < width := Nat.cast_pos.mpr hwidth
  have hleft : (i : ℚ) = (i * width : ℕ) / width := by
    rw [Nat.cast_mul, mul_div_cancel_right₀ _ hpos.ne']
  have hright : (i : ℚ) + 1 = ((i + 1) * width : ℕ) / width := by
    rw [Nat.cast_mul, mul_div_cancel_right₀ _ hpos.ne', Nat.cast_add, Nat.cast_one]
  calc overlap (edge k / width) (edge (k + 1) / width) i (i + 1)
      = overlap (edge k / width) (edge (k + 1) / width) ((i * width : ℕ) / width)
          (((i + 1) * width : ℕ) / width) := by
        rw [← hright, ← hleft]
    _ = step width edge k i / (width : ℚ) := by
        rw [overlap_div hpos.le, overlap_natCast, step_eq hedge]

theorem overlap_nonneg (a b c d : ℚ) : 0 ≤ overlap a b c d := le_max_left _ _

theorem overlap_comm (a b c d : ℚ) : overlap a b c d = overlap c d a b := by
  unfold overlap
  rw [min_comm, max_comm a c]

theorem overlap_pos_iff {a b c d : ℚ} (hab : a < b) (hcd : c < d) :
    0 < overlap a b c d ↔ a < d ∧ c < b := by
  unfold overlap
  rw [lt_max_iff, or_iff_right (lt_irrefl _), sub_pos, lt_min_iff, max_lt_iff, max_lt_iff]
  exact ⟨fun h => ⟨h.2.1, h.1.2⟩, fun h => ⟨⟨hab, h.2⟩, h.1, hcd⟩⟩

/-- The part of an interval before an edge. -/
def before (a b edge : ℚ) : ℚ := max a (min b edge)

theorem overlap_eq_before {a b c d : ℚ} (hcd : c ≤ d) :
    overlap a b c d = before a b d - before a b c := by
  unfold overlap before
  rcases le_total b c with hbc | hbc
  · have hbd := hbc.trans hcd
    rw [min_eq_left hbd, min_eq_left hbc, sub_self, max_eq_left]
    exact sub_nonpos.mpr (hbc.trans (le_max_right a c))
  · rw [min_eq_right hbc]
    rcases le_total a (min b d) with had | had
    · rw [max_eq_right had, max_eq_right]
      exact sub_nonneg.mpr (max_le had (le_min hbc hcd))
    · have hca : c ≤ a := (le_min hbc hcd).trans had
      rw [max_eq_left had, max_eq_left hca, sub_self, max_eq_left]
      exact sub_nonpos.mpr had

/-- An interval shares its length with the parts of a line around it. -/
theorem sum_overlap {a b : ℚ} (hab : a ≤ b) (edge : ℕ → ℚ) (hedge : Monotone edge) (n : ℕ)
    (hfirst : edge 0 ≤ a) (hlast : b ≤ edge n) :
    ∑ i ∈ range n, overlap a b (edge i) (edge (i + 1)) = b - a := by
  have hparts (i : ℕ) : overlap a b (edge i) (edge (i + 1)) =
      before a b (edge (i + 1)) - before a b (edge i) :=
    overlap_eq_before (hedge (Nat.le_succ i))
  rw [sum_congr rfl fun i _ => hparts i, sum_range_sub fun i => before a b (edge i)]
  unfold before
  rw [min_eq_left hlast, max_eq_right hab, max_eq_left ((min_le_right b _).trans hfirst)]

/-! ## Averages -/

/-- Something is at most as large as the average. -/
theorem exists_le_average {ι : Type*} {s : Finset ι} {w v : ι → ℚ} {x : ℚ}
    (hw : ∀ i ∈ s, 0 ≤ w i) (hpos : 0 < ∑ i ∈ s, w i)
    (h : ∑ i ∈ s, v i * w i ≤ x * ∑ i ∈ s, w i) : ∃ i ∈ s, 0 < w i ∧ v i ≤ x := by
  have hzero (f : ι → ℚ) : ∑ i ∈ s with 0 < w i, f i * w i = ∑ i ∈ s, f i * w i := by
    refine sum_filter_of_ne fun i hi hne => ?_
    exact lt_of_le_of_ne (hw i hi) fun heq => hne (by rw [← heq, mul_zero])
  have hsome : (s.filter fun i => 0 < w i).Nonempty := by
    by_contra hnone
    rw [not_nonempty_iff_eq_empty] at hnone
    have hsum := hzero fun _ => 1
    rw [hnone, sum_empty] at hsum
    simp only [one_mul] at hsum
    exact hpos.ne hsum
  rw [mul_sum, ← hzero, ← hzero] at h
  obtain ⟨i, hi, hle⟩ := exists_le_of_sum_le hsome h
  obtain ⟨hmem, hwi⟩ := mem_filter.mp hi
  exact ⟨i, hmem, hwi, le_of_mul_le_mul_right hle hwi⟩

theorem exists_average_le {ι : Type*} {s : Finset ι} {w v : ι → ℚ} {x : ℚ}
    (hw : ∀ i ∈ s, 0 ≤ w i) (hpos : 0 < ∑ i ∈ s, w i)
    (h : x * ∑ i ∈ s, w i ≤ ∑ i ∈ s, v i * w i) : ∃ i ∈ s, 0 < w i ∧ x ≤ v i := by
  have hneg : ∑ i ∈ s, -v i * w i ≤ -x * ∑ i ∈ s, w i := by
    simp only [neg_mul, sum_neg_distrib]
    exact neg_le_neg h
  obtain ⟨i, hi, hwi, hle⟩ := exists_le_average hw hpos hneg
  exact ⟨i, hi, hwi, neg_le_neg_iff.mp hle⟩

/-- The `i`-th of `n` parts of the unit, and what it shares with the `k`-th of `m`. -/
def shared (i n k m : ℕ) : ℚ :=
  overlap ((i : ℚ) / n) (((i + 1 : ℕ) : ℚ) / n) ((k : ℚ) / m) (((k + 1 : ℕ) : ℚ) / m)

theorem shared_comm (i n k m : ℕ) : shared i n k m = shared k m i n := overlap_comm _ _ _ _

theorem shared_nonneg (i n k m : ℕ) : 0 ≤ shared i n k m := overlap_nonneg _ _ _ _

theorem part_width {n : ℕ} (i : ℕ) : ((i + 1 : ℕ) : ℚ) / n - (i : ℚ) / n = 1 / n := by
  rw [← sub_div, Nat.cast_succ, add_sub_cancel_left]

theorem sum_shared {i n m : ℕ} (hi : i < n) (hm : 0 < m) :
    ∑ k ∈ range m, shared i n k m = 1 / n := by
  have hn : (0 : ℚ) < n := Nat.cast_pos.mpr (by omega)
  have hm' : (0 : ℚ) < m := Nat.cast_pos.mpr hm
  have hmono : Monotone fun k : ℕ => (k : ℚ) / m := fun k k' hk =>
    div_le_div_of_nonneg_right (Nat.cast_le.mpr hk) hm'.le
  rw [← part_width i]
  refine sum_overlap ?_ (fun k : ℕ => (k : ℚ) / m) hmono m ?_ ?_
  · exact div_le_div_of_nonneg_right (Nat.cast_le.mpr (Nat.le_succ i)) hn.le
  · rw [Nat.cast_zero, zero_div]
    exact div_nonneg (Nat.cast_nonneg i) hn.le
  · rw [div_self hm'.ne']
    exact (div_le_one hn).mpr (Nat.cast_le.mpr hi)

theorem shared_pos_iff {i n k m : ℕ} (hn : 0 < n) (hm : 0 < m) :
    0 < shared i n k m ↔ i * m < (k + 1) * n ∧ k * n < (i + 1) * m := by
  have hn' : (0 : ℚ) < n := Nat.cast_pos.mpr hn
  have hm' : (0 : ℚ) < m := Nat.cast_pos.mpr hm
  unfold shared
  rw [overlap_pos_iff (by gcongr; omega) (by gcongr; omega), div_lt_div_iff₀ hn' hm',
    div_lt_div_iff₀ hm' hn']
  norm_cast

/-- One part of the unit shares something with as many finer ones as it is cut into. -/
theorem shared_pos_mul {i n k a : ℕ} (hn : 0 < n) (ha : 0 < a) :
    0 < shared i n k (a * n) ↔ k / a = i := by
  rw [shared_pos_iff hn (Nat.mul_pos ha hn), ← Nat.mul_assoc, ← Nat.mul_assoc,
    Nat.mul_lt_mul_right hn, Nat.mul_lt_mul_right hn]
  constructor
  · rintro ⟨hlow, hhigh⟩
    exact Nat.div_eq_of_lt_le (by omega) hhigh
  · rintro rfl
    have hmod := Nat.mod_lt k ha
    have hdiv := Nat.div_add_mod k a
    rw [Nat.add_mul, Nat.one_mul, Nat.mul_comm (k / a) a]
    omega

end Strips
