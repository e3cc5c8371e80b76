import Dormant.Foundations.Serpentine
import Dormant.Render.PixelShift
import Mathlib.Algebra.Order.Ring.Abs
import Mathlib.Data.List.Range
import Mathlib.Tactic.Linarith
import Mathlib.Tactic.Ring

/-!
# The tour of the pixel shift

The raster walk is a serpentine over the multiples of the step, rotated so that it starts in the
middle and closed. `walk_tour` is about what it visits and where it jumps: once in a round when it
leaves the origin at all, at the seam of the rotation.
-/

namespace Dormant.PixelShift
set_option autoImplicit false

/-! ## The axis -/

/-- The multiples of the step, from the least to the greatest. -/
def multiples (step m : ℕ) : List ℤ := (List.range (2 * m + 1)).map fun i : ℕ => ((i : ℤ) - m) * step

theorem takeWhile_range {n total : ℕ} (h : n ≤ total) :
    (List.range total).takeWhile (· < n) = List.range n := by
  obtain ⟨k, rfl⟩ := Nat.exists_eq_add_of_le h
  have hall : ∀ i ∈ List.range n, decide (i < n) = true := by
    intro i hi
    simpa using hi
  rw [List.range_add, List.takeWhile_append_of_pos hall]
  cases k with
  | zero => simp
  | succ k =>
    rw [List.range_succ_eq_map, List.map_cons, List.takeWhile_cons, if_neg (by simp),
      List.append_nil]

theorem vals_eq {step radius : ℕ} (hstep : 1 ≤ step) :
    ((List.range (radius + 2)).map (· * step)).takeWhile (· ≤ radius) =
      (List.range (radius / step + 1)).map (· * step) := by
  rw [List.takeWhile_map]
  have hle (k : ℕ) : k * step ≤ radius ↔ k < radius / step + 1 := by
    rw [Nat.lt_succ_iff, Nat.le_div_iff_mul_le hstep]
  have hpred : ((fun val => decide (val ≤ radius)) ∘ (· * step)) =
      fun k => decide (k < radius / step + 1) := by
    funext k
    simp [hle]
  have hbound : radius / step + 1 ≤ radius + 2 := by
    have := Nat.div_le_self radius step
    omega
  rw [hpred, takeWhile_range hbound]

theorem mem_multiples {step m : ℕ} {v : ℤ} :
    v ∈ multiples step m ↔ ∃ k : ℤ, |k| ≤ m ∧ v = k * step := by
  unfold multiples
  rw [List.mem_map]
  constructor
  · rintro ⟨i, hi, rfl⟩
    rw [List.mem_range] at hi
    refine ⟨(i : ℤ) - m, ?_, rfl⟩
    rw [abs_le]
    omega
  · rintro ⟨k, hk, rfl⟩
    rw [abs_le] at hk
    refine ⟨(k + m).toNat, ?_, ?_⟩
    · rw [List.mem_range]
      omega
    · have : ((k + m).toNat : ℤ) = k + m := Int.toNat_of_nonneg (by omega)
      rw [this]
      ring

theorem multiples_lt {step m : ℕ} (hstep : 1 ≤ step) :
    (multiples step m).Pairwise (· < ·) := by
  rw [multiples, List.pairwise_map]
  refine List.pairwise_lt_range.imp fun {i j} hij => ?_
  have hstep' : (0 : ℤ) < step := by omega
  have hij' : (i : ℤ) - m < (j : ℤ) - m := by omega
  exact mul_lt_mul_of_pos_right hij' hstep'

/-- A value and its negative. -/
def both (val : ℕ) : List ℤ := if val = 0 then [0] else [-(val : ℤ), (val : ℤ)]

theorem mem_both {val : ℕ} {v : ℤ} : v ∈ both val ↔ v = -(val : ℤ) ∨ v = (val : ℤ) := by
  unfold both
  split
  · rename_i h
    simp [h]
  · simp

theorem nodup_both (val : ℕ) : (both val).Nodup := by
  unfold both
  split
  · simp
  · rename_i h
    simp only [List.nodup_cons, List.mem_singleton, List.not_mem_nil, not_false_eq_true,
      List.nodup_nil, and_self, and_true]
    omega

theorem axis_eq {step radius : ℕ} (hstep : 1 ≤ step) :
    axis step radius = multiples step (radius / step) := by
  unfold axis
  rw [vals_eq hstep]
  set m := radius / step
  have hlt := multiples_lt (m := m) hstep
  have hperm : (((List.range (m + 1)).map (· * step)).flatMap both).Perm (multiples step m) := by
    refine (List.perm_ext_iff_of_nodup ?_ (hlt.imp fun h => ne_of_lt h)).mpr ?_
    · rw [List.nodup_flatMap]
      refine ⟨fun val _ => nodup_both val, ?_⟩
      rw [List.pairwise_map]
      refine List.pairwise_lt_range.imp fun {i j} hij => ?_
      have hval : i * step < j * step := Nat.mul_lt_mul_of_pos_right hij hstep
      intro v hi hj
      rw [mem_both] at hi hj
      omega
    · intro v
      rw [mem_multiples, List.mem_flatMap]
      constructor
      · rintro ⟨val, hval, hv⟩
        obtain ⟨k, hk, rfl⟩ := List.mem_map.mp hval
        rw [List.mem_range] at hk
        rw [mem_both] at hv
        push_cast at hv
        rcases hv with rfl | rfl
        · refine ⟨-(k : ℤ), ?_, by ring⟩
          rw [abs_neg, abs_of_nonneg (by omega)]
          omega
        · refine ⟨(k : ℤ), ?_, rfl⟩
          rw [abs_of_nonneg (by omega)]
          omega
      · rintro ⟨k, hk, rfl⟩
        refine ⟨k.natAbs * step, List.mem_map.mpr ⟨k.natAbs, ?_, rfl⟩, ?_⟩
        · rw [List.mem_range]
          rw [abs_le] at hk
          omega
        · rw [mem_both]
          push_cast
          rcases abs_choice k with h | h
          · exact .inr (by rw [h])
          · exact .inl (by rw [h]; ring)
  refine List.Perm.eq_of_pairwise' ?_ (hlt.imp fun h => le_of_lt h)
    ((List.perm_insertionSort _ _).trans hperm)
  exact List.pairwise_insertionSort _ _

theorem mem_multiples_iff {step radius : ℕ} (hstep : 1 ≤ step) {v : ℤ} :
    v ∈ multiples step (radius / step) ↔ (step : ℤ) ∣ v ∧ |v| ≤ radius := by
  rw [mem_multiples]
  have hpos : (0 : ℤ) < step := by omega
  have hbound (k : ℤ) : |k| ≤ (radius / step : ℕ) ↔ |k * step| ≤ radius := by
    rw [abs_mul, abs_of_pos hpos, Int.natCast_div, Int.le_ediv_iff_mul_le hpos]
  constructor
  · rintro ⟨k, hk, rfl⟩
    exact ⟨Dvd.intro_left k rfl, (hbound k).mp hk⟩
  · rintro ⟨⟨k, rfl⟩, hk⟩
    rw [mul_comm] at hk
    exact ⟨k, (hbound k).mpr hk, mul_comm _ _⟩

theorem head?_multiples (step m : ℕ) : (multiples step m).head? = some (-(m * step : ℤ)) := by
  rw [multiples, List.range_succ_eq_map, List.map_cons, List.head?_cons]
  push_cast
  congr 1
  ring

theorem getLast?_multiples (step m : ℕ) : (multiples step m).getLast? = some (m * step : ℤ) := by
  rw [multiples, List.range_succ, List.map_append, List.map_singleton, List.getLast?_concat]
  push_cast
  congr 1
  ring

theorem length_multiples (step m : ℕ) : (multiples step m).length = 2 * m + 1 := by
  rw [multiples, List.length_map, List.length_range]

def Close (step : ℕ) (a b : ℤ) : Prop := |a - b| ≤ step

theorem close_symm {step : ℕ} (a b : ℤ) (h : Close step a b) : Close step b a := by
  rw [Close, abs_sub_comm]
  exact h

theorem isChain_multiples (step m : ℕ) : (multiples step m).IsChain (Close step) := by
  rw [multiples, List.isChain_map, List.isChain_range]
  intro i _
  have hdiff : ((i : ℤ) - m) * step - (((i + 1 : ℕ) : ℤ) - m) * step = -(step : ℤ) := by
    push_cast
    ring
  rw [Close, hdiff, abs_neg, abs_of_nonneg (Int.natCast_nonneg step)]

open Serpentine

/-! ## Neighbours -/

def Near (step : ℕ) (p q : ℤ × ℤ) : Prop := |p.1 - q.1| ≤ step ∧ |p.2 - q.2| ≤ step

/-- The greatest multiple of the step within the radius. -/
def reach (step radius : ℕ) : ℤ := (radius / step : ℕ) * step

/-- From the last corner of the raster to the first. -/
def Jump (step radius : ℕ) (p q : ℤ × ℤ) : Prop :=
  p = (reach step radius, reach step radius) ∧ q = (-reach step radius, -reach step radius)

theorem near_of_beside {step : ℕ} {p q : ℤ × ℤ} (h : Beside (Close step) (Close step) p q) :
    Near step p q := by
  have hzero : |(0 : ℤ)| ≤ step := by simp
  obtain ⟨hx, hy⟩ | ⟨hx, hy⟩ := h
  · refine ⟨hx, ?_⟩
    rw [hy, sub_self]
    exact hzero
  · refine ⟨?_, hy⟩
    rw [hx, sub_self]
    exact hzero

/-! ## The rows -/

theorem zipIdx_serpentine (axis ys : List ℤ) (k : ℕ) :
    ((ys.zipIdx k).flatMap fun entry =>
      if entry.2 % 2 = 0 then axis.map (·, entry.1) else axis.reverse.map (·, entry.1)) =
      serpentine axis (decide (k % 2 = 1)) ys := by
  induction ys generalizing k with
  | nil => rfl
  | cons y ys ih =>
    rw [List.zipIdx_cons, List.flatMap_cons, ih, serpentine]
    rcases Nat.mod_two_eq_zero_or_one k with h | h
    · have h' : (k + 1) % 2 = 1 := by omega
      simp [h, h', row]
    · have h' : (k + 1) % 2 = 0 := by omega
      simp [h, h', row]

theorem rasterRows_eq (axis : List ℤ) : rasterRows axis = serpentine axis false axis :=
  zipIdx_serpentine axis axis 0

section
variable {step radius : ℕ} (hstep : 1 ≤ step)
include hstep

theorem axis_ne_nil : axis step radius ≠ [] := by
  rw [axis_eq hstep]
  intro h
  have := congrArg List.length h
  rw [length_multiples] at this
  cases this

theorem mem_rasterRows {p : ℤ × ℤ} : p ∈ rasterRows (axis step radius) ↔
    ((step : ℤ) ∣ p.1 ∧ |p.1| ≤ radius) ∧ (step : ℤ) ∣ p.2 ∧ |p.2| ≤ radius := by
  rw [rasterRows_eq, mem_serpentine, axis_eq hstep, mem_multiples_iff hstep,
    mem_multiples_iff hstep]

theorem nodup_rasterRows : (rasterRows (axis step radius)).Nodup := by
  have haxis : (axis step radius).Nodup := by
    rw [axis_eq hstep]
    exact (multiples_lt hstep).imp fun h => ne_of_lt h
  rw [rasterRows_eq]
  exact nodup_serpentine haxis haxis false

theorem origin_mem : ((0, 0) : ℤ × ℤ) ∈ rasterRows (axis step radius) := by
  rw [mem_rasterRows hstep]
  simp

variable (radius) in
/-- The walk starts at the origin with the rest of the rows and comes back through the rows before
it. -/
theorem rasterOffsets_split : ∃ before after,
    rasterRows (axis step radius) = before ++ (0, 0) :: after ∧
      rasterOffsets step radius = ((0, 0) :: after) ++ before ++ [(0, 0)] := by
  have hstep' : step ≠ 0 := by omega
  rw [rasterOffsets, if_neg hstep', rotated]
  cases hidx : (rasterRows (axis step radius)).findIdx? (· == (0, 0)) with
  | none =>
    rw [List.findIdx?_eq_none_iff] at hidx
    have := hidx (0, 0) (origin_mem hstep)
    simp at this
  | some i =>
    obtain ⟨hi, horigin, -⟩ := List.findIdx?_eq_some_iff_getElem.mp hidx
    have hsplit : rasterRows (axis step radius) =
        (rasterRows (axis step radius)).take i ++
          (0, 0) :: (rasterRows (axis step radius)).drop (i + 1) := by
      have hget : (rasterRows (axis step radius))[i] = (0, 0) := by simpa using horigin
      rw [← hget, List.getElem_cons_drop, List.take_append_drop]
    refine ⟨_, _, hsplit, ?_⟩
    have hlen : ((rasterRows (axis step radius)).take i).length = i := by
      rw [List.length_take]
      omega
    have hrotate := List.rotate_append_length_eq ((rasterRows (axis step radius)).take i)
      ((0, 0) :: (rasterRows (axis step radius)).drop (i + 1))
    rw [← hsplit, hlen] at hrotate
    dsimp only
    rw [hrotate]

theorem head?_rasterRows : (rasterRows (axis step radius)).head? =
    some (-reach step radius, -reach step radius) := by
  have hne : axis step radius ≠ [] := axis_ne_nil hstep
  rw [axis_eq hstep] at hne
  rw [rasterRows_eq, axis_eq hstep]
  obtain ⟨ys, hys⟩ := List.head?_eq_some_iff.mp (head?_multiples step (radius / step))
  have hstart := head?_serpentine hne false (-((radius / step : ℕ) * step : ℤ)) ys
  rw [← hys, head?_multiples] at hstart
  exact hstart

theorem getLast?_rasterRows : (rasterRows (axis step radius)).getLast? =
    some (reach step radius, reach step radius) := by
  have hne : axis step radius ≠ [] := axis_ne_nil hstep
  rw [axis_eq hstep] at hne
  rw [rasterRows_eq, axis_eq hstep]
  obtain ⟨ys, hys⟩ := List.getLast?_eq_some_iff.mp (getLast?_multiples step (radius / step))
  -- an odd number of rows: the last one goes forward again
  have hlen := congrArg List.length hys
  rw [length_multiples, List.length_append, List.length_singleton] at hlen
  have heven : ¬ ys.length % 2 = 1 := by omega
  have hend : (serpentine _ false (ys ++ [((radius / step : ℕ) * step : ℤ)])).getLast? = _ :=
    getLast?_serpentine hne false
  rw [← hys, getLast?_multiples, decide_eq_false heven] at hend
  exact hend

theorem seam_rasterRows {p q : ℤ × ℤ} :
    Seam (rasterRows (axis step radius)) p q ↔ Jump step radius p q := by
  rw [Seam, getLast?_rasterRows hstep, head?_rasterRows hstep, Jump, Option.some_inj,
    Option.some_inj, eq_comm, eq_comm (b := q)]

theorem isChain_rasterOffsets : (rasterOffsets step radius).IsChain fun p q =>
    Near step p q ∨ Jump step radius p q := by
  obtain ⟨before, after, hrows, hoffsets⟩ := rasterOffsets_split radius hstep
  have haxis : (axis step radius).IsChain (Close step) := by
    rw [axis_eq hstep]
    exact isChain_multiples _ _
  have hchain : (rasterRows (axis step radius)).IsChain (Near step) := by
    rw [rasterRows_eq]
    exact (isChain_serpentine close_symm (axis_ne_nil hstep) haxis haxis false).imp
      fun p q h => near_of_beside h
  rw [hrows] at hchain
  rw [hoffsets]
  refine (isChain_closed hchain).imp fun p q h => h.imp_right fun hseam => ?_
  rw [← hrows] at hseam
  exact (seam_rasterRows hstep).mp hseam

end

/-! ## The cursor -/

/-- Two offsets one after the other, as `advance` walks them, the wrap included. -/
def Consecutive (offsets : List (ℤ × ℤ)) (p q : ℤ × ℤ) : Prop :=
  ∃ s : ShiftState, s.offsets = offsets ∧ s.cursor < offsets.length ∧ s.offset = p ∧
    s.advance.2.offset = q

theorem offset_eq {s : ShiftState} (h : s.cursor < s.offsets.length) :
    s.offset = s.offsets[s.cursor] := by
  rw [ShiftState.offset, List.getElem?_eq_getElem h, Option.getD_some]

theorem advance_cursor {s : ShiftState} (h : s.cursor < s.offsets.length) :
    s.advance.2 = { s with cursor := (s.cursor + 1) % s.offsets.length } := by
  have hne : s.offsets ≠ [] := by
    intro hnil
    rw [hnil] at h
    exact Nat.not_lt_zero _ h
  simp [ShiftState.advance, hne]

theorem consecutive_of_chain {offsets : List (ℤ × ℤ)} {R : ℤ × ℤ → ℤ × ℤ → Prop}
    (hchain : offsets.IsChain R)
    (hwrap : ∀ p q, offsets.getLast? = some p → offsets.head? = some q → R p q) {p q : ℤ × ℤ}
    (h : Consecutive offsets p q) : R p q := by
  obtain ⟨s, rfl, hcursor, rfl, rfl⟩ := h
  have hpos : 0 < s.offsets.length := by omega
  have hnext : (s.cursor + 1) % s.offsets.length < s.offsets.length := Nat.mod_lt _ hpos
  rw [advance_cursor hcursor, offset_eq hcursor, offset_eq hnext]
  dsimp only
  rcases Nat.lt_or_ge (s.cursor + 1) s.offsets.length with hlt | hge
  · simp only [Nat.mod_eq_of_lt hlt]
    exact List.isChain_iff_getElem.mp hchain _ hlt
  · -- the wrap
    have hlen : s.cursor + 1 = s.offsets.length := by omega
    refine hwrap _ _ ?_ ?_
    · rw [List.getLast?_eq_getElem?, List.getElem?_eq_getElem (by omega)]
      simp only [← hlen, Nat.add_sub_cancel]
    · rw [List.head?_eq_getElem?, List.getElem?_eq_getElem hpos]
      simp only [hlen, Nat.mod_self]

theorem consecutive_of_append {offsets l r : List (ℤ × ℤ)} {p q : ℤ × ℤ}
    (h : offsets = l ++ p :: q :: r) : Consecutive offsets p q := by
  subst h
  have hcursor : l.length < (l ++ p :: q :: r).length := by simp
  refine ⟨⟨0, l ++ p :: q :: r, l.length⟩, rfl, hcursor, ?_, ?_⟩
  · rw [offset_eq hcursor]
    simp
  · have hnext : l.length + 1 < (l ++ p :: q :: r).length := by simp
    rw [advance_cursor hcursor, ShiftState.offset]
    dsimp only
    rw [Nat.mod_eq_of_lt hnext]
    simp

/-! ## The tour -/

structure Tour (step radius : ℕ) (offsets : List (ℤ × ℤ)) : Prop where
  starts : offsets.head? = some (0, 0)
  ends : offsets.getLast? = some (0, 0)
  visits : ∀ p, p ∈ offsets ↔
    ((step : ℤ) ∣ p.1 ∧ |p.1| ≤ radius) ∧ (step : ℤ) ∣ p.2 ∧ |p.2| ≤ radius
  once : offsets.dropLast.Nodup

section
variable {step radius : ℕ} (hstep : 1 ≤ step)
include hstep

theorem tour : Tour step radius (rasterOffsets step radius) := by
  obtain ⟨before, after, hrows, hoffsets⟩ := rasterOffsets_split radius hstep
  have hperm : (((0, 0) :: after) ++ before).Perm (rasterRows (axis step radius)) := by
    rw [hrows]
    exact List.perm_append_comm
  rw [hoffsets]
  refine ⟨rfl, List.getLast?_concat .., ?_, ?_⟩
  · intro p
    rw [← mem_rasterRows hstep, ← hperm.mem_iff]
    simp only [List.mem_append, List.mem_cons, List.not_mem_nil, or_false]
    tauto
  · rw [List.dropLast_concat, hperm.nodup_iff]
    exact nodup_rasterRows hstep

theorem near_or_jump {p q : ℤ × ℤ} (h : Consecutive (rasterOffsets step radius) p q) :
    Near step p q ∨ Jump step radius p q := by
  refine consecutive_of_chain (isChain_rasterOffsets hstep) ?_ h
  intro p q hp hq
  rw [(tour hstep).ends] at hp
  rw [(tour hstep).starts] at hq
  cases hp
  cases hq
  exact .inl (by simp [Near])

theorem step_le_reach (h : step ≤ radius) : (step : ℤ) ≤ reach step radius := by
  have hdiv : 1 ≤ radius / step := (Nat.one_le_div_iff hstep).mpr h
  have := Nat.mul_le_mul_right step hdiv
  rw [reach]
  exact_mod_cast (by omega : step ≤ radius / step * step)

/-- The seam is walked as soon as the raster is more than the origin. -/
theorem jump_consecutive (h : step ≤ radius) :
    Consecutive (rasterOffsets step radius) (reach step radius, reach step radius)
      (-reach step radius, -reach step radius) := by
  obtain ⟨before, after, hrows, hoffsets⟩ := rasterOffsets_split radius hstep
  have hseam : Seam (rasterRows (axis step radius)) _ _ := (seam_rasterRows hstep).mpr ⟨rfl, rfl⟩
  have hne : before ≠ [] := by
    rintro rfl
    have hhead := hseam.2
    rw [hrows] at hhead
    have hreach := step_le_reach hstep h
    have : (0 : ℤ) = -reach step radius := congrArg Prod.fst (Option.some.inj hhead)
    omega
  rw [hrows] at hseam
  obtain ⟨l, r, hsplit⟩ := seam_mem hne hseam
  rw [hoffsets]
  exact consecutive_of_append hsplit

theorem near_iff : (∀ p q, Consecutive (rasterOffsets step radius) p q → Near step p q) ↔
    radius < step := by
  constructor
  · intro hnear
    by_contra hle
    have hle : step ≤ radius := by omega
    have hreach := step_le_reach hstep hle
    obtain ⟨hx, -⟩ := hnear _ _ (jump_consecutive hstep hle)
    rw [abs_le] at hx
    dsimp only at hx
    omega
  · intro hlt p q h
    obtain hnear | ⟨rfl, rfl⟩ := near_or_jump hstep h
    · exact hnear
    · simp [Near, reach, Nat.div_eq_of_lt hlt]

end

/-! ## The biased walk -/

theorem one_le_repeats {F : Type} (f64 : Floats F) (score : F) : 1 ≤ repeats f64 score := by
  unfold repeats
  split_ifs <;> omega

theorem mem_dwell {α : Type} {p : α} {times : α → ℕ} (htimes : ∀ p, 1 ≤ times p) {inner : List α} :
    p ∈ inner.flatMap (fun p => List.replicate (times p) p) ↔ p ∈ inner := by
  rw [List.mem_flatMap]
  constructor
  · rintro ⟨q, hq, hp⟩
    rwa [(List.mem_replicate.mp hp).2]
  · intro hp
    have htimes := htimes p
    exact ⟨p, hp, List.mem_replicate.mpr ⟨by omega, rfl⟩⟩

/-- Between the two ends nothing is left out. -/
theorem split_rasterOffsets {step radius : ℕ} (hne : rasterOffsets step radius ≠ []) :
    rasterOffsets step radius = [(0, 0)] ++
      ((rasterOffsets step radius).drop 1).take ((rasterOffsets step radius).length - 2) ++
        [(0, 0)] := by
  have hstep : 1 ≤ step := by
    by_contra h
    have hzero : step = 0 := by omega
    exact hne (by rw [hzero]; rfl)
  obtain ⟨before, after, -, hoffsets⟩ := rasterOffsets_split radius hstep
  have hlen : after.length + before.length =
      (((0, 0) :: after) ++ before ++ [((0, 0) : ℤ × ℤ)]).length - 2 := by
    simp
  have htake : ((after ++ before) ++ [((0, 0) : ℤ × ℤ)]).take (after.length + before.length) =
      after ++ before := by
    rw [← List.length_append, List.take_left]
  rw [hoffsets, ← hlen]
  simp only [List.cons_append, List.drop_succ_cons, List.drop_zero, List.nil_append]
  rw [htake]

theorem mem_newBiased {F : Type} (f64 : Floats F) (stepPx : UInt8) (heat : Option (HeatGrid F))
    (bias : F) (p : ℤ × ℤ) : p ∈ (ShiftState.newBiased f64 stepPx heat bias).offsets ↔
      p ∈ (ShiftState.new stepPx).offsets := by
  unfold ShiftState.newBiased
  dsimp only
  split
  · exact Iff.rfl
  · rename_i hbase
    have hne : (ShiftState.new stepPx).offsets ≠ [] := by
      intro hnil
      exact hbase (by rw [hnil]; rfl)
    cases heat with
    | none => exact Iff.rfl
    | some heat =>
      dsimp only
      split_ifs
      · exact Iff.rfl
      · exact Iff.rfl
      · exact Iff.rfl
      · have hsplit : (ShiftState.new stepPx).offsets = _ := split_rasterOffsets hne
        rw [List.mem_append, List.mem_append, mem_dwell fun q => one_le_repeats f64 _,
          ← List.mem_append, ← List.mem_append]
        exact (congrArg (p ∈ ·) hsplit).symm.to_iff

/-! ## The source rectangle -/

theorem toU32_le {value : ℤ} {most : ℕ} (hnonneg : 0 ≤ value) (hmost : value ≤ most) :
    toU32 value ≤ most := by
  unfold toU32
  split <;> omega

theorem sourceOrigin_le (s : ShiftState) :
    s.sourceOrigin.1 ≤ 2 * s.marginPx ∧ s.sourceOrigin.2 ≤ 2 * s.marginPx := by
  unfold ShiftState.sourceOrigin ShiftState.offsetToOrigin
  constructor
  · apply toU32_le <;> push_cast <;> omega
  · apply toU32_le <;> push_cast <;> omega

/-- The walk is a tour within the margin, also when it is biased, and goes from neighbour to
neighbour when it does not leave the origin. Else it jumps, once in a round: from the last corner of
the raster to the first. -/
theorem walk_tour (step radius : ℕ) (hstep : 1 ≤ step) :
    Tour step radius (rasterOffsets step radius) ∧
      (∀ p q, Consecutive (rasterOffsets step radius) p q →
        Near step p q ∨ Jump step radius p q) ∧
      ((∀ p q, Consecutive (rasterOffsets step radius) p q → Near step p q) ↔ radius < step) ∧
      (∀ {F : Type} (f64 : Floats F) (stepPx : UInt8) (heat : Option (HeatGrid F)) (bias : F) p,
        p ∈ (ShiftState.newBiased f64 stepPx heat bias).offsets ↔
          p ∈ (ShiftState.new stepPx).offsets) ∧
      ∀ s : ShiftState, s.sourceOrigin.1 ≤ 2 * s.marginPx ∧ s.sourceOrigin.2 ≤ 2 * s.marginPx :=
  ⟨tour hstep, fun _ _ => near_or_jump hstep, near_iff hstep,
    fun f64 stepPx heat bias p => mem_newBiased f64 stepPx heat bias p, sourceOrigin_le⟩

theorem walk_tour_two : ¬ (4 < 2) ∧
    ((∀ p q, Consecutive (rasterOffsets 2 4) p q → Near 2 p q) ↔ 4 < 2) :=
  ⟨by decide, (walk_tour 2 4 (by decide)).2.2.1⟩

/-- The default walk, of a step of two pixels. -/
theorem corner_to_corner : ¬ ∀ step radius, 1 ≤ step →
    ∀ p q, Consecutive (rasterOffsets step radius) p q → Near step p q := by
  intro h
  have hpair : Consecutive (rasterOffsets 2 4) (4, 4) (-4, -4) :=
    ⟨⟨4, rasterOffsets 2 4, 12⟩, rfl, by decide, by decide, by decide⟩
  obtain ⟨hx, -⟩ := h 2 4 (by decide) _ _ hpair
  revert hx
  decide

end Dormant.PixelShift
