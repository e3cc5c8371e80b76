import Mathlib.Algebra.BigOperators.Group.Finset.Basic
import Mathlib.Algebra.Order.BigOperators.Group.Finset
import Mathlib.Order.Interval.Finset.Nat

/-!
# The largest remainders

Seats that go to the largest of finitely many values, and among equal values to the lowest index.
The selection by rank, and how a cutoff value finds it.
-/

namespace LargestRemainder
set_option autoImplicit false

open Finset

variable {α : Type} [LinearOrder α] (f : ℕ → α) (n : ℕ)

/-- How many of the first `n` indices come before an index. -/
def rank (i : ℕ) : ℕ :=
  ((range n).filter fun j => f i < f j ∨ f j = f i ∧ j < i).card

/-- How many of the first `n` values are above a value. -/
def above (k : α) : ℕ := ((range n).filter fun j => k < f j).card

/-- How many of the first `n` values are a value. -/
def level (k : α) : ℕ := ((range n).filter fun j => f j = k).card

/-- The seats reach down to the value, and not below. -/
structure Cutoff (seats : ℕ) (k : α) : Prop where
  above_lt : above f n k < seats
  reaches : seats ≤ above f n k + level f n k

variable {f n} {seats : ℕ} {k : α}

theorem rank_eq {i : ℕ} (hi : i < n) : rank f n i = above f n (f i) + level f i (f i) := by
  have hsplit : (range n).filter (fun j => f i < f j ∨ f j = f i ∧ j < i) =
      (range n).filter (fun j => f i < f j) ∪ (range i).filter (fun j => f j = f i) := by
    ext j
    simp only [mem_filter, mem_range, mem_union]
    constructor
    · rintro ⟨hj, habove | ⟨hsame, hlt⟩⟩
      · exact .inl ⟨hj, habove⟩
      · exact .inr ⟨hlt, hsame⟩
    · rintro (⟨hj, habove⟩ | ⟨hlt, hsame⟩)
      · exact ⟨hj, .inl habove⟩
      · exact ⟨hlt.trans hi, .inr ⟨hsame, hlt⟩⟩
  have hdisjoint : Disjoint ((range n).filter fun j => f i < f j)
      ((range i).filter fun j => f j = f i) := by
    rw [disjoint_left]
    intro j habove hsame
    exact (mem_filter.mp habove).2.ne (mem_filter.mp hsame).2.symm
  rw [rank, hsplit, card_union_of_disjoint hdisjoint]
  rfl

/-- The rank depends on the order of the values alone. -/
theorem rank_comp {β : Type} [LinearOrder β] {g : α → β} (hg : StrictMono g) (i : ℕ) :
    rank (fun j => g (f j)) n i = rank f n i := by
  unfold rank
  congr 1
  refine filter_congr fun j _ => ?_
  rw [hg.lt_iff_lt, hg.injective.eq_iff]

theorem above_add_level_le {k' : α} (h : k' < k) :
    above f n k + level f n k ≤ above f n k' := by
  have hdisjoint : Disjoint ((range n).filter fun j => k < f j)
      ((range n).filter fun j => f j = k) := by
    rw [disjoint_left]
    intro j habove hsame
    exact (mem_filter.mp habove).2.ne (mem_filter.mp hsame).2.symm
  rw [above, level, ← card_union_of_disjoint hdisjoint]
  refine card_le_card fun j hj => ?_
  simp only [mem_union, mem_filter] at hj ⊢
  rcases hj with ⟨hj, habove⟩ | ⟨hj, rfl⟩
  · exact ⟨hj, h.trans habove⟩
  · exact ⟨hj, h⟩

theorem level_lt {i : ℕ} (hi : i < n) : level f i (f i) < level f n (f i) := by
  refine card_lt_card ⟨fun j hj => ?_, fun hsub => ?_⟩
  · simp only [mem_filter, mem_range] at hj ⊢
    exact ⟨hj.1.trans hi, hj.2⟩
  · have hself := hsub (mem_filter.mpr ⟨mem_range.mpr hi, rfl⟩)
    exact absurd (mem_range.mp (mem_filter.mp hself).1) (lt_irrefl i)

/-- A cutoff finds who gets a seat: all above it, and at it the first ones until none is left. -/
theorem Cutoff.rank_lt_iff (h : Cutoff f n seats k) {i : ℕ} (hi : i < n) :
    rank f n i < seats ↔ k < f i ∨ f i = k ∧ level f i k < seats - above f n k := by
  rw [rank_eq hi]
  rcases lt_trichotomy (f i) k with hbelow | rfl | habove
  · have hall := above_add_level_le (f := f) (n := n) hbelow
    have hreaches := h.reaches
    constructor
    · omega
    · rintro (hlt | ⟨heq, -⟩)
      · exact absurd hlt hbelow.asymm
      · exact absurd heq hbelow.ne
  · have habove := h.above_lt
    constructor
    · intro hlt
      exact .inr ⟨rfl, by omega⟩
    · rintro (hlt | ⟨-, hlt⟩)
      · exact absurd hlt (lt_irrefl _)
      · omega
  · refine ⟨fun _ => .inl habove, fun _ => ?_⟩
    have hall := above_add_level_le (f := f) (n := n) habove
    have hlevel := level_lt (f := f) hi
    have hseats := h.above_lt
    omega

theorem level_succ (i : ℕ) (k : α) :
    level f (i + 1) k = level f i k + if f i = k then 1 else 0 := by
  rw [level, level, range_add_one, filter_insert]
  split
  · rw [card_insert_of_notMem (by simp)]
  · rfl

/-- The first of the indices at a value, as many as there are seats. -/
theorem card_first (s : ℕ) (k : α) :
    ((range n).filter fun i => f i = k ∧ level f i k < s).card = min s (level f n k) := by
  induction n with
  | zero => exact (Nat.min_zero s).symm
  | succ n ih =>
    rw [level_succ, range_add_one, filter_insert]
    by_cases hk : f n = k
    · by_cases hs : level f n k < s
      · rw [if_pos ⟨hk, hs⟩, card_insert_of_notMem (by simp), ih, if_pos hk]
        omega
      · rw [if_neg fun h => hs h.2, ih, if_pos hk]
        omega
    · rw [if_neg fun h => hk h.1, ih, if_neg hk]
      rfl

/-- The seats are used up. -/
theorem Cutoff.card_seated (h : Cutoff f n seats k) :
    ((range n).filter fun i => rank f n i < seats).card = seats := by
  have hsplit : (range n).filter (fun i => rank f n i < seats) =
      (range n).filter (fun i => k < f i) ∪
        (range n).filter (fun i => f i = k ∧ level f i k < seats - above f n k) := by
    ext i
    simp only [mem_filter, mem_union]
    constructor
    · rintro ⟨hi, hlt⟩
      rcases (h.rank_lt_iff (mem_range.mp hi)).mp hlt with habove | hsame
      · exact .inl ⟨hi, habove⟩
      · exact .inr ⟨hi, hsame⟩
    · rintro (⟨hi, habove⟩ | ⟨hi, hsame⟩)
      · exact ⟨hi, (h.rank_lt_iff (mem_range.mp hi)).mpr (.inl habove)⟩
      · exact ⟨hi, (h.rank_lt_iff (mem_range.mp hi)).mpr (.inr hsame)⟩
  have hdisjoint : Disjoint ((range n).filter fun i => k < f i)
      ((range n).filter fun i => f i = k ∧ level f i k < seats - above f n k) := by
    rw [disjoint_left]
    intro i habove hsame
    exact (mem_filter.mp habove).2.ne (mem_filter.mp hsame).2.1.symm
  rw [hsplit, card_union_of_disjoint hdisjoint, card_first]
  have habove := h.above_lt
  have hreaches := h.reaches
  show above f n k + _ = seats
  omega

end LargestRemainder
