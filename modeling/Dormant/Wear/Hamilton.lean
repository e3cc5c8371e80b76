import Mathlib.Algebra.BigOperators.Ring.Finset
import Dormant.Foundations.LargestRemainder
import Dormant.Foundations.Loops
import Dormant.Wear.Apportion

/-!
# The selection by largest remainders

`hamilton_distribute`: the frequencies, the search for the cutoff and the second pass give the units
that are left to the largest remainders, and among equal ones to the lowest index.
-/

namespace Dormant
set_option autoImplicit false

open LargestRemainder

theorem U128.add_eq {a b : ℕ} (h : a + b < U128.size) : U128.add a b = some (a + b) := if_pos h

theorem U128.sub_eq {a b : ℕ} (h : b ≤ a) : U128.sub a b = some (a - b) := if_pos h

theorem U128.mul_eq {a b : ℕ} (h : a * b < U128.size) : U128.mul a b = some (a * b) := if_pos h

theorem asUsize_eq {n : ℕ} (h : n < UInt64.size) : asUsize n = n := Nat.mod_eq_of_lt h

theorem setIndex_eq {α : Type} {xs : List α} {i : ℕ} (h : i < xs.length) (a : α) :
    setIndex xs i a = some (xs.set i a) := if_pos h

theorem assert_eq {condition : Prop} [Decidable condition] (h : condition) :
    assert condition = some () := if_pos h

variable {f floor : ℕ → ℕ} {n seats : ℕ}

/-- The table counts the first remainders. -/
structure Frequencies (f : ℕ → ℕ) (n i : ℕ) (frequencies : List ℕ) : Prop where
  length : frequencies.length = n
  entry (k : ℕ) (hk : k < n) : frequencies[k]? = some (level f i k)

theorem countFrequency_eq {i : ℕ} {frequencies : List ℕ} (hf : f i < n) (hsize : n ≤ UInt64.size)
    (h : Frequencies f n i frequencies) :
    ∃ frequencies', countFrequency frequencies (f i) = some frequencies' ∧
      Frequencies f n (i + 1) frequencies' := by
  have hindex : f i < frequencies.length := h.length.symm ▸ hf
  refine ⟨frequencies.set (f i) (level f i (f i) + 1), ?_, ?_, fun k hk => ?_⟩
  · unfold countFrequency
    rw [asUsize_eq (by omega), h.entry _ hf]
    exact setIndex_eq hindex _
  · rw [List.length_set]
    exact h.length
  · rw [level_succ]
    by_cases hsame : f i = k
    · subst hsame
      rw [List.getElem?_set_self hindex, if_pos rfl]
    · rw [List.getElem?_set_ne hsame, if_neg hsame, h.entry k hk]
      rfl

theorem frequencies_eq (hf : ∀ i, f i < n) (hsize : n ≤ UInt64.size) :
    ∃ frequencies, ((List.range n).map f).foldlM countFrequency (List.replicate n 0) =
      some frequencies ∧ Frequencies f n n frequencies := by
  rw [List.foldlM_map]
  refine Loops.foldlM_range (Frequencies f n) ⟨List.length_replicate, fun k hk => ?_⟩
    fun i _ frequencies h => countFrequency_eq (hf i) hsize h
  rw [List.getElem?_replicate_of_lt hk]
  rfl

/-- How many remainders reach a value. -/
def reaching (f : ℕ → ℕ) (n m : ℕ) : ℕ := ((Finset.range n).filter fun j => m ≤ f j).card

theorem reaching_succ (k : ℕ) : reaching f n (k + 1) = above f n k := rfl

theorem reaching_eq (k : ℕ) : reaching f n k = above f n k + level f n k := by
  have hsplit : (Finset.range n).filter (fun j => k ≤ f j) =
      (Finset.range n).filter (fun j => k < f j) ∪ (Finset.range n).filter (fun j => f j = k) := by
    ext j
    simp only [Finset.mem_filter, Finset.mem_union, Finset.mem_range]
    omega
  have hdisjoint : Disjoint ((Finset.range n).filter fun j => k < f j)
      ((Finset.range n).filter fun j => f j = k) := by
    rw [Finset.disjoint_left]
    intro j habove hsame
    have habove := (Finset.mem_filter.mp habove).2
    have hsame := (Finset.mem_filter.mp hsame).2
    omega
  rw [reaching, hsplit, Finset.card_union_of_disjoint hdisjoint]
  rfl

theorem findCutoff_eq {frequencies : List ℕ} (h : Frequencies f n n frequencies)
    (hseats : seats ≤ n) {m : ℕ} (hm : m ≤ n) (hlt : reaching f n m < seats) :
    ∃ k, findCutoff frequencies seats m (reaching f n m) = some (above f n k, k) ∧
      Cutoff f n seats k := by
  induction m with
  | zero =>
    have hall : reaching f n 0 = n := by
      unfold reaching
      rw [Finset.filter_true_of_mem fun j _ => Nat.zero_le _, Finset.card_range]
    omega
  | succ k ih =>
    unfold findCutoff
    rw [h.entry k hm, Option.bind_eq_bind, Option.bind_some, reaching_succ]
    rw [reaching_succ] at hlt
    split
    · rename_i hreaches
      exact ⟨k, rfl, hlt, hreaches⟩
    · rename_i hreaches
      rw [← reaching_eq]
      rw [← reaching_eq] at hreaches
      exact ih (by omega) (by omega)

/-- The second pass from an index on, with the slots that the indices before it have left. -/
theorem handOut_eq (k slots : ℕ) (hf : ∀ i, f i < UInt64.size) (i d : ℕ)
    (hfloor : ∀ j < i + d, floor j + 1 < U128.size) :
    handOut k ((List.range' i d).map floor) ((List.range' i d).map f) (slots - level f i k) =
      some ((List.range' i d).map fun j =>
          floor j + if k < f j ∨ f j = k ∧ level f j k < slots then 1 else 0,
        slots - level f (i + d) k) := by
  induction d generalizing i with
  | zero => rfl
  | succ d ih =>
    have hslots : (f i = k ∧ slots - level f i k ≠ 0) ↔ (f i = k ∧ level f i k < slots) := by
      omega
    have hgiven : addUnit (k < f i ∨ f i = k ∧ level f i k < slots) (floor i) =
        some (floor i + if k < f i ∨ f i = k ∧ level f i k < slots then 1 else 0) := by
      unfold addUnit
      split
      · exact U128.add_eq (hfloor i (by omega))
      · rfl
    have hleft : (if k < f i then slots - level f i k
          else if f i = k ∧ level f i k < slots then slots - level f i k - 1
          else slots - level f i k) = slots - level f (i + 1) k := by
      rw [level_succ]
      split
      · rw [if_neg (by omega), Nat.add_zero]
      · split
        · rw [if_pos (by omega)]
          omega
        · split
          · omega
          · rfl
    rw [List.range'_succ, List.map_cons, List.map_cons, List.map_cons]
    unfold handOut
    simp only [asUsize_eq (hf i), gt_iff_lt, hslots]
    rw [hgiven, hleft, Option.bind_eq_bind, Option.bind_some,
      ih (i + 1) fun j hj => hfloor j (by omega), Option.bind_eq_bind, Option.bind_some,
      Nat.add_right_comm, ← Nat.add_assoc]
    rfl

theorem exists_cutoff (hf : ∀ i, f i < n) (hsize : n ≤ UInt64.size) (hseats : seats ≤ n)
    (hpos : 0 < seats) :
    ∃ frequencies k, ((List.range n).map f).foldlM countFrequency (List.replicate n 0) =
        some frequencies ∧
      findCutoff frequencies seats n 0 = some (above f n k, k) ∧ Cutoff f n seats k := by
  obtain ⟨frequencies, hcounted, hentries⟩ := frequencies_eq hf hsize
  have hnone : reaching f n n = 0 := by
    unfold reaching
    rw [Finset.filter_false_of_mem fun j _ => Nat.not_le_of_lt (hf j), Finset.card_empty]
  obtain ⟨k, hsearch, hcutoff⟩ := findCutoff_eq hentries hseats le_rfl (hnone.symm ▸ hpos)
  rw [hnone] at hsearch
  exact ⟨frequencies, k, hcounted, hsearch, hcutoff⟩

/-- As many units are handed out as are left. -/
theorem sum_handedOut (hf : ∀ i, f i < n) (hsize : n ≤ UInt64.size) (hseats : seats ≤ n) :
    ∑ i ∈ Finset.range n, (if rank f n i < seats then 1 else 0) = seats := by
  rw [← Finset.card_filter]
  by_cases hzero : seats = 0
  · subst hzero
    rw [Finset.filter_false_of_mem fun i _ => Nat.not_lt_zero _, Finset.card_empty]
  · obtain ⟨_, k, -, -, hcutoff⟩ := exists_cutoff hf hsize hseats (Nat.pos_of_ne_zero hzero)
    exact hcutoff.card_seated

theorem hamiltonDistribute_eq {floorTotal : ℕ} (hf : ∀ i, f i < n) (hsize : n ≤ UInt64.size)
    (hfloor : ∀ i < n, floor i + 1 < U128.size) (hseats : seats < n) :
    hamiltonDistribute ((List.range n).map floor) ((List.range n).map f) (floorTotal + seats)
        floorTotal n =
      some ((List.range n).map fun i => floor i + if rank f n i < seats then 1 else 0) := by
  have hseats64 : seats < UInt64.size := hseats.trans_le hsize
  simp only [hamiltonDistribute, U128.sub_eq (Nat.le_add_right _ _), Option.bind_eq_bind,
    Option.bind_some, Nat.add_sub_cancel_left, asUsize_eq hseats64, assert_eq hseats]
  by_cases hzero : seats = 0
  · rw [if_pos hzero, hzero]
    rfl
  · rw [if_neg hzero]
    obtain ⟨frequencies, k, hcounted, hsearch, hcutoff⟩ :=
      exists_cutoff hf hsize hseats.le (Nat.pos_of_ne_zero hzero)
    have habove := hcutoff.above_lt
    have hreaches := hcutoff.reaches
    have hused : seats - above f n k - level f n k = 0 := by omega
    have hpass := handOut_eq k (seats - above f n k)
      (fun i => (hf i).trans_le hsize) 0 n fun j hj => hfloor j (by omega)
    rw [← List.range_eq_range', Nat.zero_add, hused] at hpass
    simp only [hcounted, hsearch, Option.bind_some, U128.sub_eq habove.le]
    have hstart : seats - above f n k = seats - above f n k - level f 0 k := rfl
    rw [hstart, hpass]
    refine congrArg some (List.map_congr_left fun i hi => ?_)
    exact congrArg (floor i + ·)
      (if_congr (hcutoff.rank_lt_iff (List.mem_range.mp hi)).symm rfl rfl)

end Dormant
