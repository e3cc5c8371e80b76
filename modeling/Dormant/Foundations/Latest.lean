import Mathlib.Data.List.Induction
import Mathlib.Order.Lattice

/-!
# The latest entry of a log

Each entry of a log has a time. `latest` is the entry that is in force at an instant: among those at
or before it the last in time, and of several at one time the last in the list. It depends only on
the order of the entries at each time, so a stable sort keeps it.
-/

namespace Latest
set_option autoImplicit false

universe u v

variable {α : Type u} {τ : Type v} [LinearOrder τ] (key : α → τ)

def newer (best : Option α) (x : α) : Option α :=
  match best with
  | none => some x
  | some b => if key b ≤ key x then some x else some b

def latest (l : List α) (t : τ) : Option α := (l.filter (key · ≤ t)).foldl (newer key) none

/-- The last entry at the last time that is not after `t`. -/
structure IsLatest (l : List α) (t : τ) (x : α) : Prop where
  le : key x ≤ t
  greatest : ∀ y ∈ l, key y ≤ t → key y ≤ key x
  last : (l.filter (key · = key x)).getLast? = some x

/-- The entries of each time are the same ones, in the same order. -/
def SameOrder (l l' : List α) : Prop := ∀ k, l.filter (key · = k) = l'.filter (key · = k)

variable {key}

theorem IsLatest.mem {l : List α} {t : τ} {x : α} (h : IsLatest key l t x) : x ∈ l := by
  have := List.mem_of_getLast? h.last
  exact (List.mem_filter.mp this).1

theorem IsLatest.unique {l : List α} {t : τ} {x y : α} (hx : IsLatest key l t x)
    (hy : IsLatest key l t y) : x = y := by
  have hkey : key x = key y :=
    le_antisymm (hy.greatest x hx.mem hx.le) (hx.greatest y hy.mem hy.le)
  have hlast := hx.last
  rw [hkey, hy.last] at hlast
  exact (Option.some.inj hlast).symm

theorem SameOrder.mem {l l' : List α} (h : SameOrder key l l') {x : α} : x ∈ l ↔ x ∈ l' := by
  have hx : x ∈ l.filter (key · = key x) ↔ x ∈ l'.filter (key · = key x) := by rw [h (key x)]
  simpa using hx

theorem SameOrder.isLatest {l l' : List α} (h : SameOrder key l l') {t : τ} {x : α}
    (hx : IsLatest key l t x) : IsLatest key l' t x :=
  ⟨hx.le, fun y hy => hx.greatest y (h.mem.mpr hy), h (key x) ▸ hx.last⟩

theorem SameOrder.append_left {l l' : List α} (h : SameOrder key l l') (m : List α) :
    SameOrder key (m ++ l) (m ++ l') := by
  intro k
  rw [List.filter_append, List.filter_append, h k]

theorem SameOrder.symm {l l' : List α} (h : SameOrder key l l') : SameOrder key l' l :=
  fun k => (h k).symm

@[simp] theorem latest_nil (t : τ) : latest key [] t = none := rfl

theorem latest_concat (l : List α) (x : α) (t : τ) :
    latest key (l ++ [x]) t =
      if key x ≤ t then newer key (latest key l t) x else latest key l t := by
  unfold latest
  rw [List.filter_append, List.foldl_append]
  by_cases hx : key x ≤ t
  · simp [hx]
  · simp [hx]

theorem latest_eq_none_iff (l : List α) (t : τ) :
    latest key l t = none ↔ ∀ x ∈ l, t < key x := by
  induction l using List.reverseRecOn with
  | nil => simp
  | append_singleton l x ih =>
    rw [latest_concat]
    by_cases hx : key x ≤ t
    · rw [if_pos hx]
      refine iff_of_false ?_ ?_
      · unfold newer
        split
        · simp
        · split <;> simp
      · intro h
        exact not_lt.mpr hx (h x (by simp))
    · rw [if_neg hx, ih]
      constructor
      · intro h y hy
        rcases List.mem_append.mp hy with hy | hy
        · exact h y hy
        · rw [List.mem_singleton.mp hy]
          exact not_le.mp hx
      · intro h y hy
        exact h y (List.mem_append_left _ hy)

theorem isLatest_of_latest {l : List α} {t : τ} {x : α} (h : latest key l t = some x) :
    IsLatest key l t x := by
  induction l using List.reverseRecOn generalizing x with
  | nil => cases h
  | append_singleton l y ih =>
    rw [latest_concat] at h
    -- the entry is dropped, is the first, beats the best so far, or loses to it
    have hkeep (hbest : latest key l t = some x) (hlater : key y ≤ t → key y < key x) :
        IsLatest key (l ++ [y]) t x := by
      obtain ⟨hle, hgreatest, hlast⟩ := ih hbest
      refine ⟨hle, ?_, ?_⟩
      · intro z hz hzt
        rcases List.mem_append.mp hz with hz | hz
        · exact hgreatest z hz hzt
        · rw [List.mem_singleton.mp hz] at hzt ⊢
          exact le_of_lt (hlater hzt)
      · have hne : ¬ key y = key x := by
          intro heq
          exact absurd (hlater (heq ▸ hle)) (by rw [heq]; exact lt_irrefl _)
        rw [List.filter_append, List.filter_cons_of_neg (by simpa using hne), List.filter_nil,
          List.append_nil]
        exact hlast
    have htake (hyt : key y ≤ t) (hbest : ∀ z ∈ l, key z ≤ t → key z ≤ key y) :
        IsLatest key (l ++ [y]) t y := by
      refine ⟨hyt, ?_, by simp [List.filter_append]⟩
      intro z hz hzt
      rcases List.mem_append.mp hz with hz | hz
      · exact hbest z hz hzt
      · rw [List.mem_singleton.mp hz]
    by_cases hyt : key y ≤ t
    · rw [if_pos hyt] at h
      cases hbest : latest key l t with
      | none =>
        rw [hbest] at h
        cases h
        refine htake hyt ?_
        intro z hz hzt
        exact absurd hzt (not_le.mpr ((latest_eq_none_iff l t).mp hbest z hz))
      | some b =>
        rw [hbest] at h
        simp only [newer] at h
        split at h
        · rename_i hby
          cases h
          refine htake hyt ?_
          intro z hz hzt
          exact le_trans ((ih hbest).greatest z hz hzt) hby
        · rename_i hby
          cases h
          exact hkeep hbest (fun _ => not_le.mp hby)
    · rw [if_neg hyt] at h
      exact hkeep h (fun hy => absurd hy hyt)

theorem latest_eq_some_iff (l : List α) (t : τ) (x : α) :
    latest key l t = some x ↔ IsLatest key l t x := by
  refine ⟨isLatest_of_latest, ?_⟩
  intro h
  cases hbest : latest key l t with
  | none => exact absurd h.le (not_le.mpr ((latest_eq_none_iff l t).mp hbest x h.mem))
  | some y => rw [(isLatest_of_latest hbest).unique h]

theorem SameOrder.latest_eq {l l' : List α} (h : SameOrder key l l') (t : τ) :
    latest key l t = latest key l' t := by
  apply Option.ext
  intro x
  rw [latest_eq_some_iff, latest_eq_some_iff]
  exact ⟨h.isLatest, h.symm.isLatest⟩

/-! ## Appending -/

theorem latest_append_congr {l l' : List α} {t : τ} (h : latest key l t = latest key l' t)
    (m : List α) : latest key (l ++ m) t = latest key (l' ++ m) t := by
  induction m using List.reverseRecOn with
  | nil => simpa using h
  | append_singleton m x ih =>
    rw [← List.append_assoc, ← List.append_assoc, latest_concat, latest_concat, ih]

theorem latest_append_later (l m : List α) {t : τ} (h : ∀ x ∈ m, t < key x) :
    latest key (l ++ m) t = latest key l t := by
  induction m using List.reverseRecOn with
  | nil => simp
  | append_singleton m x ih =>
    have hx : ¬ key x ≤ t := not_le.mpr (h x (by simp))
    rw [← List.append_assoc, latest_concat, if_neg hx]
    exact ih fun y hy => h y (List.mem_append_left _ hy)

theorem latest_toList {o : Option α} {t : τ} (h : ∀ x ∈ o, key x ≤ t) :
    latest key o.toList t = o := by
  cases o with
  | none => rfl
  | some x => simp [latest, newer, h x rfl]

/-- Behind the last of the entries, time no longer matters. -/
theorem latest_of_le {l : List α} {b t : τ} (h : ∀ x ∈ l, key x ≤ b) (hbt : b ≤ t) :
    latest key l t = latest key l b := by
  have ht : l.filter (key · ≤ t) = l :=
    List.filter_eq_self.mpr fun x hx => by simpa using le_trans (h x hx) hbt
  have hb : l.filter (key · ≤ b) = l :=
    List.filter_eq_self.mpr fun x hx => by simpa using h x hx
  rw [latest, latest, ht, hb]

/-! ## Reordering -/

theorem sameOrder_partition (l : List α) (b : τ) :
    SameOrder key l (l.filter (key · ≤ b) ++ l.filter (b < key ·)) := by
  intro k
  rw [List.filter_append, List.filter_filter, List.filter_filter]
  by_cases hk : k ≤ b
  · have hearly : l.filter (fun x => decide (key x = k) && decide (key x ≤ b)) =
        l.filter (key · = k) := by
      apply List.filter_congr
      intro x _
      by_cases hx : key x = k
      · simp [hx, hk]
      · simp [hx]
    have hlate : l.filter (fun x => decide (key x = k) && decide (b < key x)) = [] := by
      rw [List.filter_eq_nil_iff]
      intro x _ hx
      simp only [Bool.and_eq_true, decide_eq_true_eq] at hx
      exact not_lt.mpr hk (hx.1 ▸ hx.2)
    rw [hearly, hlate, List.append_nil]
  · have hearly : l.filter (fun x => decide (key x = k) && decide (key x ≤ b)) = [] := by
      rw [List.filter_eq_nil_iff]
      intro x _ hx
      simp only [Bool.and_eq_true, decide_eq_true_eq] at hx
      exact hk (hx.1 ▸ hx.2)
    have hlate : l.filter (fun x => decide (key x = k) && decide (b < key x)) =
        l.filter (key · = k) := by
      apply List.filter_congr
      intro x _
      by_cases hx : key x = k
      · simp [hx, not_le.mp hk]
      · simp [hx]
    rw [hearly, hlate, List.nil_append]

theorem mergeSort_sorted (l : List α) :
    (l.mergeSort fun a b => decide (key a ≤ key b)).Pairwise fun a b => key a ≤ key b := by
  have h : (l.mergeSort fun a b => decide (key a ≤ key b)).Pairwise
      fun a b => decide (key a ≤ key b) = true := List.pairwise_mergeSort
    (by
      intro a b c hab hbc
      simp only [decide_eq_true_eq] at hab hbc ⊢
      exact le_trans hab hbc)
    (by
      intro a b
      simpa using le_total (key a) (key b)) l
  exact h.imp fun hab => by simpa using hab

/-- The entries of one time are a sorted part of the list, so the sort keeps their order. -/
theorem sameOrder_mergeSort (l : List α) :
    SameOrder key l (l.mergeSort fun a b => decide (key a ≤ key b)) := by
  intro k
  have hsorted : (l.filter (key · = k)).Pairwise fun a b => decide (key a ≤ key b) = true := by
    apply List.pairwise_of_forall_mem_list
    intro a ha b hb
    have ha := (List.mem_filter.mp ha).2
    have hb := (List.mem_filter.mp hb).2
    simp only [decide_eq_true_eq] at ha hb ⊢
    rw [ha, hb]
  have hsub : List.Sublist (l.filter (key · = k))
      (l.mergeSort fun a b => decide (key a ≤ key b)) := List.sublist_mergeSort
    (by
      intro a b c hab hbc
      simp only [decide_eq_true_eq] at hab hbc ⊢
      exact le_trans hab hbc)
    (by
      intro a b
      simpa using le_total (key a) (key b)) hsorted List.filter_sublist
  have hkept := hsub.filter (key · = k)
  rw [List.filter_filter] at hkept
  simp only [Bool.and_self] at hkept
  refine hkept.eq_of_length ?_
  exact ((List.mergeSort_perm l _).filter _).length_eq.symm

/-- In a sorted log the latest entry is the last that is not after the instant. -/
theorem latest_of_sorted {l : List α} (hsorted : l.Pairwise fun a b => key a ≤ key b) (t : τ) :
    latest key l t = (l.filter (key · ≤ t)).getLast? := by
  induction l using List.reverseRecOn with
  | nil => rfl
  | append_singleton l x ih =>
    obtain ⟨hl, -, hlast⟩ := List.pairwise_append.mp hsorted
    rw [latest_concat, List.filter_append]
    by_cases hx : key x ≤ t
    · have hbest : newer key (latest key l t) x = some x := by
        cases hb : latest key l t with
        | none => rfl
        | some b =>
          have hbx := hlast b (isLatest_of_latest hb).mem x (by simp)
          simp [newer, hbx]
      simp [hx, hbest]
    · simp [hx, ih hl]

end Latest
