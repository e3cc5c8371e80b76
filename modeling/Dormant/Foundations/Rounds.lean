import Dormant.Foundations.Runs

/-!
# Fair rounds

A system comes to rest under every schedule that gives each of its inputs a turn in every round,
if no input takes it further from rest, and in each state short of rest one of them takes it nearer.
-/

namespace Runs
set_option autoImplicit false

universe u v w

namespace System
variable {σ : Type u} {ι : Type v} {ο : Type w} {M : System σ ι ο}
variable {Inv : σ → Prop} {rank : σ → ℕ}

/-- A schedule leaves the state alone, or has taken it nearer to rest. -/
theorem run_idle_or_lower (hinv : ∀ s i, Inv s → Inv (M.next s i).1)
    (hstep : ∀ s i, Inv s → (M.next s i).1 = s ∨ rank (M.next s i).1 < rank s) {s : σ}
    (h : Inv s) (is : List ι) : M.run s is = s ∨ rank (M.run s is) < rank s := by
  induction is generalizing s with
  | nil => exact .inl rfl
  | cons i is ih =>
    obtain hidle | hlower := hstep s i h
    · have hrest := ih h
      rw [run_cons, hidle]
      exact hrest
    · refine .inr ?_
      obtain hrest | hrest := ih (hinv s i h)
      · rw [run_cons, hrest]
        exact hlower
      · exact Nat.lt_trans hrest hlower

/-- A round with a turn of an input that takes the system nearer to rest does so. -/
theorem round_lower (hinv : ∀ s i, Inv s → Inv (M.next s i).1)
    (hstep : ∀ s i, Inv s → (M.next s i).1 = s ∨ rank (M.next s i).1 < rank s) {s : σ}
    (h : Inv s) {i : ι} (hlower : rank (M.next s i).1 < rank s) {round : List ι}
    (hi : i ∈ round) : rank (M.run s round) < rank s := by
  induction round with
  | nil => cases hi
  | cons j round ih =>
    obtain hidle | hj := hstep s j h
    · obtain rfl | hi := List.mem_cons.mp hi
      · rw [hidle] at hlower
        exact absurd hlower (Nat.lt_irrefl _)
      · rw [run_cons, hidle]
        exact ih hi
    · obtain hrest | hrest := run_idle_or_lower hinv hstep (hinv s j h) round
      · rw [run_cons, hrest]
        exact hj
      · exact Nat.lt_trans hrest hj

/-- As many rounds as the rank bring the system to rest. -/
theorem rounds_rest (hinv : ∀ s i, Inv s → Inv (M.next s i).1)
    (hstep : ∀ s i, Inv s → (M.next s i).1 = s ∨ rank (M.next s i).1 < rank s) (C : ι → Prop)
    (hready : ∀ s, Inv s → rank s ≠ 0 → ∃ i, C i ∧ rank (M.next s i).1 < rank s) {s : σ}
    (h : Inv s) {rounds : List (List ι)} (hfair : ∀ round ∈ rounds, ∀ i, C i → i ∈ round)
    (hlong : rank s ≤ rounds.length) : rank (M.run s rounds.flatten) = 0 := by
  induction rounds generalizing s with
  | nil => exact Nat.le_zero.mp hlong
  | cons round rounds ih =>
    rw [List.flatten_cons, run_append]
    refine ih (invariant hinv h round) (fun r hr => hfair r (List.mem_cons_of_mem _ hr)) ?_
    rw [List.length_cons] at hlong
    by_cases hrest : rank s = 0
    · obtain hidle | hlower := run_idle_or_lower hinv hstep h round
      · rw [hidle, hrest]
        exact Nat.zero_le _
      · omega
    · obtain ⟨i, hi, hlower⟩ := hready s h hrest
      have := round_lower hinv hstep h hlower (hfair round List.mem_cons_self i hi)
      omega

end System
end Runs
