import Mathlib.Data.List.Basic

/-!
# Counting loops

A loop over `0, 1, …` whose body may stop the program, and its invariant.
-/

namespace Loops
set_option autoImplicit false

variable {σ : Type} {f : σ → ℕ → Option σ} {s : σ}

theorem foldlM_range {n : ℕ} (I : ℕ → σ → Prop) (hstart : I 0 s)
    (hstep : ∀ i < n, ∀ s, I i s → ∃ s', f s i = some s' ∧ I (i + 1) s') :
    ∃ s', (List.range n).foldlM f s = some s' ∧ I n s' := by
  induction n with
  | zero => exact ⟨s, rfl, hstart⟩
  | succ n ih =>
    obtain ⟨s₁, hbefore, hI⟩ := ih fun i hi => hstep i (Nat.lt_succ_of_lt hi)
    obtain ⟨s₂, hlast, hI'⟩ := hstep n (Nat.lt_succ_self n) s₁ hI
    refine ⟨s₂, ?_, hI'⟩
    rw [List.range_succ, List.foldlM_append, hbefore]
    show [n].foldlM f s₁ = some s₂
    rw [List.foldlM_cons, hlast]
    rfl

/-- A body that stops at a number, whatever came before, stops the loop. -/
theorem foldlM_stops {n i : ℕ} (hi : i < n) (hstop : ∀ s, f s i = none) (s : σ) :
    (List.range n).foldlM f s = none := by
  induction n with
  | zero => cases hi
  | succ n ih =>
    rw [List.range_succ, List.foldlM_append]
    rcases Nat.lt_succ_iff_lt_or_eq.mp hi with hbefore | rfl
    · rw [ih hbefore]
      rfl
    · cases (List.range i).foldlM f s with
      | none => rfl
      | some s' =>
        show [i].foldlM f s' = none
        rw [List.foldlM_cons, hstop]
        rfl

end Loops
