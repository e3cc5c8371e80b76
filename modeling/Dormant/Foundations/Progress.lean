import Dormant.Foundations.Runs

/-!
# Progress

A system that has something left can do a step that leaves less. `Runs.System.settle` gives the
inputs that leave nothing.
-/

namespace Runs.System
set_option autoImplicit false

universe u v w
variable {σ : Type u} {ι : Type v} {ο : Type w} {M : System σ ι ο}

/-- A condition on inputs alone. -/
theorem Steps.forall_mem {C : ι → Prop} {s : σ} {is : List ι} (h : M.Steps (fun _ i => C i) s is) :
    ∀ i ∈ is, C i := by
  induction is generalizing s with
  | nil =>
    intro i hi
    cases hi
  | cons i is ih =>
    intro j hj
    cases List.mem_cons.mp hj with
    | inl heq => exact heq ▸ h.1
    | inr hmem => exact ih h.2 j hmem

/-- From a state with the invariant, inputs of the permitted kind lead to one with nothing left. -/
theorem settle {Inv : σ → Prop} {C : σ → ι → Prop} (left : σ → ℕ)
    (hstep : ∀ s, Inv s → left s ≠ 0 →
      ∃ i, C s i ∧ Inv (M.next s i).1 ∧ left (M.next s i).1 < left s) {s : σ} (h0 : Inv s) :
    ∃ is, M.Steps C s is ∧ Inv (M.run s is) ∧ left (M.run s is) = 0 := by
  induction hleft : left s using Nat.strongRecOn generalizing s with
  | ind n ih =>
    by_cases hzero : n = 0
    · exact ⟨[], trivial, h0, hleft.trans hzero⟩
    · obtain ⟨i, hC, hInv, hless⟩ := hstep s h0 (by omega)
      obtain ⟨is, hsteps, hend, hnone⟩ := ih _ (by omega) hInv rfl
      exact ⟨i :: is, ⟨hC, hsteps⟩, hend, hnone⟩

end Runs.System
