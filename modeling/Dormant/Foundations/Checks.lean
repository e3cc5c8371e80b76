import Mathlib.Data.List.Basic

/-!
# Checks that may fail

What it means that a computation of `Except` succeeds: each of its steps does.
-/

namespace Checks
set_option autoImplicit false

universe u v

variable {ε ε' : Type u} {α β : Type v}

theorem bind_eq_ok {x : Except ε α} {f : α → Except ε β} {b : β} :
    x.bind f = .ok b ↔ ∃ a, x = .ok a ∧ f a = .ok b := by
  cases x with
  | error e => simp [Except.bind]
  | ok a => simp [Except.bind]

theorem mapError_eq_ok {x : Except ε α} {f : ε → ε'} {a : α} :
    x.mapError f = .ok a ↔ x = .ok a := by
  cases x with
  | error e => simp [Except.mapError]
  | ok a' => simp [Except.mapError]

theorem forM_eq_ok {f : α → Except ε PUnit} {l : List α} {u : PUnit} :
    l.forM f = .ok u ↔ ∀ a ∈ l, f a = .ok u := by
  induction l with
  | nil =>
    refine ⟨fun _ a ha => ?_, fun _ => rfl⟩
    cases ha
  | cons a l ih =>
    rw [List.forall_mem_cons]
    refine bind_eq_ok.trans ⟨?_, ?_⟩
    · rintro ⟨u', ha, hl⟩
      exact ⟨ha, ih.mp hl⟩
    · rintro ⟨ha, hl⟩
      exact ⟨u, ha, ih.mpr hl⟩

/-- A check that goes on when its condition fails. -/
theorem throwIf_eq_ok {p : Prop} [Decidable p] {e : ε} {x : Except ε β} {b : β} :
    (if p then .error e else x) = .ok b ↔ ¬ p ∧ x = .ok b := by
  split
  · rename_i hp
    simp [hp]
  · rename_i hp
    simp [hp]

end Checks
