import Mathlib.Logic.Equiv.Basic

/-!
# Tokens in places

Each place holds at most one token, and a step passes tokens on, drops them or makes a new one.
A step that takes the tokens of its places from a permutation of the places before keeps tokens
apart that were apart, and brings none back that was dropped.
-/

namespace Custody
set_option autoImplicit false

universe u v w

variable {Place : Type u} {Token : Type v} {Key : Type w} (key : Token → Key)
variable {f g k : Place → Option Token}

/-- Every token of `g` was in `f`, no two of them in one place. -/
def From (g f : Place → Option Token) : Prop :=
  ∃ source : Equiv.Perm Place, ∀ p x, g p = some x → f (source p) = some x

/-- No two places hold a token with one key. -/
def Apart (f : Place → Option Token) : Prop :=
  ∀ p q x y, f p = some x → f q = some y → key x = key y → p = q

theorem from_of_le (h : ∀ p x, g p = some x → f p = some x) : From g f := ⟨Equiv.refl _, h⟩

theorem From.refl (f : Place → Option Token) : From f f := from_of_le fun _ _ h => h

theorem From.trans (hgf : From g f) (hfk : From f k) : From g k := by
  obtain ⟨σ, hσ⟩ := hgf
  obtain ⟨τ, hτ⟩ := hfk
  exact ⟨σ.trans τ, fun p x h => hτ _ _ (hσ p x h)⟩

/-- One place passes its token on to another. -/
theorem from_passed [DecidableEq Place] (p q : Place) (hp : ∀ x, g p = some x → f q = some x)
    (hq : g q = none) (h : ∀ r, r ≠ p → ∀ x, g r = some x → f r = some x) : From g f := by
  refine ⟨Equiv.swap p q, fun r x hr => ?_⟩
  by_cases hrp : r = p
  · subst hrp
    rw [Equiv.swap_apply_left]
    exact hp x hr
  · have hrq : r ≠ q := by
      intro hrq
      rw [hrq, hq] at hr
      cases hr
    rw [Equiv.swap_apply_of_ne_of_ne hrp hrq]
    exact h r hrp x hr

theorem From.apart (h : From g f) (hf : Apart key f) : Apart key g := by
  obtain ⟨σ, hσ⟩ := h
  intro p q x y hp hq hxy
  exact σ.injective (hf _ _ x y (hσ p x hp) (hσ q y hq) hxy)

theorem From.all {P : Token → Prop} (h : From g f) (hf : ∀ p x, f p = some x → P x) :
    ∀ p x, g p = some x → P x := by
  obtain ⟨σ, hσ⟩ := h
  exact fun p x hp => hf _ x (hσ p x hp)

/-- A new token takes the place of what was there. -/
theorem Apart.mint [DecidableEq Place] (hf : Apart key f) (p : Place) (x : Token)
    (hnew : ∀ q y, f q = some y → key y ≠ key x) :
    Apart key (Function.update f p (some x)) := by
  intro q r y z hq hr hyz
  rw [Function.update_apply] at hq hr
  split at hq
  · rename_i hqp
    cases hq
    split at hr
    · rename_i hrp
      rw [hqp, hrp]
    · exact absurd hyz.symm (hnew r z hr)
  · split at hr
    · cases hr
      exact absurd hyz (hnew q y hq)
    · exact hf q r y z hq hr hyz

end Custody
