import Mathlib.Logic.Function.Basic

/-!
# Flags that are driven by the edges of several levels

Each source has a level, and each sink a flag that is overwritten whenever the level of a
source that drives it changes. The flag is the level of the source that changed last, so it
lies between the conjunction and the disjunction of the levels that drive it.
-/

set_option autoImplicit false

universe u v

structure Latch (σ : Type u) (δ : Type v) where
  level : σ → Bool
  flag : δ → Bool

namespace Latch
variable {σ : Type u} {δ : Type v} [DecidableEq σ]

def low : Latch σ δ := { level := fun _ => false, flag := fun _ => false }

variable (drives : σ → δ → Prop) [∀ s d, Decidable (drives s d)]

/-- Set one level. A change of it is an edge for the sinks it drives. -/
def set (l : Latch σ δ) (s : σ) (value : Bool) : Latch σ δ where
  level := Function.update l.level s value
  flag d := if drives s d ∧ l.level s ≠ value then value else l.flag d

/-- A flag that is up has a driving level that is up, and one that is down a driving level
that is down, where there is one. -/
structure Bounded (l : Latch σ δ) (d : δ) : Prop where
  up : l.flag d = true → ∃ s, drives s d ∧ l.level s = true
  down : l.flag d = false → (∃ s, drives s d) → ∃ s, drives s d ∧ l.level s = false

variable {drives} {l : Latch σ δ} {d : δ}

omit [DecidableEq σ] [∀ s d, Decidable (drives s d)] in
theorem bounded_low : Bounded drives (low : Latch σ δ) d where
  up h := absurd h Bool.false_ne_true
  down _ h := h.imp fun _ hs => ⟨hs, rfl⟩

omit [∀ s d, Decidable (drives s d)] in
/-- A level that drives the sink and was at the value still is, after an update that is no
edge for the sink. -/
theorem level_of_no_edge {s : σ} {value : Bool} (h : ¬ (drives s d ∧ l.level s ≠ value)) {s' : σ}
    (hs : drives s' d) : Function.update l.level s value s' = l.level s' := by
  by_cases he : s' = s
  · subst he
    have hv : l.level s' = value := by
      by_contra hne
      exact h ⟨hs, hne⟩
    rw [Function.update_self, hv]
  · rw [Function.update_of_ne he]

theorem Bounded.set (h : Bounded drives l d) (s : σ) (value : Bool) :
    Bounded drives (l.set drives s value) d := by
  by_cases he : drives s d ∧ l.level s ≠ value
  · have hflag : (l.set drives s value).flag d = value := if_pos he
    have hlevel : (l.set drives s value).level s = value := Function.update_self ..
    constructor
    · intro hup
      exact ⟨s, he.1, hlevel.trans (hflag.symm.trans hup)⟩
    · intro hdown _
      exact ⟨s, he.1, hlevel.trans (hflag.symm.trans hdown)⟩
  · have hflag : (l.set drives s value).flag d = l.flag d := if_neg he
    constructor
    · intro hup
      obtain ⟨s', hs', hl⟩ := h.up (hflag ▸ hup)
      exact ⟨s', hs', (level_of_no_edge he hs').trans hl⟩
    · intro hdown hex
      obtain ⟨s', hs', hl⟩ := h.down (hflag ▸ hdown) hex
      exact ⟨s', hs', (level_of_no_edge he hs').trans hl⟩

omit [DecidableEq σ] [∀ s d, Decidable (drives s d)] in
theorem Bounded.up_of_all (h : Bounded drives l d) (hex : ∃ s, drives s d)
    (hall : ∀ s, drives s d → l.level s = true) : l.flag d = true := by
  by_contra hne
  obtain ⟨s, hs, hl⟩ := h.down (Bool.eq_false_iff.mpr hne) hex
  exact absurd ((hall s hs).symm.trans hl) (by simp)

end Latch
