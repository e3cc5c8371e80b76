import Mathlib.Data.List.Basic

/-!
# Loops over shared targets

A loop visits some targets, and may visit one of them several times. `Hit` says what a visit
does to a target and `Miss` what happens to the others. When a second visit adds nothing to
the first, a loop of visits is a visit of all its targets.
-/

namespace Visits
set_option autoImplicit false

universe u v w

/-- What a visit does to its target, and to a target that it passes by. -/
structure Manner (δ : Type u) (σ : Type v) where
  Hit : δ → σ → σ → Prop
  Miss : δ → σ → σ → Prop
  refl : ∀ d s, Miss d s s
  trans : ∀ {d s s' s''}, Miss d s s' → Miss d s' s'' → Miss d s s''
  hit_after : ∀ {d s s' s''}, Miss d s s' → Hit d s' s'' → Hit d s s''
  hit_before : ∀ {d s s' s''}, Hit d s s' → Miss d s' s'' → Hit d s s''
  hit_again : ∀ {d s s' s''}, Hit d s s' → Hit d s' s'' → Hit d s s''

variable {δ : Type u} {σ : Type v} {α : Type w} {m : Manner δ σ} {K : σ → Prop}

/-- Along an invariant, each turn hits its own targets and passes by the others. -/
structure Reaches (m : Manner δ σ) (K : σ → Prop) (f : σ → α → σ) (T : α → δ → Prop) :
    Prop where
  keeps : ∀ s a, K s → K (f s a)
  hit : ∀ s a d, K s → T a d → m.Hit d s (f s a)
  miss : ∀ s a d, K s → ¬ T a d → m.Miss d s (f s a)

variable {f g : σ → α → σ} {T T' : α → δ → Prop}

theorem Reaches.keeps_foldl (h : Reaches m K f T) (l : List α) {s : σ} (hs : K s) :
    K (l.foldl f s) := by
  induction l generalizing s with
  | nil => exact hs
  | cons a l ih => exact ih (h.keeps s a hs)

theorem Reaches.miss_foldl (h : Reaches m K f T) {d : δ} (l : List α) {s : σ} (hs : K s)
    (hT : ¬ ∃ a ∈ l, T a d) : m.Miss d s (l.foldl f s) := by
  induction l generalizing s with
  | nil => exact m.refl d s
  | cons a l ih =>
    simp only [List.exists_mem_cons_iff, not_or] at hT
    exact m.trans (h.miss s a d hs hT.1) (ih (h.keeps s a hs) hT.2)

theorem Reaches.foldl (h : Reaches m K f T) :
    Reaches m K (fun s (l : List α) => l.foldl f s) (fun l d => ∃ a ∈ l, T a d) where
  keeps _ l hs := h.keeps_foldl l hs
  miss _ l _ hs hT := h.miss_foldl l hs hT
  hit s l d := by
    intro hs hT
    induction l generalizing s with
    | nil => simp at hT
    | cons a l ih =>
      have hs' := h.keeps s a hs
      by_cases hlast : ∃ b ∈ l, T b d
      · by_cases ha : T a d
        · exact m.hit_again (h.hit s a d hs ha) (ih (f s a) hs' hlast)
        · exact m.hit_after (h.miss s a d hs ha) (ih (f s a) hs' hlast)
      · have ha : T a d := ((List.exists_mem_cons_iff _ _ _).mp hT).resolve_right hlast
        exact m.hit_before (h.hit s a d hs ha) (h.miss_foldl l hs' hlast)

theorem Reaches.congr (h : Reaches m K f T) (hg : ∀ s a, K s → g s a = f s a)
    (hT : ∀ a d, T' a d ↔ T a d) : Reaches m K g T' where
  keeps s a hs := by
    rw [hg s a hs]
    exact h.keeps s a hs
  hit s a d hs ht := by
    rw [hg s a hs]
    exact h.hit s a d hs ((hT a d).mp ht)
  miss s a d hs ht := by
    rw [hg s a hs]
    exact h.miss s a d hs fun hT' => ht ((hT a d).mpr hT')

theorem Reaches.comap {β : Type w} (h : Reaches m K f T) (k : β → α) :
    Reaches m K (fun s b => f s (k b)) (fun b d => T (k b) d) where
  keeps s b hs := h.keeps s (k b) hs
  hit s b d hs ht := h.hit s (k b) d hs ht
  miss s b d hs ht := h.miss s (k b) d hs ht

/-- Something that no target notices may come first. -/
theorem Reaches.after (h : Reaches m K f T) {p : σ → α → σ} (hp : ∀ s a, K s → K (p s a))
    (hmiss : ∀ s a d, K s → m.Miss d s (p s a)) :
    Reaches m K (fun s a => f (p s a) a) T where
  keeps s a hs := h.keeps _ a (hp s a hs)
  hit s a d hs ht := m.hit_after (hmiss s a d hs) (h.hit _ a d (hp s a hs) ht)
  miss s a d hs ht := m.trans (hmiss s a d hs) (h.miss _ a d (hp s a hs) ht)

end Visits
