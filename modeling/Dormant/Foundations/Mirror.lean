import Mathlib.Data.List.Basic

/-!
# A mirror that is written to

Writes name a place and a value, and a place shows what the last write to it said. A source whose
values change keeps a mirror by writing each change behind the writes that are still under way.
`Settles` says that what is shown, with the writes under way, comes to the value that holds now;
`Honest` that the writes under way end at no other value; `Restores` that they come to that value
whatever is shown. A full copy restores when what follows it is honest.
-/

namespace Mirror
set_option autoImplicit false

universe u v

variable {τ : Type u} {ν : Type v} [DecidableEq τ]

/-- What a place shows after some writes. -/
def shownAfter (writes : List (τ × ν)) (t : τ) (shown : Option ν) : Option ν :=
  writes.foldl (fun shown w => if w.1 = t then some w.2 else shown) shown

def Settles (writes : List (τ × ν)) (t : τ) (shown now : Option ν) : Prop :=
  shownAfter writes t shown = now

def Honest (writes : List (τ × ν)) (t : τ) (now : Option ν) : Prop := shownAfter writes t now = now

def Restores (writes : List (τ × ν)) (t : τ) (now : Option ν) : Prop :=
  ∀ shown, shownAfter writes t shown = now

variable {ws news : List (τ × ν)} {t : τ} {shown now now' : Option ν}

theorem shownAfter_cons (w : τ × ν) (ws : List (τ × ν)) (t : τ) (shown : Option ν) :
    shownAfter (w :: ws) t shown = shownAfter ws t (if w.1 = t then some w.2 else shown) := rfl

theorem shownAfter_append (as bs : List (τ × ν)) (t : τ) (shown : Option ν) :
    shownAfter (as ++ bs) t shown = shownAfter bs t (shownAfter as t shown) := List.foldl_append

theorem shownAfter_of_notMem (h : ∀ w ∈ ws, w.1 ≠ t) (shown : Option ν) :
    shownAfter ws t shown = shown := by
  induction ws with
  | nil => rfl
  | cons w ws ih =>
    rw [shownAfter_cons, if_neg (h w List.mem_cons_self)]
    exact ih fun w' hw' => h w' (List.mem_cons_of_mem w hw')

/-- Writes that all say the same of a place leave it at that, or as it was. -/
theorem shownAfter_const {b : ν} (h : ∀ w ∈ ws, w.1 = t → w.2 = b) (shown : Option ν) :
    shownAfter ws t shown = some b ∨ (shownAfter ws t shown = shown ∧ ∀ w ∈ ws, w.1 ≠ t) := by
  induction ws generalizing shown with
  | nil => exact .inr ⟨rfl, by simp⟩
  | cons w ws ih =>
    have hrest := ih (fun w' hw' => h w' (List.mem_cons_of_mem w hw'))
    rw [shownAfter_cons]
    by_cases hw : w.1 = t
    · rw [if_pos hw, h w List.mem_cons_self hw]
      obtain hlast | ⟨hsame, -⟩ := hrest (some b)
      · exact .inl hlast
      · exact .inl hsame
    · rw [if_neg hw]
      obtain hlast | ⟨hsame, hnone⟩ := hrest shown
      · exact .inl hlast
      · refine .inr ⟨hsame, ?_⟩
        simpa using ⟨hw, fun a b hab => hnone (a, b) hab⟩

theorem restores_of_const {b : ν} (h : ∀ w ∈ ws, w.1 = t → w.2 = b) (hmem : ∃ w ∈ ws, w.1 = t) :
    Restores ws t (some b) := by
  intro shown
  obtain hlast | ⟨-, hnone⟩ := shownAfter_const h shown
  · exact hlast
  · obtain ⟨w, hw, ht⟩ := hmem
    exact absurd ht (hnone w hw)

/-- The writes decide what is shown, or they do not touch it. -/
theorem shownAfter_cases (ws : List (τ × ν)) (t : τ) :
    (∃ b, ∀ shown, shownAfter ws t shown = some b) ∨ ∀ shown, shownAfter ws t shown = shown := by
  induction ws with
  | nil => exact .inr fun _ => rfl
  | cons w ws ih =>
    obtain ⟨b, hb⟩ | hsame := ih
    · exact .inl ⟨b, fun shown => hb _⟩
    · by_cases hw : w.1 = t
      · refine .inl ⟨w.2, fun shown => ?_⟩
        rw [shownAfter_cons, hsame, if_pos hw]
      · refine .inr fun shown => ?_
        rw [shownAfter_cons, hsame, if_neg hw]

/-- Where a place is named after one key alone, it shows what the writes under that key say. -/
theorem shownAfter_map {κ : Type u} [DecidableEq κ] {ws : List (κ × ν)} {key : κ → τ} {k : κ}
    (h : ∀ w ∈ ws, key w.1 = key k → w.1 = k) (shown : Option ν) :
    shownAfter (ws.map fun w => (key w.1, w.2)) (key k) shown = shownAfter ws k shown := by
  induction ws generalizing shown with
  | nil => rfl
  | cons w ws ih =>
    have hrest := ih fun w' hw' => h w' (List.mem_cons_of_mem w hw')
    rw [List.map_cons, shownAfter_cons, shownAfter_cons, hrest]
    by_cases hw : w.1 = k
    · rw [if_pos (congrArg key hw), if_pos hw]
    · rw [if_neg fun hkey => hw (h w List.mem_cons_self hkey), if_neg hw]

/-! ## The source changes -/

theorem Settles.change (h : Settles ws t shown now) (hnews : shownAfter news t now = now') :
    Settles (ws ++ news) t shown now' := by
  rw [Settles, shownAfter_append, h, hnews]

theorem Restores.change (h : Restores ws t now) (hnews : shownAfter news t now = now') :
    Restores (ws ++ news) t now' :=
  fun shown => Settles.change (h shown) hnews

theorem Honest.change (h : Honest ws t now) (hnews : shownAfter news t now = now') :
    Honest (ws ++ news) t now' := by
  rw [Honest, shownAfter_append]
  obtain ⟨b, hb⟩ | hsame := shownAfter_cases news t
  · rw [hb, ← hnews, hb]
  · rw [hsame] at hnews ⊢
    rw [← hnews, h]

/-! ## Writes are lost, made, or copied -/

/-- Losing the oldest writes leaves the rest honest. -/
theorem Honest.drop {as : List (τ × ν)} (h : Honest (as ++ ws) t now) : Honest ws t now := by
  rw [Honest, shownAfter_append] at h
  obtain ⟨b, hb⟩ | hsame := shownAfter_cases ws t
  · rw [Honest, hb, ← h, hb]
  · exact hsame now

/-- A copy restores, and so do the honest writes behind it. -/
theorem Restores.follow (h : Restores ws t now) (hnews : Honest news t now) :
    Restores (ws ++ news) t now := by
  intro shown
  rw [shownAfter_append, h, hnews]

theorem Restores.behind (h : Restores ws t now) (as : List (τ × ν)) :
    Restores (as ++ ws) t now := by
  intro shown
  rw [shownAfter_append, h]

end Mirror
