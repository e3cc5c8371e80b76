import Mathlib.Data.List.Chain
import Mathlib.Data.List.Nodup
import Mathlib.Data.List.Rotate

/-!
# Serpentine walks

A grid is walked row by row, every other row backwards. Neighbours in the walk are neighbours in the
grid. A walk that is rotated so that it starts elsewhere, and closed, goes from its old end to its
old start at one place, the seam.
-/

namespace Serpentine
set_option autoImplicit false

universe u v

variable {α : Type u} {β : Type v}

def row (axis : List α) (backwards : Bool) : List α := if backwards then axis.reverse else axis

def serpentine (axis : List α) : Bool → List β → List (α × β)
  | _, [] => []
  | backwards, y :: ys => (row axis backwards).map (·, y) ++ serpentine axis (!backwards) ys

variable {axis : List α}

@[simp] theorem mem_row {backwards : Bool} {x : α} : x ∈ row axis backwards ↔ x ∈ axis := by
  cases backwards <;> simp [row]

@[simp] theorem row_eq_nil {backwards : Bool} : row axis backwards = [] ↔ axis = [] := by
  cases backwards <;> simp [row]

theorem head?_row (backwards : Bool) :
    (row axis backwards).head? = if backwards then axis.getLast? else axis.head? := by
  cases backwards <;> simp [row]

theorem getLast?_row (backwards : Bool) :
    (row axis backwards).getLast? = if backwards then axis.head? else axis.getLast? := by
  cases backwards <;> simp [row]

/-! ## What is visited -/

theorem mem_serpentine {backwards : Bool} {ys : List β} {p : α × β} :
    p ∈ serpentine axis backwards ys ↔ p.1 ∈ axis ∧ p.2 ∈ ys := by
  induction ys generalizing backwards with
  | nil => simp [serpentine]
  | cons y ys ih =>
    obtain ⟨x, z⟩ := p
    simp only [serpentine, List.mem_append, List.mem_map, mem_row, Prod.mk.injEq, List.mem_cons, ih]
    constructor
    · rintro (⟨w, hw, rfl, rfl⟩ | ⟨hx, hz⟩)
      · exact ⟨hw, .inl rfl⟩
      · exact ⟨hx, .inr hz⟩
    · rintro ⟨hx, rfl | hz⟩
      · exact .inl ⟨x, hx, rfl, rfl⟩
      · exact .inr ⟨hx, hz⟩

theorem nodup_serpentine {ys : List β} (haxis : axis.Nodup) (hys : ys.Nodup) (backwards : Bool) :
    (serpentine axis backwards ys).Nodup := by
  induction ys generalizing backwards with
  | nil => exact List.nodup_nil
  | cons y ys ih =>
    obtain ⟨hy, hys⟩ := List.nodup_cons.mp hys
    have hrow : ((row axis backwards).map (·, y)).Nodup := by
      refine List.Nodup.map (fun a b h => (Prod.mk.inj h).1) ?_
      cases backwards with
      | true => simpa [row] using haxis
      | false => simpa [row] using haxis
    refine List.nodup_append.mpr ⟨hrow, ih hys _, ?_⟩
    rintro p hp q hq rfl
    obtain ⟨x, -, rfl⟩ := List.mem_map.mp hp
    exact hy (mem_serpentine.mp hq).2

/-! ## Ends -/

theorem head?_serpentine (hne : axis ≠ []) (backwards : Bool) (y : β) (ys : List β) :
    (serpentine axis backwards (y :: ys)).head? =
      (if backwards then axis.getLast? else axis.head?).map (·, y) := by
  have hrow : (row axis backwards).map (·, y) ≠ [] := by simpa using hne
  rw [serpentine, List.head?_append_of_ne_nil _ hrow, List.head?_map, head?_row]

/-- The last row goes backwards when it is an even one of a walk that starts backwards, and so on. -/
theorem getLast?_serpentine (hne : axis ≠ []) {ys : List β} {y : β} (backwards : Bool) :
    (serpentine axis backwards (ys ++ [y])).getLast? =
      (if (backwards ^^ decide (ys.length % 2 = 1)) then axis.head? else axis.getLast?).map
        (·, y) := by
  induction ys generalizing backwards with
  | nil =>
    simp [serpentine, List.getLast?_map, getLast?_row]
  | cons z ys ih =>
    have hrest : serpentine axis (!backwards) (ys ++ [y]) ≠ [] := by
      intro h
      obtain ⟨x, hx⟩ := List.exists_mem_of_ne_nil axis hne
      have hmem : (x, y) ∈ serpentine axis (!backwards) (ys ++ [y]) :=
        mem_serpentine.mpr ⟨hx, by simp⟩
      rw [h] at hmem
      cases hmem
    rw [List.cons_append, serpentine, List.getLast?_append_of_ne_nil _ hrest, ih]
    have hparity : ((!backwards) ^^ decide (ys.length % 2 = 1)) =
        (backwards ^^ decide ((z :: ys).length % 2 = 1)) := by
      rw [List.length_cons]
      rcases Nat.mod_two_eq_zero_or_one ys.length with h | h
      · have h' : (ys.length + 1) % 2 = 1 := by omega
        cases backwards <;> simp [h, h']
      · have h' : (ys.length + 1) % 2 = 0 := by omega
        cases backwards <;> simp [h, h']
    rw [hparity]

/-! ## Neighbours -/

/-- One step along a row, or along a column. -/
def Beside (R : α → α → Prop) (Q : β → β → Prop) (p q : α × β) : Prop :=
  R p.1 q.1 ∧ p.2 = q.2 ∨ p.1 = q.1 ∧ Q p.2 q.2

theorem isChain_row {R : α → α → Prop} (hsymm : ∀ a b, R a b → R b a) (hchain : axis.IsChain R)
    (backwards : Bool) : (row axis backwards).IsChain R := by
  cases backwards with
  | false => exact hchain
  | true => exact List.isChain_reverse.mpr (hchain.imp fun a b h => hsymm a b h)

theorem isChain_serpentine {R : α → α → Prop} {Q : β → β → Prop} (hsymm : ∀ a b, R a b → R b a)
    (hne : axis ≠ []) (hchain : axis.IsChain R) {ys : List β} (hys : ys.IsChain Q)
    (backwards : Bool) : (serpentine axis backwards ys).IsChain (Beside R Q) := by
  induction ys generalizing backwards with
  | nil => exact List.isChain_nil
  | cons y ys ih =>
    obtain ⟨hhead, hys⟩ := List.isChain_cons.mp hys
    rw [serpentine, List.isChain_append]
    refine ⟨?_, ih hys _, ?_⟩
    · rw [List.isChain_map]
      exact (isChain_row hsymm hchain backwards).imp fun a b h => .inl ⟨h, rfl⟩
    · -- the turn: the next row starts where this one ends
      intro p hp q hq
      cases ys with
      | nil => cases hq
      | cons z ys =>
        rw [head?_serpentine hne] at hq
        rw [List.getLast?_map, getLast?_row] at hp
        have hflip : (if (!backwards) = true then axis.getLast? else axis.head?) =
            if backwards = true then axis.head? else axis.getLast? := by
          cases backwards <;> rfl
        rw [hflip] at hq
        obtain ⟨x, hx, rfl⟩ := Option.map_eq_some_iff.mp hp
        obtain ⟨x', hx', rfl⟩ := Option.map_eq_some_iff.mp hq
        rw [hx] at hx'
        cases hx'
        exact .inr ⟨rfl, hhead z rfl⟩

/-! ## Closing a rotated walk -/

/-- From the end of the walk to its start. -/
def Seam (l : List α) (p q : α) : Prop := l.getLast? = some p ∧ l.head? = some q

theorem isChain_closed {R : α → α → Prop} {before after : List α} {x : α}
    (hchain : (before ++ x :: after).IsChain R) :
    ((x :: after) ++ before ++ [x]).IsChain fun p q =>
      R p q ∨ Seam (before ++ x :: after) p q := by
  obtain ⟨hbefore, hafter, hjoin⟩ := List.isChain_append.mp hchain
  have hlast : (before ++ x :: after).getLast? = (x :: after).getLast? :=
    List.getLast?_append_of_ne_nil _ (by simp)
  rw [List.append_assoc, List.isChain_append]
  refine ⟨hafter.imp fun p q h => .inl h, ?_, ?_⟩
  · rw [List.isChain_append]
    refine ⟨hbefore.imp fun p q h => .inl h, List.isChain_singleton _, ?_⟩
    intro p hp q hq
    exact .inl (hjoin p hp q (by simpa using hq))
  · intro p hp q hq
    refine .inr ⟨hlast.trans hp, ?_⟩
    cases before with
    | nil => simpa using hq
    | cons b before => simpa using hq

/-- The seam is in the closed walk when the walk does not start at its new start. -/
theorem seam_mem {before after : List α} {x p q : α} (hne : before ≠ [])
    (hseam : Seam (before ++ x :: after) p q) :
    ∃ l r, (x :: after) ++ before ++ [x] = l ++ p :: q :: r := by
  obtain ⟨hp, hq⟩ := hseam
  rw [List.getLast?_append_of_ne_nil _ (by simp)] at hp
  obtain ⟨l, hl⟩ := List.getLast?_eq_some_iff.mp hp
  rw [List.head?_append_of_ne_nil _ hne] at hq
  obtain ⟨r, rfl⟩ := List.head?_eq_some_iff.mp hq
  exact ⟨l, r ++ [x], by rw [hl]; simp⟩

end Serpentine
