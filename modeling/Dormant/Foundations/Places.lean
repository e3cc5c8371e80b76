import Mathlib.Data.List.Basic

/-!
# Places in a tree

A tree is given by its labelled children, and a place is a path of labels. An update at a place may
change what stands above and below it; `SameOff` says that it changes nothing else.
-/

set_option autoImplicit false

universe u v

/-! ## Ordered entries -/

namespace Entries

variable {κ : Type u} {α : Type v} [DecidableEq κ] {k k' : κ} {a : α} {entries : List (κ × α)}

/-- The entry of a key, at its old position, or at the end. -/
def put (k : κ) (a : α) : List (κ × α) → List (κ × α)
  | [] => [(k, a)]
  | entry :: entries => if entry.1 = k then (k, a) :: entries else entry :: put k a entries

def drop (k : κ) (entries : List (κ × α)) : List (κ × α) := entries.filter (·.1 ≠ k)

/-- An entry is found by its key when no other has it. -/
theorem find?_of_nodup {key : α → κ} {entries : List α} (h : (entries.map key).Nodup) {a : α}
    (ha : a ∈ entries) : entries.find? (key · == key a) = some a := by
  induction entries with
  | nil => cases ha
  | cons first entries ih =>
    rw [List.map_cons, List.nodup_cons] at h
    rcases List.mem_cons.mp ha with rfl | ha
    · exact List.find?_cons_of_pos BEq.rfl
    · have hne : key first ≠ key a := by
        intro heq
        exact h.1 (heq ▸ List.mem_map_of_mem ha)
      rw [List.find?_cons_of_neg (by simpa using hne)]
      exact ih h.2 ha

theorem lookup_of_mem (h : (entries.map Prod.fst).Nodup) (hk : (k, a) ∈ entries) :
    entries.lookup k = some a := by
  induction entries with
  | nil => cases hk
  | cons entry entries ih =>
    rw [List.map_cons, List.nodup_cons] at h
    rw [List.lookup_cons]
    rcases List.mem_cons.mp hk with rfl | hk
    · simp
    · have hne : k ≠ entry.1 := by
        rintro rfl
        exact h.1 (List.mem_map.mpr ⟨_, hk, rfl⟩)
      rw [beq_false_of_ne hne]
      exact ih h.2 hk

@[simp] theorem lookup_put_self : (put k a entries).lookup k = some a := by
  induction entries with
  | nil => exact List.lookup_cons_self
  | cons entry entries ih =>
    unfold put
    split
    · exact List.lookup_cons_self
    · rename_i hkey
      rw [List.lookup_cons, beq_false_of_ne (Ne.symm hkey)]
      exact ih

theorem lookup_put_of_ne (h : k' ≠ k) : (put k a entries).lookup k' = entries.lookup k' := by
  induction entries with
  | nil => rw [put, List.lookup_cons, beq_false_of_ne h]
  | cons entry entries ih =>
    unfold put
    split
    · rename_i hkey
      rw [List.lookup_cons, List.lookup_cons, hkey, beq_false_of_ne h]
    · rw [List.lookup_cons, List.lookup_cons, ih]

@[simp] theorem lookup_drop_self : (drop k entries).lookup k = none := by
  rw [List.lookup_eq_none_iff]
  intro entry hmem
  have hkey : entry.1 ≠ k := of_decide_eq_true (List.mem_filter.mp hmem).2
  exact bne_iff_ne.mpr hkey.symm

theorem lookup_drop_of_ne (h : k' ≠ k) : (drop k entries).lookup k' = entries.lookup k' := by
  induction entries with
  | nil => rfl
  | cons entry entries ih =>
    unfold drop at ih ⊢
    by_cases hkey : entry.1 = k
    · rw [List.filter_cons_of_neg (by simpa using hkey), ih, List.lookup_cons, hkey,
        beq_false_of_ne h]
    · rw [List.filter_cons_of_pos (by simpa using hkey), List.lookup_cons, List.lookup_cons, ih]

/-- A key that is new comes last. -/
theorem put_of_not_mem (h : k ∉ entries.map Prod.fst) : put k a entries = entries ++ [(k, a)] := by
  induction entries with
  | nil => rfl
  | cons entry entries ih =>
    rw [List.map_cons, List.mem_cons, not_or] at h
    rw [put, if_neg (Ne.symm h.1), ih h.2, List.cons_append]

end Entries

/-! ## Trees and places -/

namespace Places

variable {τ : Type u} {σ : Type v} (child : τ → σ → Option τ)

/-- What stands at a place. -/
def find : τ → List σ → Option τ
  | t, [] => some t
  | t, s :: place => (child t s).bind (find · place)

/-- One of the places is above the other, or the same. -/
def Overlap (p q : List σ) : Prop := p <+: q ∨ q <+: p

/-- The trees agree wherever the place is neither above nor below. -/
def SameOff (place : List σ) (a b : τ) : Prop :=
  ∀ p, ¬ Overlap p place → find child b p = find child a p

variable {child} {t a b : τ} {s : σ} {p q : List σ}

@[simp] theorem find_nil : find child t [] = some t := rfl

theorem find_cons : find child t (s :: p) = (child t s).bind (find child · p) := rfl

theorem find_append : find child t (p ++ q) = (find child t p).bind (find child · q) := by
  induction p generalizing t with
  | nil => rfl
  | cons s p ih =>
    rw [List.cons_append, find_cons, find_cons]
    cases child t s with
    | none => rfl
    | some t' => exact ih

/-- What stands above something stands there. -/
theorem find_isSome_above (hpq : p <+: q) (h : (find child t q).isSome) :
    (find child t p).isSome := by
  obtain ⟨rest, rfl⟩ := hpq
  rw [find_append] at h
  exact Option.isSome_of_isSome_bind h

theorem Overlap.symm (h : Overlap p q) : Overlap q p := Or.symm h

theorem Overlap.above {r : List σ} (h : Overlap (p ++ q) r) : Overlap p r := by
  obtain h | h := h
  · exact .inl ((List.prefix_append p q).trans h)
  · exact List.prefix_or_prefix_of_prefix (List.prefix_append p q) h

theorem overlap_nil (p : List σ) : Overlap [] p := .inl List.nil_prefix

theorem overlap_cons : Overlap (s :: p) (s :: q) ↔ Overlap p q := by
  unfold Overlap
  rw [List.prefix_cons_inj, List.prefix_cons_inj]

/-- An update below a child. The child may be new, in place of one that holds nothing. -/
theorem SameOff.cons {place : List σ} {a' b' : τ} (hb : child b s = some b')
    (ha : ∀ p, p ≠ [] → (child a s).bind (find child · p) = find child a' p)
    (hothers : ∀ s', s' ≠ s → child b s' = child a s') (h : SameOff child place a' b') :
    SameOff child (s :: place) a b := by
  intro p hp
  cases p with
  | nil => exact absurd (overlap_nil _) hp
  | cons s' p =>
    rw [find_cons, find_cons]
    by_cases hs : s' = s
    · subst hs
      rw [overlap_cons] at hp
      have hne : p ≠ [] := by
        rintro rfl
        exact hp (overlap_nil _)
      rw [hb, Option.bind_some, ha p hne]
      exact h p hp
    · rw [hothers s' hs]

/-- An update of a child. -/
theorem SameOff.of_children (hothers : ∀ s', s' ≠ s → child b s' = child a s') :
    SameOff child [s] a b := by
  intro p hp
  cases p with
  | nil => exact absurd (overlap_nil _) hp
  | cons s' p =>
    rw [find_cons, find_cons]
    by_cases hs : s' = s
    · subst hs
      exact absurd (overlap_cons.mpr (overlap_nil p).symm) hp
    · rw [hothers s' hs]

end Places
