import Mathlib.Data.List.Perm.Basic
import Mathlib.Data.List.SplitBy
import Mathlib.Data.List.TakeWhile

/-!
# Groups of a list

The maximal runs of neighbours with one key. Members of a group may change places: the groups stay
where they are.
-/

namespace Groups
set_option autoImplicit false

universe u v

variable {α : Type u} {κ : Type v}

/-- The key of a group. -/
def keyOf (key : α → κ) (group : List α) : Option κ := group.head?.map key

theorem keyOf_eq {key : α → κ} {group : List α} (h : group ≠ []) :
    keyOf key group = some (key (group.head h)) := by
  unfold keyOf
  rw [List.head?_eq_some_head h]
  rfl

/-- A list with one key has it in any order. -/
theorem keyOf_perm {key : α → κ} {g r : List α} (h : g.Perm r)
    (hone : ∀ a ∈ r, ∀ b ∈ r, key a = key b) : keyOf key g = keyOf key r := by
  cases g with
  | nil => rw [h.nil_eq]
  | cons a g =>
    cases r with
    | nil => exact absurd h.eq_nil (List.cons_ne_nil a g)
    | cons b r =>
      exact congrArg some (hone a (h.mem_iff.mp List.mem_cons_self) b List.mem_cons_self)

theorem map_keyOf_eq {key : α → κ} {gs rs : List (List α)} (h : List.Forall₂ List.Perm gs rs)
    (hone : ∀ r ∈ rs, ∀ a ∈ r, ∀ b ∈ r, key a = key b) :
    gs.map (keyOf key) = rs.map (keyOf key) := by
  induction h with
  | nil => rfl
  | cons hgr _ ih =>
    rw [List.map_cons, List.map_cons, keyOf_perm hgr (hone _ List.mem_cons_self)]
    exact congrArg (_ :: ·) (ih fun r hr => hone r (List.mem_cons_of_mem _ hr))

theorem exists_of_mem {β : Type u} {γ : Type v} {R : β → γ → Prop} {gs : List β} {rs : List γ}
    (h : List.Forall₂ R gs rs) {g : β} (hg : g ∈ gs) : ∃ r ∈ rs, R g r := by
  induction h with
  | nil => cases hg
  | cons hgr _ ih =>
    rcases List.mem_cons.mp hg with rfl | hg
    · exact ⟨_, List.mem_cons_self, hgr⟩
    · obtain ⟨r, hr, hgr⟩ := ih hg
      exact ⟨r, List.mem_cons_of_mem _ hr, hgr⟩

variable [DecidableEq κ] (key : α → κ)

/-- The groups, in the order of the list. -/
def groups (l : List α) : List (List α) := l.splitBy fun a b => decide (key a = key b)

variable {key}

theorem flatten_groups (l : List α) : (groups key l).flatten = l := List.flatten_splitBy _ l

theorem ne_nil_of_mem {l group : List α} (h : group ∈ groups key l) : group ≠ [] :=
  List.ne_nil_of_mem_splitBy h

/-- A list with one key is a group. -/
theorem groups_of_forall {a : α} {l : List α} (h : ∀ b ∈ l, key b = key a) :
    groups key (a :: l) = [a :: l] := by
  refine List.splitBy_of_isChain (List.cons_ne_nil a l) ?_
  have hpairwise : (a :: l).Pairwise fun x y => decide (key x = key y) = true := by
    refine List.pairwise_cons.mpr ⟨fun b hb => decide_eq_true (h b hb).symm, ?_⟩
    refine List.pairwise_of_forall_mem_list fun x hx y hy => ?_
    exact decide_eq_true ((h x hx).trans (h y hy).symm)
  exact hpairwise.isChain

/-- The first group and the others. -/
theorem groups_cons (a : α) (l : List α) :
    groups key (a :: l) = (a :: l.takeWhile (key · = key a)) ::
      groups key (l.dropWhile (key · = key a)) := by
  have hfirst : ∀ b ∈ l.takeWhile (key · = key a), key b = key a := by
    intro b hb
    have hkey := List.mem_takeWhile_imp hb
    exact of_decide_eq_true hkey
  have hlist : a :: l = (a :: l.takeWhile (key · = key a)) ++ l.dropWhile (key · = key a) := by
    rw [List.cons_append, List.takeWhile_append_dropWhile]
  conv_lhs => rw [hlist]
  unfold groups
  rw [List.splitBy_append]
  · rw [← List.singleton_append (l := List.splitBy _ _)]
    exact congrArg (· ++ _) (groups_of_forall hfirst)
  · intro x hx y hy
    have hxkey : key x = key a := by
      rcases List.mem_cons.mp (List.mem_of_mem_getLast? hx) with rfl | hx
      · rfl
      · exact hfirst x hx
    have hykey := List.head?_dropWhile_not (key · = key a) l
    rw [Option.mem_def.mp hy] at hykey
    rw [hxkey]
    exact decide_eq_false fun heq => of_decide_eq_false hykey heq.symm

/-- The members of a group have one key. -/
theorem key_eq_of_mem {l group : List α} (h : group ∈ groups key l) {a b : α} (ha : a ∈ group)
    (hb : b ∈ group) : key a = key b := by
  have hchain : group.IsChain fun x y => key x = key y :=
    (List.isChain_of_mem_splitBy h).imp fun x y hxy => of_decide_eq_true hxy
  have : IsTrans α fun x y => key x = key y := ⟨fun x y z => Eq.trans⟩
  have : Std.Symm fun x y : α => key x = key y := ⟨fun x y => Eq.symm⟩
  have hpairwise := List.isChain_iff_pairwise.mp hchain
  exact hpairwise.forall_of_forall (R := fun x y => key x = key y) (fun _ _ => rfl) ha hb

/-- Neighbouring groups have different keys, and that makes them groups. -/
theorem groups_flatten_of_keys {gs : List (List α)} (hnil : [] ∉ gs)
    (hone : ∀ group ∈ gs, ∀ a ∈ group, ∀ b ∈ group, key a = key b) :
    groups key gs.flatten = gs ↔ (gs.map (keyOf key)).IsChain (· ≠ ·) := by
  have hboundary {a b : List α} (ha : a ∈ gs) (hb : b ∈ gs) :
      (∃ (ha : a ≠ []) (hb : b ≠ []), decide (key (a.getLast ha) = key (b.head hb)) = false) ↔
        keyOf key a ≠ keyOf key b := by
    have hane : a ≠ [] := fun hnone => hnil (hnone ▸ ha)
    have hbne : b ≠ [] := fun hnone => hnil (hnone ▸ hb)
    have hlast := hone a ha _ (List.head_mem hane) _ (List.getLast_mem hane)
    rw [keyOf_eq hane, keyOf_eq hbne]
    constructor
    · rintro ⟨_, _, hdiffer⟩ heq
      exact of_decide_eq_false hdiffer (hlast.symm.trans (Option.some.inj heq))
    · intro hdiffer
      exact ⟨hane, hbne,
        decide_eq_false fun heq => hdiffer (congrArg some (hlast.trans heq))⟩
  rw [List.isChain_map]
  constructor
  · intro hgroups
    refine (List.splitBy_eq_iff.mp hgroups).2.2.2.imp_of_mem_imp fun a b ha hb h => ?_
    exact (hboundary ha hb).mp h
  · intro hchain
    refine List.splitBy_flatten hnil (fun group hgroup => ?_) ?_
    · refine List.Pairwise.isChain (List.pairwise_of_forall_mem_list fun x hx y hy => ?_)
      exact decide_eq_true (hone group hgroup x hx y hy)
    · exact hchain.imp_of_mem_imp fun a b ha hb h => (hboundary ha hb).mpr h

theorem nil_notMem_groups (l : List α) : [] ∉ groups key l := List.nil_notMem_splitBy _ l

/-- Changing places within the groups leaves the groups where they are. -/
theorem groups_flatten {l : List α} {gs : List (List α)}
    (h : List.Forall₂ List.Perm gs (groups key l)) : groups key gs.flatten = gs := by
  have hnil : [] ∉ gs := by
    intro hmem
    obtain ⟨old, hold, hperm⟩ := exists_of_mem h hmem
    exact ne_nil_of_mem hold hperm.nil_eq.symm
  have hone : ∀ group ∈ gs, ∀ a ∈ group, ∀ b ∈ group, key a = key b := by
    intro group hgroup a ha b hb
    obtain ⟨old, hold, hperm⟩ := exists_of_mem h hgroup
    exact key_eq_of_mem hold (hperm.mem_iff.mp ha) (hperm.mem_iff.mp hb)
  have hsame : ∀ group ∈ groups key l, ∀ a ∈ group, ∀ b ∈ group, key a = key b :=
    fun group hgroup a ha b hb => key_eq_of_mem hgroup ha hb
  have hkeys := map_keyOf_eq h hsame
  have hold : groups key (groups key l).flatten = groups key l :=
    congrArg (groups key) (flatten_groups l)
  rw [groups_flatten_of_keys (nil_notMem_groups l) hsame] at hold
  rw [groups_flatten_of_keys hnil hone, hkeys]
  exact hold

end Groups
