import Mathlib.Data.Finset.Card
import Mathlib.Data.List.Basic

/-!
# Vouchers

In a log some events issue a voucher for a key, some spend one, and some void those of a key.
`Honoured` says that every spending has a voucher of its own, issued before it and not voided
since. `Held` says in addition how many each key has left to spend.
-/

namespace Vouchers
set_option autoImplicit false

universe u v

structure Roles (ε : Type u) (κ : Type v) where
  issues : ε → κ → Prop
  spends : ε → κ → Prop
  voids : ε → κ → Prop

variable {ε : Type u} {κ : Type v} {R : Roles ε κ}

/-- Issued at `j`, and not voided before `n`. -/
def Good (R : Roles ε κ) (log : List ε) (j n : ℕ) (k : κ) : Prop :=
  (∃ e, log[j]? = some e ∧ R.issues e k) ∧
    ∀ m e, j < m → m < n → log[m]? = some e → ¬ R.voids e k

structure Honoured (R : Roles ε κ) (log : List ε) (voucher : ℕ → ℕ) : Prop where
  backed : ∀ i e k, log[i]? = some e → R.spends e k →
    voucher i < i ∧ Good R log (voucher i) i k
  once : ∀ i i' e e' k k', log[i]? = some e → R.spends e k → log[i']? = some e' →
    R.spends e' k' → voucher i = voucher i' → i = i'

/-- The voucher at `j` is not spent. -/
def Unspent (R : Roles ε κ) (log : List ε) (voucher : ℕ → ℕ) (j : ℕ) : Prop :=
  ∀ i e k, log[i]? = some e → R.spends e k → voucher i ≠ j

def Held (R : Roles ε κ) (log : List ε) (count : κ → ℕ) : Prop :=
  ∃ voucher, Honoured R log voucher ∧
    ∀ k, ∃ left : Finset ℕ, count k ≤ left.card ∧
      ∀ j ∈ left, Good R log j log.length k ∧ Unspent R log voucher j

theorem lt_of_getElem? {log : List ε} {i : ℕ} {e : ε} (h : log[i]? = some e) : i < log.length :=
  (List.getElem?_eq_some_iff.mp h).1

theorem getElem?_before {log : List ε} {i : ℕ} (later : List ε) (hi : i < log.length) :
    (log ++ later)[i]? = log[i]? :=
  List.getElem?_append_left hi

theorem getElem?_concat {log : List ε} {e e' : ε} {i : ℕ} (h : (log ++ [e])[i]? = some e') :
    i < log.length ∧ log[i]? = some e' ∨ i = log.length ∧ e = e' := by
  have hlt := lt_of_getElem? h
  rw [List.length_append, List.length_singleton] at hlt
  by_cases hi : i < log.length
  · rw [getElem?_before [e] hi] at h
    exact .inl ⟨hi, h⟩
  · have heq : i = log.length := by omega
    subst heq
    rw [List.getElem?_append_right (le_refl _), Nat.sub_self] at h
    exact .inr ⟨rfl, Option.some.inj h⟩

theorem Good.lt {log : List ε} {j n : ℕ} {k : κ} (h : Good R log j n k) : j < log.length := by
  obtain ⟨⟨e, he, -⟩, -⟩ := h
  exact lt_of_getElem? he

theorem Good.append {log : List ε} {j n : ℕ} {k : κ} (h : Good R log j n k)
    (hn : n ≤ log.length) (later : List ε) : Good R (log ++ later) j n k := by
  have hj := h.lt
  refine ⟨?_, fun m e hjm hmn he => ?_⟩
  · rw [getElem?_before later hj]
    exact h.1
  · rw [getElem?_before later (hmn.trans_le hn)] at he
    exact h.2 m e hjm hmn he

/-- An event that does not void it leaves a voucher good. -/
theorem Good.concat {log : List ε} {j : ℕ} {k : κ} (h : Good R log j log.length k) {e : ε}
    (he : ¬ R.voids e k) : Good R (log ++ [e]) j (log ++ [e]).length k := by
  have hj := h.lt
  refine ⟨?_, fun m e' hjm _ hm => ?_⟩
  · rw [getElem?_before [e] hj]
    exact h.1
  · rcases getElem?_concat hm with ⟨hlt, hm⟩ | ⟨-, rfl⟩
    · exact h.2 m e' hjm hlt hm
    · exact he

theorem held_nil (R : Roles ε κ) : Held R [] fun _ => 0 := by
  refine ⟨id, ⟨?_, ?_⟩, fun k => ⟨∅, Nat.zero_le _, ?_⟩⟩
  · intro i e k he
    cases he
  · intro i i' e e' k k' he
    cases he
  · intro j hj
    cases hj

theorem Held.mono {log : List ε} {count count' : κ → ℕ} (h : Held R log count)
    (hle : ∀ k, count' k ≤ count k) : Held R log count' := by
  obtain ⟨voucher, hhonoured, hheld⟩ := h
  refine ⟨voucher, hhonoured, fun k => ?_⟩
  obtain ⟨left, hcard, hgood⟩ := hheld k
  exact ⟨left, (hle k).trans hcard, hgood⟩

theorem Honoured.quiet {log : List ε} {voucher : ℕ → ℕ} (h : Honoured R log voucher) {e : ε}
    (hspends : ∀ k, ¬ R.spends e k) : Honoured R (log ++ [e]) voucher := by
  refine ⟨fun i e' k hi hk => ?_, fun i i' e' e'' k k' hi hk hi' hk' hsame => ?_⟩
  · rcases getElem?_concat hi with ⟨hlt, hi⟩ | ⟨-, rfl⟩
    · obtain ⟨hbefore, hgood⟩ := h.backed i e' k hi hk
      exact ⟨hbefore, hgood.append hlt.le [e]⟩
    · exact absurd hk (hspends k)
  · rcases getElem?_concat hi with ⟨-, hi⟩ | ⟨-, rfl⟩
    · rcases getElem?_concat hi' with ⟨-, hi'⟩ | ⟨-, rfl⟩
      · exact h.once i i' e' e'' k k' hi hk hi' hk' hsame
      · exact absurd hk' (hspends k')
    · exact absurd hk (hspends k)

theorem Unspent.quiet {log : List ε} {voucher : ℕ → ℕ} {j : ℕ} (h : Unspent R log voucher j)
    {e : ε} (hspends : ∀ k, ¬ R.spends e k) : Unspent R (log ++ [e]) voucher j := by
  intro i e' k hi hk
  rcases getElem?_concat hi with ⟨-, hi⟩ | ⟨-, rfl⟩
  · exact h i e' k hi hk
  · exact absurd hk (hspends k)

/-- An event that neither spends nor voids. -/
theorem Held.quiet {log : List ε} {count : κ → ℕ} (h : Held R log count) {e : ε}
    (hspends : ∀ k, ¬ R.spends e k) (hvoids : ∀ k, ¬ R.voids e k) : Held R (log ++ [e]) count := by
  obtain ⟨voucher, hhonoured, hheld⟩ := h
  refine ⟨voucher, hhonoured.quiet hspends, fun k => ?_⟩
  obtain ⟨left, hcard, hgood⟩ := hheld k
  refine ⟨left, hcard, fun j hj => ?_⟩
  exact ⟨(hgood j hj).1.concat (hvoids k), (hgood j hj).2.quiet hspends⟩

theorem Held.quiets {log : List ε} {count : κ → ℕ} (h : Held R log count) {later : List ε}
    (hquiet : ∀ e ∈ later, ∀ k, ¬ R.spends e k ∧ ¬ R.voids e k) :
    Held R (log ++ later) count := by
  induction later generalizing log with
  | nil => simpa using h
  | cons e later ih =>
    have hfirst := hquiet e List.mem_cons_self
    have hrest := ih (h.quiet (fun k => (hfirst k).1) fun k => (hfirst k).2)
      fun e' he' => hquiet e' (List.mem_cons_of_mem _ he')
    rwa [List.append_assoc] at hrest

/-- An event that voids what a key has. -/
theorem Held.void [DecidableEq κ] {log : List ε} {count : κ → ℕ} (h : Held R log count) {e : ε}
    {k : κ} (hspends : ∀ k, ¬ R.spends e k) (hvoids : ∀ k', R.voids e k' → k' = k) :
    Held R (log ++ [e]) (Function.update count k 0) := by
  obtain ⟨voucher, hhonoured, hheld⟩ := h
  refine ⟨voucher, hhonoured.quiet hspends, fun k' => ?_⟩
  by_cases hk : k' = k
  · subst hk
    rw [Function.update_self]
    refine ⟨∅, Nat.zero_le _, fun j hj => ?_⟩
    cases hj
  · rw [Function.update_of_ne hk]
    obtain ⟨left, hcard, hgood⟩ := hheld k'
    refine ⟨left, hcard, fun j hj => ?_⟩
    exact ⟨(hgood j hj).1.concat fun hvoid => hk (hvoids k' hvoid), (hgood j hj).2.quiet hspends⟩

/-- An event that issues a voucher. -/
theorem Held.issue [DecidableEq κ] {log : List ε} {count : κ → ℕ} (h : Held R log count) {e : ε}
    {k : κ} (hspends : ∀ k, ¬ R.spends e k) (hvoids : ∀ k, ¬ R.voids e k)
    (hissues : R.issues e k) : Held R (log ++ [e]) (Function.update count k (count k + 1)) := by
  obtain ⟨voucher, hhonoured, hheld⟩ := h
  refine ⟨voucher, hhonoured.quiet hspends, fun k' => ?_⟩
  obtain ⟨left, hcard, hgood⟩ := hheld k'
  have hkept : ∀ j ∈ left, Good R (log ++ [e]) j (log ++ [e]).length k' ∧
      Unspent R (log ++ [e]) voucher j := fun j hj =>
    ⟨(hgood j hj).1.concat (hvoids k'), (hgood j hj).2.quiet hspends⟩
  by_cases hk : k' = k
  · subst hk
    rw [Function.update_self]
    have hnew : log.length ∉ left := fun hmem => lt_irrefl _ (hgood _ hmem).1.lt
    refine ⟨insert log.length left, ?_, fun j hj => ?_⟩
    · rw [Finset.card_insert_of_notMem hnew]
      omega
    · rcases Finset.mem_insert.mp hj with rfl | hj
      · refine ⟨⟨⟨e, by simp, hissues⟩, fun m e' hm hlt => ?_⟩, ?_⟩
        · rw [List.length_append, List.length_singleton] at hlt
          omega
        · intro i e' k hi hk hsame
          rcases getElem?_concat hi with ⟨hlt, hi⟩ | ⟨-, rfl⟩
          · have hbefore := (hhonoured.backed i e' k hi hk).1
            omega
          · exact absurd hk (hspends k)
      · exact hkept j hj
  · rw [Function.update_of_ne hk]
    exact ⟨left, hcard, hkept⟩

/-- An event that spends one. -/
theorem Held.spend [DecidableEq κ] {log : List ε} {count : κ → ℕ} (h : Held R log count) {e : ε}
    {k : κ} (hspends : ∀ k', R.spends e k' → k' = k) (hvoids : ∀ k', ¬ R.voids e k')
    (hissues : ∀ e k k', R.issues e k → R.issues e k' → k = k') (hk : 0 < count k) :
    Held R (log ++ [e]) (Function.update count k (count k - 1)) := by
  obtain ⟨voucher, hhonoured, hheld⟩ := h
  obtain ⟨left, hcard, hleft⟩ := hheld k
  obtain ⟨j, hj⟩ := Finset.card_pos.mp (hk.trans_le hcard)
  obtain ⟨hgood, hunspent⟩ := hleft j hj
  have hsame {i : ℕ} (hi : i < log.length) : Function.update voucher log.length j i = voucher i :=
    Function.update_of_ne (by omega) _ _
  have hlast : Function.update voucher log.length j log.length = j := Function.update_self _ _ _
  have hkept {j' : ℕ} {k' : κ} (hgood' : Good R log j' log.length k')
      (hunspent' : Unspent R log voucher j') (hne : j' ≠ j) :
      Good R (log ++ [e]) j' (log ++ [e]).length k' ∧
        Unspent R (log ++ [e]) (Function.update voucher log.length j) j' := by
    refine ⟨hgood'.concat (hvoids k'), fun i e' k'' hi hk'' => ?_⟩
    rcases getElem?_concat hi with ⟨hlt, hi⟩ | ⟨rfl, rfl⟩
    · rw [hsame hlt]
      exact hunspent' i e' k'' hi hk''
    · rw [hlast]
      exact hne.symm
  refine ⟨Function.update voucher log.length j, ⟨?_, ?_⟩, fun k' => ?_⟩
  · intro i e' k' hi hk'
    rcases getElem?_concat hi with ⟨hlt, hi⟩ | ⟨rfl, rfl⟩
    · rw [hsame hlt]
      obtain ⟨hbefore, hgood'⟩ := hhonoured.backed i e' k' hi hk'
      exact ⟨hbefore, hgood'.append hlt.le [e]⟩
    · rw [hlast, hspends k' hk']
      exact ⟨hgood.lt, hgood.append le_rfl [e]⟩
  · intro i i' e' e'' k' k'' hi hk' hi' hk'' hvoucher
    rcases getElem?_concat hi with ⟨hlt, hi⟩ | ⟨rfl, rfl⟩
    · rcases getElem?_concat hi' with ⟨hlt', hi'⟩ | ⟨rfl, rfl⟩
      · rw [hsame hlt, hsame hlt'] at hvoucher
        exact hhonoured.once i i' e' e'' k' k'' hi hk' hi' hk'' hvoucher
      · rw [hsame hlt, hlast] at hvoucher
        exact absurd hvoucher (hunspent i e' k' hi hk')
    · rcases getElem?_concat hi' with ⟨hlt', hi'⟩ | ⟨rfl, rfl⟩
      · rw [hsame hlt', hlast] at hvoucher
        exact absurd hvoucher.symm (hunspent i' e'' k'' hi' hk'')
      · rfl
  · by_cases hkey : k' = k
    · subst hkey
      rw [Function.update_self]
      refine ⟨left.erase j, ?_, fun j' hj' => ?_⟩
      · rw [Finset.card_erase_of_mem hj]
        omega
      · obtain ⟨hne, hmem⟩ := Finset.mem_erase.mp hj'
        exact hkept (hleft j' hmem).1 (hleft j' hmem).2 hne
    · rw [Function.update_of_ne hkey]
      obtain ⟨left', hcard', hleft'⟩ := hheld k'
      refine ⟨left', hcard', fun j' hj' => hkept (hleft' j' hj').1 (hleft' j' hj').2 ?_⟩
      rintro rfl
      obtain ⟨⟨e₁, he₁, hk₁⟩, -⟩ := hgood
      obtain ⟨⟨e₂, he₂, hk₂⟩, -⟩ := (hleft' j' hj').1
      rw [he₁, Option.some.injEq] at he₂
      subst he₂
      exact hkey (hissues e₁ k' k hk₂ hk₁)

end Vouchers
