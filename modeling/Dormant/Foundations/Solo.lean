import Dormant.Foundations.Threads

/-!
# A task on its own

What a task comes to when no other task runs: the calls that it waits at with their replies, the
state that it leaves, and its result. The surroundings may change the state while it waits.
-/

namespace Tasks
set_option autoImplicit false

variable {κ ε σ Q ι α β γ : Type} {ρ : ι → Type}

/-- A call that was waited at, and its reply. -/
structure Answered (ι : Type) (ρ : ι → Type) where
  call : ι
  reply : ρ call

namespace Scheme
variable (S : Scheme κ ε σ Q ι ρ α)

inductive Solo (around : σ → σ → Prop) :
    Task ι ρ β → σ → List (Answered ι ρ) → σ → β → Prop
  | done (a : β) (s : σ) : Solo around (.done a) s [] s a
  | acted {i : ι} {resume : ρ i → Task ι ρ β} {f : σ → σ × ρ i} {s s' : σ}
      {calls : List (Answered ι ρ)} {a : β} (hact : S.act i = some f)
      (h : Solo around (resume (f s).2) (f s).1 calls s' a) :
      Solo around (.call i resume) s calls s' a
  | waited {i : ι} {resume : ρ i → Task ι ρ β} {s s₁ s' : σ} (r : ρ i)
      {calls : List (Answered ι ρ)} {a : β} (hwait : S.act i = none) (haround : around s s₁)
      (h : Solo around (resume r) s₁ calls s' a) :
      Solo around (.call i resume) s (⟨i, r⟩ :: calls) s' a

/-- What a task comes to in still surroundings, given the replies. -/
def replay [DecidableEq ι] : Task ι ρ β → σ → List (Answered ι ρ) → Option (σ × β)
  | .done a, s, [] => some (s, a)
  | .done _, _, _ :: _ => none
  | .call i resume, s, calls =>
    match S.act i, calls with
    | some f, calls => replay (resume (f s).2) (f s).1 calls
    | none, [] => none
    | none, answered :: calls =>
      if h : answered.call = i then replay (resume (h ▸ answered.reply)) s calls else none

variable {S} {around : σ → σ → Prop} {s s' : σ} {calls : List (Answered ι ρ)}

theorem solo_of_replay [DecidableEq ι] (hstill : ∀ s, around s s) {t : Task ι ρ β} {a : β}
    (h : S.replay t s calls = some (s', a)) : S.Solo around t s calls s' a := by
  induction t generalizing s calls with
  | done b =>
    cases calls with
    | nil =>
      cases h
      exact .done _ _
    | cons answered calls => cases h
  | call i resume ih =>
    unfold replay at h
    split at h
    · rename_i f hact
      exact .acted hact (ih _ h)
    · cases h
    · rename_i answered calls hwait
      split at h
      · rename_i hcall
        obtain ⟨call, reply⟩ := answered
        subst hcall
        exact .waited reply hwait (hstill s) (ih _ h)
      · cases h

theorem solo_pure {b a : β} (h : S.Solo around (.done b) s calls s' a) :
    calls = [] ∧ s' = s ∧ a = b := by
  cases h with
  | done => exact ⟨rfl, rfl, rfl⟩

theorem solo_bind {t : Task ι ρ γ} {f : γ → Task ι ρ β} {a : β}
    (h : S.Solo around (t >>= f) s calls s' a) :
    ∃ before after s₁ b, calls = before ++ after ∧ S.Solo around t s before s₁ b ∧
      S.Solo around (f b) s₁ after s' a := by
  induction t generalizing s calls with
  | done b => exact ⟨[], calls, s, b, rfl, .done b s, h⟩
  | call i resume ih =>
    cases h with
    | acted hact h =>
      obtain ⟨before, after, s₁, b, rfl, hbefore, hafter⟩ := ih _ h
      exact ⟨before, after, s₁, b, rfl, .acted hact hbefore, hafter⟩
    | waited r hwait haround h =>
      obtain ⟨before, after, s₁, b, rfl, hbefore, hafter⟩ := ih _ h
      exact ⟨⟨i, r⟩ :: before, after, s₁, b, rfl, .waited r hwait haround hbefore, hafter⟩

/-- A call that is carried out at once. -/
theorem solo_acted {i : ι} {g : σ → σ × ρ i} {f : ρ i → Task ι ρ β} {a : β}
    (hact : S.act i = some g) (h : S.Solo around (Task.request i >>= f) s calls s' a) :
    S.Solo around (f (g s).2) (g s).1 calls s' a := by
  cases h with
  | acted hact' h =>
    obtain rfl := Option.some.inj (hact.symm.trans hact')
    exact h
  | waited r hwait haround h => cases hact.symm.trans hwait

/-- A call that is waited at. -/
theorem solo_waited {i : ι} {f : ρ i → Task ι ρ β} {a : β} (hwait : S.act i = none)
    (h : S.Solo around (Task.request i >>= f) s calls s' a) :
    ∃ r s₁ rest, around s s₁ ∧ calls = ⟨i, r⟩ :: rest ∧ S.Solo around (f r) s₁ rest s' a := by
  cases h with
  | acted hact h => cases hwait.symm.trans hact
  | waited r hwait' haround h => exact ⟨r, _, _, haround, rfl, h⟩

end Scheme
end Tasks
