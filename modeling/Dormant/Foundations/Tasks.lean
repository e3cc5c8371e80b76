import Dormant.Foundations.Runs

/-!
# Tasks that make calls

A `Task` is done, or waits for the reply to one call. `Spawned` is a task as its scheduler sees
it, which polls it, replies to its pending call or sees it panic, one step at a time. `Avoids`
is a property of the calls that a task can still make; no step makes a call that is avoided.
`Lasts` tells which call of a kind is the last one, on every path.
-/

namespace Tasks
set_option autoImplicit false

universe u v w x

inductive Task (ι : Type u) (ρ : ι → Type v) (α : Type w) where
  | done (a : α)
  | call (i : ι) (resume : ρ i → Task ι ρ α)

variable {ι : Type u} {ρ : ι → Type v} {α : Type w} {β : Type x}

namespace Task

def bind : Task ι ρ α → (α → Task ι ρ β) → Task ι ρ β
  | done a, f => f a
  | call i resume, f => call i fun r => (resume r).bind f

instance : Monad (Task ι ρ) where
  pure := done
  bind := bind

/-- A call whose reply is the result. -/
def request (i : ι) : Task ι ρ (ρ i) := call i done

/-- The task makes no call with a property. -/
def Avoids (P : ι → Prop) : Task ι ρ α → Prop
  | done _ => True
  | call i resume => ¬ P i ∧ ∀ r, (resume r).Avoids P

/-- The task makes a call with `P`, and the last one that it makes has `Q`. -/
def Lasts (P Q : ι → Prop) : Task ι ρ α → Prop
  | done _ => False
  | call i resume => ∀ r, (P i ∧ Q i ∧ (resume r).Avoids P) ∨ (resume r).Lasts P Q

section Bind
variable {P Q : ι → Prop} {t : Task ι ρ α} {f : α → Task ι ρ β}

theorem Avoids.bind (h : t.Avoids P) (hf : ∀ a, (f a).Avoids P) : (t.bind f).Avoids P := by
  induction t with
  | done a => exact hf a
  | call i resume ih => exact ⟨h.1, fun r => ih r (h.2 r)⟩

/-- What comes before does not matter. -/
theorem lasts_bind (t : Task ι ρ α) (hf : ∀ a, (f a).Lasts P Q) : (t.bind f).Lasts P Q := by
  induction t with
  | done a => exact hf a
  | call i resume ih => exact fun r => .inr (ih r)

theorem Lasts.bind (h : t.Lasts P Q) (hf : ∀ a, (f a).Avoids P) : (t.bind f).Lasts P Q := by
  induction t with
  | done a => exact h.elim
  | call i resume ih =>
    intro r
    rcases h r with ⟨hP, hQ, havoids⟩ | hlasts
    · exact .inl ⟨hP, hQ, havoids.bind hf⟩
    · exact .inr (ih r hlasts)

theorem lasts_request {i : ι} {f : ρ i → Task ι ρ β} (hP : P i) (hQ : Q i)
    (hf : ∀ r, (f r).Avoids P) : ((request i).bind f).Lasts P Q :=
  fun r => .inl ⟨hP, hQ, hf r⟩

end Bind

end Task

/-- A task on its scheduler: not polled yet, at a call, or at an end. -/
inductive Spawned (ι : Type u) (ρ : ι → Type v) (α : Type w) where
  | ready (t : Task ι ρ α)
  | waiting (i : ι) (resume : ρ i → Task ι ρ α)
  | finished (a : α)
  | panicked

namespace Spawned

/-- Run a task up to its next call. -/
def advance : Task ι ρ α → Spawned ι ρ α × List ι
  | .done a => (finished a, [])
  | .call i resume => (waiting i resume, [i])

def poll : Spawned ι ρ α → Spawned ι ρ α × List ι
  | ready t => advance t
  | s => (s, [])

/-- Reply to the pending call. A reply to another call changes nothing. -/
def answer [DecidableEq ι] (j : ι) (r : ρ j) : Spawned ι ρ α → Spawned ι ρ α × List ι
  | waiting i resume => if h : j = i then advance (resume (h ▸ r)) else (waiting i resume, [])
  | s => (s, [])

def panic : Spawned ι ρ α → Spawned ι ρ α
  | waiting _ _ => panicked
  | s => s

/-- No call with a property is made from here on. The pending call is made already. -/
def Avoids (P : ι → Prop) : Spawned ι ρ α → Prop
  | ready t => t.Avoids P
  | waiting _ resume => ∀ r, (resume r).Avoids P
  | finished _ => True
  | panicked => True

variable {P : ι → Prop} {s : Spawned ι ρ α}

theorem avoids_advance {t : Task ι ρ α} (h : t.Avoids P) :
    (advance t).1.Avoids P ∧ ∀ i ∈ (advance t).2, ¬ P i := by
  cases t with
  | done a => exact ⟨trivial, by simp [advance]⟩
  | call i resume => exact ⟨h.2, by simpa [advance] using h.1⟩

theorem Avoids.poll (h : s.Avoids P) : s.poll.1.Avoids P ∧ ∀ i ∈ s.poll.2, ¬ P i := by
  cases s with
  | ready t => exact avoids_advance h
  | _ => exact ⟨h, by simp [Spawned.poll]⟩

theorem Avoids.answer [DecidableEq ι] (h : s.Avoids P) (j : ι) (r : ρ j) :
    (s.answer j r).1.Avoids P ∧ ∀ i ∈ (s.answer j r).2, ¬ P i := by
  cases s with
  | waiting i resume =>
    by_cases hj : j = i
    · subst hj
      simp only [Spawned.answer, dif_pos]
      exact avoids_advance (h r)
    · simp only [Spawned.answer, dif_neg hj]
      exact ⟨h, by simp⟩
  | _ => exact ⟨h, by simp [Spawned.answer]⟩

theorem Avoids.panic (h : s.Avoids P) : s.panic.Avoids P := by
  cases s with
  | waiting i resume => trivial
  | _ => exact h

/-! ## The last call -/

/-- No call with a property is pending, and none is made from here on. -/
def Silent (P : ι → Prop) : Spawned ι ρ α → Prop
  | ready t => t.Avoids P
  | waiting i resume => ¬ P i ∧ ∀ r, (resume r).Avoids P
  | finished _ => True
  | panicked => True

/-- The last call with `P` is still to be answered, and it has `Q`. -/
def Lasts (P Q : ι → Prop) : Spawned ι ρ α → Prop
  | ready t => t.Lasts P Q
  | waiting i resume => ∀ r, (P i ∧ Q i ∧ (resume r).Avoids P) ∨ (resume r).Lasts P Q
  | finished _ => False
  | panicked => False

/-- The reply to this call leaves none with `P` to come. -/
def Closes (P : ι → Prop) (s : Spawned ι ρ α) (j : ι) (r : ρ j) : Prop :=
  P j ∧ ∃ resume, s = waiting j resume ∧ (resume r).Avoids P

theorem silent_advance {t : Task ι ρ α} (h : t.Avoids P) : (advance t).1.Silent P := by
  cases t with
  | done a => trivial
  | call i resume => exact h

theorem lasts_advance {Q : ι → Prop} {t : Task ι ρ α} (h : t.Lasts P Q) :
    (advance t).1.Lasts P Q := by
  cases t with
  | done a => exact h.elim
  | call i resume => exact h

/-- Where every call can be answered, a task that avoids a property makes no last call with it. -/
theorem not_lasts_of_avoids [∀ i, Nonempty (ρ i)] {Q : ι → Prop} {t : Task ι ρ α}
    (h : t.Avoids P) : ¬ t.Lasts P Q := by
  induction t with
  | done a => exact id
  | call i resume ih =>
    intro hlasts
    obtain ⟨r⟩ : Nonempty (ρ i) := inferInstance
    rcases hlasts r with ⟨hP, -⟩ | hlast
    · exact h.1 hP
    · exact ih r (h.2 r) hlast

theorem Silent.not_lasts [∀ i, Nonempty (ρ i)] {Q : ι → Prop} (h : s.Silent P) :
    ¬ s.Lasts P Q := by
  cases s with
  | ready t => exact not_lasts_of_avoids h
  | waiting i resume => exact not_lasts_of_avoids (t := .call i resume) h
  | _ => exact id

theorem Silent.panic (h : s.Silent P) : s.panic.Silent P := by
  cases s with
  | waiting i resume => trivial
  | _ => exact h

theorem Silent.poll (h : s.Silent P) : s.poll.1.Silent P := by
  cases s with
  | ready t => exact silent_advance h
  | _ => exact h

theorem Silent.answer [DecidableEq ι] (h : s.Silent P) (j : ι) (r : ρ j) :
    (s.answer j r).1.Silent P := by
  cases s with
  | waiting i resume =>
    by_cases hj : j = i
    · subst hj
      simp only [Spawned.answer, dif_pos]
      exact silent_advance (h.2 r)
    · simp only [Spawned.answer, dif_neg hj]
      exact h
  | _ => exact h

theorem Lasts.poll {Q : ι → Prop} (h : s.Lasts P Q) : s.poll.1.Lasts P Q := by
  cases s with
  | ready t => exact lasts_advance h
  | _ => exact h

/-- A reply is to the last call, or leaves it to be answered. -/
theorem Lasts.answer [DecidableEq ι] {Q : ι → Prop} (h : s.Lasts P Q) (j : ι) (r : ρ j) :
    (s.Closes P j r ∧ Q j ∧ (s.answer j r).1.Silent P) ∨ (s.answer j r).1.Lasts P Q := by
  cases s with
  | waiting i resume =>
    by_cases hj : j = i
    · subst hj
      simp only [Spawned.answer, dif_pos]
      rcases h r with ⟨hP, hQ, havoids⟩ | hlasts
      · exact .inl ⟨⟨hP, resume, rfl, havoids⟩, hQ, silent_advance havoids⟩
      · exact .inr (lasts_advance hlasts)
    · simp only [Spawned.answer, dif_neg hj]
      exact .inr h
  | _ => exact .inr h

/-- A call that leaves none to come is the last one. -/
theorem Closes.last [∀ i, Nonempty (ρ i)] {Q : ι → Prop} {j : ι} {r : ρ j} (hc : s.Closes P j r)
    (h : s.Lasts P Q ∨ s.Silent P) : Q j := by
  obtain ⟨hP, resume, rfl, havoids⟩ := hc
  rcases h with h | h
  · rcases h r with ⟨-, hQ, -⟩ | hlasts
    · exact hQ
    · exact absurd hlasts (not_lasts_of_avoids havoids)
  · exact absurd hP h.1

theorem Lasts.panic {Q : ι → Prop} (h : s.Lasts P Q) : s.panic.Lasts P Q ∨ s.panic.Silent P := by
  cases s with
  | waiting i resume => exact .inr trivial
  | _ => exact .inl h

/-! ## Runs of one task -/

/-- One step of the scheduler with a task, or a reply. -/
inductive Event (ι : Type u) (ρ : ι → Type v) where
  | poll
  | answer (i : ι) (r : ρ i)
  | panic

def system [DecidableEq ι] : Runs.System (Spawned ι ρ α) (Event ι ρ) ι where
  next s
    | .poll => s.poll
    | .answer i r => s.answer i r
    | .panic => (s.panic, [])

theorem Avoids.next [DecidableEq ι] (h : s.Avoids P) (e : Event ι ρ) :
    (system.next s e).1.Avoids P ∧ ∀ i ∈ (system.next s e).2, ¬ P i := by
  cases e with
  | poll => exact h.poll
  | answer i r => exact h.answer i r
  | panic => exact ⟨h.panic, by simp [system]⟩

/-- A task that does not avoid a property can be led to make a call with it. -/
theorem exists_call_of_advance [DecidableEq ι] {t : Task ι ρ α} (h : ¬ t.Avoids P) :
    (∃ i ∈ (advance t).2, P i) ∨
      ∃ events, ∃ i ∈ (system (α := α)).outputs (advance t).1 events, P i := by
  induction t with
  | done a => exact absurd trivial h
  | call i resume ih =>
    by_cases hi : P i
    · exact .inl ⟨i, List.mem_cons_self, hi⟩
    · have hsome : ∃ r, ¬ (resume r).Avoids P := by
        by_contra hall
        push Not at hall
        exact h ⟨hi, hall⟩
      obtain ⟨r, hr⟩ := hsome
      have hnext : (system (α := α)).next (advance (.call i resume)).1 (.answer i r) =
          advance (resume r) := by
        simp [system, advance, Spawned.answer]
      right
      rcases ih r hr with ⟨j, hj, hP⟩ | ⟨events, j, hj, hP⟩
      · refine ⟨[.answer i r], j, ?_, hP⟩
        rw [Runs.System.outputs, hnext]
        exact List.mem_append_left _ hj
      · refine ⟨.answer i r :: events, j, ?_, hP⟩
        rw [Runs.System.outputs, hnext]
        exact List.mem_append_right _ hj

theorem exists_call [DecidableEq ι] (h : ¬ s.Avoids P) :
    ∃ events, ∃ i ∈ (system (α := α)).outputs s events, P i := by
  cases s with
  | ready t =>
    rcases exists_call_of_advance h with ⟨i, hi, hP⟩ | ⟨events, i, hi, hP⟩
    · exact ⟨[.poll], i, List.mem_append_left _ hi, hP⟩
    · exact ⟨.poll :: events, i, List.mem_append_right _ hi, hP⟩
  | waiting j resume =>
    have hsome : ∃ r, ¬ (resume r).Avoids P := by
      by_contra hall
      push Not at hall
      exact h hall
    obtain ⟨r, hr⟩ := hsome
    have hnext : (system (α := α)).next (waiting j resume) (.answer j r) =
        advance (resume r) := by
      simp [system, Spawned.answer]
    rcases exists_call_of_advance hr with ⟨i, hi, hP⟩ | ⟨events, i, hi, hP⟩
    · refine ⟨[.answer j r], i, ?_, hP⟩
      rw [Runs.System.outputs, hnext]
      exact List.mem_append_left _ hi
    · refine ⟨.answer j r :: events, i, ?_, hP⟩
      rw [Runs.System.outputs, hnext]
      exact List.mem_append_right _ hi
  | finished a => exact absurd trivial h
  | panicked => exact absurd trivial h

end Spawned
end Tasks
