import Dormant.Foundations.Tasks

/-!
# Threads over a shared state

Tasks that run side by side. Some of their calls are carried out at once, on the shared state; at
the others a thread waits, and its fellows go on. Each thread keeps a history of its calls, on
which nothing acts. `Conforms` says which calls a task may make after which history, and how it may
end.
-/

namespace Tasks
set_option autoImplicit false

variable {κ ε σ Q ι α β : Type} {ρ : ι → Type}

structure Scheme (κ ε σ Q ι : Type) (ρ : ι → Type) (α : Type) where
  program : κ → Task ι ρ α
  /-- How a call is carried out, unless it has to wait. -/
  act : (i : ι) → Option (σ → σ × ρ i)
  /-- What the destructors do when a thread is given up at a call. -/
  unwind : ι → Task ι ρ Unit
  outside : ε → σ → σ
  start : κ → Q
  ask : σ → Q → ι → Q
  got : σ → Q → (i : ι) → ρ i → Q
  /-- The history of a thread that is given up at a call. -/
  lost : Q → ι → Q

/-- A thread after a burst, and what it leaves. -/
structure Ran (σ Q ι : Type) (ρ : ι → Type) (α : Type) where
  shared : σ
  past : Q
  run : Spawned ι ρ α

structure Thread (κ Q ι : Type) (ρ : ι → Type) (α : Type) where
  request : κ
  past : Q
  run : Spawned ι ρ α

structure Pool (κ σ Q ι : Type) (ρ : ι → Type) (α : Type) where
  shared : σ
  threads : List (Thread κ Q ι ρ α)

/-- What can happen to one thread. It is given up when the call it awaits panics, or when it is
dropped. -/
inductive Stir (ι : Type) (ρ : ι → Type) where
  | poll
  | answer (i : ι) (r : ρ i)
  | abort

inductive PoolEvent (κ ε ι : Type) (ρ : ι → Type) where
  | spawn (k : κ)
  | stir (n : ℕ) (s : Stir ι ρ)
  | outside (e : ε)

namespace Scheme
variable (S : Scheme κ ε σ Q ι ρ α)

/-- Run a task up to its next call that has to wait. -/
def settle : Task ι ρ β → σ → Q → Ran σ Q ι ρ β
  | .done a, s, q => ⟨s, q, .finished a⟩
  | .call i resume, s, q =>
    match S.act i with
    | none => ⟨s, S.ask s q i, .waiting i resume⟩
    | some f => settle (resume (f s).2) (f s).1 (S.got s (S.ask s q i) i (f s).2)

/-- The burst of a thread that is stirred, if it moves. -/
def burst [DecidableEq ι] (s : σ) (t : Thread κ Q ι ρ α) :
    Stir ι ρ → Option (Ran σ Q ι ρ α)
  | .poll =>
    match t.run with
    | .ready task => some (S.settle task s t.past)
    | _ => none
  | .answer i r =>
    match t.run with
    | .waiting j resume =>
      if h : i = j then some (S.settle (resume (h ▸ r)) s (S.got s t.past i r)) else none
    | _ => none
  | .abort =>
    match t.run with
    | .ready _ => some ⟨s, t.past, .panicked⟩
    | .waiting i _ =>
      let unwound := S.settle (S.unwind i) s (S.lost t.past i)
      some ⟨unwound.shared, unwound.past, .panicked⟩
    | _ => none

end Scheme

namespace Spawned

/-- The call that a thread waits at. -/
def pending : Spawned ι ρ α → Option ι
  | waiting i _ => some i
  | _ => none

def result : Spawned ι ρ α → Option α
  | finished a => some a
  | _ => none

/-- The thread has come to an end, or has been given up. -/
def ended : Spawned ι ρ α → Bool
  | finished _ => true
  | panicked => true
  | _ => false

end Spawned

namespace Scheme
variable (S : Scheme κ ε σ Q ι ρ α)

def pool [DecidableEq ι] : Runs.System (Pool κ σ Q ι ρ α) (PoolEvent κ ε ι ρ) (ℕ × ι) where
  next p
    | .spawn k =>
      ({ p with threads := p.threads ++ [⟨k, S.start k, .ready (S.program k)⟩] }, [])
    | .outside e => ({ p with shared := S.outside e p.shared }, [])
    | .stir n stir =>
      match p.threads[n]? with
      | none => (p, [])
      | some t =>
        match S.burst p.shared t stir with
        | none => (p, [])
        | some ran =>
          ({ shared := ran.shared
             threads := p.threads.set n { t with past := ran.past, run := ran.run } },
            ran.run.pending.toList.map fun i => (n, i))

/-! ## What a task may do -/

section
variable (may : Q → ι → Prop) (ends : Q → β → Prop)

/-- Whatever the replies are, the task makes no call and comes to no end that its history rules
out. -/
def Conforms : Task ι ρ β → Q → Prop
  | .done a, q => ends q a
  | .call i resume, q =>
    may q i ∧ ∀ s s' (r : ρ i), Conforms (resume r) (S.got s' (S.ask s q i) i r)

/-- What a burst comes to: an end, or a call that has to wait. -/
inductive Stopped (gone : Q → Prop) (J : σ → Q → Prop) : Ran σ Q ι ρ β → Prop
  | finished {s : σ} {q : Q} {a : β} (hJ : J s q) (hends : ends q a) :
      Stopped gone J ⟨s, q, .finished a⟩
  | asked {s : σ} {q : Q} {i : ι} {resume : ρ i → Task ι ρ β} (hJ : J s q)
      (hwait : S.act i = none) (hmay : may q i)
      (hnext : ∀ s' (r : ρ i), S.Conforms may ends (resume r) (S.got s' (S.ask s q i) i r)) :
      Stopped gone J ⟨s, S.ask s q i, .waiting i resume⟩
  | panicked {s : σ} {q : Q} (hJ : J s q) (hgone : gone q) : Stopped gone J ⟨s, q, .panicked⟩

variable {S may ends}

theorem conforms_bind {γ : Type} {t : Task ι ρ γ} {f : γ → Task ι ρ β} {q : Q}
    {mid : Q → γ → Prop} (ht : S.Conforms may mid t q)
    (hf : ∀ q a, mid q a → S.Conforms may ends (f a) q) : S.Conforms may ends (t >>= f) q := by
  induction t generalizing q with
  | done a => exact hf q a ht
  | call i resume ih => exact ⟨ht.1, fun s s' r => ih r (ht.2 s s' r)⟩

theorem conforms_request {i : ι} {f : ρ i → Task ι ρ β} {q : Q} (hmay : may q i)
    (hf : ∀ s s' (r : ρ i), S.Conforms may ends (f r) (S.got s' (S.ask s q i) i r)) :
    S.Conforms may ends (Task.request i >>= f) q :=
  ⟨hmay, hf⟩

theorem Conforms.mono {t : Task ι ρ β} {q : Q} {ends' : Q → β → Prop}
    (h : S.Conforms may ends t q) (hends : ∀ q a, ends q a → ends' q a) :
    S.Conforms may ends' t q := by
  induction t generalizing q with
  | done a => exact hends q a h
  | call i resume ih => exact ⟨h.1, fun s s' r => ih r (h.2 s s' r)⟩

/-- What every action keeps, a burst keeps. -/
theorem stopped_settle {gone : Q → Prop} {J : σ → Q → Prop}
    (hact : ∀ s q i f, S.act i = some f → may q i → J s q →
      J (f s).1 (S.got s (S.ask s q i) i (f s).2)) {t : Task ι ρ β} {s : σ} {q : Q}
    (h : S.Conforms may ends t q) (hJ : J s q) :
    S.Stopped may ends gone J (S.settle t s q) := by
  induction t generalizing s q with
  | done a => exact .finished hJ h
  | call i resume ih =>
    unfold settle
    cases hf : S.act i with
    | none => exact .asked hJ hf h.1 fun s' r => h.2 s s' r
    | some f => exact ih _ (h.2 s s _) (hact s q i f hf h.1 hJ)

/-- A task whose calls are all carried out at once comes to its end. -/
theorem settle_atOnce {J : σ → Q → Prop}
    (hact : ∀ s q i f, S.act i = some f → may q i → J s q →
      J (f s).1 (S.got s (S.ask s q i) i (f s).2)) {t : Task ι ρ β} {s : σ} {q : Q}
    (h : S.Conforms (fun q i => may q i ∧ (S.act i).isSome) ends t q) (hJ : J s q) :
    J (S.settle t s q).shared (S.settle t s q).past ∧ ∃ a, ends (S.settle t s q).past a := by
  have hstop : S.Stopped (fun q i => may q i ∧ (S.act i).isSome) ends (fun _ => False) J
      (S.settle t s q) := stopped_settle (fun s q i f hf hmay => hact s q i f hf hmay.1) h hJ
  generalize S.settle t s q = ran at hstop
  cases hstop with
  | finished hJ hends => exact ⟨hJ, _, hends⟩
  | asked hJ hwait hmay hnext => rw [hwait] at hmay; cases hmay.2
  | panicked hJ hgone => exact hgone.elim

end

/-! ## Threads that keep to it -/

section
variable (may : Q → ι → Prop) (ends : Q → α → Prop) (gone : Q → Prop)

/-- What a thread that is given up has left to do, it does at once. -/
structure Lawful : Prop where
  program (k : κ) : S.Conforms may ends (S.program k) (S.start k)
  unstarted (k : κ) : gone (S.start k)
  unwind {s : σ} {q : Q} {i : ι} (hwait : S.act i = none) (hmay : may q i) :
    S.Conforms (fun q i => may q i ∧ (S.act i).isSome) (fun q _ => gone q) (S.unwind i)
      (S.lost (S.ask s q i) i)

/-- Where a thread stands. -/
inductive Keeps : Thread κ Q ι ρ α → Prop
  | ready (k) : Keeps ⟨k, S.start k, .ready (S.program k)⟩
  | waiting (k) {s : σ} {q : Q} {i : ι} {resume : ρ i → Task ι ρ α} (hwait : S.act i = none)
      (hmay : may q i)
      (hnext : ∀ s' (r : ρ i), S.Conforms may ends (resume r) (S.got s' (S.ask s q i) i r)) :
      Keeps ⟨k, S.ask s q i, .waiting i resume⟩
  | finished (k) {q : Q} {a : α} (hends : ends q a) : Keeps ⟨k, q, .finished a⟩
  | panicked (k) {q : Q} (hgone : gone q) : Keeps ⟨k, q, .panicked⟩

variable {S may ends gone}

theorem Stopped.keeps {J : σ → Q → Prop} {ran : Ran σ Q ι ρ α} (k : κ)
    (h : S.Stopped may ends gone J ran) : S.Keeps may ends gone ⟨k, ran.past, ran.run⟩ := by
  cases h with
  | finished hJ hends => exact .finished k hends
  | asked hJ hwait hmay hnext => exact .waiting k hwait hmay hnext
  | panicked hJ hgone => exact .panicked k hgone

theorem Stopped.holds {J : σ → Q → Prop} (hask : ∀ s q i, J s q → J s (S.ask s q i))
    {ran : Ran σ Q ι ρ α} (h : S.Stopped may ends gone J ran) : J ran.shared ran.past := by
  cases h with
  | finished hJ hends => exact hJ
  | asked hJ hwait hmay hnext => exact hask _ _ _ hJ
  | panicked hJ hgone => exact hJ

end

/-! ## What a step does -/

/-- How a thread moves, and the history that it moves from. -/
inductive Bursts (s : σ) (t : Thread κ Q ι ρ α) : Stir ι ρ → Q → Ran σ Q ι ρ α → Prop
  | polled {task} (h : t.run = .ready task) : Bursts s t .poll t.past (S.settle task s t.past)
  | answered {i resume} (r : ρ i) (h : t.run = .waiting i resume) :
      Bursts s t (.answer i r) (S.got s t.past i r)
        (S.settle (resume r) s (S.got s t.past i r))
  | dropped {task} (h : t.run = .ready task) : Bursts s t .abort t.past ⟨s, t.past, .panicked⟩
  | unwound {i resume} (h : t.run = .waiting i resume) :
      Bursts s t .abort (S.lost t.past i)
        ⟨(S.settle (S.unwind i) s (S.lost t.past i)).shared,
          (S.settle (S.unwind i) s (S.lost t.past i)).past, .panicked⟩

variable {S}

/-- A thread that has ended does not move. -/
theorem Bursts.live {s : σ} {t : Thread κ Q ι ρ α} {stir : Stir ι ρ} {q : Q} {ran : Ran σ Q ι ρ α}
    (h : S.Bursts s t stir q ran) : t.run.ended = false := by
  cases h with
  | polled hrun => rw [hrun]; rfl
  | answered r hrun => rw [hrun]; rfl
  | dropped hrun => rw [hrun]; rfl
  | unwound hrun => rw [hrun]; rfl

theorem bursts_of_burst [DecidableEq ι] {s : σ} {t : Thread κ Q ι ρ α} {stir : Stir ι ρ}
    {ran : Ran σ Q ι ρ α} (h : S.burst s t stir = some ran) : ∃ q, S.Bursts s t stir q ran := by
  unfold burst at h
  split at h
  · split at h
    · rename_i task hrun
      obtain rfl := Option.some.inj h
      exact ⟨_, .polled hrun⟩
    · cases h
  · split at h
    · rename_i i r _ j resume hrun
      split at h
      · rename_i hij
        subst hij
        obtain rfl := Option.some.inj h
        exact ⟨_, .answered r hrun⟩
      · cases h
    · cases h
  · split at h
    · rename_i task hrun
      obtain rfl := Option.some.inj h
      exact ⟨_, .dropped hrun⟩
    · rename_i i resume hrun
      obtain rfl := Option.some.inj h
      exact ⟨_, .unwound hrun⟩
    · cases h

variable (S) in
/-- What a step of the pool does: nothing, or it starts a thread, moves one, or is outside. -/
inductive Stepped [DecidableEq ι] (p : Pool κ σ Q ι ρ α) :
    PoolEvent κ ε ι ρ → Pool κ σ Q ι ρ α → List (ℕ × ι) → Prop
  | idle (e) : Stepped p e p []
  | spawned (k) :
      Stepped p (.spawn k)
        { p with threads := p.threads ++ [⟨k, S.start k, .ready (S.program k)⟩] } []
  | elsewhere (e) : Stepped p (.outside e) { p with shared := S.outside e p.shared } []
  | moved {n stir t q ran} (ht : p.threads[n]? = some t) (h : S.Bursts p.shared t stir q ran) :
      Stepped p (.stir n stir)
        { shared := ran.shared
          threads := p.threads.set n { t with past := ran.past, run := ran.run } }
        (ran.run.pending.toList.map fun i => (n, i))

theorem stepped [DecidableEq ι] (p : Pool κ σ Q ι ρ α) (e : PoolEvent κ ε ι ρ) :
    S.Stepped p e (S.pool.next p e).1 (S.pool.next p e).2 := by
  cases e with
  | spawn k => exact .spawned k
  | outside e => exact .elsewhere e
  | stir n stir =>
    unfold pool
    dsimp only
    split
    · exact .idle _
    · rename_i t ht
      split
      · exact .idle _
      · rename_i ran hran
        obtain ⟨q, hburst⟩ := bursts_of_burst hran
        exact .moved ht hburst

variable (S) in
/-- Where a thread comes from in a step, and what it leaves when it has moved. -/
inductive Becomes (p : Pool κ σ Q ι ρ α) (shared : σ) (n : ℕ) : Thread κ Q ι ρ α → Prop
  | same {t} (ht : p.threads[n]? = some t) : Becomes p shared n t
  | spawned (k) (hnew : p.threads[n]? = none) :
      Becomes p shared n ⟨k, S.start k, .ready (S.program k)⟩
  | moved {stir t q ran} (ht : p.threads[n]? = some t) (h : S.Bursts p.shared t stir q ran)
      (hshared : ran.shared = shared) :
      Becomes p shared n { t with past := ran.past, run := ran.run }

theorem Stepped.becomes [DecidableEq ι] {p p' : Pool κ σ Q ι ρ α} {e : PoolEvent κ ε ι ρ}
    {out : List (ℕ × ι)} (h : S.Stepped p e p' out) {n : ℕ} {t : Thread κ Q ι ρ α}
    (ht : p'.threads[n]? = some t) : S.Becomes p p'.shared n t := by
  cases h with
  | idle => exact .same ht
  | elsewhere => exact .same ht
  | spawned k =>
    by_cases hn : n < p.threads.length
    · rw [List.getElem?_append_left hn] at ht
      exact .same ht
    · have hn := Nat.le_of_not_lt hn
      rw [List.getElem?_append_right hn] at ht
      obtain rfl := List.mem_singleton.mp (List.mem_of_getElem? ht)
      exact .spawned k (List.getElem?_eq_none hn)
  | @moved m stir old q ran hold hburst =>
    by_cases hm : m = n
    · subst hm
      have hlt : m < p.threads.length := (List.getElem?_eq_some_iff.mp hold).1
      rw [List.getElem?_set_self hlt] at ht
      obtain rfl := Option.some.inj ht
      exact .moved hold hburst rfl
    · rw [List.getElem?_set_ne hm] at ht
      exact .same ht

section
variable {may : Q → ι → Prop} {ends : Q → α → Prop} {gone : Q → Prop}

/-- What every action keeps, holds where a thread stops, if it holds where it moves from. -/
theorem Bursts.stopped (hlaw : S.Lawful may ends gone) {J : σ → Q → Prop}
    (hact : ∀ s q i f, S.act i = some f → may q i → J s q →
      J (f s).1 (S.got s (S.ask s q i) i (f s).2))
    {s : σ} {t : Thread κ Q ι ρ α} {stir : Stir ι ρ} {q : Q} {ran : Ran σ Q ι ρ α}
    (h : S.Bursts s t stir q ran) (ht : S.Keeps may ends gone t) (hJ : J s q) :
    S.Stopped may ends gone J ran := by
  cases ht with
  | ready k =>
    cases h with
    | polled hrun =>
      obtain rfl := Spawned.ready.inj hrun
      exact stopped_settle hact (hlaw.program k) hJ
    | answered r hrun => cases hrun
    | dropped hrun => exact .panicked hJ (hlaw.unstarted k)
    | unwound hrun => cases hrun
  | waiting k hwait hmay hnext =>
    cases h with
    | polled hrun => cases hrun
    | answered r hrun =>
      cases hrun
      exact stopped_settle hact (hnext s r) hJ
    | dropped hrun => cases hrun
    | unwound hrun =>
      cases hrun
      obtain ⟨hJ', _, hgone⟩ := settle_atOnce hact (hlaw.unwind hwait hmay) hJ
      exact .panicked hJ' hgone
  | finished k hends => cases h.live
  | panicked k hgone => cases h.live

/-- Every thread of a pool keeps to what its program conforms to. -/
theorem keeps_next [DecidableEq ι] (hlaw : S.Lawful may ends gone) {p : Pool κ σ Q ι ρ α}
    (h : ∀ t ∈ p.threads, S.Keeps may ends gone t) (e : PoolEvent κ ε ι ρ) :
    ∀ t ∈ (S.pool.next p e).1.threads, S.Keeps may ends gone t := by
  intro t ht
  obtain ⟨n, ht⟩ := List.mem_iff_getElem?.mp ht
  cases (S.stepped p e).becomes ht with
  | same ht => exact h t (List.mem_of_getElem? ht)
  | spawned k hnew => exact .ready k
  | moved hold hburst hshared =>
    have hstop := hburst.stopped hlaw (J := fun _ _ => True) (fun _ _ _ _ _ _ h => h)
      (h _ (List.mem_of_getElem? hold)) trivial
    exact hstop.keeps _

end

/-- A history that says what the request was goes on saying so. -/
theorem labelled_next [DecidableEq ι] {label : Q → κ} (hstart : ∀ k, label (S.start k) = k)
    (hask : ∀ s q i, label (S.ask s q i) = label q)
    (hgot : ∀ s q i r, label (S.got s q i r) = label q)
    (hlost : ∀ q i, label (S.lost q i) = label q) {p : Pool κ σ Q ι ρ α}
    (h : ∀ t ∈ p.threads, label t.past = t.request) (e : PoolEvent κ ε ι ρ) :
    ∀ t ∈ (S.pool.next p e).1.threads, label t.past = t.request := by
  have hsettle {γ : Type} (task : Task ι ρ γ) (s : σ) (q : Q) :
      label (S.settle task s q).past = label q := by
    induction task generalizing s q with
    | done a => rfl
    | call i resume ih =>
      unfold settle
      split
      · exact hask s q i
      · rw [ih, hgot, hask]
  intro t ht
  obtain ⟨n, ht⟩ := List.mem_iff_getElem?.mp ht
  cases (S.stepped p e).becomes ht with
  | same ht => exact h t (List.mem_of_getElem? ht)
  | spawned k hnew => exact hstart k
  | @moved stir old q ran hold hburst hshared =>
    refine Eq.trans ?_ (h old (List.mem_of_getElem? hold))
    cases hburst with
    | polled hrun => exact hsettle _ _ _
    | answered r hrun => exact (hsettle _ _ _).trans (hgot _ _ _ r)
    | dropped hrun => rfl
    | unwound hrun => exact (hsettle _ _ _).trans (hlost _ _)

end Scheme
end Tasks
