import Mathlib.Data.List.Basic

/-!
# Runs of deterministic systems with outputs

A `System` takes a state and an input to the next state and a list of outputs. This module
defines its runs, the rule that an inductive invariant holds at the end of every run whose
steps meet a condition, the rule for conditions that are exact, and observers: history
variables that see each step.
-/

namespace Runs
set_option autoImplicit false

universe u v w x

structure System (σ : Type u) (ι : Type v) (ο : Type w) where
  next : σ → ι → σ × List ο

namespace System
variable {σ : Type u} {ι : Type v} {ο : Type w} (M : System σ ι ο)

def run : σ → List ι → σ
  | s, [] => s
  | s, i :: is => run (M.next s i).1 is

def outputs : σ → List ι → List ο
  | _, [] => []
  | s, i :: is => (M.next s i).2 ++ outputs (M.next s i).1 is

/-- Every step of the run meets a condition on the state before it and its input. -/
def Steps (C : σ → ι → Prop) : σ → List ι → Prop
  | _, [] => True
  | s, i :: is => C s i ∧ Steps C (M.next s i).1 is

/-- A property holds in every state of the run, the first and the last included. -/
def Throughout (P : σ → Prop) : σ → List ι → Prop
  | s, [] => P s
  | s, i :: is => P s ∧ Throughout P (M.next s i).1 is

instance decidableSteps {C : σ → ι → Prop} [∀ s i, Decidable (C s i)] :
    ∀ (s : σ) (is : List ι), Decidable (M.Steps C s is)
  | _, [] => isTrue trivial
  | s, i :: is => @instDecidableAnd _ _ _ (decidableSteps (M.next s i).1 is)

instance decidableThroughout {P : σ → Prop} [∀ s, Decidable (P s)] :
    ∀ (s : σ) (is : List ι), Decidable (M.Throughout P s is)
  | s, [] => inferInstanceAs (Decidable (P s))
  | s, i :: is => @instDecidableAnd _ _ _ (decidableThroughout (M.next s i).1 is)

variable {M}

@[simp] theorem run_nil (s : σ) : M.run s [] = s := rfl

@[simp] theorem run_cons (s : σ) (i : ι) (is : List ι) :
    M.run s (i :: is) = M.run (M.next s i).1 is := rfl

theorem run_append (s : σ) (is js : List ι) : M.run s (is ++ js) = M.run (M.run s is) js := by
  induction is generalizing s with
  | nil => rfl
  | cons i is ih => exact ih _

theorem outputs_append (s : σ) (is js : List ι) :
    M.outputs s (is ++ js) = M.outputs s is ++ M.outputs (M.run s is) js := by
  induction is generalizing s with
  | nil => rfl
  | cons i is ih => simp only [List.cons_append, outputs, ih, List.append_assoc, run_cons]

theorem steps_append {C : σ → ι → Prop} (s : σ) (is js : List ι) :
    M.Steps C s (is ++ js) ↔ M.Steps C s is ∧ M.Steps C (M.run s is) js := by
  induction is generalizing s with
  | nil => exact ⟨fun h => ⟨trivial, h⟩, fun h => h.2⟩
  | cons i is ih => simp only [List.cons_append, Steps, ih, run_cons, and_assoc]

theorem Steps.mono {C D : σ → ι → Prop} (hCD : ∀ s i, C s i → D s i) {s : σ} {is : List ι}
    (h : M.Steps C s is) : M.Steps D s is := by
  induction is generalizing s with
  | nil => trivial
  | cons i is ih => exact ⟨hCD s i h.1, ih h.2⟩

theorem steps_congr {C D : σ → ι → Prop} (hCD : ∀ s i, C s i ↔ D s i) (s : σ) (is : List ι) :
    M.Steps C s is ↔ M.Steps D s is :=
  ⟨Steps.mono fun s i => (hCD s i).mp, Steps.mono fun s i => (hCD s i).mpr⟩

theorem Steps.and {C D : σ → ι → Prop} {s : σ} {is : List ι} (hC : M.Steps C s is)
    (hD : M.Steps D s is) : M.Steps (fun s i => C s i ∧ D s i) s is := by
  induction is generalizing s with
  | nil => trivial
  | cons i is ih => exact ⟨⟨hC.1, hD.1⟩, ih hC.2 hD.2⟩

theorem Steps.of_forall {C : σ → ι → Prop} (hC : ∀ s i, C s i) (s : σ) (is : List ι) :
    M.Steps C s is := by
  induction is generalizing s with
  | nil => trivial
  | cons i is ih => exact ⟨hC s i, ih _⟩

theorem Steps.of_mem (C : ι → Prop) {is : List ι} (hC : ∀ i ∈ is, C i) (s : σ) :
    M.Steps (fun _ i => C i) s is := by
  induction is generalizing s with
  | nil => trivial
  | cons i is ih =>
    exact ⟨hC i List.mem_cons_self, ih (fun j hj => hC j (List.mem_cons_of_mem _ hj)) _⟩

/-- An inductive invariant holds at the end of every run whose steps meet the condition. -/
theorem Steps.invariant {C : σ → ι → Prop} {Inv : σ → Prop}
    (hstep : ∀ s i, Inv s → C s i → Inv (M.next s i).1) {s : σ} {is : List ι}
    (h : M.Steps C s is) (h0 : Inv s) : Inv (M.run s is) := by
  induction is generalizing s with
  | nil => exact h0
  | cons i is ih => exact ih h.2 (hstep s i h0 h.1)

theorem Steps.throughout {C : σ → ι → Prop} {P : σ → Prop} (Inv : σ → Prop)
    (hstep : ∀ s i, Inv s → C s i → Inv (M.next s i).1) (hP : ∀ s, Inv s → P s) {s : σ}
    {is : List ι} (h : M.Steps C s is) (h0 : Inv s) : M.Throughout P s is := by
  induction is generalizing s with
  | nil => exact hP s h0
  | cons i is ih => exact ⟨hP s h0, ih h.2 (hstep s i h0 h.1)⟩

/-- What an inductive invariant implies of each step holds of every step of the run. -/
theorem Steps.derive {C D : σ → ι → Prop} (Inv : σ → Prop)
    (hstep : ∀ s i, Inv s → C s i → Inv (M.next s i).1) (hD : ∀ s i, Inv s → C s i → D s i)
    {s : σ} {is : List ι} (h : M.Steps C s is) (h0 : Inv s) : M.Steps D s is := by
  induction is generalizing s with
  | nil => trivial
  | cons i is ih => exact ⟨hD s i h0 h.1, ih h.2 (hstep s i h0 h.1)⟩

theorem invariant {Inv : σ → Prop} (hstep : ∀ s i, Inv s → Inv (M.next s i).1) {s : σ}
    (h0 : Inv s) (is : List ι) : Inv (M.run s is) :=
  (Steps.of_forall (C := fun _ _ => True) (fun _ _ => trivial) s is).invariant
    (fun s i h _ => hstep s i h) h0

theorem outputs_invariant {Inv : List ο → σ → Prop}
    (hstep : ∀ os s i, Inv os s → Inv (os ++ (M.next s i).2) (M.next s i).1) {os : List ο} {s : σ}
    (h0 : Inv os s) (is : List ι) : Inv (os ++ M.outputs s is) (M.run s is) := by
  induction is generalizing os s with
  | nil => simpa [outputs] using h0
  | cons i is ih =>
    have h := ih (hstep os s i h0)
    rwa [List.append_assoc] at h

theorem run_of_outputs (P : σ → Prop) (bad : ο → Prop)
    (hstep : ∀ s i, P s → (∀ o ∈ (M.next s i).2, ¬ bad o) → P (M.next s i).1) {s : σ}
    (h0 : P s) {is : List ι} (h : ∀ o ∈ M.outputs s is, ¬ bad o) : P (M.run s is) := by
  induction is generalizing s with
  | nil => exact h0
  | cons i is ih =>
    refine ih (hstep s i h0 fun o ho => h o ?_) fun o ho => h o ?_
    · exact List.mem_append_left _ ho
    · exact List.mem_append_right _ ho

theorem Throughout.head {P : σ → Prop} {s : σ} {is : List ι} (h : M.Throughout P s is) : P s := by
  cases is with
  | nil => exact h
  | cons i is => exact h.1

theorem throughout_append {P : σ → Prop} (s : σ) (is js : List ι) :
    M.Throughout P s (is ++ js) ↔ M.Throughout P s is ∧ M.Throughout P (M.run s is) js := by
  induction is generalizing s with
  | nil => exact ⟨fun h => ⟨h.head, h⟩, fun h => h.2⟩
  | cons i is ih => simp only [List.cons_append, Throughout, run_cons, ih, and_assoc]

/-- A condition is exact for a property when, along an invariant, a step from a state with
the property keeps it just when the step meets the condition. Then the property holds
throughout a run just when every step of the run meets the condition. -/
theorem throughout_iff_steps {C : σ → ι → Prop} {P : σ → Prop} (Inv : σ → Prop)
    (A : σ → ι → Prop)
    (hinv : ∀ s i, Inv s → A s i → Inv (M.next s i).1)
    (hexact : ∀ s i, Inv s → A s i → P s → (P (M.next s i).1 ↔ C s i)) {s : σ} {is : List ι}
    (hA : M.Steps A s is) (h0 : Inv s) (hP : P s) :
    M.Throughout P s is ↔ M.Steps C s is := by
  induction is generalizing s with
  | nil => simp [Throughout, Steps, hP]
  | cons i is ih =>
    have hI := hinv s i h0 hA.1
    have hx := hexact s i h0 hA.1 hP
    constructor
    · intro h
      have hP' := h.2.head
      exact ⟨hx.mp hP', (ih hA.2 hI hP').mp h.2⟩
    · intro h
      exact ⟨hP, (ih hA.2 hI (hx.mpr h.1)).mpr h.2⟩

/-! ## Observers -/

/-- A system with a history variable that sees the state, the input and the result of
each step. -/
def observed {ω : Type x} (M : System σ ι ο) (observe : ω → σ → ι → σ × List ο → ω) :
    System (ω × σ) ι ο where
  next x i := ((observe x.1 x.2 i (M.next x.2 i), (M.next x.2 i).1), (M.next x.2 i).2)

/-- An observer does not act on what it sees. -/
theorem steps_observed {ω : Type x} {observe : ω → σ → ι → σ × List ο → ω} {C : σ → ι → Prop}
    (w : ω) (s : σ) (is : List ι) :
    (M.observed observe).Steps (fun x i => C x.2 i) (w, s) is ↔ M.Steps C s is := by
  induction is generalizing w s with
  | nil => exact Iff.rfl
  | cons i is ih => exact and_congr_right fun _ => ih _ _

end System
end Runs
