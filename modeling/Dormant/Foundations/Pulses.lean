import Mathlib.Data.List.Count

/-!
# Pulses that renew themselves

A pulse that is sent comes due again one interval later, and when it comes due one or more
pulses may be sent in its place. Those beyond the one that it renews are begun anew. Then no
more pulses are ever pending than were begun, and no more are sent within one interval.
-/

set_option autoImplicit false

/-- The times at which pulses are due and were sent, and how many were begun. -/
structure Pulses where
  due : List ℕ
  sent : List ℕ
  begun : ℕ

namespace Pulses

def none : Pulses := { due := [], sent := [], begun := 0 }

/-- A number of pulses are sent at one time, and all of them are begun there. -/
def begin (p : Pulses) (interval now k : ℕ) : Pulses :=
  { due := List.replicate k (now + interval) ++ p.due
    sent := List.replicate k now ++ p.sent
    begun := p.begun + k }

/-- A pulse that is due goes, and the first one sent instead renews it. -/
def renew (p : Pulses) (interval now k : ℕ) : Pulses :=
  { due := List.replicate k (now + interval) ++ p.due.erase now
    sent := List.replicate k now ++ p.sent
    begun := p.begun + (k - 1) }

def within (start interval time : ℕ) : Bool := decide (start ≤ time ∧ time < start + interval)

/-- Whatever the window, the pulses sent in it and those due before its end were begun. -/
def Steady (interval : ℕ) (p : Pulses) : Prop :=
  ∀ start, p.sent.countP (within start interval) + p.due.countP (· < start + interval) ≤ p.begun

variable {interval : ℕ} {p : Pulses}

theorem steady_none : Steady interval none := fun _ => Nat.le_refl 0

/-- Of pulses sent at one time, what a window counts: now as sent or an interval later as due. -/
theorem count_sent (start interval now k : ℕ) :
    (List.replicate k now).countP (within start interval) +
      (List.replicate k (now + interval)).countP (· < start + interval) =
        if now < start + interval then k else 0 := by
  rw [List.countP_replicate, List.countP_replicate]
  by_cases hend : now < start + interval
  · by_cases hstart : start ≤ now
    · have hlater : ¬ now + interval < start + interval := by omega
      simp [within, hstart, hend, hlater]
    · have hearly : now + interval < start + interval := by omega
      simp [within, hstart, hend, hearly]
  · have hlater : ¬ now + interval < start + interval := by omega
    simp [within, hend, hlater]

theorem Steady.begin (h : Steady interval p) (now k : ℕ) : Steady interval (p.begin interval now k) := by
  intro start
  have hp := h start
  have hsent := count_sent start interval now k
  have hk : (if now < start + interval then k else 0) ≤ k := by split <;> omega
  simp only [Pulses.begin, List.countP_append]
  omega

theorem Steady.renew (h : Steady interval p) {now : ℕ} (hdue : now ∈ p.due) (k : ℕ) :
    Steady interval (p.renew interval now k) := by
  intro start
  have hp := h start
  have hsent := count_sent start interval now k
  simp only [Pulses.renew, List.countP_append, List.countP_erase, hdue, true_and,
    decide_eq_true_eq]
  by_cases hend : now < start + interval
  · -- the pulse that goes made room for the one that renews it
    have hone : 1 ≤ p.due.countP (· < start + interval) :=
      List.countP_pos_iff.mpr ⟨now, hdue, by simpa using hend⟩
    rw [if_pos hend] at hsent ⊢
    omega
  · rw [if_neg hend] at hsent ⊢
    omega

theorem Steady.sent_le (h : Steady interval p) (start : ℕ) :
    p.sent.countP (within start interval) ≤ p.begun := by
  have hp := h start
  omega

theorem Steady.due_le (h : Steady interval p) : p.due.length ≤ p.begun := by
  -- a window late enough counts every pending pulse
  have hlate : ∃ start, ∀ t ∈ p.due, t < start := by
    induction p.due with
    | nil => exact ⟨0, by simp⟩
    | cons t due ih =>
      obtain ⟨start, hstart⟩ := ih
      refine ⟨max (t + 1) start, fun u hu => ?_⟩
      rcases List.mem_cons.mp hu with rfl | hu
      · omega
      · have hlt := hstart u hu
        omega
  obtain ⟨start, hstart⟩ := hlate
  have hall : p.due.countP (· < start + interval) = p.due.length := by
    refine List.countP_eq_length.mpr fun t ht => ?_
    have hlt := hstart t ht
    simp only [decide_eq_true_eq]
    omega
  have hp := h start
  omega

end Pulses
