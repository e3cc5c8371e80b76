import Mathlib.Data.Nat.Notation

/-!
# Countdowns that can be frozen

A countdown runs toward a deadline, or is frozen with the time it has left. `Covers` is the
accounting invariant: the time spent while it ran, with what is left of it, makes up the
need. Every operation keeps it, and at the deadline it says that the need was spent.
-/

set_option autoImplicit false

inductive Countdown where
  | running (deadline : ℕ)
  | frozen (remaining : ℕ)
  deriving DecidableEq, Repr

namespace Countdown
variable {need spent clock now : ℕ} {c : Countdown}

def left : Countdown → ℕ → ℕ
  | running deadline, clock => deadline - clock
  | frozen remaining, _ => remaining

/-- The time that counts between two instants: all of it while the countdown runs. -/
def counted : Countdown → ℕ → ℕ → ℕ
  | running _, clock, now => now - clock
  | frozen _, _, _ => 0

def freeze (now : ℕ) : Countdown → Countdown
  | running deadline => frozen (deadline - now)
  | frozen remaining => frozen remaining

def thaw (now : ℕ) : Countdown → Countdown
  | running deadline => running deadline
  | frozen remaining => running (now + remaining)

/-- What was spent and what is left make up the need. -/
def Covers (need spent clock : ℕ) (c : Countdown) : Prop := need ≤ spent + c.left clock

theorem covers_running (need now : ℕ) : Covers need 0 now (running (now + need)) := by
  show need ≤ 0 + (now + need - now)
  omega

theorem covers_frozen (need now : ℕ) : Covers need 0 now (frozen need) := by
  show need ≤ 0 + need
  omega

theorem Covers.pass (h : Covers need spent clock c) (now : ℕ) :
    Covers need (spent + c.counted clock now) now c := by
  cases c with
  | running deadline =>
    simp only [Covers, left, counted] at h ⊢
    omega
  | frozen remaining => exact h

theorem Covers.freeze (h : Covers need spent now c) : Covers need spent now (c.freeze now) := by
  cases c <;> exact h

theorem Covers.thaw (h : Covers need spent now c) : Covers need spent now (c.thaw now) := by
  cases c with
  | running deadline => exact h
  | frozen remaining =>
    simp only [Covers, left, Countdown.thaw] at h ⊢
    omega

theorem Covers.cap {remaining : ℕ} (h : Covers need spent now (frozen remaining)) :
    Covers need spent now (running (now + min remaining need)) := by
  simp only [Covers, left] at h ⊢
  omega

/-- At the deadline the whole need was spent. -/
theorem Covers.expired {deadline : ℕ} (h : Covers need spent now (running deadline))
    (hnow : deadline ≤ now) : need ≤ spent := by
  simp only [Covers, left] at h
  omega

end Countdown
