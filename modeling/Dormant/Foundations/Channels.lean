import Mathlib.Data.List.Basic

/-!
# Bounded channels with fair senders

A channel of a fixed capacity. A sender that finds no free place waits; the places that become free
are handed to those who wait, in their order, and whoever holds a place can deliver. A place is
used by a message or by a sender that holds it, and somebody waits only while all are used.
-/

namespace Channels
set_option autoImplicit false

universe u

structure Channel (μ : Type u) (capacity : ℕ) where
  queued : List μ
  granted : List μ
  waiting : List μ
  bounded : queued.length + granted.length ≤ capacity
  fair : waiting ≠ [] → queued.length + granted.length = capacity

variable {μ : Type u} {capacity : ℕ}

def Channel.empty : Channel μ capacity where
  queued := []
  granted := []
  waiting := []
  bounded := Nat.zero_le _
  fair := fun h => absurd rfl h

namespace Channel
variable (m : Channel μ capacity)

/-- The places that are used. -/
def used : ℕ := m.queued.length + m.granted.length

def send (x : μ) : Channel μ capacity :=
  if h : m.used < capacity then
    { m with
      queued := m.queued ++ [x]
      bounded := by
        unfold used at h
        rw [List.length_append, List.length_singleton]
        omega
      fair := by
        intro hwaiting
        have := m.fair hwaiting
        unfold used at h
        omega }
  else
    { m with
      waiting := m.waiting ++ [x]
      fair := by
        intro _
        have := m.bounded
        unfold used at h
        omega }

/-- A place that was used becomes free, and goes to the first who waits. -/
def release (queued granted : List μ) (h : queued.length + granted.length + 1 = m.used) :
    Channel μ capacity :=
  match hwaiting : m.waiting with
  | [] =>
    { queued := queued
      granted := granted
      waiting := []
      bounded := by
        have := m.bounded
        unfold used at h
        omega
      fair := fun h => absurd rfl h }
  | x :: rest =>
    { queued := queued
      granted := granted ++ [x]
      waiting := rest
      bounded := by
        have := m.bounded
        unfold used at h
        rw [List.length_append, List.length_singleton]
        omega
      fair := by
        intro _
        have := m.fair (by rw [hwaiting]; exact List.cons_ne_nil _ _)
        unfold used at h
        rw [List.length_append, List.length_singleton]
        omega }

/-- The first message, if there is one. -/
def recv : Option (μ × Channel μ capacity) :=
  match hqueued : m.queued with
  | [] => none
  | x :: queued => some (x, m.release queued m.granted (by
      unfold used
      rw [hqueued, List.length_cons]
      omega))

theorem send_full {x : μ} (h : ¬ m.used < capacity) :
    (m.send x).waiting = m.waiting ++ [x] ∧ (m.send x).granted = m.granted := by
  rw [send, dif_neg h]
  exact ⟨rfl, rfl⟩

theorem used_of_waiting {x : μ} (h : x ∈ m.waiting) : ¬ m.used < capacity := by
  have := m.fair (List.ne_nil_of_mem h)
  unfold used
  omega

variable [DecidableEq μ]

/-- A sender that holds a place puts its message in. -/
def deliver (x : μ) : Channel μ capacity :=
  if h : x ∈ m.granted then
    { m with
      queued := m.queued ++ [x]
      granted := m.granted.erase x
      bounded := by
        have := m.bounded
        have := List.length_erase_of_mem h
        have := List.length_pos_of_mem h
        rw [List.length_append, List.length_singleton]
        omega
      fair := by
        intro hwaiting
        have := m.fair hwaiting
        have := List.length_erase_of_mem h
        have := List.length_pos_of_mem h
        rw [List.length_append, List.length_singleton]
        omega }
  else m

/-- A sender gives up. -/
def abandon (x : μ) : Channel μ capacity :=
  if h : x ∈ m.granted then
    m.release m.queued (m.granted.erase x) (by
      have := List.length_erase_of_mem h
      have := List.length_pos_of_mem h
      unfold used
      omega)
  else
    { m with
      waiting := m.waiting.erase x
      fair := by
        intro hwaiting
        apply m.fair
        intro hnone
        rw [hnone] at hwaiting
        exact hwaiting rfl }

/-! ## Channels that nobody empties -/

/-- A sender waits, and nobody holds a place: only a receiver can change that. -/
structure Stuck (x : μ) : Prop where
  waits : x ∈ m.waiting
  none : m.granted = []

variable {m}

omit [DecidableEq μ] in
theorem Stuck.send {x : μ} (h : m.Stuck x) (y : μ) : (m.send y).Stuck x := by
  obtain ⟨hwaiting, hgranted⟩ := m.send_full (x := y) (m.used_of_waiting h.waits)
  constructor
  · rw [hwaiting]
    exact List.mem_append_left _ h.waits
  · rw [hgranted]
    exact h.none

theorem Stuck.deliver {x : μ} (h : m.Stuck x) (y : μ) : m.deliver y = m := by
  unfold Channel.deliver
  rw [dif_neg]
  rw [h.none]
  exact List.not_mem_nil

theorem Stuck.abandon {x : μ} (h : m.Stuck x) {y : μ} (hy : y ≠ x) : (m.abandon y).Stuck x := by
  have hnot : y ∉ m.granted := by
    rw [h.none]
    exact List.not_mem_nil
  unfold Channel.abandon
  rw [dif_neg hnot]
  exact ⟨(List.mem_erase_of_ne (Ne.symm hy)).mpr h.waits, h.none⟩

end Channel
end Channels
