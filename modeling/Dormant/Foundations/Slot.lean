import Mathlib.Data.Nat.Notation
import Mathlib.Data.List.Basic

/-!
# One slot for several sources

A source is in force until its deadline, or until it is taken away when it has none. A slot
shows the deadline of one source where there may be several. `Shows` is what a slot says of
the sources: an empty one that no source is in force, any other the deadline of a source.
-/

set_option autoImplicit false

namespace Slot

def InForce (clock : ℕ) : Option ℕ → Prop
  | none => True
  | some deadline => clock < deadline

instance (clock : ℕ) : DecidablePred (InForce clock)
  | none => isTrue trivial
  | some deadline => inferInstanceAs (Decidable (clock < deadline))

def Live (clock : ℕ) (sources : List (Option ℕ)) : Prop := ∃ w ∈ sources, InForce clock w

instance (clock : ℕ) (sources : List (Option ℕ)) : Decidable (Live clock sources) :=
  inferInstanceAs (Decidable (∃ w ∈ sources, InForce clock w))

structure Shows (sources : List (Option ℕ)) (clock : ℕ) (slot : Option (Option ℕ)) : Prop where
  empty : slot = none → ¬ Live clock sources
  shown : ∀ w, slot = some w → w ∈ sources

variable {sources sources' : List (Option ℕ)} {clock now : ℕ} {slot : Option (Option ℕ)}

theorem InForce.earlier {w : Option ℕ} (h : InForce now w) (hle : clock ≤ now) :
    InForce clock w := by
  cases w with
  | none => trivial
  | some deadline => exact Nat.lt_of_le_of_lt hle h

theorem Live.earlier (h : Live now sources) (hle : clock ≤ now) : Live clock sources := by
  obtain ⟨w, hw, hf⟩ := h
  exact ⟨w, hw, hf.earlier hle⟩

theorem shows_nil (clock : ℕ) : Shows [] clock none where
  empty _ h := by
    obtain ⟨w, hw, -⟩ := h
    exact nomatch hw
  shown _ h := nomatch h

theorem Shows.placed {w : Option ℕ} (h : w ∈ sources) : Shows sources clock (some w) where
  empty h := nomatch h
  shown w' hw' := by rwa [← Option.some.inj hw']

theorem Shows.lifted (h : ¬ Live clock sources) : Shows sources clock none where
  empty _ := h
  shown _ h := nomatch h

theorem Shows.pass (h : Shows sources clock slot) (hle : clock ≤ now)
    (hsame : ∀ w, w ∈ sources' ↔ w ∈ sources) : Shows sources' now slot where
  empty hslot hlive := by
    obtain ⟨w, hw, hf⟩ := hlive
    exact h.empty hslot ⟨w, (hsame w).mp hw, hf.earlier hle⟩
  shown w hw := (hsame w).mpr (h.shown w hw)

/-- Until the deadline that it shows, the slot is full just when a source is in force. -/
theorem Shows.isSome_iff (h : Shows sources clock slot) (hle : clock ≤ now)
    (hdue : ∀ deadline, slot = some (some deadline) → now < deadline) :
    slot.isSome = true ↔ Live now sources := by
  cases slot with
  | none =>
    refine ⟨fun hs => absurd hs Bool.false_ne_true, fun hlive => ?_⟩
    exact absurd (hlive.earlier hle) (h.empty rfl)
  | some w =>
    refine ⟨fun _ => ⟨w, h.shown w rfl, ?_⟩, fun _ => rfl⟩
    cases w with
    | none => trivial
    | some deadline => exact hdue deadline rfl

end Slot
