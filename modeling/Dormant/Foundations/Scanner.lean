import Dormant.Foundations.Runs

/-!
# Scanners

A scanner looks at the front of a list and moves on, takes a frame or waits for more. What it finds
in a list does not depend on how the list arrives, if what it leaves of each part is read again with
the next.
-/

set_option autoImplicit false

universe u v w

/-- A look at a list. A frame is of `n + 1` elements. -/
inductive Look (β : Type v) where
  | wait
  | skip
  | take (n : ℕ) (frame : Option β)
  deriving DecidableEq, Repr

/-- A look that does not wait takes what is there and stays the same whatever follows. -/
structure Scanner (α : Type u) (β : Type v) where
  look : List α → Look β
  fits : ∀ {xs : List α} {n : ℕ} {frame : Option β}, look xs = .take n frame → n < xs.length
  stable : ∀ {xs : List α} (more : List α), look xs ≠ .wait → look (xs ++ more) = look xs

namespace Scanner
variable {α : Type u} {β : Type v} (S : Scanner α β)

/-- The frames of a list after the first `n` elements. -/
def framesAfter : ℕ → List α → List β
  | _, [] => []
  | n + 1, _ :: xs => framesAfter n xs
  | 0, x :: xs =>
    match S.look (x :: xs) with
    | .wait => []
    | .skip => framesAfter 0 xs
    | .take n frame => frame.toList ++ framesAfter n xs

/-- The frames that one scan from left to right finds. -/
def frames (xs : List α) : List β := S.framesAfter 0 xs

/-- Reading the list gives these frames and leaves the rest. -/
def Leaves (xs : List α) (found : List β) (rest : List α) : Prop :=
  ∀ more, S.frames (xs ++ more) = found ++ S.frames (rest ++ more)

variable {S}

@[simp] theorem frames_nil : S.frames [] = [] := rfl

theorem framesAfter_eq (n : ℕ) (xs : List α) : S.framesAfter n xs = S.frames (xs.drop n) := by
  induction n generalizing xs with
  | zero => rfl
  | succ n ih =>
    cases xs with
    | nil => rfl
    | cons x xs => exact ih xs

theorem frames_of_wait {xs : List α} (h : S.look xs = .wait) : S.frames xs = [] := by
  cases xs with
  | nil => rfl
  | cons x xs =>
    unfold frames framesAfter
    rw [h]

theorem Leaves.refl (xs : List α) : S.Leaves xs [] xs := fun _ => rfl

theorem Leaves.trans {xs ys zs : List α} {found found' : List β} (h : S.Leaves xs found ys)
    (h' : S.Leaves ys found' zs) : S.Leaves xs (found ++ found') zs := by
  intro more
  rw [h more, h' more, List.append_assoc]

theorem Leaves.append {xs rest : List α} {found : List β} (h : S.Leaves xs found rest)
    (more : List α) : S.Leaves (xs ++ more) found (rest ++ more) := by
  intro more'
  rw [List.append_assoc, List.append_assoc]
  exact h (more ++ more')

theorem Leaves.frames {xs rest : List α} {found : List β} (h : S.Leaves xs found rest)
    (hrest : S.frames rest = []) : S.frames xs = found := by
  have hnone := h []
  rwa [List.append_nil, List.append_nil, hrest, List.append_nil] at hnone

theorem leaves_skip {xs : List α} (h : S.look xs = .skip) : S.Leaves xs [] (xs.drop 1) := by
  intro more
  cases xs with
  | nil => rfl
  | cons x xs =>
    have hmore : S.look (x :: xs ++ more) = .skip := by
      rw [S.stable more (by rw [h]; intro hwait; cases hwait), h]
    rw [List.cons_append] at hmore ⊢
    conv_lhs => unfold frames framesAfter
    rw [hmore]
    rfl

theorem leaves_take {xs : List α} {n : ℕ} {frame : Option β} (h : S.look xs = .take n frame) :
    S.Leaves xs frame.toList (xs.drop (n + 1)) := by
  intro more
  have hfits := S.fits h
  cases xs with
  | nil => exact absurd hfits (Nat.not_lt_zero n)
  | cons x xs =>
    have hmore : S.look (x :: xs ++ more) = .take n frame := by
      rw [S.stable more (by rw [h]; intro hwait; cases hwait), h]
    rw [List.cons_append] at hmore ⊢
    conv_lhs => unfold frames framesAfter
    rw [hmore]
    dsimp only
    rw [List.length_cons] at hfits
    rw [framesAfter_eq, List.drop_append_of_le_length (by omega), List.drop_succ_cons]

/-- A list of elements that are moved on from one by one. -/
theorem leaves_skips {xs : List α} (n : ℕ) (h : ∀ k < n, S.look (xs.drop k) = .skip) :
    S.Leaves xs [] (xs.drop n) := by
  induction n with
  | zero => exact Leaves.refl xs
  | succ n ih =>
    have hstep := leaves_skip (h n (Nat.lt_succ_self n))
    rw [List.drop_drop] at hstep
    exact (ih fun k hk => h k (Nat.lt_succ_of_lt hk)).trans hstep

/-- A reader that leaves, in each step, what it buffers next reads as one scan. -/
theorem Leaves.run {σ : Type w} {M : Runs.System σ (List α) β} {buffer : σ → List α}
    {C : σ → List α → Prop}
    (hnext : ∀ s chunk, C s chunk →
      S.Leaves (buffer s ++ chunk) (M.next s chunk).2 (buffer (M.next s chunk).1))
    {s : σ} {chunks : List (List α)} (h : M.Steps C s chunks) :
    S.Leaves (buffer s ++ chunks.flatten) (M.outputs s chunks) (buffer (M.run s chunks)) := by
  induction chunks generalizing s with
  | nil =>
    rw [List.flatten_nil, List.append_nil]
    exact Leaves.refl (buffer s)
  | cons chunk chunks ih =>
    obtain ⟨hchunk, hchunks⟩ := h
    have hfirst := (hnext s chunk hchunk).append chunks.flatten
    rw [List.append_assoc] at hfirst
    exact hfirst.trans (ih hchunks)

end Scanner
