import Mathlib.Data.List.Infix
import Mathlib.Data.Prod.Lex
import Mathlib.Order.WellFounded

/-!
# Device globs

`glob_matches` of `filtered_activity.rs`: the matcher that remembers the last star only. It compares
before it looks for a star, so a star that meets a star of the text is taken for that character.
-/

namespace Dormant
set_option autoImplicit false

namespace Glob

/-! ## The matcher -/

/-- The two indices, as the suffixes that they begin, and what was left of both when the last star
was met. -/
structure State where
  pattern : List Char
  text : List Char
  star : Option (List Char × List Char)
  behind : ∀ ps ts, star = some (ps, ts) → pattern <:+ ps ∧ text <:+ ts

/-- The first test of the loop. -/
def Same (a c : Char) : Prop := a = '?' ∨ a = c

instance (a c : Char) : Decidable (Same a c) := inferInstanceAs (Decidable (_ ∨ _))

def State.advance (s : State) (ps ts : List Char) (hp : ps <:+ s.pattern) (ht : ts <:+ s.text) :
    State where
  pattern := ps
  text := ts
  star := s.star
  behind := fun ps' ts' h => ⟨hp.trans (s.behind ps' ts' h).1, ht.trans (s.behind ps' ts' h).2⟩

def State.remember (ps ts : List Char) : State where
  pattern := ps
  text := ts
  star := some (ps, ts)
  behind := by
    intro ps' ts' h
    cases h
    exact ⟨List.suffix_refl ps, List.suffix_refl ts⟩

/-- Back to the last star, which takes one more character. -/
def State.retry (s : State) : Bool ⊕ State :=
  match s.star with
  | some (ps, ts) => .inr (.remember ps (ts.drop 1))
  | none => .inl false

/-- One pass of the loop, or the result. -/
def State.pass (s : State) : Bool ⊕ State :=
  match htext : s.text with
  | [] => .inl (s.pattern.all (· = '*'))
  | c :: ts =>
    match hpattern : s.pattern with
    | a :: ps =>
      if Same a c then
        .inr (s.advance ps ts (hpattern ▸ List.suffix_cons a ps) (htext ▸ List.suffix_cons c ts))
      else if a = '*' then .inr (.remember ps s.text)
      else s.retry
    | [] => s.retry

/-- What can happen in a pass. -/
theorem pass_cases (s : State) :
    s.text = [] ∧ s.pass = .inl (s.pattern.all (· = '*')) ∨
      ∃ c ts, s.text = c :: ts ∧
        ((∃ a ps s', s.pattern = a :: ps ∧ Same a c ∧ s.pass = .inr s' ∧
            s'.pattern = ps ∧ s'.text = ts ∧ s'.star = s.star) ∨
          (∃ ps, s.pattern = '*' :: ps ∧ c ≠ '*' ∧ s.pass = .inr (.remember ps s.text)) ∨
          (∀ a ps, s.pattern = a :: ps → ¬ Same a c ∧ a ≠ '*') ∧ s.pass = s.retry) := by
  unfold State.pass
  split
  · rename_i htext
    exact .inl ⟨htext, rfl⟩
  · rename_i c ts htext
    refine .inr ⟨c, ts, htext, ?_⟩
    split
    · rename_i a ps hpattern
      split
      · rename_i hsame
        exact .inl ⟨a, ps, _, hpattern, hsame, rfl, rfl, rfl, rfl⟩
      · rename_i hdiffers
        split
        · rename_i hstar
          subst hstar
          exact .inr (.inl ⟨ps, hpattern, fun heq => hdiffers (.inr heq.symm), rfl⟩)
        · rename_i hplain
          refine .inr (.inr ⟨fun a' ps' heq => ?_, rfl⟩)
          obtain ⟨rfl, -⟩ := List.cons.inj (hpattern.symm.trans heq)
          exact ⟨hdiffers, hplain⟩
    · rename_i hpattern
      refine .inr (.inr ⟨fun a ps heq => ?_, rfl⟩)
      rw [hpattern] at heq
      cases heq

/-- Falls from pass to pass. -/
def State.rank (s : State) : ℕ ×ₗ ℕ ×ₗ ℕ :=
  match s.star with
  | none => toLex (s.text.length + 1, toLex (0, s.text.length))
  | some (ps, ts) => toLex (ts.length, toLex (ps.length, s.text.length))

theorem lex_lt {a b c a' b' c' : ℕ} (h : a < a' ∨ a ≤ a' ∧ (b < b' ∨ b ≤ b' ∧ c < c')) :
    (toLex (a, toLex (b, c)) : ℕ ×ₗ ℕ ×ₗ ℕ) < toLex (a', toLex (b', c')) := by
  simp only [Prod.Lex.toLex_lt_toLex]
  omega

theorem pass_rank {s s' : State} (h : s.pass = .inr s') : s'.rank < s.rank := by
  rcases pass_cases s with ⟨-, hdone⟩ | ⟨c, ts, htext, hpass⟩
  · rw [hdone] at h
    cases h
  have hlength : s.text.length = ts.length + 1 := by
    rw [htext, List.length_cons]
  rcases hpass with ⟨a, ps, s'', hpattern, -, hnext, -, hts, hstar⟩ | ⟨ps, hpattern, -, hnext⟩ |
    ⟨-, hretry⟩
  · rw [hnext] at h
    obtain rfl := Sum.inr.inj h
    unfold State.rank
    rw [hstar, hts]
    cases s.star with
    | none => exact lex_lt (by omega)
    | some behind => exact lex_lt (by omega)
  · rw [hnext] at h
    obtain rfl := Sum.inr.inj h
    unfold State.rank State.remember
    cases hstar : s.star with
    | none => exact lex_lt (by omega)
    | some behind =>
      obtain ⟨hps, hts⟩ := s.behind behind.1 behind.2 hstar
      have hps' := hps.length_le
      have hts' := hts.length_le
      rw [hpattern, List.length_cons] at hps'
      exact lex_lt (by omega)
  · rw [hretry] at h
    unfold State.retry at h
    cases hstar : s.star with
    | none =>
      rw [hstar] at h
      cases h
    | some behind =>
      rw [hstar] at h
      obtain rfl := Sum.inr.inj h
      have hts := (s.behind behind.1 behind.2 hstar).2.length_le
      unfold State.rank State.remember
      rw [hstar]
      refine lex_lt (.inl ?_)
      rw [List.length_drop]
      omega

def matchLoop (s : State) : Bool :=
  match _hpass : s.pass with
  | .inl result => result
  | .inr s' => matchLoop s'
termination_by s.rank
decreasing_by exact pass_rank (by assumption)

def globMatches (pattern text : List Char) : Bool :=
  matchLoop ⟨pattern, text, none, fun _ _ h => by cases h⟩

/-! ## The language -/

/-- The texts of a pattern, where a star stands for the strings that are allowed before the rest. -/
inductive Matches (allowed : List Char → List Char → Prop) : List Char → List Char → Prop where
  | nil : Matches allowed [] []
  | star {ps taken ts : List Char} (h : allowed taken ts) (hrest : Matches allowed ps ts) :
      Matches allowed ('*' :: ps) (taken ++ ts)
  | one {ps ts : List Char} (c : Char) (hrest : Matches allowed ps ts) :
      Matches allowed ('?' :: ps) (c :: ts)
  | char {ps ts : List Char} {c : Char} (hstar : c ≠ '*') (hone : c ≠ '?')
      (hrest : Matches allowed ps ts) : Matches allowed (c :: ps) (c :: ts)

/-- A star stands for any string. -/
def Language : List Char → List Char → Prop := Matches fun _ _ => True

/-- A star that begins at a star of the text stands for this one character. -/
def sparing (taken ts : List Char) : Prop := (taken ++ ts).head? = some '*' → taken = ['*']

variable {allowed : List Char → List Char → Prop}

theorem matches_star_iff {ps text : List Char} :
    Matches allowed ('*' :: ps) text ↔
      ∃ taken ts, text = taken ++ ts ∧ allowed taken ts ∧ Matches allowed ps ts := by
  constructor
  · intro h
    cases h with
    | star h hrest => exact ⟨_, _, rfl, h, hrest⟩
    | char hstar => exact absurd rfl hstar
  · rintro ⟨taken, ts, rfl, h, hrest⟩
    exact .star h hrest

theorem matches_cons_iff {a : Char} (ha : a ≠ '*') {ps text : List Char} :
    Matches allowed (a :: ps) text ↔
      ∃ c ts, text = c :: ts ∧ Same a c ∧ Matches allowed ps ts := by
  constructor
  · intro h
    cases h with
    | star h hrest => exact absurd rfl ha
    | one c hrest => exact ⟨c, _, rfl, .inl rfl, hrest⟩
    | char hstar hone hrest => exact ⟨a, _, rfl, .inr rfl, hrest⟩
  · rintro ⟨c, ts, rfl, hsame, hrest⟩
    by_cases hone : a = '?'
    · subst hone
      exact .one c hrest
    · obtain rfl := hsame.resolve_left hone
      exact .char ha hone hrest

theorem matches_mono {allowed' : List Char → List Char → Prop}
    (h : ∀ taken ts, allowed taken ts → allowed' taken ts) {pattern text : List Char}
    (hmatches : Matches allowed pattern text) : Matches allowed' pattern text := by
  induction hmatches with
  | nil => exact .nil
  | star hallowed _ ih => exact .star (h _ _ hallowed) ih
  | one c _ ih => exact .one c ih
  | char hstar hone _ ih => exact .char hstar hone ih

/-! ## The last star is enough -/

theorem sparing_nil_iff (pattern : List Char) :
    Matches sparing pattern [] ↔ pattern.all (· = '*') = true := by
  induction pattern with
  | nil => exact iff_of_true .nil rfl
  | cons a ps ih =>
    rw [List.all_cons, Bool.and_eq_true, decide_eq_true_eq, ← ih]
    by_cases ha : a = '*'
    · subst ha
      rw [matches_star_iff]
      constructor
      · rintro ⟨taken, ts, htext, -, hrest⟩
        obtain ⟨-, rfl⟩ := List.append_eq_nil_iff.mp htext.symm
        exact ⟨rfl, hrest⟩
      · rintro ⟨-, hrest⟩
        exact ⟨[], [], rfl, (fun h => by cases h), hrest⟩
    · rw [matches_cons_iff ha]
      constructor
      · rintro ⟨c, ts, htext, -⟩
        cases htext
      · rintro ⟨heq, -⟩
        exact absurd heq ha

theorem sparing_star_star_iff {ps ts : List Char} :
    Matches sparing ('*' :: ps) ('*' :: ts) ↔ Matches sparing ps ts := by
  rw [matches_star_iff]
  constructor
  · rintro ⟨taken, rest, htext, hsparing, hrest⟩
    have htaken := hsparing (by rw [← htext]; rfl)
    subst htaken
    obtain rfl := (List.cons.inj htext).2
    exact hrest
  · intro hrest
    exact ⟨['*'], ts, rfl, fun _ => rfl, hrest⟩

theorem sparing_star_iff {ps ts : List Char} {c : Char} (hc : c ≠ '*') :
    Matches sparing ('*' :: ps) (c :: ts) ↔ ∃ d, Matches sparing ps ((c :: ts).drop d) := by
  rw [matches_star_iff]
  constructor
  · rintro ⟨taken, rest, htext, -, hrest⟩
    refine ⟨taken.length, ?_⟩
    rw [htext, List.drop_left]
    exact hrest
  · rintro ⟨d, hrest⟩
    refine ⟨(c :: ts).take d, (c :: ts).drop d, (List.take_append_drop d _).symm, ?_, hrest⟩
    intro hhead
    rw [List.take_append_drop] at hhead
    exact absurd (Option.some.inj hhead) hc

/-- Character for character, stars included. -/
def Literal : List Char → List Char → Prop
  | [], _ => True
  | a :: q, c :: ts => Same a c ∧ Literal q ts
  | _ :: _, [] => False

/-- Where the pattern went literally from a place, it gets no farther from a later one. -/
theorem dominated {q r ts : List Char} {d : ℕ} (hliteral : Literal q ts)
    (h : Matches sparing (q ++ r) (ts.drop d)) :
    ∃ e, Matches sparing r ((ts.drop q.length).drop e) := by
  induction q generalizing ts d with
  | nil => exact ⟨d, h⟩
  | cons a q ih =>
    cases ts with
    | nil => exact hliteral.elim
    | cons c ts =>
      obtain ⟨hsame, hliteral⟩ := hliteral
      by_cases ha : a = '*'
      · subst ha
        have hc : c = '*' := (hsame.resolve_left (by decide)).symm
        subst hc
        cases d with
        | zero => exact ih (d := 0) hliteral (sparing_star_star_iff.mp h)
        | succ d =>
          obtain ⟨taken, rest, htext, -, hrest⟩ := matches_star_iff.mp h
          refine ih (d := d + taken.length) hliteral ?_
          rw [← List.drop_drop, show ts.drop d = taken ++ rest from htext, List.drop_left]
          exact hrest
      · obtain ⟨c', rest, htext, -, hrest⟩ := (matches_cons_iff ha).mp h
        refine ih (d := d) hliteral ?_
        have htail : (c :: ts).drop (d + 1) = rest := by
          rw [← List.drop_drop, htext]
          rfl
        exact htail ▸ hrest

theorem Literal.snoc {q ts rest : List Char} {a c : Char} (h : Literal q ts)
    (hrest : ts.drop q.length = c :: rest) (hsame : Same a c) : Literal (q ++ [a]) ts := by
  induction q generalizing ts with
  | nil =>
    obtain rfl : ts = c :: rest := hrest
    exact ⟨hsame, trivial⟩
  | cons b q ih =>
    cases ts with
    | nil => exact h.elim
    | cons d ts => exact ⟨h.1, ih h.2 hrest⟩

/-- From the last star on the pattern went literally. -/
def Followed (s : State) : Prop :=
  ∀ ps ts, s.star = some (ps, ts) →
    ∃ q, ps = q ++ s.pattern ∧ s.text = ts.drop q.length ∧ Literal q ts

/-- The rest of the text belongs to the rest of the pattern, here or from a later place. -/
def Accepts (s : State) : Prop :=
  Matches sparing s.pattern s.text ∨
    ∃ ps ts, s.star = some (ps, ts) ∧ ∃ d, Matches sparing ps (ts.drop (d + 1))

theorem followed_remember (ps ts : List Char) : Followed (.remember ps ts) := by
  intro ps' ts' h
  cases h
  exact ⟨[], rfl, rfl, trivial⟩

theorem accepts_remember (ps ts : List Char) :
    Accepts (.remember ps ts) ↔ ∃ d, Matches sparing ps (ts.drop d) := by
  constructor
  · rintro (h | ⟨ps', ts', heq, d, h⟩)
    · exact ⟨0, h⟩
    · cases heq
      exact ⟨d + 1, h⟩
  · rintro ⟨d, h⟩
    cases d with
    | zero => exact .inl h
    | succ d => exact .inr ⟨ps, ts, rfl, d, h⟩

/-- What a later place could still give is given here too. -/
theorem accepts_later {s : State} (hfollowed : Followed s) {ps ts : List Char} {d : ℕ}
    (hstar : s.star = some (ps, ts)) (h : Matches sparing ps (ts.drop (d + 1))) :
    ∃ e, Matches sparing s.pattern (s.text.drop e) := by
  obtain ⟨q, rfl, htext, hliteral⟩ := hfollowed ps ts hstar
  rw [htext]
  exact dominated hliteral h

theorem accepts_done {s : State} (hfollowed : Followed s) (htext : s.text = []) :
    s.pattern.all (· = '*') = true ↔ Accepts s := by
  rw [← sparing_nil_iff]
  constructor
  · intro h
    exact .inl (htext ▸ h)
  · rintro (h | ⟨ps, ts, hstar, d, h⟩)
    · exact htext ▸ h
    · obtain ⟨e, he⟩ := accepts_later hfollowed hstar h
      rw [htext, List.drop_nil] at he
      exact he

theorem accepts_retry {s : State} (h : ¬ Matches sparing s.pattern s.text) :
    (∀ result, s.retry = .inl result → (result = true ↔ Accepts s)) ∧
      ∀ s', s.retry = .inr s' → Followed s' ∧ (Accepts s' ↔ Accepts s) := by
  unfold State.retry
  cases hstar : s.star with
  | none =>
    refine ⟨fun result heq => ?_, fun s' heq => by cases heq⟩
    obtain rfl := Sum.inl.inj heq
    refine iff_of_false Bool.false_ne_true ?_
    rintro (hhere | ⟨ps, ts, hsome, -⟩)
    · exact h hhere
    · rw [hstar] at hsome
      cases hsome
  | some behind =>
    refine ⟨fun result heq => (by cases heq), fun s' heq => ?_⟩
    obtain rfl := Sum.inr.inj heq
    refine ⟨followed_remember _ _, ?_⟩
    rw [accepts_remember]
    constructor
    · rintro ⟨d, hd⟩
      rw [List.drop_drop, Nat.add_comm] at hd
      exact .inr ⟨behind.1, behind.2, hstar, d, hd⟩
    · rintro (hhere | ⟨ps, ts, hsome, d, hd⟩)
      · exact absurd hhere h
      · rw [hstar] at hsome
        obtain rfl := Option.some.inj hsome
        refine ⟨d, ?_⟩
        rw [List.drop_drop, Nat.add_comm]
        exact hd

/-- A pass keeps what is accepted. -/
theorem pass_accepts {s : State} (hfollowed : Followed s) :
    (∀ result, s.pass = .inl result → (result = true ↔ Accepts s)) ∧
      ∀ s', s.pass = .inr s' → Followed s' ∧ (Accepts s' ↔ Accepts s) := by
  rcases pass_cases s with ⟨htext, hpass⟩ | ⟨c, ts, htext, hpass⟩
  · rw [hpass]
    refine ⟨fun result heq => ?_, fun s' heq => by cases heq⟩
    rw [← Sum.inl.inj heq]
    exact accepts_done hfollowed htext
  rcases hpass with ⟨a, ps, s'', hpattern, hsame, hpass, hps, hts, hstar⟩ |
    ⟨ps, hpattern, hc, hpass⟩ | ⟨hmismatch, hpass⟩
  · rw [hpass]
    refine ⟨fun result heq => (by cases heq), fun s' heq => ?_⟩
    obtain rfl := Sum.inr.inj heq
    constructor
    · intro ps' ts' hsome
      rw [hstar] at hsome
      obtain ⟨q, rfl, htext', hliteral⟩ := hfollowed ps' ts' hsome
      rw [hpattern, hps, hts]
      rw [htext] at htext'
      refine ⟨q ++ [a], by rw [List.append_assoc]; rfl, ?_, hliteral.snoc htext'.symm hsame⟩
      rw [List.length_append, ← List.drop_drop, ← htext']
      rfl
    · have hhere : Matches sparing s''.pattern s''.text ↔ Matches sparing s.pattern s.text := by
        rw [hps, hts, hpattern, htext]
        by_cases ha : a = '*'
        · subst ha
          have hc : c = '*' := (hsame.resolve_left (by decide)).symm
          subst hc
          exact sparing_star_star_iff.symm
        · rw [matches_cons_iff ha]
          constructor
          · intro hrest
            exact ⟨c, ts, rfl, hsame, hrest⟩
          · rintro ⟨c', ts', heq, -, hrest⟩
            obtain ⟨rfl, rfl⟩ := List.cons.inj heq
            exact hrest
      unfold Accepts
      rw [hhere, hstar]
  · rw [hpass]
    refine ⟨fun result heq => (by cases heq), fun s' heq => ?_⟩
    obtain rfl := Sum.inr.inj heq
    have hhere : (∃ d, Matches sparing ps (s.text.drop d)) ↔
        Matches sparing s.pattern s.text := by
      rw [hpattern, htext]
      exact (sparing_star_iff hc).symm
    refine ⟨followed_remember _ _, ?_⟩
    rw [accepts_remember, hhere]
    refine ⟨Or.inl, ?_⟩
    rintro (h | ⟨ps', ts', hstar, d, h⟩)
    · exact h
    -- the new star takes whatever a later place of the old one would skip
    obtain ⟨e, he⟩ := accepts_later hfollowed hstar h
    rw [hpattern] at he
    obtain ⟨taken, rest, heq, -, hrest⟩ := matches_star_iff.mp he
    rw [← hhere]
    refine ⟨e + taken.length, ?_⟩
    rw [← List.drop_drop, heq, List.drop_left]
    exact hrest
  · rw [hpass]
    refine accepts_retry ?_
    rw [htext]
    intro h
    cases hpattern : s.pattern with
    | nil =>
      rw [hpattern] at h
      cases h
    | cons a ps =>
      obtain ⟨hdiffers, hstar⟩ := hmismatch a ps hpattern
      rw [hpattern] at h
      obtain ⟨c', ts', heq, hsame, -⟩ := (matches_cons_iff hstar).mp h
      obtain ⟨rfl, -⟩ := List.cons.inj heq
      exact hdiffers hsame

theorem matchLoop_iff {s : State} (hfollowed : Followed s) : matchLoop s = true ↔ Accepts s := by
  fun_induction matchLoop s with
  | case1 s result hpass => exact (pass_accepts hfollowed).1 result hpass
  | case2 s s' hpass ih =>
    obtain ⟨hfollowed', haccepts⟩ := (pass_accepts hfollowed).2 s' hpass
    exact (ih hfollowed').trans haccepts

/-- The texts that the matcher finds. -/
theorem globMatches_sparing (pattern text : List Char) :
    globMatches pattern text = true ↔ Matches sparing pattern text := by
  refine (matchLoop_iff fun ps ts h => by cases h).trans ?_
  constructor
  · rintro (h | ⟨ps, ts, hstar, -⟩)
    · exact h
    · cases hstar
  · exact Or.inl

/-- Without a star in the text there is no star to spare. -/
theorem sparing_of_no_star {pattern text : List Char} (htext : '*' ∉ text)
    (h : Language pattern text) : Matches sparing pattern text := by
  induction h with
  | nil => exact .nil
  | star _ _ ih =>
    refine .star (fun hhead => ?_) (ih fun hmem => htext (List.mem_append_right _ hmem))
    exact absurd (List.mem_of_head? hhead) htext
  | one c _ ih => exact .one c (ih fun hmem => htext (List.mem_cons_of_mem c hmem))
  | char hstar hone _ ih =>
    exact .char hstar hone (ih fun hmem => htext (List.mem_cons_of_mem _ hmem))

/-- The matcher decides the language of the pattern just where a text of it needs no star that takes
more, or less, than the star of the text at which it begins. -/
theorem glob_matches_language_iff (pattern text : List Char) :
    (globMatches pattern text = true ↔ Language pattern text) ↔
      (Language pattern text → Matches sparing pattern text) := by
  rw [globMatches_sparing]
  have hsound : Matches sparing pattern text → Language pattern text :=
    matches_mono fun _ _ _ => trivial
  constructor
  · intro h
    exact h.mpr
  · intro h
    exact ⟨hsound, h⟩

/-- A name that begins with a star does not match the star, which matches everything. -/
theorem star_misses_starred_name :
    Language ['*'] ['*', 'a'] ∧ globMatches ['*'] ['*', 'a'] = false := by
  constructor
  · have hall : Language ['*'] (['*', 'a'] ++ []) := .star trivial .nil
    exact hall
  · rw [← Bool.not_eq_true, globMatches_sparing]
    intro h
    cases sparing_star_star_iff.mp h

end Glob
end Dormant
