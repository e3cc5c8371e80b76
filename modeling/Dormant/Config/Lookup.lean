import Dormant.Config.SchemaTree
import Mathlib.Data.List.Find

/-!
# Looking a path of the tree up

The table is read by string comparison, the tree by segments. Below an id without a dot both give
the same keys: the joined path is then the level of the table with the id put where its double dot
is. The levels of the table and the finitely many paths of the tree, up to ids, are checked one by
one.
-/

namespace Dormant.Schema
set_option autoImplicit false

/-! ## Joined paths -/

/-- The segments of a path, each behind a dot. -/
def dots : List Key → Key
  | [] => []
  | segment :: rest => '.' :: (segment ++ dots rest)

theorem dots_append (p q : List Key) : dots (p ++ q) = dots p ++ dots q := by
  induction p with
  | nil => rfl
  | cons segment rest ih => simp [dots, ih]

theorem flatten_concat (path : List Key) (key : Key) :
    flatten (path ++ [key]) = joined (flatten path) key := by
  simp [flatten]

theorem foldl_joined {base : Key} (hbase : base ≠ []) (path : List Key) :
    path.foldl joined base = base ++ dots path := by
  induction path generalizing base with
  | nil => simp [dots]
  | cons segment rest ih =>
    have hempty : base.isEmpty = false := by simpa using hbase
    rw [List.foldl_cons, joined, hempty]
    simp only [Bool.false_eq_true, if_false]
    rw [ih (by simp)]
    simp [dots]

theorem flatten_cons {c : Key} (hc : c ≠ []) (path : List Key) :
    flatten (c :: path) = c ++ dots path := foldl_joined hc path

theorem joined_injective {p q key : Key} (h : joined p key = joined q key) : p = q := by
  have hlen := congrArg List.length h
  unfold joined at h hlen
  cases p with
  | nil =>
    cases q with
    | nil => rfl
    | cons c q =>
      simp at hlen
      omega
  | cons c p =>
    cases q with
    | nil =>
      simp at hlen
      omega
    | cons d q =>
      simp only [List.isEmpty_cons, Bool.false_eq_true, if_false] at h
      exact List.append_cancel_right h

/-- Empty segments add nothing, and only they do. -/
theorem flatten_eq_nil {path : List Key} (h : flatten path = []) :
    path = List.replicate path.length [] := by
  induction path with
  | nil => rfl
  | cons segment rest ih =>
    cases segment with
    | nil => rw [List.length_cons, List.replicate_succ, ← ih h]
    | cons c segment =>
      rw [flatten_cons (by simp)] at h
      simp at h

theorem fromDot_append {x : Key} (hx : '.' ∉ x) {s : List Char}
    (hs : s = [] ∨ ∃ rest, s = '.' :: rest) :
    fromDot (x ++ s) = if s = [] then none else some s := by
  induction x with
  | nil =>
    rcases hs with rfl | ⟨rest, rfl⟩
    · rfl
    · simp [fromDot]
  | cons c x ih =>
    have hc : c ≠ '.' := by
      rintro rfl
      simp at hx
    rw [List.cons_append, fromDot, if_neg hc]
    exact ih (by simpa using fun h => hx (List.mem_cons_of_mem _ h))

theorem dots_shape (path : List Key) : dots path = [] ∨ ∃ rest, dots path = '.' :: rest := by
  cases path with
  | nil => exact .inl rfl
  | cons segment rest => exact .inr ⟨_, rfl⟩

/-! ## The levels of the table -/

theorem level_of_collection : ∀ c ∈ collections, ∀ level ∈ knownKeys, level.path ≠ [] →
    level.path.isPrefixOf (c ++ ['.']) = true ∨ (c ++ ['.']).isPrefixOf level.path = true →
    level.path = c ++ ['.'] ∨ (c ++ ['.', '.']).isPrefixOf level.path = true := by
  decide

theorem split_none : ∀ level ∈ knownKeys, splitDoubleDot level.path = none →
    ∀ c ∈ collections, (c ++ ['.', '.']).isPrefixOf level.path = false := by
  decide

theorem split_some : ∀ level ∈ knownKeys, ∀ parts ∈ splitDoubleDot level.path,
    parts.1 = displays ∧ level.path = displays ++ '.' :: parts.2 ∧ parts.2.head? = some '.' := by
  decide

theorem keys_ne_nil : ∀ level ∈ knownKeys, level.keys ≠ [] := by decide

theorem collection_nonempty : ∀ c ∈ collections, c ≠ [] := by decide

theorem displays_not_before : ∀ c ∈ collections, c ≠ displays →
    displays.isPrefixOf (c ++ ['.']) = false ∧ (c ++ ['.']).isPrefixOf displays = false := by
  decide

/-! ## Below an id -/

/-- The keys of the level that is the path itself. -/
def exactKeys (path : Key) : Option (List Key) :=
  (knownKeys.find? fun level => level.path == path).map (·.keys)

theorem level_before {c : Key} (hc : c ∈ collections) {level : KnownLevel}
    (hlevel : level ∈ knownKeys) (hne : level.path ≠ []) {s : List Char}
    (h : level.path.isPrefixOf (c ++ '.' :: s) = true) :
    level.path = c ++ ['.'] ∨ (c ++ ['.', '.']).isPrefixOf level.path = true := by
  refine level_of_collection c hc level hlevel hne ?_
  rw [List.isPrefixOf_iff_prefix] at h
  have hbase : c ++ ['.'] <+: c ++ '.' :: s := ⟨s, by simp⟩
  rcases List.prefix_or_prefix_of_prefix h hbase with h | h
  · exact .inl (List.isPrefixOf_iff_prefix.mpr h)
  · exact .inr (List.isPrefixOf_iff_prefix.mpr h)

theorem not_displays {c : Key} (hc : c ∈ collections) (hne : c ≠ displays) (s : List Char) :
    ¬ displays <+: c ++ '.' :: s := by
  intro h
  obtain ⟨h₁, h₂⟩ := displays_not_before c hc hne
  have hbase : c ++ ['.'] <+: c ++ '.' :: s := ⟨s, by simp⟩
  rcases List.prefix_or_prefix_of_prefix h hbase with h | h
  · rw [List.isPrefixOf_iff_prefix.mpr h] at h₁
    cases h₁
  · rw [List.isPrefixOf_iff_prefix.mpr h] at h₂
    cases h₂

/-- An id that is not empty and has no dot ends the search for longer levels. -/
theorem level_before_id {c : Key} (hc : c ∈ collections) {level : KnownLevel}
    (hlevel : level ∈ knownKeys) (hne : level.path ≠ []) {x s : List Char} (hx : x ≠ [])
    (hdot : '.' ∉ x) (h : level.path.isPrefixOf (c ++ '.' :: (x ++ s)) = true) :
    level.path = c ++ ['.'] := by
  rcases level_before hc hlevel hne h with hpath | hlong
  · exact hpath
  · cases x with
    | nil => exact absurd rfl hx
    | cons d x =>
      rw [List.isPrefixOf_iff_prefix] at h hlong
      have hdots := hlong.trans h
      rw [List.prefix_append_right_inj] at hdots
      simp only [List.cons_append, List.cons_prefix_cons, true_and] at hdots
      exact absurd (hdots.1 ▸ List.mem_cons_self) hdot

theorem matchesId_id {c : Key} (hc : c ∈ collections) {x : Key} (hx : x ≠ []) (hdot : '.' ∉ x)
    {level : KnownLevel} (hlevel : level ∈ knownKeys) {tail : List Char}
    (htail : tail = [] ∨ ∃ rest, tail = '.' :: rest) :
    matchesId (c ++ '.' :: (x ++ tail)) level =
      (decide (tail = []) && level.path == c ++ ['.']) := by
  by_cases hpath : level.path = c ++ ['.']
  · have hdrop : (c ++ '.' :: (x ++ tail)).drop (c ++ ['.']).length = x ++ tail := by
      have happ : c ++ '.' :: (x ++ tail) = (c ++ ['.']) ++ (x ++ tail) := by simp
      rw [happ, List.drop_left]
    have hpre : (c ++ ['.']).isPrefixOf (c ++ '.' :: (x ++ tail)) = true :=
      List.isPrefixOf_iff_prefix.mpr ⟨x ++ tail, by simp⟩
    rw [matchesId, hpath, hdrop, hpre]
    rcases htail with rfl | ⟨rest, rfl⟩
    · simpa using hdot
    · simp
  · have hnot : matchesId (c ++ '.' :: (x ++ tail)) level = false := by
      rw [Bool.eq_false_iff]
      intro h
      simp only [matchesId, Bool.and_eq_true, Bool.not_eq_true', List.isEmpty_eq_false_iff] at h
      exact hpath (level_before_id hc hlevel h.1.1 hx hdot h.1.2)
    rw [hnot]
    simp [hpath]

theorem utf8Size_pos (c : Char) : 0 < c.utf8Size := Char.utf8Size_pos c

theorem utf8Len_append (s t : List Char) : utf8Len (s ++ t) = utf8Len s + utf8Len t := by
  induction s with
  | nil => simp [utf8Len]
  | cons c s ih =>
    simp only [List.cons_append, utf8Len, ih]
    omega

theorem matchesDoubleDot_id {c : Key} (hc : c ∈ collections) {x : Key} (hdot : '.' ∉ x)
    {level : KnownLevel} (hlevel : level ∈ knownKeys) (rest : List Char) :
    matchesDoubleDot (c ++ '.' :: (x ++ '.' :: rest)) level =
      some (level.path == c ++ '.' :: '.' :: rest) := by
  unfold matchesDoubleDot
  cases hsplit : splitDoubleDot level.path with
  | none =>
    have hlong := split_none level hlevel hsplit c hc
    have hne : level.path ≠ c ++ '.' :: '.' :: rest := by
      intro h
      rw [h, Bool.eq_false_iff] at hlong
      exact hlong (List.isPrefixOf_iff_prefix.mpr ⟨rest, by simp⟩)
    simp [hne]
  | some parts =>
    obtain ⟨before, after⟩ := parts
    obtain ⟨hbefore, hpath, -⟩ := split_some level hlevel _ hsplit
    dsimp only at hbefore hpath
    by_cases hdisplays : c = displays
    · subst hdisplays
      have hdrop : (displays ++ '.' :: (x ++ '.' :: rest)).drop displays.length =
          '.' :: (x ++ '.' :: rest) := List.drop_left
      have hpre : displays.isPrefixOf (displays ++ '.' :: (x ++ '.' :: rest)) = true :=
        List.isPrefixOf_iff_prefix.mpr ⟨_, rfl⟩
      have hlen : utf8Len displays < utf8Len (displays ++ '.' :: (x ++ '.' :: rest)) := by
        rw [utf8Len_append, utf8Len]
        have := utf8Size_pos '.'
        omega
      have hrest : 1 < utf8Len ('.' :: (x ++ '.' :: rest)) := by
        rw [utf8Len, utf8Len_append, utf8Len]
        have := utf8Size_pos '.'
        omega
      have hfrom : fromDot (x ++ '.' :: rest) = some ('.' :: rest) := by
        rw [fromDot_append hdot (.inr ⟨rest, rfl⟩), if_neg (by simp)]
      have hslice : sliceFromOne ('.' :: (x ++ '.' :: rest)) = some (x ++ '.' :: rest) := rfl
      simp only [hbefore, hdrop, hpre, hlen, hrest, decide_true, Bool.and_self, if_true, hslice,
        Option.map_some, hfrom]
      rw [hpath]
      simp [eq_comm]
    · have hnot : displays.isPrefixOf (c ++ '.' :: (x ++ '.' :: rest)) = false := by
        rw [Bool.eq_false_iff]
        intro h
        exact not_displays hc hdisplays _ (List.isPrefixOf_iff_prefix.mp h)
      have hne : level.path ≠ c ++ '.' :: '.' :: rest := by
        intro h
        exact not_displays hc hdisplays ('.' :: rest) ⟨'.' :: after, hpath.symm.trans h⟩
      simp [hbefore, hnot, hne]

theorem findDoubleDot_eq {path : Key} {levels : List KnownLevel} {q : KnownLevel → Bool}
    (h : ∀ level ∈ levels, matchesDoubleDot path level = some (q level)) :
    findDoubleDot path levels = some (((levels.find? q).map (·.keys)).getD []) := by
  induction levels with
  | nil => rfl
  | cons level rest ih =>
    have hlevel := h level List.mem_cons_self
    have hrest := ih fun other hother => h other (List.mem_cons_of_mem _ hother)
    rw [findDoubleDot, hlevel, List.find?_cons]
    cases hq : q level with
    | true => simp
    | false => simpa using hrest

theorem knownKeysForPath_below {c : Key} (hc : c ∈ collections) {x : Key} (hdot : '.' ∉ x)
    (rest : List Char)
    (hclear : x = [] → ∀ level ∈ knownKeys,
      matchesId (c ++ '.' :: '.' :: rest) level = true → level.path = c ++ '.' :: '.' :: rest) :
    knownKeysForPath (c ++ '.' :: (x ++ '.' :: rest)) =
      some ((exactKeys (c ++ '.' :: '.' :: rest)).getD []) := by
  have hlevels : ∀ level ∈ knownKeys, matchesDoubleDot (c ++ '.' :: (x ++ '.' :: rest)) level =
      some (level.path == c ++ '.' :: '.' :: rest) :=
    fun level hlevel => matchesDoubleDot_id hc hdot hlevel rest
  have hdouble := findDoubleDot_eq hlevels
  by_cases hx : x = []
  · subst hx
    unfold knownKeysForPath exactKeys
    cases hexact : knownKeys.find? fun level => level.path == c ++ '.' :: '.' :: rest with
    | some level => simp [hexact]
    | none =>
      have hid : knownKeys.find? (matchesId (c ++ '.' :: '.' :: rest)) = none :=
        List.find?_eq_none.mpr fun level hlevel h => by
          have hpath := hclear rfl level hlevel h
          exact List.find?_eq_none.mp hexact level hlevel (by simp [hpath])
      simp only [List.nil_append] at hdouble ⊢
      rw [hexact, hid, hdouble, hexact]
  · have hexact : (knownKeys.find? fun level => level.path == c ++ '.' :: (x ++ '.' :: rest)) =
        none := by
      refine List.find?_eq_none.mpr fun level hlevel h => ?_
      have hpath : level.path = c ++ '.' :: (x ++ '.' :: rest) := by simpa using h
      have hid := level_before_id hc hlevel (by simp [hpath]) hx hdot
        (List.isPrefixOf_iff_prefix.mpr ⟨[], by rw [List.append_nil, hpath]⟩)
      rw [hpath] at hid
      simp at hid
    have hid : knownKeys.find? (matchesId (c ++ '.' :: (x ++ '.' :: rest))) = none :=
      List.find?_eq_none.mpr fun level hlevel => by
        rw [matchesId_id hc hx hdot hlevel (.inr ⟨rest, rfl⟩)]
        simp
    unfold knownKeysForPath
    rw [hexact, hid, hdouble]
    rfl

theorem collection_level : ∀ c ∈ collections,
    knownKeysForPath (c ++ ['.']) = some ((exactKeys (c ++ ['.'])).getD []) ∧
      ∃ level ∈ knownKeys, level.path = c ++ ['.'] := by
  decide

theorem knownKeysForPath_entity {c : Key} (hc : c ∈ collections) {x : Key} (hdot : '.' ∉ x) :
    knownKeysForPath (c ++ '.' :: x) = some ((exactKeys (c ++ ['.'])).getD []) := by
  obtain ⟨hempty, level, hlevel, hpath⟩ := collection_level c hc
  by_cases hx : x = []
  · subst hx
    exact hempty
  · have hexact : (knownKeys.find? fun level => level.path == c ++ '.' :: x) = none := by
      refine List.find?_eq_none.mpr fun level hlevel h => ?_
      have hpath : level.path = c ++ '.' :: x := by simpa using h
      have hid := level_before_id (s := []) hc hlevel (by simp [hpath]) hx hdot
        (List.isPrefixOf_iff_prefix.mpr ⟨[], by rw [List.append_nil, List.append_nil, hpath]⟩)
      rw [hpath] at hid
      simp [hx] at hid
    have hid : knownKeys.find? (matchesId (c ++ '.' :: x)) =
        knownKeys.find? fun level => level.path == c ++ ['.'] := by
      refine List.find?_congr fun other hother => ?_
      have h : matchesId (c ++ '.' :: (x ++ [])) other =
          (decide (([] : Key) = []) && other.path == c ++ ['.']) :=
        matchesId_id hc hx hdot hother (.inl rfl)
      simpa using h
    obtain ⟨found, hfound⟩ : ∃ found, (knownKeys.find? fun level => level.path == c ++ ['.']) =
        some found := by
      rw [← Option.isSome_iff_exists, List.find?_isSome]
      exact ⟨level, hlevel, by simp [hpath]⟩
    unfold knownKeysForPath exactKeys
    rw [hexact, hid, hfound]
    rfl

/-- No level lies at or below a base, so neither does one below an id. -/
theorem knownKeysForPath_nothing {c : Key} (hc : c ∈ collections) {x : Key} (hdot : '.' ∉ x)
    {base : List Char}
    (hbase : ∀ level ∈ knownKeys, (c ++ ['.', '.']).isPrefixOf level.path = true →
      level.path.isPrefixOf (c ++ '.' :: '.' :: base) = false ∧
        (c ++ '.' :: '.' :: base).isPrefixOf level.path = false) (s : List Char) :
    knownKeysForPath (c ++ '.' :: (x ++ '.' :: (base ++ s))) = some [] := by
  have hlevel : ∀ level ∈ knownKeys, level.path ≠ [] →
      level.path.isPrefixOf (c ++ '.' :: '.' :: (base ++ s)) = true → level.path = c ++ ['.'] := by
    intro level hlevel hne h
    rcases level_before hc hlevel hne h with hpath | hlong
    · exact hpath
    · obtain ⟨h₁, h₂⟩ := hbase level hlevel hlong
      rw [List.isPrefixOf_iff_prefix] at h
      have hpre : c ++ '.' :: '.' :: base <+: c ++ '.' :: '.' :: (base ++ s) := ⟨s, by simp⟩
      rcases List.prefix_or_prefix_of_prefix h hpre with h | h
      · rw [List.isPrefixOf_iff_prefix.mpr h] at h₁
        cases h₁
      · rw [List.isPrefixOf_iff_prefix.mpr h] at h₂
        cases h₂
  rw [knownKeysForPath_below hc hdot]
  · have hnone : exactKeys (c ++ '.' :: '.' :: (base ++ s)) = none := by
      rw [exactKeys, Option.map_eq_none_iff, List.find?_eq_none]
      intro level hmem h
      have hpath : level.path = c ++ '.' :: '.' :: (base ++ s) := by simpa using h
      have hid := hlevel level hmem (by simp [hpath])
        (List.isPrefixOf_iff_prefix.mpr ⟨[], by rw [List.append_nil, hpath]⟩)
      rw [hpath] at hid
      simp at hid
    rw [hnone]
    rfl
  · intro _ level hmem h
    simp only [matchesId, Bool.and_eq_true, Bool.not_eq_true', List.isEmpty_eq_false_iff] at h
    have hpath := hlevel level hmem h.1.1 h.1.2
    have hdrop : (c ++ '.' :: '.' :: (base ++ s)).drop (c ++ ['.']).length =
        '.' :: (base ++ s) := by
      have happ : c ++ '.' :: '.' :: (base ++ s) = (c ++ ['.']) ++ '.' :: (base ++ s) := by simp
      rw [happ, List.drop_left]
    rw [hpath, hdrop] at h
    simp at h

/-! ## The last segment -/

theorem endsWithSegment_concat {name : Key} (hname : '.' ∉ name) (s key : Key) :
    endsWithSegment (s ++ '.' :: key) name = true ↔
      key = name ∨ endsWithSegment key name = true := by
  unfold endsWithSegment
  rw [List.isSuffixOf_iff_suffix, List.isSuffixOf_iff_suffix]
  constructor
  · intro h
    rcases List.suffix_or_suffix_of_suffix h (List.suffix_append s ('.' :: key)) with h | h
    · rcases List.suffix_cons_iff.mp h with h | h
      · exact .inl (List.cons.inj h).2.symm
      · exact .inr h
    · rcases List.suffix_cons_iff.mp h with h | h
      · exact .inl (List.cons.inj h).2
      · exact absurd (h.subset List.mem_cons_self) hname
  · rintro (rfl | h)
    · exact List.suffix_append _ _
    · exact h.trans ((List.suffix_cons _ _).trans (List.suffix_append _ _))

theorem not_endsWithSegment {key : Key} (hkey : '.' ∉ key) (name : Key) :
    endsWithSegment key name = false := by
  rw [Bool.eq_false_iff]
  intro h
  rw [endsWithSegment, List.isSuffixOf_iff_suffix] at h
  exact hkey (h.subset List.mem_cons_self)

theorem endsWithSegment_plain {name : Key} (hname : '.' ∉ name) (s : Key) {key : Key}
    (hkey : '.' ∉ key) : endsWithSegment (s ++ '.' :: key) name = true ↔ key = name := by
  rw [endsWithSegment_concat hname, not_endsWithSegment hkey]
  simp

end Dormant.Schema
