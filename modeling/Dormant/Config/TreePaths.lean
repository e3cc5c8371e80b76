import Dormant.Config.Lookup
import Mathlib.Data.List.Induction

/-!
# The paths of the tree

A path of the tree has no id, or goes below an entity by known keys, or names a weight of a zone.
`reads_of_inTree` says that the joined path is then read as the path it stands for, when the ids are
plain. The levels of the table and the paths without an id are checked one by one.
-/

namespace Dormant.Schema
set_option autoImplicit false

/-! ## Dotted segments -/

theorem takeWhile_dot {s : Key} (hs : '.' ∉ s) {rest : List Char}
    (hrest : rest = [] ∨ ∃ more, rest = '.' :: more) :
    (s ++ rest).takeWhile (· != '.') = s := by
  induction s with
  | nil =>
    rcases hrest with rfl | ⟨more, rfl⟩
    · rfl
    · rfl
  | cons c s ih =>
    have hc : c ≠ '.' := fun h => hs (h ▸ List.mem_cons_self)
    rw [List.cons_append, List.takeWhile_cons, if_pos (by simpa using hc),
      ih fun h => hs (List.mem_cons_of_mem _ h)]

theorem dots_injective {p q : List Key} (hp : ∀ s ∈ p, '.' ∉ s) (hq : ∀ s ∈ q, '.' ∉ s)
    (h : dots p = dots q) : p = q := by
  induction p generalizing q with
  | nil =>
    cases q with
    | nil => rfl
    | cons s q => cases h
  | cons s p ih =>
    cases q with
    | nil => cases h
    | cons s' q =>
      have h : s ++ dots p = s' ++ dots q := (List.cons.inj h).2
      have hs : s = s' := by
        rw [← takeWhile_dot (hp s List.mem_cons_self) (dots_shape p), h,
          takeWhile_dot (hq s' List.mem_cons_self) (dots_shape q)]
      subst hs
      rw [ih (fun s hs => hp s (List.mem_cons_of_mem _ hs))
        (fun s hs => hq s (List.mem_cons_of_mem _ hs)) (List.append_cancel_left h)]

/-- A beginning of a dotted path that leaves no dot ends within its last segment. -/
theorem dots_beginning {p q : List Key} (hp : ∀ s ∈ p, '.' ∉ s) (hq : ∀ s ∈ q, '.' ∉ s)
    (hne : p ≠ []) {left : Key} (hleft : '.' ∉ left) (h : dots p ++ left = dots q) :
    ∃ above last, p = above ++ [last] ∧ q = above ++ [last ++ left] := by
  induction p generalizing q with
  | nil => exact absurd rfl hne
  | cons s p ih =>
    cases q with
    | nil => cases h
    | cons s' q =>
      have h : s ++ (dots p ++ left) = s' ++ dots q := by
        simpa [dots] using (List.cons.inj h).2
      cases p with
      | nil =>
        have hq' : dots q = [] := by
          rcases dots_shape q with hq | ⟨rest, hrest⟩
          · exact hq
          · have hmem : '.' ∈ s ++ left := by
              have : s ++ left = s' ++ dots q := h
              rw [this, hrest]
              simp
            rcases List.mem_append.mp hmem with hmem | hmem
            · exact absurd hmem (hp s List.mem_cons_self)
            · exact absurd hmem hleft
        rw [hq', List.append_nil] at h
        have hqnil : q = [] := by
          cases q with
          | nil => rfl
          | cons s q => cases hq'
        exact ⟨[], s, rfl, by rw [hqnil, ← h]; rfl⟩
      | cons t p =>
        have hs : (s ++ (dots (t :: p) ++ left)).takeWhile (· != '.') = s :=
          takeWhile_dot (hp s List.mem_cons_self) (.inr ⟨_, rfl⟩)
        rw [h, takeWhile_dot (hq s' List.mem_cons_self) (dots_shape q)] at hs
        subst hs
        obtain ⟨above, last, hpath, hmore⟩ := ih
          (fun s hs => hp s (List.mem_cons_of_mem _ hs))
          (fun s hs => hq s (List.mem_cons_of_mem _ hs)) (by simp) (List.append_cancel_left h)
        exact ⟨s' :: above, last, by rw [hpath]; rfl, by rw [hmore]; rfl⟩

/-! ## The levels, segment by segment -/

/-- What follows the id in the path of a level. -/
def tailOf (path : Key) : List Key := (path.splitOn '.').drop 2

theorem level_dotted : ∀ c ∈ collections, ∀ level ∈ knownKeys,
    (c ++ ['.', '.']).isPrefixOf level.path = true →
      level.path = c ++ '.' :: dots (tailOf level.path) ∧
        pattern level.path = some c :: none :: (tailOf level.path).map some ∧
        tailOf level.path ≠ [] ∧ ∀ s ∈ tailOf level.path, '.' ∉ s := by
  decide

theorem level_other : ∀ c ∈ collections, ∀ level ∈ knownKeys,
    (c ++ ['.', '.']).isPrefixOf level.path = false →
      level.path = c ++ ['.'] ∧ pattern level.path = [some c, none] ∨
      level.path ≠ c ++ ['.'] ∧
        ∀ name ∈ (pattern level.path).head?, name ≠ none ∧ name ≠ some c := by
  decide

/-- No known key goes on behind a sibling that has a level of its own. -/
theorem level_sibling : ∀ c ∈ collections, ∀ level ∈ knownKeys,
    (c ++ ['.', '.']).isPrefixOf level.path = true → ∀ last ∈ (tailOf level.path).getLast?,
      ∀ key ∈ (exactKeys (c ++ '.' :: dots (tailOf level.path).dropLast)).getD [],
        last.isPrefixOf key = true → key = last := by
  decide

theorem key_plain : ∀ level ∈ knownKeys, ∀ key ∈ level.keys,
    '.' ∉ key ∧ isDigitSegment key = false := by
  decide

/-- The levels that have a structural name among their keys. -/
theorem level_structural : ∀ level ∈ knownKeys,
    (weights ∈ level.keys → level.path = chars "zones.") ∧
      (ladder ∈ level.keys → level.path = chars "displays.") ∧
      (source ∈ level.keys → level.path = chars "displays..screensaver") ∧
      ((∃ key ∈ level.keys, isPassthroughDataKey key = true) → level.path = chars "displays.") := by
  decide

theorem collection_dot : ∀ c ∈ collections, '.' ∉ c := by decide

/-! ## Paths without an id -/

def pathsBelow : Nat → List Key → List (List Key)
  | 0, _ => []
  | depth + 1, path =>
    path :: ((sectionKeys path).getD []).flatMap fun key => pathsBelow depth (path ++ [key])

def fixedPaths : List (List Key) := pathsBelow 4 []

theorem fixed_checked : ∀ path ∈ fixedPaths,
    (∀ key ∈ (sectionKeys path).getD [], path ++ [key] ∈ fixedPaths) ∧
    (knownKeysForPath (flatten path) = some ((sectionKeys path).getD []) ∧
      ((isCollectionLevel (flatten path) || isWeightsLevel (flatten path)) = true ↔
        ∃ c ∈ collections, path = [c]) ∧
      isArrayOfTablesParent (flatten path) = false) ∧
    ∀ c ∈ collections, path.head? = some c → path = [c] := by
  decide +kernel

/-! ## Sections below an id -/

theorem matchesPattern_some (names path : List Key) :
    matchesPattern (names.map some) path = (names == path) := by
  induction names generalizing path with
  | nil => cases path <;> rfl
  | cons name names ih =>
    cases path with
    | nil => rfl
    | cons segment path =>
      rw [List.map_cons, matchesPattern, ih]
      rfl

theorem matchesPattern_entity {c : Key} (hc : c ∈ collections) (x : Key) {tail : List Key}
    (htail : ∀ s ∈ tail, '.' ∉ s) {level : KnownLevel} (hlevel : level ∈ knownKeys) :
    matchesPattern (pattern level.path) (c :: x :: tail) =
      (level.path == c ++ '.' :: dots tail) := by
  cases hlong : (c ++ ['.', '.']).isPrefixOf level.path with
  | true =>
    obtain ⟨hpath, hpattern, -, hplain⟩ := level_dotted c hc level hlevel hlong
    have hmatch : matchesPattern (pattern level.path) (c :: x :: tail) =
        (tailOf level.path == tail) := by
      rw [hpattern, matchesPattern, matchesPattern, matchesPattern_some]
      simp
    rw [hmatch, Bool.eq_iff_iff, beq_iff_eq, beq_iff_eq]
    constructor
    · intro h
      rw [← h]
      exact hpath
    · intro h
      have hdots := hpath.symm.trans h
      rw [List.append_cancel_left_eq, List.cons.injEq] at hdots
      exact dots_injective hplain htail hdots.2
  | false =>
    rcases level_other c hc level hlevel hlong with ⟨hpath, hpattern⟩ | ⟨hpath, hhead⟩
    · rw [hpattern, hpath, Bool.eq_iff_iff, beq_iff_eq, List.append_cancel_left_eq]
      cases tail with
      | nil => simp [matchesPattern, dots]
      | cons s tail => simp [matchesPattern, dots]
    · have hne : level.path ≠ c ++ '.' :: dots tail := by
        intro h
        have hself : level.path.isPrefixOf (c ++ '.' :: dots tail) = true :=
          List.isPrefixOf_iff_prefix.mpr ⟨[], by rw [List.append_nil, h]⟩
        rcases level_before hc hlevel (by simp [h]) hself with h | h
        · exact hpath h
        · rw [hlong] at h
          cases h
      have hmatch : matchesPattern (pattern level.path) (c :: x :: tail) = false := by
        cases hnames : pattern level.path with
        | nil => rfl
        | cons name names =>
          rw [hnames] at hhead
          obtain ⟨hsome, hother⟩ := hhead name rfl
          cases name with
          | none => exact absurd rfl hsome
          | some name =>
            have hname : (name == c) = false := by
              rw [beq_eq_false_iff_ne]
              rintro rfl
              exact hother rfl
            simp [matchesPattern, hname]
      rw [hmatch]
      simp [hne]

/-- The id does not matter for the known keys of a section. -/
theorem sectionKeys_entity {c : Key} (hc : c ∈ collections) (x : Key) {tail : List Key}
    (htail : ∀ s ∈ tail, '.' ∉ s) :
    sectionKeys (c :: x :: tail) = exactKeys (c ++ '.' :: dots tail) := by
  rw [sectionKeys, exactKeys, List.find?_congr]
  intro level hlevel
  exact matchesPattern_entity hc x htail hlevel

theorem exists_level {path keys : List Key} (h : keys ∈ sectionKeys path) :
    ∃ level ∈ knownKeys, matchesPattern (pattern level.path) path = true ∧ level.keys = keys := by
  rw [sectionKeys, Option.mem_def, Option.map_eq_some_iff] at h
  obtain ⟨level, hfind, hkeys⟩ := h
  have hmatch : matchesPattern (pattern level.path) path = true := by
    have := List.find?_some hfind
    exact this
  exact ⟨level, List.mem_of_find?_eq_some hfind, hmatch, hkeys⟩

theorem sectionKeys_plain {path keys : List Key} (h : keys ∈ sectionKeys path) {key : Key}
    (hkey : key ∈ keys) : '.' ∉ key ∧ isDigitSegment key = false := by
  obtain ⟨level, hlevel, -, rfl⟩ := exists_level h
  exact key_plain level hlevel key hkey

/-! ## The shapes of a path -/

/-- The last segment behind the id is a known key of the section above it. -/
def KnownLast (c : Key) (tail : List Key) : Prop :=
  ∀ above key, tail = above ++ [key] → ∃ keys ∈ sectionKeys (c :: [] :: above), key ∈ keys

theorem inTree_shape {path : List Key} (h : InTree path) :
    path ∈ fixedPaths ∨
      (∃ c ∈ collections, ∃ x tail, path = c :: x :: tail ∧ (∀ s ∈ tail, '.' ∉ s) ∧
        KnownLast c tail) ∨
      ∃ zone member, path = [zones, zone, weights, member] := by
  induction h with
  | root => exact .inl List.mem_cons_self
  | @child path key hpath hkey ih =>
    rcases hkey with (⟨c, hc, rfl⟩ | ⟨zone, rfl⟩) | ⟨keys, hkeys, hkey⟩
    · refine .inr (.inl ⟨c, hc, key, [], rfl, by simp, ?_⟩)
      intro above k hk
      simp at hk
    · exact .inr (.inr ⟨zone, key, rfl⟩)
    · rcases ih with hfixed | ⟨c, hc, x, tail, rfl, htail, hlast⟩ | ⟨zone, member, rfl⟩
      · refine .inl ((fixed_checked path hfixed).1 key ?_)
        rw [hkeys]
        exact hkey
      · refine .inr (.inl ⟨c, hc, x, tail ++ [key], rfl, ?_, ?_⟩)
        · intro s hs
          rcases List.mem_append.mp hs with hs | hs
          · exact htail s hs
          · rw [List.mem_singleton.mp hs]
            exact (sectionKeys_plain hkeys hkey).1
        · intro above k hk
          obtain ⟨rfl, hsegment⟩ := List.append_inj' hk rfl
          rw [← (List.cons.inj hsegment).1]
          refine ⟨keys, ?_, hkey⟩
          rw [sectionKeys_entity hc [] htail, ← sectionKeys_entity hc x htail]
          exact hkeys
      · cases hkeys

/-! ## Reading a path of the tree -/

/-- The joined path gives the keys of the section, and takes ids where the section does. -/
structure Reads (path : List Key) : Prop where
  keys : knownKeysForPath (flatten path) = some ((sectionKeys path).getD [])
  ids : (isCollectionLevel (flatten path) || isWeightsLevel (flatten path)) = true ↔ AnyChild path

theorem not_collection (s t : Key) : isCollectionLevel (s ++ '.' :: t) = false := by
  rw [isCollectionLevel, Bool.eq_false_iff]
  intro h
  exact collection_dot _ (List.contains_iff_mem.mp h) (by simp)

theorem weights_plain : '.' ∉ weights ∧ '.' ∉ ladder ∧ '.' ∉ source := by decide

theorem arrayParent_iff (path : Key) : isArrayOfTablesParent path = true ↔
    endsWithSegment path ladder = true ∨ endsWithSegment path source = true := by
  rw [isArrayOfTablesParent, Bool.or_eq_true]
  rfl

theorem flatten_last {c : Key} (hc : c ≠ []) (above : List Key) (key : Key) :
    flatten (c :: (above ++ [key])) = (c ++ dots above) ++ '.' :: key := by
  rw [flatten_cons hc, dots_append, List.append_assoc]
  simp [dots]

/-! ### Where the structural names are known -/

theorem matchesPattern_id {c : Key} {path : List Key}
    (h : matchesPattern [some c, none] path = true) : ∃ x, path = [c, x] := by
  cases path with
  | nil => cases h
  | cons d path =>
    cases path with
    | nil => simp [matchesPattern] at h
    | cons x path =>
      cases path with
      | nil =>
        simp only [matchesPattern, Bool.and_true, beq_iff_eq] at h
        exact ⟨x, by rw [h]⟩
      | cons s path => simp [matchesPattern] at h

theorem pattern_structural : pattern (chars "zones.") = [some zones, none] ∧
    pattern (chars "displays.") = [some displays, none] ∧
    pattern (chars "displays..screensaver") = [some displays, none, some screensaver] := by
  decide

theorem section_weights {path keys : List Key} (h : keys ∈ sectionKeys path)
    (hkey : weights ∈ keys) : ∃ x, path = [zones, x] := by
  obtain ⟨level, hlevel, hmatch, rfl⟩ := exists_level h
  rw [(level_structural level hlevel).1 hkey, pattern_structural.1] at hmatch
  exact matchesPattern_id hmatch

theorem section_ladder {path keys : List Key} (h : keys ∈ sectionKeys path)
    (hkey : ladder ∈ keys) : ∃ x, path = [displays, x] := by
  obtain ⟨level, hlevel, hmatch, rfl⟩ := exists_level h
  rw [(level_structural level hlevel).2.1 hkey, pattern_structural.2.1] at hmatch
  exact matchesPattern_id hmatch

theorem section_data {path keys : List Key} (h : keys ∈ sectionKeys path) {key : Key}
    (hkey : key ∈ keys) (hdata : isPassthroughDataKey key = true) : ∃ x, path = [displays, x] := by
  obtain ⟨level, hlevel, hmatch, rfl⟩ := exists_level h
  rw [(level_structural level hlevel).2.2.2 ⟨key, hkey, hdata⟩, pattern_structural.2.1] at hmatch
  exact matchesPattern_id hmatch

theorem section_source {path keys : List Key} (h : keys ∈ sectionKeys path)
    (hkey : source ∈ keys) : ∃ x, path = [displays, x, screensaver] := by
  obtain ⟨level, hlevel, hmatch, rfl⟩ := exists_level h
  rw [(level_structural level hlevel).2.2.1 hkey, pattern_structural.2.2] at hmatch
  obtain ⟨x, rest, rfl, hrest⟩ : ∃ x rest, path = displays :: x :: rest ∧
      matchesPattern [some screensaver] rest = true := by
    cases path with
    | nil => cases hmatch
    | cons d path =>
      cases path with
      | nil => simp [matchesPattern] at hmatch
      | cons x path =>
        simp only [matchesPattern, Bool.and_eq_true, beq_iff_eq] at hmatch
        exact ⟨x, path, by rw [hmatch.1], hmatch.2⟩
  have hone := matchesPattern_some [screensaver] rest
  rw [List.map_cons, List.map_nil, hrest] at hone
  exact ⟨x, by rw [eq_of_beq hone.symm]⟩

/-- An id that is a prefix of nothing else does not change the search for the level. -/
theorem tail_clear {c : Key} (hc : c ∈ collections) {tail : List Key}
    (htail : ∀ s ∈ tail, '.' ∉ s) (hne : tail ≠ []) (hlast : KnownLast c tail)
    {level : KnownLevel} (hlevel : level ∈ knownKeys)
    (h : matchesId (c ++ '.' :: dots tail) level = true) :
    level.path = c ++ '.' :: dots tail := by
  simp only [matchesId, Bool.and_eq_true, Bool.not_eq_true', List.isEmpty_eq_false_iff] at h
  obtain ⟨⟨hlne, hpre⟩, hleft⟩ := h
  obtain ⟨left, hleft'⟩ := List.isPrefixOf_iff_prefix.mp hpre
  have hdrop : (c ++ '.' :: dots tail).drop level.path.length = left := by
    rw [← hleft', List.drop_left]
  rw [hdrop] at hleft
  have hnodot : '.' ∉ left := by
    intro hmem
    rw [List.contains_iff_mem.mpr hmem] at hleft
    cases hleft
  rcases level_before hc hlevel hlne hpre with hpath | hlong
  · -- what is left behind the collection still has the dots of the tail
    rw [hpath, List.append_assoc, List.append_cancel_left_eq] at hleft'
    obtain ⟨s, rest, rfl⟩ := List.exists_cons_of_ne_nil hne
    have : left = dots (s :: rest) := (List.cons.inj hleft').2
    exact absurd (by rw [this]; exact List.mem_cons_self) hnodot
  · obtain ⟨hpath, -, hsegs, hplain⟩ := level_dotted c hc level hlevel hlong
    rw [hpath, List.append_assoc, List.append_cancel_left_eq] at hleft'
    obtain ⟨above, last, hlevelTail, rfl⟩ :=
      dots_beginning hplain htail hsegs hnodot (List.cons.inj hleft').2
    obtain ⟨keys, hkeys, hkey⟩ := hlast above _ rfl
    have habove : ∀ s ∈ above, '.' ∉ s := by
      intro s hs
      exact htail s (List.mem_append_left _ hs)
    rw [sectionKeys_entity hc [] habove] at hkeys
    have hsame := level_sibling c hc level hlevel hlong last (by simp [hlevelTail])
      (last ++ left) (by rw [hlevelTail, List.dropLast_concat, hkeys]; exact hkey)
      (List.isPrefixOf_iff_prefix.mpr ⟨left, rfl⟩)
    rw [hsame, ← hlevelTail]
    exact hpath

theorem keys_entity {c : Key} (hc : c ∈ collections) {x : Key} (hx : '.' ∉ x) {tail : List Key}
    (htail : ∀ s ∈ tail, '.' ∉ s) (hlast : KnownLast c tail) :
    knownKeysForPath (flatten (c :: x :: tail)) =
      some ((sectionKeys (c :: x :: tail)).getD []) := by
  rw [flatten_cons (collection_nonempty c hc), sectionKeys_entity hc x htail]
  cases tail with
  | nil =>
    have h := knownKeysForPath_entity hc hx
    simpa [dots] using h
  | cons s rest =>
    have h := knownKeysForPath_below hc hx (s ++ dots rest) fun _ level hlevel hmatch =>
      tail_clear hc htail (by simp) hlast hlevel hmatch
    exact h

theorem anyChild_entity {c x : Key} {tail : List Key} :
    AnyChild (c :: x :: tail) ↔ c = zones ∧ tail = [weights] := by
  constructor
  · rintro (⟨d, -, h⟩ | ⟨zone, h⟩)
    · cases h
    · simp only [List.cons.injEq] at h
      exact ⟨h.1, h.2.2⟩
  · rintro ⟨rfl, rfl⟩
    exact .inr ⟨x, rfl⟩

theorem ids_entity {c : Key} (hc : c ∈ collections) {x : Key} (hx : PlainId x) {tail : List Key}
    (htail : ∀ s ∈ tail, '.' ∉ s) (hlast : KnownLast c tail) :
    (isCollectionLevel (flatten (c :: x :: tail)) || isWeightsLevel (flatten (c :: x :: tail))) =
      true ↔ AnyChild (c :: x :: tail) := by
  have hcne := collection_nonempty c hc
  have hcoll : isCollectionLevel (flatten (c :: x :: tail)) = false := by
    rw [flatten_cons hcne]
    exact not_collection c _
  rw [hcoll, Bool.false_or, anyChild_entity]
  induction tail using List.reverseRecOn with
  | nil =>
    have hend := endsWithSegment_plain weights_plain.1 c hx.1
    rw [flatten_cons hcne]
    simp only [dots, List.append_nil]
    refine iff_of_false ?_ (by simp)
    intro h
    exact hx.2 (by simp [hend.mp h])
  | append_singleton above key _ =>
    have hend := endsWithSegment_plain weights_plain.1 (c ++ dots (x :: above))
      (htail key (by simp))
    have hflat : flatten (c :: x :: (above ++ [key])) = (c ++ dots (x :: above)) ++ '.' :: key :=
      flatten_last hcne (x :: above) key
    rw [hflat]
    refine Iff.trans hend ?_
    constructor
    · rintro rfl
      obtain ⟨keys, hkeys, hkey⟩ := hlast above _ rfl
      obtain ⟨y, hpath⟩ := section_weights hkeys hkey
      simp only [List.cons.injEq] at hpath
      rw [hpath.1, hpath.2.2]
      exact ⟨rfl, rfl⟩
    · rintro ⟨-, h⟩
      have hlastKey := congrArg List.getLast? h
      simpa using hlastKey

theorem arrays_entity {c : Key} (hc : c ∈ collections) {x : Key} (hx : PlainId x)
    {tail : List Key} (htail : ∀ s ∈ tail, '.' ∉ s) (hlast : KnownLast c tail) :
    isArrayOfTablesParent (flatten (c :: x :: tail)) = true ↔ ArrayOfTables (c :: x :: tail) := by
  have hcne := collection_nonempty c hc
  rw [arrayParent_iff]
  induction tail using List.reverseRecOn with
  | nil =>
    rw [flatten_cons hcne]
    simp only [dots, List.append_nil]
    rw [endsWithSegment_plain weights_plain.2.1 c hx.1,
      endsWithSegment_plain weights_plain.2.2 c hx.1]
    refine iff_of_false ?_ ?_
    · rintro (rfl | rfl)
      · exact hx.2 (by simp)
      · exact hx.2 (by simp)
    · rintro ⟨id, h | h⟩
      · cases h
      · cases h
  | append_singleton above key _ =>
    have hkey := htail key (by simp)
    have hflat : flatten (c :: x :: (above ++ [key])) = (c ++ dots (x :: above)) ++ '.' :: key :=
      flatten_last hcne (x :: above) key
    rw [hflat, endsWithSegment_plain weights_plain.2.1 _ hkey,
      endsWithSegment_plain weights_plain.2.2 _ hkey]
    constructor
    · rintro (rfl | rfl)
      · obtain ⟨keys, hkeys, hmem⟩ := hlast above _ rfl
        obtain ⟨y, hpath⟩ := section_ladder hkeys hmem
        simp only [List.cons.injEq] at hpath
        rw [hpath.1, hpath.2.2]
        exact ⟨x, .inl rfl⟩
      · obtain ⟨keys, hkeys, hmem⟩ := hlast above _ rfl
        obtain ⟨y, hpath⟩ := section_source hkeys hmem
        simp only [List.cons.injEq] at hpath
        rw [hpath.1, hpath.2.2]
        exact ⟨x, .inr rfl⟩
    · rintro ⟨id, h | h⟩
      · have hlastKey := congrArg List.getLast? h
        rw [← List.cons_append, ← List.cons_append, List.getLast?_concat] at hlastKey
        exact .inl (Option.some.inj hlastKey)
      · have hlastKey := congrArg List.getLast? h
        rw [← List.cons_append, ← List.cons_append, List.getLast?_concat] at hlastKey
        exact .inr (Option.some.inj hlastKey)

/-! ### Weights and free-form data -/

theorem weights_bare : ∀ level ∈ knownKeys, (zones ++ ['.', '.']).isPrefixOf level.path = true →
    level.path.isPrefixOf (zones ++ '.' :: '.' :: weights) = false ∧
      (zones ++ '.' :: '.' :: weights).isPrefixOf level.path = false := by
  decide

theorem data_bare : ∀ name ∈ [blankData, wakeData], ∀ level ∈ knownKeys,
    (displays ++ ['.', '.']).isPrefixOf level.path = true →
      level.path.isPrefixOf (displays ++ '.' :: '.' :: name) = false ∧
        (displays ++ '.' :: '.' :: name).isPrefixOf level.path = false := by
  decide

theorem structural_collections : zones ∈ collections ∧ displays ∈ collections := by
  decide

theorem keys_member {zone : Key} (hzone : PlainId zone) (member : Key) :
    knownKeysForPath (flatten [zones, zone, weights, member]) = some [] := by
  have h := knownKeysForPath_nothing structural_collections.1 hzone.1 weights_bare (dots [member])
  rw [flatten_cons (collection_nonempty zones structural_collections.1)]
  simpa [dots] using h

theorem reads_member {zone member : Key} (hzone : PlainId zone) (hmember : PlainMember member) :
    Reads [zones, zone, weights, member] := by
  have hne := collection_nonempty zones structural_collections.1
  have hflat : flatten [zones, zone, weights, member] =
      (zones ++ dots [zone, weights]) ++ '.' :: member := flatten_last hne [zone, weights] member
  refine ⟨keys_member hzone member, ?_⟩
  have hcoll : isCollectionLevel (flatten [zones, zone, weights, member]) = false := by
    rw [hflat]
    exact not_collection _ _
  have hend := endsWithSegment_concat weights_plain.1 (zones ++ dots [zone, weights]) member
  rw [hcoll, Bool.false_or, hflat]
  refine iff_of_false ?_ ?_
  · intro h
    rcases hend.mp h with h | h
    · exact hmember.1 h
    · have := hmember.2
      rw [isWeightsLevel] at this
      exact absurd (this.symm.trans h) (by simp)
  · rw [anyChild_entity]
    simp

theorem keys_underData {path : List Key} (h : UnderData path)
    (hid : ∀ id, PathId path id → PlainId id) : knownKeysForPath (flatten path) = some [] := by
  have hne := collection_nonempty displays structural_collections.2
  obtain ⟨id, rest, hpath⟩ := h
  have hplain : PlainId id := by
    refine hid id ⟨displays, structural_collections.2, ?_⟩
    rcases hpath with rfl | rfl
    · exact ⟨_, rfl⟩
    · exact ⟨_, rfl⟩
  obtain ⟨name, hname, rfl⟩ : ∃ name ∈ [blankData, wakeData],
      path = displays :: id :: name :: rest := by
    rcases hpath with rfl | rfl
    · exact ⟨blankData, by simp, rfl⟩
    · exact ⟨wakeData, by simp, rfl⟩
  have h := knownKeysForPath_nothing structural_collections.2 hplain.1 (data_bare name hname)
    (dots rest)
  rw [flatten_cons hne]
  simpa [dots] using h

theorem reads_of_inTree {path : List Key} (h : InTree path)
    (hid : ∀ id, PathId path id → PlainId id)
    (hmember : ∀ member, PathMember path member → PlainMember member) : Reads path := by
  rcases inTree_shape h with hfixed | ⟨c, hc, x, tail, rfl, htail, hlast⟩ | ⟨zone, member, rfl⟩
  · obtain ⟨hkeys, hids, -⟩ := (fixed_checked path hfixed).2.1
    refine ⟨hkeys, hids.trans ⟨.inl, ?_⟩⟩
    rintro (hc | ⟨zone, rfl⟩)
    · exact hc
    · have hzones := structural_collections.1
      exact ⟨zones, hzones, (fixed_checked _ hfixed).2.2 zones hzones rfl⟩
  · have hx := hid x ⟨c, hc, tail, rfl⟩
    exact ⟨keys_entity hc hx.1 htail hlast, ids_entity hc hx htail hlast⟩
  · exact reads_member (hid zone ⟨zones, structural_collections.1, _, rfl⟩)
      (hmember member ⟨zone, [], rfl⟩)

end Dormant.Schema
