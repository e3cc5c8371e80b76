import Dormant.Config.TreePaths
import Mathlib.Logic.Relation

/-!
# The walk of a value

`collect_unknown_keys` visits tables with the joined path of each. `walkToml_covers` says what it
returns in terms of the tables that it reaches: the keys that one of them lacks, or nothing at all
when the lookup fails at one.
-/

namespace Dormant.Schema
set_option autoImplicit false

abbrev Level := Key × List (Key × Value)

def IdLevel (path : Key) : Prop := (isCollectionLevel path || isWeightsLevel path) = true

/-- The tables below a key of a table. -/
inductive Child (path : Key) (key : Key) : Value → Level → Prop where
  | table {below : List (Key × Value)} (h : IdLevel path ∨ isPassthroughDataKey key = false) :
      Child path key (.table below) (joined path key, below)
  | item {items : List Value} {below : List (Key × Value)} (h : ¬ IdLevel path)
      (hitem : .table below ∈ items) : Child path key (.array items) (joined path key, below)

def Visits (table into : Level) : Prop :=
  ∃ key val, (key, val) ∈ table.2 ∧ Child table.1 key val into

/-- The walk reaches one table from another. -/
def Reaches : Level → Level → Prop := Relation.ReflTransGen Visits

def Dead (level : Level) : Prop := knownKeysForPath level.1 = none

/-- The key is one that the table at the path lacks. -/
def Lacks (path key : Key) : Prop :=
  ¬ IdLevel path ∧ ∃ allowed ∈ knownKeysForPath path, key ∉ allowed ∧ allowed ≠ []

def Reports (level : Level) (u : UnknownKey) : Prop :=
  ∃ key val, (key, val) ∈ level.2 ∧ Lacks level.1 key ∧ u = ⟨joined level.1 key, key⟩

/-- The result is lost just when something is dead, and else holds the reports. -/
structure Covers (result : Option (List UnknownKey)) (dead : Prop) (reports : UnknownKey → Prop) :
    Prop where
  lost : result = none ↔ dead
  mem : ∀ found ∈ result, ∀ u, u ∈ found ↔ reports u

theorem Covers.append {a b : Option (List UnknownKey)} {d e : Prop} {r q : UnknownKey → Prop}
    (ha : Covers a d r) (hb : Covers b e q) :
    Covers (do let found ← a; let later ← b; return found ++ later) (d ∨ e) fun u => r u ∨ q u := by
  cases a with
  | none =>
    refine ⟨iff_of_true rfl (.inl (ha.lost.mp rfl)), ?_⟩
    intro found h
    cases h
  | some found =>
    have hd : ¬ d := fun h => by
      have := ha.lost.mpr h
      cases this
    cases b with
    | none =>
      refine ⟨iff_of_true rfl (.inr (hb.lost.mp rfl)), ?_⟩
      intro found h
      cases h
    | some later =>
      refine ⟨⟨fun h => (by cases h), ?_⟩, ?_⟩
      · rintro (h | h)
        · exact absurd h hd
        · have := hb.lost.mpr h
          cases this
      · intro all h u
        cases h
        rw [List.mem_append, ha.mem found rfl, hb.mem later rfl]

theorem Covers.congr {a : Option (List UnknownKey)} {d e : Prop} {r q : UnknownKey → Prop}
    (h : Covers a d r) (hd : d ↔ e) (hr : ∀ u, r u ↔ q u) : Covers a e q :=
  ⟨h.lost.trans hd, fun found hfound u => (h.mem found hfound u).trans (hr u)⟩

theorem Covers.nil : Covers (some []) False fun _ => False := by
  refine ⟨⟨fun h => (by cases h), False.elim⟩, ?_⟩
  intro found h u
  cases h
  simp

/-! ## What the walk returns -/

/-- The walk goes through these tables. -/
def Through (result : Option (List UnknownKey)) (tables : Level → Prop) : Prop :=
  Covers result (∃ table, tables table ∧ Dead table) fun u =>
    ∃ table, tables table ∧ Reports table u

theorem Through.congr {result : Option (List UnknownKey)} {s t : Level → Prop}
    (h : Through result s) (hst : ∀ table, s table ↔ t table) : Through result t := by
  have : s = t := funext fun table => propext (hst table)
  rwa [← this]

theorem Through.none : Through (some []) fun _ => False :=
  Covers.nil.congr (by simp) (by simp)

theorem Through.append {a b : Option (List UnknownKey)} {s t : Level → Prop}
    (ha : Through a s) (hb : Through b t) :
    Through (do let found ← a; let later ← b; return found ++ later)
      fun table => s table ∨ t table := by
  refine Covers.congr (Covers.append ha hb) ?_ ?_
  · simp only [or_and_right, exists_or]
  · intro u
    simp only [or_and_right, exists_or]

/-- The tables below the entries of a table. -/
def BelowEntries (path : Key) (entries : List (Key × Value)) (table : Level) : Prop :=
  ∃ key val mid, (key, val) ∈ entries ∧ Child path key val mid ∧ Reaches mid table

/-- The entries of a table add its own reports to what is below. -/
def Entries (result : Option (List UnknownKey)) (path : Key) (entries : List (Key × Value)) :
    Prop :=
  Covers result (∃ table, BelowEntries path entries table ∧ Dead table) fun u =>
    Reports (path, entries) u ∨ ∃ table, BelowEntries path entries table ∧ Reports table u

theorem Entries.table {path : Key} {entries : List (Key × Value)}
    (h : ∀ allowed, knownKeysForPath path = some allowed →
      Entries (walkEntries entries path allowed) path entries) :
    Through (do let allowed ← knownKeysForPath path; walkEntries entries path allowed)
      (Reaches (path, entries)) := by
  have hreaches (table : Level) : Reaches (path, entries) table ↔
      (path, entries) = table ∨ BelowEntries path entries table := by
    rw [Reaches, Relation.ReflTransGen.cases_head_iff]
    refine or_congr Iff.rfl ?_
    constructor
    · rintro ⟨mid, ⟨key, val, hmem, hchild⟩, hrest⟩
      exact ⟨key, val, mid, hmem, hchild, hrest⟩
    · rintro ⟨key, val, mid, hmem, hchild, hrest⟩
      exact ⟨mid, ⟨key, val, hmem, hchild⟩, hrest⟩
  refine Through.congr ?_ fun table => (hreaches table).symm
  cases hkeys : knownKeysForPath path with
  | none =>
    refine ⟨iff_of_true rfl ⟨(path, entries), .inl rfl, hkeys⟩, ?_⟩
    intro found hfound
    cases hfound
  | some allowed =>
    refine Covers.congr (h allowed hkeys) ?_ ?_
    · constructor
      · rintro ⟨table, htable, hdead⟩
        exact ⟨table, .inr htable, hdead⟩
      · rintro ⟨table, rfl | htable, hdead⟩
        · rw [Dead, hkeys] at hdead
          cases hdead
        · exact ⟨table, htable, hdead⟩
    · intro u
      constructor
      · rintro (hown | ⟨table, htable, hreport⟩)
        · exact ⟨_, .inl rfl, hown⟩
        · exact ⟨table, .inr htable, hreport⟩
      · rintro ⟨table, rfl | htable, hreport⟩
        · exact .inl hreport
        · exact .inr ⟨table, htable, hreport⟩

theorem mem_ownReport {path : Key} {keys : List Key} {key : Key}
    (hkeys : knownKeysForPath path = some keys) (hid : ¬ IdLevel path) (u : UnknownKey) :
    u ∈ ownReport path keys key ↔ Lacks path key ∧ u = ⟨joined path key, key⟩ := by
  unfold ownReport
  have hlacks : Lacks path key ↔ (!keys.contains key && !keys.isEmpty) = true := by
    constructor
    · rintro ⟨-, allowed, hallowed, hkey, hne⟩
      rw [hkeys] at hallowed
      cases hallowed
      simp [hkey, hne]
    · intro h
      simp at h
      exact ⟨hid, keys, hkeys, h⟩
  rw [hlacks]
  cases hcond : (!keys.contains key && !keys.isEmpty) with
  | true => simp
  | false => simp

/-- The part of the walk that one entry adds. -/
theorem entry_covers {path key : Key} {val : Value} {keys : List Key}
    (hkeys : knownKeysForPath path = some keys)
    (hid : IdLevel path → Through (walkToml val (joined path key)) fun table =>
      ∃ entries, val = .table entries ∧ Reaches (joined path key, entries) table)
    (hkey : ¬ IdLevel path → Through (walkChild val key (joined path key)) fun table =>
      ∃ mid, Child path key val mid ∧ Reaches mid table) :
    Covers
      (if isCollectionLevel path || isWeightsLevel path then walkToml val (joined path key)
        else (ownReport path keys key ++ ·) <$> walkChild val key (joined path key))
      (∃ table, (∃ mid, Child path key val mid ∧ Reaches mid table) ∧ Dead table) fun u =>
        (Lacks path key ∧ u = ⟨joined path key, key⟩) ∨
          ∃ table, (∃ mid, Child path key val mid ∧ Reaches mid table) ∧ Reports table u := by
  by_cases hlevel : IdLevel path
  · have hcond : (isCollectionLevel path || isWeightsLevel path) = true := hlevel
    rw [if_pos hcond]
    have hchild (table : Level) : (∃ entries, val = .table entries ∧
        Reaches (joined path key, entries) table) ↔
          ∃ mid, Child path key val mid ∧ Reaches mid table := by
      constructor
      · rintro ⟨entries, rfl, hreach⟩
        exact ⟨_, .table (.inl hlevel), hreach⟩
      · rintro ⟨mid, hmid, hreach⟩
        cases hmid with
        | table h => exact ⟨_, rfl, hreach⟩
        | item h hitem => exact absurd hlevel h
    refine Covers.congr ((hid hlevel).congr hchild) Iff.rfl ?_
    intro u
    constructor
    · exact .inr
    · rintro (⟨hlacks, -⟩ | h)
      · exact absurd hlevel hlacks.1
      · exact h
  · have hcond : ¬ (isCollectionLevel path || isWeightsLevel path) = true := hlevel
    rw [if_neg hcond]
    have h := hkey hlevel
    cases hwalk : walkChild val key (joined path key) with
    | none =>
      rw [hwalk] at h
      refine ⟨iff_of_true rfl (h.lost.mp rfl), ?_⟩
      intro found hfound
      cases hfound
    | some below =>
      rw [hwalk] at h
      refine ⟨⟨fun hnone => (by cases hnone), ?_⟩, ?_⟩
      · intro hdead
        have := h.lost.mpr hdead
        cases this
      · intro found hfound u
        cases hfound
        rw [List.mem_append, mem_ownReport hkeys hlevel, h.mem below rfl]

theorem Entries.cons {path key : Key} {val : Value} {rest : List (Key × Value)}
    {first later : Option (List UnknownKey)}
    (hfirst : Covers first
      (∃ table, (∃ mid, Child path key val mid ∧ Reaches mid table) ∧ Dead table)
      fun u => (Lacks path key ∧ u = ⟨joined path key, key⟩) ∨
        ∃ table, (∃ mid, Child path key val mid ∧ Reaches mid table) ∧ Reports table u)
    (hlater : Entries later path rest) :
    Entries (do let found ← first; let more ← later; return found ++ more) path
      ((key, val) :: rest) := by
  have hbelow (table : Level) : BelowEntries path ((key, val) :: rest) table ↔
      (∃ mid, Child path key val mid ∧ Reaches mid table) ∨ BelowEntries path rest table := by
    constructor
    · rintro ⟨k, v, mid, hmem, hchild, hreach⟩
      rcases List.mem_cons.mp hmem with heq | hmem
      · cases heq
        exact .inl ⟨mid, hchild, hreach⟩
      · exact .inr ⟨k, v, mid, hmem, hchild, hreach⟩
    · rintro (⟨mid, hchild, hreach⟩ | ⟨k, v, mid, hmem, hchild, hreach⟩)
      · exact ⟨key, val, mid, List.mem_cons_self, hchild, hreach⟩
      · exact ⟨k, v, mid, List.mem_cons_of_mem _ hmem, hchild, hreach⟩
  have hown (u : UnknownKey) : Reports (path, (key, val) :: rest) u ↔
      (Lacks path key ∧ u = ⟨joined path key, key⟩) ∨ Reports (path, rest) u := by
    constructor
    · rintro ⟨k, v, hmem, hlacks, hu⟩
      rcases List.mem_cons.mp hmem with heq | hmem
      · cases heq
        exact .inl ⟨hlacks, hu⟩
      · exact .inr ⟨k, v, hmem, hlacks, hu⟩
    · rintro (⟨hlacks, hu⟩ | ⟨k, v, hmem, hlacks, hu⟩)
      · exact ⟨key, val, List.mem_cons_self, hlacks, hu⟩
      · exact ⟨k, v, List.mem_cons_of_mem _ hmem, hlacks, hu⟩
  refine Covers.congr (Covers.append hfirst hlater) ?_ ?_
  · simp only [hbelow, or_and_right, exists_or]
  · intro u
    simp only [hown, hbelow, or_and_right, exists_or]
    constructor
    · rintro ((h | h) | (h | h))
      · exact .inl (.inl h)
      · exact .inr (.inl h)
      · exact .inl (.inr h)
      · exact .inr (.inr h)
    · rintro ((h | h) | (h | h))
      · exact .inl (.inl h)
      · exact .inr (.inl h)
      · exact .inl (.inr h)
      · exact .inr (.inr h)

mutual

theorem walkToml_through : ∀ (v : Value) (path : Key),
    Through (walkToml v path) fun table => ∃ entries, v = .table entries ∧
      Reaches (path, entries) table
  | .table entries, path => by
    have h := Entries.table fun allowed hkeys => walkEntries_covers entries path allowed hkeys
    refine Through.congr h ?_
    intro table
    simp
  | .array items, path => by
    refine Through.congr Through.none ?_
    simp
  | .scalar, path => by
    refine Through.congr Through.none ?_
    simp

theorem walkEntries_covers : ∀ (entries : List (Key × Value)) (path : Key) (allowed : List Key),
    knownKeysForPath path = some allowed →
      Entries (walkEntries entries path allowed) path entries
  | [], path, allowed, _ => by
    refine Covers.congr Covers.nil ?_ ?_
    · simp [BelowEntries]
    · simp [BelowEntries, Reports]
  | (key, val) :: rest, path, allowed, hkeys => by
    rw [walkEntries]
    refine Entries.cons ?_ (walkEntries_covers rest path allowed hkeys)
    exact entry_covers hkeys (fun _ => walkToml_through val (joined path key))
      (walkChild_through val path key)

theorem walkChild_through : ∀ (v : Value) (path key : Key), ¬ IdLevel path →
    Through (walkChild v key (joined path key)) fun table => ∃ mid, Child path key v mid ∧
      Reaches mid table
  | .table entries, path, key, hid => by
    rw [walkChild]
    split
    · rename_i hdata
      refine Through.congr Through.none ?_
      intro table
      refine iff_of_false id ?_
      rintro ⟨mid, hmid, -⟩
      cases hmid with
      | table h =>
        rcases h with h | h
        · exact hid h
        · rw [hdata] at h
          cases h
    · rename_i hdata
      have h := Entries.table fun allowed hkeys =>
        walkEntries_covers entries (joined path key) allowed hkeys
      refine Through.congr h ?_
      intro table
      constructor
      · intro hreach
        exact ⟨_, .table (.inr (by simpa using hdata)), hreach⟩
      · rintro ⟨mid, hmid, hreach⟩
        cases hmid with
        | table h => exact hreach
  | .array items, path, key, hid => by
    rw [walkChild]
    refine Through.congr (walkItems_through items (joined path key)) ?_
    intro table
    constructor
    · rintro ⟨below, hitem, hreach⟩
      exact ⟨_, .item hid hitem, hreach⟩
    · rintro ⟨mid, hmid, hreach⟩
      cases hmid with
      | item h hitem => exact ⟨_, hitem, hreach⟩
  | .scalar, path, key, hid => by
    rw [walkChild]
    refine Through.congr Through.none ?_
    intro table
    refine iff_of_false id ?_
    rintro ⟨mid, hmid, -⟩
    cases hmid

theorem walkItems_through : ∀ (items : List Value) (path : Key),
    Through (walkItems items path) fun table => ∃ below, .table below ∈ items ∧
      Reaches (path, below) table
  | [], path => by
    rw [walkItems]
    refine Through.congr Through.none ?_
    simp
  | item :: rest, path => by
    rw [walkItems]
    refine Through.congr
      (Through.append (walkToml_through item path) (walkItems_through rest path)) ?_
    intro table
    constructor
    · rintro (⟨below, rfl, hreach⟩ | ⟨below, hitem, hreach⟩)
      · exact ⟨below, List.mem_cons_self, hreach⟩
      · exact ⟨below, List.mem_cons_of_mem _ hitem, hreach⟩
    · rintro ⟨below, hitem, hreach⟩
      rcases List.mem_cons.mp hitem with rfl | hitem
      · exact .inl ⟨below, rfl, hreach⟩
      · exact .inr ⟨below, hitem, hreach⟩

end

end Dormant.Schema
