import Dormant.Config.TreePaths

/-!
# Checking a path

`check_of_inTree` follows the check of a path down the tree: from a path of the tree it accepts what
continues the path in the tree, with at most one index behind an array of tables.
-/

namespace Dormant.Schema
set_option autoImplicit false

/-! ## Going up a path -/

theorem inTree_concat {path : List Key} {key : Key} :
    InTree (path ++ [key]) ↔ InTree path ∧ KnownChild path key := by
  constructor
  · intro h
    generalize hq : path ++ [key] = q at h
    cases h with
    | root => simp at hq
    | child hpath hkey =>
      obtain ⟨rfl, hlast⟩ := List.append_inj' hq rfl
      rw [(List.cons.inj hlast).1]
      exact ⟨hpath, hkey⟩
  · intro h
    exact .child h.1 h.2

theorem inTree_above {path rest : List Key} (h : InTree (path ++ rest)) : InTree path := by
  induction rest using List.reverseRecOn with
  | nil => simpa using h
  | append_singleton rest key ih =>
    rw [← List.append_assoc] at h
    exact ih (inTree_concat.mp h).1

theorem inTree_next {path rest : List Key} {key : Key} (h : InTree (path ++ key :: rest)) :
    KnownChild path key := by
  rw [List.append_cons] at h
  exact (inTree_concat.mp (inTree_above h)).2

/-! ## Arrays of tables -/

theorem arrayOfTables_inTree {path : List Key} (h : ArrayOfTables path) : InTree path := by
  obtain ⟨id, h⟩ := h
  have hdisplays : InTree [displays] :=
    .child .root (.inr ⟨_, rfl, by decide⟩)
  have hid : InTree [displays, id] :=
    inTree_concat.mpr ⟨hdisplays, .inl (.inl ⟨displays, structural_collections.2, rfl⟩)⟩
  have hsection : sectionKeys [displays, id] = sectionKeys [displays, []] := rfl
  have hkey (key : Key) (hkey : key ∈ (sectionKeys [displays, []]).getD []) :
      InTree [displays, id, key] := by
    refine inTree_concat.mpr ⟨hid, .inr ?_⟩
    rw [hsection]
    exact ⟨_, rfl, hkey⟩
  rcases h with rfl | rfl
  · exact hkey ladder (by decide)
  · have hsaver : InTree [displays, id, screensaver] := hkey screensaver (by decide)
    refine inTree_concat.mpr ⟨hsaver, .inr ⟨_, rfl, by decide⟩⟩

theorem arrayOfTables_section {path : List Key} (h : ArrayOfTables path) :
    ¬ AnyChild path ∧ sectionKeys path ≠ none := by
  obtain ⟨id, rfl | rfl⟩ := h
  · refine ⟨?_, by intro h; cases h⟩
    rw [anyChild_entity]
    rintro ⟨h, -⟩
    exact absurd h (by decide)
  · refine ⟨?_, by intro h; cases h⟩
    rw [anyChild_entity]
    rintro ⟨h, -⟩
    exact absurd h (by decide)

/-- An index is never a known key of an array of tables. -/
theorem index_unknown {path : List Key} (h : ArrayOfTables path) {index : Key}
    (hindex : isDigitSegment index = true) : ¬ KnownChild path index := by
  rintro (hany | ⟨keys, hkeys, hkey⟩)
  · exact (arrayOfTables_section h).1 hany
  · have hplain := (sectionKeys_plain hkeys hkey).2
    rw [hindex] at hplain
    cases hplain

/-- Where a path leaves the tree it can only go on with the index of an array of tables. -/
theorem indexed_leaves {path rest : List Key} {key : Key} (hpath : InTree path)
    (hkey : ¬ KnownChild path key) :
    Indexed (path ++ key :: rest) ↔
      ArrayOfTables path ∧ isDigitSegment key = true ∧ rest ≠ [] ∧ InTree (path ++ rest) := by
  constructor
  · rintro ⟨before, index, next, more, harray, hindex, heq, hin⟩
    rcases List.append_eq_append_iff.mp heq with ⟨a, rfl, ha⟩ | ⟨a, rfl, ha⟩
    · cases a with
      | nil =>
        simp only [List.nil_append, List.cons.injEq] at ha
        obtain ⟨rfl, rfl⟩ := ha
        rw [List.append_nil] at harray hin
        exact ⟨harray, hindex, by simp, hin⟩
      | cons s a =>
        obtain ⟨rfl, -⟩ := List.cons.inj ha
        exact absurd (inTree_next (arrayOfTables_inTree harray)) hkey
    · cases a with
      | nil =>
        simp only [List.nil_append, List.cons.injEq] at ha
        obtain ⟨rfl, rfl⟩ := ha
        rw [List.append_nil]
        exact ⟨harray, hindex, by simp, hin⟩
      | cons s a =>
        obtain ⟨rfl, -⟩ := List.cons.inj ha
        exact absurd (inTree_next hpath) (index_unknown harray hindex)
  · rintro ⟨harray, hindex, hne, hin⟩
    obtain ⟨next, more, rfl⟩ := List.exists_cons_of_ne_nil hne
    exact ⟨path, key, next, more, harray, hindex, rfl, hin⟩

/-! ## The check -/

theorem tries {known ids index b d : Bool} {below above : Option Bool}
    (hbelow : (known || ids) = true → below = some b) (habove : index = true → above = some d) :
    (do
      if known then
        if ← below then return true
      if ids then
        if ← below then return true
      if index then
        if ← above then return true
      return false : Option Bool) = some ((known || ids) && b || index && d) := by
  cases known with
  | true =>
    rw [hbelow rfl]
    cases b with
    | true => simp
    | false =>
      cases index with
      | true =>
        rw [habove rfl]
        cases ids <;> cases d <;> simp
      | false => cases ids <;> simp
  | false =>
    cases ids with
    | true =>
      rw [hbelow rfl]
      cases index with
      | true =>
        rw [habove rfl]
        cases b <;> cases d <;> simp
      | false => cases b <;> simp
    | false =>
      cases index with
      | true =>
        rw [habove rfl]
        cases d <;> simp
      | false => simp

/-- One segment of the check, from what is looked up for the path above it. -/
theorem checkValid_cons {parent : Key} (segment : Key) (rest : List Key) {allowed : List Key}
    {ids index b d : Bool} (hkeys : knownKeysForPath parent = some allowed)
    (hids : (isCollectionLevel parent || isWeightsLevel parent) = ids)
    (hindex : (isArrayOfTablesParent parent && isDigitSegment segment && !rest.isEmpty) = index)
    (hbelow : (allowed.contains segment || ids) = true →
      checkValid (joined parent segment) rest = some b)
    (habove : index = true → checkValid parent rest = some d) :
    checkValid parent (segment :: rest) =
      some ((allowed.contains segment || ids) && b || index && d) := by
  rw [checkValid, hkeys, hids, hindex]
  exact tries hbelow habove

/-- Nothing is known below a path that has no section. -/
theorem checkValid_dead {parent : Key} (hkeys : knownKeysForPath parent = some [])
    (hids : (isCollectionLevel parent || isWeightsLevel parent) = false) (segment : Key)
    (rest : List Key) : checkValid parent (segment :: rest) = some false := by
  induction rest generalizing segment with
  | nil =>
    have h := checkValid_cons segment [] (b := false) (d := false) hkeys hids rfl (by simp)
      (by simp)
    simpa using h
  | cons next rest ih =>
    have h := checkValid_cons segment (next :: rest) (b := false) (d := false) hkeys hids rfl
      (by simp) fun _ => ih next
    simpa using h

theorem arrays_of_inTree {path : List Key} (h : InTree path)
    (hid : ∀ id, PathId path id → PlainId id) :
    (isArrayOfTablesParent (flatten path) = true ↔ ArrayOfTables path) ∨
      sectionKeys path = none ∧ ¬ AnyChild path ∧ ¬ ArrayOfTables path := by
  rcases inTree_shape h with hfixed | ⟨c, hc, x, tail, rfl, htail, hlast⟩ | ⟨zone, member, rfl⟩
  · obtain ⟨-, -, harrays⟩ := (fixed_checked path hfixed).2.1
    refine .inl ⟨fun h => ?_, ?_⟩
    · rw [harrays] at h
      cases h
    · have hdisplays := structural_collections.2
      rintro ⟨id, rfl | rfl⟩
      · cases (fixed_checked _ hfixed).2.2 displays hdisplays rfl
      · cases (fixed_checked _ hfixed).2.2 displays hdisplays rfl
  · exact .inl (arrays_entity hc (hid x ⟨c, hc, tail, rfl⟩) htail hlast)
  · refine .inr ⟨rfl, ?_, ?_⟩
    · rw [anyChild_entity]
      simp
    · rintro ⟨id, h | h⟩
      · cases h
      · rw [List.cons.injEq] at h
        exact absurd h.1 (by decide)

theorem knownChild_iff {path : List Key} {key : Key} : KnownChild path key ↔
    AnyChild path ∨ key ∈ (sectionKeys path).getD [] := by
  unfold KnownChild
  cases sectionKeys path with
  | none => simp
  | some keys => simp

/-- The check goes on below a key of the tree that is not an index. -/
theorem check_step {path rest : List Key} {key : Key} {b : Bool} (hreads : Reads path)
    (hkey : KnownChild path key)
    (hindex : isArrayOfTablesParent (flatten path) = true → isDigitSegment key = false)
    (hcheck : checkValid (flatten (path ++ [key])) rest = some b) :
    checkValid (flatten path) (key :: rest) = some b := by
  rw [flatten_concat] at hcheck
  have hcond : (((sectionKeys path).getD []).contains key ||
      (isCollectionLevel (flatten path) || isWeightsLevel (flatten path))) = true := by
    rw [Bool.or_eq_true, List.contains_iff_mem, hreads.ids]
    exact (knownChild_iff.mp hkey).symm
  have hnone : (isArrayOfTablesParent (flatten path) && isDigitSegment key &&
      !rest.isEmpty) = false := by
    cases harray : isArrayOfTablesParent (flatten path) with
    | true => simp [hindex harray]
    | false => simp
  have hvalid := checkValid_cons key rest (d := false) hreads.keys rfl hnone (fun _ => hcheck)
    (by simp)
  rw [hcond] at hvalid
  simpa using hvalid

/-- What the check needs of the ids on a path. -/
structure Checked (path : List Key) : Prop where
  ids : ∀ id, PathId path id → PlainId id
  members : ∀ member, PathMember path member → PlainMember member
  twice : ¬ Twice path

theorem Checked.ids_above {path rest : List Key} (h : Checked (path ++ rest)) :
    ∀ id, PathId path id → PlainId id := by
  rintro id ⟨c, hc, below, rfl⟩
  exact h.ids id ⟨c, hc, below ++ rest, rfl⟩

theorem Checked.reads {path rest : List Key} (h : Checked (path ++ rest)) (hin : InTree path) :
    Reads path := by
  refine reads_of_inTree hin h.ids_above ?_
  rintro member ⟨zone, below, rfl⟩
  exact h.members member ⟨zone, below ++ rest, rfl⟩

theorem arrayOfTables_same {p q a b : List Key} (hp : ArrayOfTables p) (hq : ArrayOfTables q)
    (h : p ++ a = q ++ b) : p = q := by
  have hne : ladder ≠ screensaver := by decide
  obtain ⟨id, rfl | rfl⟩ := hp
  · obtain ⟨other, rfl | rfl⟩ := hq
    · simp only [List.cons_append, List.cons.injEq] at h
      rw [h.2.1]
    · simp only [List.cons_append, List.cons.injEq] at h
      exact absurd h.2.2.1 hne
  · obtain ⟨other, rfl | rfl⟩ := hq
    · simp only [List.cons_append, List.cons.injEq] at h
      exact absurd h.2.2.1.symm hne
    · simp only [List.cons_append, List.cons.injEq] at h
      rw [h.2.1]

/-- The path without the index behind an array of tables. -/
theorem Checked.drop {path rest : List Key} {index : Key} (harray : ArrayOfTables path)
    (hindex : isDigitSegment index = true) (h : Checked (path ++ index :: rest)) :
    Checked (path ++ rest) := by
  obtain ⟨id, hpath⟩ := harray
  have hdisplays := structural_collections.2
  have hplain : PlainId id := by
    rcases hpath with rfl | rfl
    · exact h.ids id ⟨displays, hdisplays, _, rfl⟩
    · exact h.ids id ⟨displays, hdisplays, _, rfl⟩
  have hsecond : ∃ tail, path ++ rest = displays :: id :: tail := by
    rcases hpath with rfl | rfl
    · exact ⟨_, rfl⟩
    · exact ⟨_, rfl⟩
  obtain ⟨tail, htail⟩ := hsecond
  refine ⟨?_, ?_, ?_⟩
  · rintro other ⟨c, -, below, heq⟩
    rw [htail] at heq
    simp only [List.cons.injEq] at heq
    rw [← heq.2.1]
    exact hplain
  · rintro member ⟨zone, below, heq⟩
    rw [htail, List.cons.injEq] at heq
    exact absurd heq.1 (by decide)
  · rintro ⟨before, first, again, key, more, hbefore, hfirst, -, heq⟩
    have hsame := arrayOfTables_same ⟨id, hpath⟩ hbefore heq
    subst hsame
    rw [List.append_cancel_left heq] at h
    exact h.twice ⟨path, index, first, again, key :: more, hbefore, hindex, hfirst, rfl⟩

/-- From a path of the tree the check accepts what goes on in the tree, but for an index. -/
theorem check_of_inTree {path rest : List Key} (h : Checked (path ++ rest)) (hin : InTree path) :
    ∃ known, checkValid (flatten path) rest = some known ∧
      (known = true ↔ InTree (path ++ rest) ∨ Indexed (path ++ rest)) := by
  induction rest generalizing path with
  | nil =>
    refine ⟨true, rfl, iff_of_true rfl (.inl ?_)⟩
    rw [List.append_nil]
    exact hin
  | cons key rest ih =>
    have hreads := h.reads hin
    by_cases hkey : KnownChild path key
    · -- the key is of the tree, and then it is not an index
      have hnext : Checked ((path ++ [key]) ++ rest) := by rwa [List.append_assoc]
      obtain ⟨known, hcheck, hknown⟩ := ih hnext (.child hin hkey)
      rw [List.append_assoc, List.singleton_append] at hknown
      refine ⟨known, check_step hreads hkey (fun harray => ?_) hcheck, hknown⟩
      rw [Bool.eq_false_iff]
      intro hindex
      rcases arrays_of_inTree hin h.ids_above with harrays | ⟨hnone, hany, -⟩
      · exact index_unknown (harrays.mp harray) hindex hkey
      · rw [knownChild_iff, hnone] at hkey
        rcases hkey with hkey | hkey
        · exact hany hkey
        · cases hkey
    · -- the key is not of the tree: only the index of an array of tables goes on
      have hcond : (((sectionKeys path).getD []).contains key ||
          (isCollectionLevel (flatten path) || isWeightsLevel (flatten path))) = false := by
        rw [Bool.eq_false_iff, Ne, Bool.or_eq_true, List.contains_iff_mem, hreads.ids]
        exact fun h => hkey (knownChild_iff.mpr h.symm)
      have hout : ¬ InTree (path ++ key :: rest) := fun h => hkey (inTree_next h)
      have hvalid (d : Bool) (habove : (isArrayOfTablesParent (flatten path) &&
          isDigitSegment key && !rest.isEmpty) = true → checkValid (flatten path) rest = some d) :
          checkValid (flatten path) (key :: rest) = some ((isArrayOfTablesParent (flatten path) &&
            isDigitSegment key && !rest.isEmpty) && d) := by
        have hcheck := checkValid_cons key rest (b := false) hreads.keys rfl rfl
          (fun h => absurd (hcond.symm.trans h) (by simp)) habove
        rw [hcond] at hcheck
        simpa using hcheck
      simp only [hout, false_or, indexed_leaves hin hkey]
      rcases arrays_of_inTree hin h.ids_above with harrays | ⟨hnone, hany, hnot⟩
      · by_cases hindex : ArrayOfTables path ∧ isDigitSegment key = true
        · have hafter := h.drop hindex.1 hindex.2
          obtain ⟨known, hcheck, hknown⟩ := ih hafter hin
          refine ⟨_, hvalid known fun _ => hcheck, ?_⟩
          have hplain : ¬ Indexed (path ++ rest) := by
            rintro ⟨before, first, again, more, hbefore, hfirst, heq, -⟩
            have hsame := arrayOfTables_same hindex.1 hbefore heq
            subst hsame
            rw [List.append_cancel_left heq] at h
            exact h.twice ⟨path, key, first, again, more, hbefore, hindex.2, hfirst, rfl⟩
          have hempty : (!rest.isEmpty) = true ↔ rest ≠ [] := by simp
          simp only [Bool.and_eq_true, harrays, hempty, hknown, hplain, or_false, and_assoc]
        · refine ⟨_, hvalid false fun hcond => ?_, ?_⟩
          · simp only [Bool.and_eq_true, harrays] at hcond
            exact absurd hcond.1 hindex
          · simp only [Bool.and_false, Bool.false_eq_true, false_iff]
            exact fun h => hindex ⟨h.1, h.2.1⟩
      · refine ⟨_, hvalid false fun hcond => ?_, ?_⟩
        · simp only [Bool.and_eq_true, Bool.not_eq_true', List.isEmpty_eq_false_iff] at hcond
          obtain ⟨next, more, rfl⟩ := List.exists_cons_of_ne_nil hcond.2
          have hkeys := hreads.keys
          rw [hnone] at hkeys
          refine checkValid_dead hkeys ?_ next more
          rw [Bool.eq_false_iff]
          exact fun h => hany (hreads.ids.mp h)
        · simp only [Bool.and_false, Bool.false_eq_true, false_iff]
          exact fun h => hnot h.1

theorem exactPath_of_checked {path : List Key} (h : Checked path) : ExactPath path := by
  unfold ExactPath isKnownConfigPath
  cases path with
  | nil => exact ⟨false, rfl, by simp⟩
  | cons segment rest =>
    have hroot : Checked ([] ++ segment :: rest) := h
    obtain ⟨known, hcheck, hknown⟩ := check_of_inTree hroot .root
    refine ⟨known, hcheck, ?_⟩
    rw [hknown]
    simp

end Dormant.Schema
