import Dormant.Config.PathCheck
import Dormant.Config.KeyWalk

/-!
# Unknown keys are found exactly

What `collect_unknown_keys` reports and what `is_known_config_path` accepts, against the tree.
`exact_iff` says for which ids both are right: ids with a dot, and ids that are structural names,
are read as part of the structure.
-/

namespace Dormant.Schema
set_option autoImplicit false

/-! ## Where the walk goes -/

theorem idLevel_of_anyChild {path : List Key} (h : AnyChild path) : IdLevel (flatten path) := by
  rw [IdLevel, Bool.or_eq_true]
  rcases h with ⟨c, hc, rfl⟩ | ⟨zone, rfl⟩
  · exact .inl (List.contains_iff_mem.mpr hc)
  · have hne := collection_nonempty zones structural_collections.1
    have hflat : flatten [zones, zone, weights] = (zones ++ dots [zone]) ++ '.' :: weights :=
      flatten_last hne [zone] weights
    refine .inr ?_
    rw [hflat]
    exact (endsWithSegment_plain weights_plain.1 _ weights_plain.1).mpr rfl

theorem dot_size : '.'.utf8Size = 1 := rfl

theorem displays_dot : '.' ∉ displays := by decide

theorem cutKey_above {path key : Key} (h : CutKey (path ++ '.' :: key)) : CutKey path := by
  obtain ⟨c, rest, heq, hsize⟩ := h
  have hc : c ≠ '.' := by
    rintro rfl
    exact hsize dot_size
  rcases List.append_eq_append_iff.mp heq with ⟨a, ha, hrest⟩ | ⟨a, ha, hrest⟩
  · cases a with
    | nil => exact absurd (List.cons.inj hrest).1.symm hc
    | cons d a =>
      have hd : '.' = d := (List.cons.inj hrest).1
      exact absurd (by rw [ha, ← hd]; simp) displays_dot
  · cases a with
    | nil => exact absurd (List.cons.inj hrest).1 hc
    | cons d a =>
      obtain ⟨rfl, -⟩ := List.cons.inj hrest
      exact ⟨c, a, ha, hsize⟩

/-- A table that the walk reaches stands directly in the value. -/
theorem direct_of_reaches {entries : List (Key × Value)} {table : Level}
    (h : Reaches ([], entries) table) :
    (∃ path, flatten path = table.1 ∧ Direct (.table entries) path table.2) ∧
      (CutKey table.1 → Cut (.table entries)) := by
  induction h with
  | refl =>
    refine ⟨⟨[], rfl, .root rfl⟩, ?_⟩
    rintro ⟨c, rest, h, -⟩
    simp at h
  | @tail mid table _ hvisit ih =>
    obtain ⟨⟨path, hflat, hdirect⟩, hcut⟩ := ih
    obtain ⟨key, val, hentry, hchild⟩ := hvisit
    have hnext : table.1 = joined mid.1 key ∧ Direct (.table entries) (path ++ [key]) table.2 := by
      cases hchild with
      | table h => exact ⟨rfl, .table hdirect hentry⟩
      | item h hitem =>
        refine ⟨rfl, .item hdirect hentry hitem fun hany => h ?_⟩
        rw [← hflat]
        exact idLevel_of_anyChild hany
    refine ⟨⟨path ++ [key], by rw [flatten_concat, hflat, hnext.1], hnext.2⟩, ?_⟩
    intro hkey
    rw [hnext.1, joined] at hkey
    split at hkey
    · rename_i hempty
      rw [List.isEmpty_iff] at hempty
      have hpath := flatten_eq_nil (hflat.trans hempty)
      have hdirect := hnext.2
      rw [hpath] at hdirect
      exact ⟨_, key, _, hdirect, hkey⟩
    · exact hcut (cutKey_above hkey)

theorem findDoubleDot_none {path : Key} {levels : List KnownLevel}
    (h : findDoubleDot path levels = none) :
    ∃ level ∈ levels, matchesDoubleDot path level = none := by
  induction levels with
  | nil => cases h
  | cons level rest ih =>
    cases hlevel : matchesDoubleDot path level with
    | none => exact ⟨level, List.mem_cons_self, hlevel⟩
    | some found =>
      rw [findDoubleDot, hlevel] at h
      cases found with
      | true => simp at h
      | false =>
        obtain ⟨other, hother, hnone⟩ := ih (by simpa using h)
        exact ⟨other, List.mem_cons_of_mem _ hother, hnone⟩

/-- The lookup fails only where it cuts a character. -/
theorem cutKey_of_none {path : Key} (h : knownKeysForPath path = none) : CutKey path := by
  have hdouble : findDoubleDot path knownKeys = none := by
    unfold knownKeysForPath at h
    split at h
    · cases h
    · split at h
      · cases h
      · exact h
  obtain ⟨level, hlevel, hnone⟩ := findDoubleDot_none hdouble
  unfold matchesDoubleDot at hnone
  split at hnone
  · cases hnone
  · rename_i before after hsplit
    obtain ⟨hbefore, -, -⟩ := split_some level hlevel _ hsplit
    dsimp only at hbefore hnone
    subst hbefore
    split at hnone
    · rename_i hcond
      simp only [Bool.and_eq_true, decide_eq_true_eq] at hcond
      obtain ⟨rest, hrest⟩ := List.isPrefixOf_iff_prefix.mp hcond.1.1
      have hdrop : path.drop displays.length = rest := by rw [← hrest, List.drop_left]
      rw [hdrop] at hnone hcond
      rw [Option.map_eq_none_iff] at hnone
      cases rest with
      | nil => simp [utf8Len] at hcond
      | cons c rest =>
        refine ⟨c, rest, hrest.symm, ?_⟩
        intro hsize
        simp [sliceFromOne, hsize] at hnone
    · cases hnone

/-! ## What stands in a value -/

theorem stands_above {v u : Value} {path : List Key} (h : Stands v path u) :
    ∀ above rest, path = above ++ rest → ∃ u, Stands v above u := by
  induction h with
  | root =>
    intro above rest heq
    obtain ⟨rfl, -⟩ := List.append_eq_nil_iff.mp heq.symm
    exact ⟨v, .root⟩
  | @key path entries key val htable hentry ih =>
    intro above rest heq
    induction rest using List.reverseRecOn with
    | nil =>
      rw [List.append_nil] at heq
      exact ⟨val, heq ▸ .key htable hentry⟩
    | append_singleton rest last _ =>
      rw [← List.append_assoc] at heq
      exact ih above rest (List.append_inj' heq rfl).1
  | item harray hitem ih => exact ih

theorem stands_of_direct {v : Value} {path : List Key} {entries : List (Key × Value)}
    (h : Direct v path entries) : Stands v path (.table entries) := by
  induction h with
  | root htable =>
    rw [← htable]
    exact .root
  | table _ hentry ih => exact .key ih hentry
  | item _ hentry hitem _ ih => exact .item (.key ih hentry) hitem

/-- The ids of all paths in the value are plain. -/
structure PlainTree (v : Value) : Prop where
  ids : ∀ path u, Stands v path u → ∀ id, PathId path id → PlainId id
  members : ∀ path u, Stands v path u → ∀ member, PathMember path member → PlainMember member

theorem Scope.Sound.plainTree {s : Scope} (h : s.Sound) {v : Value} (hv : s.AdmitsTree v) :
    PlainTree v := by
  have hid (c : Key) (hc : c ∈ collections) (id : Key) (rest : List Key) (u : Value)
      (hu : Stands v (c :: id :: rest) u) : s.id id := by
    obtain ⟨w, hw⟩ := stands_above hu [c, id] rest rfl
    exact hv.ids id ⟨c, hc, w, hw⟩
  refine ⟨?_, ?_⟩
  · rintro path u hu id ⟨c, hc, rest, rfl⟩
    exact h.id id (hid c hc id rest u hu)
  · rintro path u hu member ⟨zone, rest, rfl⟩
    obtain ⟨w, hw⟩ := stands_above hu [zones, zone, weights, member] rest rfl
    exact h.member zone member (hid zones structural_collections.1 zone _ u hu)
      (hv.members member ⟨zone, w, hw⟩)

theorem PlainTree.reads {v u : Value} (h : PlainTree v) {path : List Key} (hu : Stands v path u)
    (hin : InTree path) : Reads path :=
  reads_of_inTree hin (h.ids path u hu) (h.members path u hu)

theorem underData_below {path : List Key} (h : UnderData path) (key : Key) :
    UnderData (path ++ [key]) := by
  obtain ⟨id, rest, rfl | rfl⟩ := h
  · exact ⟨id, rest ++ [key], .inl rfl⟩
  · exact ⟨id, rest ++ [key], .inr rfl⟩

theorem underData_of_passthrough {path : List Key} {key : Key} (hpath : ∃ x, path = [displays, x])
    (hkey : isPassthroughDataKey key = true) : UnderData (path ++ [key]) := by
  obtain ⟨x, rfl⟩ := hpath
  rw [isPassthroughDataKey, List.contains_iff_mem, List.mem_cons, List.mem_singleton] at hkey
  rcases hkey with rfl | rfl
  · exact ⟨x, [], .inl rfl⟩
  · exact ⟨x, [], .inr rfl⟩

/-- The walk reaches every table of the tree that stands directly and is not free-form data. -/
theorem reaches_of_direct {v : Value} (hplain : PlainTree v) {path : List Key}
    {entries : List (Key × Value)} (h : Direct v path entries) (hin : InTree path)
    (hdata : ¬ UnderData path) :
    ∃ top, v = .table top ∧ Reaches ([], top) (flatten path, entries) := by
  induction h with
  | root htable => exact ⟨_, htable, .refl⟩
  | @table path entries below key htable hentry ih =>
    obtain ⟨hpath, hkey⟩ := inTree_concat.mp hin
    obtain ⟨top, hv, hreach⟩ := ih hpath fun h => hdata (underData_below h key)
    refine ⟨top, hv, hreach.tail ⟨key, _, hentry, ?_⟩⟩
    rw [flatten_concat]
    refine .table ?_
    rcases hkey with hany | ⟨keys, hkeys, hkey⟩
    · exact .inl (idLevel_of_anyChild hany)
    · refine .inr (Bool.eq_false_iff.mpr fun hpass => hdata ?_)
      exact underData_of_passthrough (section_data hkeys hkey hpass) hpass
  | @item path entries below key items htable hentry hitem hid ih =>
    obtain ⟨hpath, hkey⟩ := inTree_concat.mp hin
    obtain ⟨top, hv, hreach⟩ := ih hpath fun h => hdata (underData_below h key)
    refine ⟨top, hv, hreach.tail ⟨key, _, hentry, ?_⟩⟩
    rw [flatten_concat]
    refine .item (fun hlevel => hid ?_) hitem
    exact (hplain.reads (stands_of_direct htable) hpath).ids.mp hlevel

/-! ## Exactness of the walk -/

theorem section_nonempty {path keys : List Key} (h : keys ∈ sectionKeys path) : keys ≠ [] := by
  obtain ⟨level, hlevel, -, rfl⟩ := exists_level h
  exact keys_ne_nil level hlevel

/-- At a path of the tree a table lacks just the keys that are not of the tree. -/
theorem lacks_iff {path : List Key} (hreads : Reads path)
    (hsection : AnyChild path ∨ sectionKeys path ≠ none) (key : Key) :
    Lacks (flatten path) key ↔ ¬ KnownChild path key := by
  rw [knownChild_iff]
  unfold Lacks
  rw [IdLevel, hreads.ids, hreads.keys]
  constructor
  · rintro ⟨hany, allowed, hallowed, hkey, -⟩ h
    cases hallowed
    exact h.elim hany hkey
  · intro h
    rw [not_or] at h
    refine ⟨h.1, _, rfl, h.2, ?_⟩
    obtain ⟨keys, hkeys⟩ := Option.ne_none_iff_exists'.mp (hsection.resolve_left h.1)
    have hkeys' : keys ∈ sectionKeys path := hkeys
    rw [hkeys]
    exact section_nonempty hkeys'

theorem collect_covers (v : Value) : Covers (collectUnknownKeys v)
    (∃ table, (∃ top, v = .table top ∧ Reaches ([], top) table) ∧ Dead table) fun u =>
      ∃ table, (∃ top, v = .table top ∧ Reaches ([], top) table) ∧ Reports table u :=
  walkToml_through v []

theorem exactTree_of_plain {v : Value} (hplain : PlainTree v) (hstray : ¬ Stray v)
    (hcut : ¬ Cut v) : ExactTree v := by
  have hcovers := collect_covers v
  cases hresults : collectUnknownKeys v with
  | none =>
    obtain ⟨table, ⟨top, rfl, hreach⟩, hdead⟩ := hcovers.lost.mp hresults
    exact absurd ((direct_of_reaches hreach).2 (cutKey_of_none hdead)) hcut
  | some results =>
    refine ⟨results, hresults, ?_⟩
    intro path entries key val hstands hentry hbelow
    rw [hcovers.mem results hresults, flatten_concat]
    constructor
    · rintro ⟨table, -, key', val', -, hlacks, heq⟩
      rw [UnknownKey.mk.injEq] at heq
      obtain ⟨hjoined, rfl⟩ := heq
      rw [← joined_injective hjoined] at hlacks
      rcases hbelow with ⟨hin, hsection⟩ | hdata
      · have hunknown := (lacks_iff (hplain.reads hstands hin) hsection key).mp hlacks
        refine ⟨fun h => hunknown (inTree_concat.mp h).2, fun hdata => ?_⟩
        obtain ⟨-, allowed, hallowed, -, hne⟩ := hlacks
        rw [keys_underData hdata (hplain.ids path _ hstands)] at hallowed
        cases hallowed
        exact hne rfl
      · obtain ⟨-, allowed, hallowed, -, hne⟩ := hlacks
        rw [keys_underData hdata (hplain.ids path _ hstands)] at hallowed
        cases hallowed
        exact absurd rfl hne
    · rintro ⟨hout, hdata⟩
      obtain ⟨hin, hsection⟩ := hbelow.resolve_right hdata
      have hunknown : ¬ KnownChild path key := fun h => hout (.child hin h)
      have hdirect : Direct v path entries := by
        by_contra h
        exact hstray ⟨path, entries, hin, hsection, hstands, h⟩
      obtain ⟨top, hv, hreach⟩ := reaches_of_direct hplain hdirect hin hdata
      refine ⟨_, ⟨top, hv, hreach⟩, key, val, hentry, ?_, rfl⟩
      exact (lacks_iff (hplain.reads hstands hin) hsection key).mpr hunknown

theorem Scope.Sound.exact {s : Scope} (h : s.Sound) : s.Exact := by
  refine ⟨?_, ?_⟩
  · intro v hv
    exact exactTree_of_plain (h.plainTree hv) (fun hstray => h.stray (hv.stray hstray))
      fun hcut => h.cut (hv.cut hcut)
  · intro path hpath
    refine exactPath_of_checked ⟨fun id hid => h.id id (hpath.ids id hid), ?_, ?_⟩
    · rintro member ⟨zone, rest, rfl⟩
      exact h.member zone member (hpath.ids zone ⟨zones, structural_collections.1, _, rfl⟩)
        (hpath.members member ⟨zone, rest, rfl⟩)
    · intro htwice
      have htwice' := htwice
      obtain ⟨before, index, again, key, rest, ⟨id, harray⟩, -, -, rfl⟩ := htwice'
      have hid : s.id id := by
        refine hpath.ids id ⟨displays, structural_collections.2, ?_⟩
        rcases harray with rfl | rfl
        · exact ⟨_, rfl⟩
        · exact ⟨_, rfl⟩
      exact h.twice id hid (hpath.twice htwice)

/-! ## Ids that are read as structure -/

def bogus : Key := chars "bogus"
def kindKey : Key := chars "kind"
def typeKey : Key := chars "type"
def zero : Key := chars "0"

theorem not_knownChild {path : List Key} (hany : ¬ AnyChild path) {key : Key}
    (hkey : key ∉ (sectionKeys path).getD []) : ¬ KnownChild path key :=
  fun h => (knownChild_iff.mp h).elim hany hkey

theorem pathId_cons {c id other : Key} {rest : List Key} (h : PathId (c :: id :: rest) other) :
    other = id := by
  obtain ⟨_, -, _, heq⟩ := h
  simp only [List.cons.injEq] at heq
  exact heq.2.1.symm

theorem not_pathMember {c : Key} (hc : c ≠ zones) (rest : List Key) (member : Key) :
    ¬ PathMember (c :: rest) member := by
  rintro ⟨zone, below, heq⟩
  exact hc (List.cons.inj heq).1

/-- The arrays of tables are all of displays. -/
theorem ArrayOfTables.first {before after rest : List Key} {c : Key} (h : ArrayOfTables before)
    (heq : c :: rest = before ++ after) : c = displays := by
  obtain ⟨id, rfl | rfl⟩ := h
  · exact (List.cons.inj heq).1
  · exact (List.cons.inj heq).1

theorem not_twice_cons {c : Key} (hc : c ≠ displays) (rest : List Key) : ¬ Twice (c :: rest) := by
  rintro ⟨before, index, again, key, below, harray, -, -, heq⟩
  exact hc (harray.first heq)

theorem not_indexed_cons {c : Key} (hc : c ≠ displays) (rest : List Key) :
    ¬ Indexed (c :: rest) := by
  rintro ⟨before, index, key, below, harray, -, heq, -⟩
  exact hc (harray.first heq)

theorem admits_entity {s : Scope} {id : Key} (hid : s.id id) (rest : List Key) :
    s.AdmitsPath (sensors :: id :: rest) where
  ids other hother := by
    rw [pathId_cons hother]
    exact hid
  members member hmember := absurd hmember (not_pathMember (by decide) _ _)
  twice htwice := absurd htwice (not_twice_cons (by decide) _)

theorem sensor_section (id : Key) : ¬ AnyChild [sensors, id] ∧
    sectionKeys [sensors, id] = sectionKeys [sensors, []] := by
  refine ⟨?_, rfl⟩
  rw [anyChild_entity]
  simp

/-- No key of a sensor is known but those of the tree. -/
theorem sensor_out {id key : Key} (hkey : key ∉ (sectionKeys [sensors, []]).getD [])
    (rest : List Key) : ¬ (InTree (sensors :: id :: key :: rest) ∨
      Indexed (sensors :: id :: key :: rest)) := by
  rintro (h | h)
  · have hchild : KnownChild [sensors, id] key := inTree_next h
    refine not_knownChild (sensor_section id).1 ?_ hchild
    rw [(sensor_section id).2]
    exact hkey
  · exact not_indexed_cons (by decide) _ h

theorem no_sensor_level : ∀ level ∈ knownKeys,
    (sensors ++ ['.', '.']).isPrefixOf level.path = true →
      level.path.isPrefixOf (sensors ++ '.' :: '.' :: []) = false ∧
        (sensors ++ '.' :: '.' :: []).isPrefixOf level.path = false := by
  decide

theorem sensors_mem : sensors ∈ collections := by decide

/-- Nothing is known of a sensor whose id has a dot. -/
theorem keys_dotted {id : Key} (hid : '.' ∈ id) :
    knownKeysForPath (sensors ++ '.' :: id) = some [] := by
  obtain ⟨first, rest, rfl, hfirst⟩ := List.eq_append_cons_of_mem hid
  exact knownKeysForPath_nothing sensors_mem hfirst no_sensor_level rest

theorem sensors_root : Reads [] ∧ KnownChild [] sensors ∧ Reads [sensors] ∧
    ∀ id, KnownChild [sensors] id := by
  have hsensors : KnownChild [] sensors := .inr ⟨_, rfl, by decide⟩
  have hany : AnyChild [sensors] := .inl ⟨sensors, sensors_mem, rfl⟩
  refine ⟨reads_of_inTree .root ?_ ?_, hsensors, reads_of_inTree (.child .root hsensors) ?_ ?_,
    fun _ => .inl hany⟩
  · rintro id ⟨c, -, rest, h⟩
    cases h
  · rintro member ⟨zone, rest, h⟩
    cases h
  · rintro id ⟨c, -, rest, h⟩
    cases h
  · rintro member ⟨zone, rest, h⟩
    cases h

/-- The check of a path of a sensor comes to the keys below its id. -/
theorem check_sensor (id : Key) (rest : List Key) {b : Bool}
    (h : checkValid (sensors ++ '.' :: id) rest = some b) :
    isKnownConfigPath (sensors :: id :: rest) = some b := by
  obtain ⟨hroot, hsensors, hreads, hall⟩ := sensors_root
  have hplain : isArrayOfTablesParent (flatten []) = false ∧
      isArrayOfTablesParent (flatten [sensors]) = false := by
    decide
  refine check_step hroot hsensors ?_ (check_step hreads (hall id) ?_ h)
  · intro h
    have := hplain.1.symm.trans h
    cases this
  · intro h
    have := hplain.2.symm.trans h
    cases this

theorem sensor_known {id key : Key} (hkey : key ∈ (sectionKeys [sensors, []]).getD []) :
    InTree [sensors, id, key] := by
  obtain ⟨-, hsensors, -, hall⟩ := sensors_root
  have hin : InTree [sensors, id] := inTree_concat.mpr ⟨.child .root hsensors, hall id⟩
  refine inTree_concat.mpr ⟨hin, knownChild_iff.mpr (.inr ?_)⟩
  rw [(sensor_section id).2]
  exact hkey

theorem sensor_keys : bogus ∉ (sectionKeys [sensors, []]).getD [] ∧
    zero ∉ (sectionKeys [sensors, []]).getD [] ∧ typeKey ∈ (sectionKeys [sensors, []]).getD [] := by
  decide

theorem sensor_plain {s : Scope} (hexact : s.Exact) {id : Key} (hid : s.id id) : PlainId id := by
  have hout (key : Key) (rest : List Key) (hkey : key ∉ (sectionKeys [sensors, []]).getD [])
      (hknown : isKnownConfigPath (sensors :: id :: key :: rest) = some true) : False := by
    obtain ⟨known, hcheck, hiff⟩ := hexact.2 _ (admits_entity hid (key :: rest))
    rw [hknown] at hcheck
    cases hcheck
    exact sensor_out hkey rest (hiff.mp rfl).2
  refine ⟨fun hdot => ?_, fun hname => ?_⟩
  · have hkeys := keys_dotted hdot
    cases hweights : isWeightsLevel (sensors ++ '.' :: id) with
    | true =>
      -- an id that ends like weights: every key below it is known
      refine hout bogus [] sensor_keys.1 (check_sensor id [bogus] ?_)
      have hvalid := checkValid_cons bogus [] (b := true) (d := false) hkeys rfl rfl (fun _ => rfl)
        (by simp)
      rw [hweights] at hvalid
      simpa using hvalid
    | false =>
      -- any other dotted id: no key below it is known
      obtain ⟨known, hcheck, hiff⟩ := hexact.2 _ (admits_entity hid [typeKey])
      have hvalid := checkValid_dead hkeys (by rw [hweights, not_collection]; rfl) typeKey []
      rw [check_sensor id [typeKey] hvalid] at hcheck
      cases hcheck
      have := hiff.mpr ⟨by simp, .inl (sensor_known sensor_keys.2.2)⟩
      cases this
  · simp only [List.mem_cons, List.not_mem_nil, or_false] at hname
    rcases hname with rfl | rfl | rfl
    · exact hout bogus [] sensor_keys.1 (by decide)
    · exact hout zero [typeKey] sensor_keys.2.1 (by decide)
    · exact hout zero [typeKey] sensor_keys.2.1 (by decide)

/-! ## Doubled indices and members -/

theorem reads_short {path : List Key} (hin : InTree path) (hlen : path.length < 4)
    (hid : ∀ id, PathId path id → PlainId id) : Reads path := by
  refine reads_of_inTree hin hid ?_
  rintro member ⟨zone, rest, rfl⟩
  simp at hlen
  omega

/-- The check of a path below an entity comes to the keys below its id. -/
theorem check_entity {c : Key} (hc : c ∈ collections) (hknown : KnownChild [] c) {id : Key}
    {rest : List Key} {b : Bool} (h : checkValid (flatten [c, id]) rest = some b) :
    isKnownConfigPath (c :: id :: rest) = some b := by
  have hany : AnyChild [c] := .inl ⟨c, hc, rfl⟩
  have hplain : ∀ c ∈ collections, isArrayOfTablesParent (flatten []) = false ∧
      isArrayOfTablesParent (flatten [c]) = false := by
    decide
  have hin : InTree [c] := .child .root hknown
  have hroot : Reads [] := reads_short .root (by simp) (by rintro id ⟨c, -, rest, h⟩; cases h)
  have hreads : Reads [c] := reads_short hin (by simp) (by rintro id ⟨c, -, rest, h⟩; cases h)
  refine check_step hroot hknown ?_ (check_step hreads (.inl hany) ?_ h)
  · intro h
    have := (hplain c hc).1.symm.trans h
    cases this
  · intro h
    have := (hplain c hc).2.symm.trans h
    cases this

theorem collection_known : KnownChild [] displays ∧ KnownChild [] zones :=
  ⟨.inr ⟨_, rfl, by decide⟩, .inr ⟨_, rfl, by decide +kernel⟩⟩

/-- The path with two indices in a row is accepted, though it is not a path of the tree. -/
theorem not_twice {s : Scope} (hexact : s.Exact) {id : Key} (hid : s.id id) : ¬ s.twice := by
  intro htwice
  have hplain := sensor_plain hexact hid
  have harray : ArrayOfTables [displays, id, ladder] := ⟨id, .inl rfl⟩
  have hin := arrayOfTables_inTree harray
  have hdisplays := structural_collections.2
  have hpath : s.AdmitsPath [displays, id, ladder, zero, zero, kindKey] := by
    refine ⟨fun other hother => ?_, fun member hmember => ?_, fun _ => htwice⟩
    · rw [pathId_cons hother]
      exact hid
    · exact absurd hmember (not_pathMember (by decide) _ _)
  have hids (rest : List Key) : ∀ other, PathId (displays :: id :: rest) other → PlainId other := by
    intro other hother
    rw [pathId_cons hother]
    exact hplain
  have hreads : Reads [displays, id, ladder] := reads_short hin (by simp) (hids _)
  have hzero : ¬ KnownChild [displays, id, ladder] zero := index_unknown harray (by decide)
  have hkind : KnownChild [displays, id, ladder] kindKey := .inr ⟨_, rfl, by decide⟩
  have hparent : isArrayOfTablesParent (flatten [displays, id, ladder]) = true := by
    rcases arrays_of_inTree hin (hids _) with h | h
    · exact h.mpr harray
    · exact absurd harray h.2.2
  have hlast : checkValid (flatten [displays, id, ladder]) [kindKey] = some true :=
    check_step hreads hkind (fun _ => by decide) rfl
  have hskip (rest : List Key) (hne : rest ≠ [])
      (h : checkValid (flatten [displays, id, ladder]) rest = some true) :
      checkValid (flatten [displays, id, ladder]) (zero :: rest) = some true := by
    have hcond : (((sectionKeys [displays, id, ladder]).getD []).contains zero ||
        (isCollectionLevel (flatten [displays, id, ladder]) ||
          isWeightsLevel (flatten [displays, id, ladder]))) = false := by
      rw [Bool.eq_false_iff, Ne, Bool.or_eq_true, List.contains_iff_mem, hreads.ids]
      exact fun h => hzero (knownChild_iff.mpr h.symm)
    have hindex : (isArrayOfTablesParent (flatten [displays, id, ladder]) && isDigitSegment zero &&
        !rest.isEmpty) = true := by
      have hdigit : isDigitSegment zero = true := by decide
      simp [hparent, hdigit, hne]
    have hvalid := checkValid_cons zero rest (b := false) hreads.keys rfl hindex
      (fun h => absurd (hcond.symm.trans h) (by simp)) fun _ => h
    rw [hcond] at hvalid
    simpa using hvalid
  have hentity : checkValid (flatten [displays, id]) [ladder, zero, zero, kindKey] = some true := by
    have hin' : InTree [displays, id] := (inTree_concat.mp hin).1
    have hreads' : Reads [displays, id] := reads_short hin' (by simp) (hids _)
    exact check_step hreads' (inTree_concat.mp hin).2 (fun _ => by decide)
      (hskip _ (by simp) (hskip _ (by simp) hlast))
  obtain ⟨known, hcheck, hiff⟩ := hexact.2 _ hpath
  rw [check_entity hdisplays collection_known.1 hentity] at hcheck
  cases hcheck
  rcases (hiff.mp rfl).2 with h | h
  · exact hzero (inTree_next h)
  · have hout : ¬ InTree ([displays, id, ladder] ++ [zero, kindKey]) :=
      fun h => hzero (inTree_next h)
    exact hout ((indexed_leaves hin hzero).mp h).2.2.2

theorem member_plain {s : Scope} (hexact : s.Exact) {id member : Key} (hid : s.id id)
    (hmember : s.member member) : PlainMember member := by
  have hplain := sensor_plain hexact hid
  have hzones := structural_collections.1
  have hpath : s.AdmitsPath [zones, id, weights, member, bogus] := by
    refine ⟨fun other hother => ?_, ?_, fun htwice => ?_⟩
    · rw [pathId_cons hother]
      exact hid
    · rintro other ⟨zone, below, heq⟩
      simp only [List.cons.injEq] at heq
      rw [← heq.2.2.2.1]
      exact hmember
    · exact absurd htwice (not_twice_cons (by decide) _)
  have hids (rest : List Key) : ∀ other, PathId (zones :: id :: rest) other → PlainId other := by
    intro other hother
    rw [pathId_cons hother]
    exact hplain
  by_contra hout
  have hchild : KnownChild [zones] id := .inl (.inl ⟨zones, hzones, rfl⟩)
  have hin : InTree [zones, id] := inTree_concat.mpr ⟨.child .root collection_known.2, hchild⟩
  have hweights : KnownChild [zones, id] weights := .inr ⟨_, rfl, by decide⟩
  have hin' : InTree [zones, id, weights] := inTree_concat.mpr ⟨hin, hweights⟩
  have hany : AnyChild [zones, id, weights] := .inr ⟨id, rfl⟩
  have hlevel : isWeightsLevel (flatten [zones, id, weights, member]) = true := by
    have hflat : flatten [zones, id, weights, member] =
        (zones ++ dots [id, weights]) ++ '.' :: member :=
      flatten_last (collection_nonempty zones hzones) [id, weights] member
    rw [hflat, isWeightsLevel]
    refine (endsWithSegment_concat weights_plain.1 _ member).mpr ?_
    by_contra h
    rw [not_or] at h
    exact hout ⟨h.1, Bool.eq_false_iff.mpr h.2⟩
  have hbogus : checkValid (flatten [zones, id, weights, member]) [bogus] = some true := by
    have hvalid := checkValid_cons bogus [] (b := true) (d := false) (keys_member hplain member) rfl
      rfl (fun _ => rfl) (by simp)
    rw [hlevel] at hvalid
    simpa using hvalid
  have hmember' : checkValid (flatten [zones, id, weights]) [member, bogus] = some true := by
    refine check_step (reads_short hin' (by simp) (hids _)) (.inl hany) (fun h => ?_) hbogus
    rcases arrays_of_inTree hin' (hids _) with harrays | hnone
    · exact absurd hany (arrayOfTables_section (harrays.mp h)).1
    · exact absurd hany hnone.2.1
  have hzone : checkValid (flatten [zones, id]) [weights, member, bogus] = some true :=
    check_step (reads_short hin (by simp) (hids _)) hweights (fun _ => by decide) hmember'
  obtain ⟨known, hcheck, hiff⟩ := hexact.2 _ hpath
  rw [check_entity hzones collection_known.2 hzone] at hcheck
  cases hcheck
  rcases (hiff.mp rfl).2 with h | h
  · have hlast : KnownChild [zones, id, weights, member] bogus := inTree_next h
    refine not_knownChild ?_ ?_ hlast
    · rw [anyChild_entity]
      simp
    · intro h
      cases h
  · exact not_indexed_cons (by decide) _ h

/-! ## Stray tables and cut keys -/

theorem stands_root {entries : List (Key × Value)} {path : List Key} {u : Value}
    (h : Stands (.table entries) path u) :
    (path = [] → u = .table entries) ∧
      ∀ key rest, path = key :: rest → ∃ val, (key, val) ∈ entries := by
  induction h with
  | root => exact ⟨fun _ => rfl, fun key rest h => by cases h⟩
  | @key path below key val htable hentry ih =>
    refine ⟨fun h => by simp at h, ?_⟩
    intro first rest heq
    cases path with
    | nil =>
      have hbelow := ih.1 rfl
      cases hbelow
      rw [List.nil_append, List.cons.injEq] at heq
      exact ⟨val, heq.1 ▸ hentry⟩
    | cons segment path => exact ih.2 first path (by rw [(List.cons.inj heq).1])
  | @item path items val harray hitem ih =>
    refine ⟨fun hpath => ?_, ih.2⟩
    have := ih.1 hpath
    cases this

def wearKey : Key := chars "wear"
def cutName : Key := chars "displaysé"

/-- `wear = [[{ bogus = … }]]`. -/
def strayTree : Value := .table [(wearKey, .array [.array [.table [(bogus, .scalar)]]])]

/-- A table named `displaysé`. -/
def cutTree : Value := .table [(cutName, .table [])]

theorem not_treeId {key : Key} {val : Value} (hkey : key ∉ collections) (id : Key) :
    ¬ TreeId (.table [(key, val)]) id := by
  rintro ⟨c, hc, u, hu⟩
  obtain ⟨w, hw⟩ := (stands_root hu).2 c [id] rfl
  rw [List.mem_singleton, Prod.mk.injEq] at hw
  exact hkey (hw.1 ▸ hc)

theorem not_treeMember {key : Key} {val : Value} (hkey : key ∉ collections) (member : Key) :
    ¬ TreeMember (.table [(key, val)]) member := by
  rintro ⟨zone, u, hu⟩
  obtain ⟨w, hw⟩ := (stands_root hu).2 zones _ rfl
  rw [List.mem_singleton, Prod.mk.injEq] at hw
  exact hkey (hw.1 ▸ structural_collections.1)

theorem not_stray {s : Scope} (hexact : s.Exact) : ¬ s.stray := by
  intro hstray
  have hwear : wearKey ∉ collections := by decide
  have hadmits : s.AdmitsTree strayTree := by
    refine ⟨fun id h => absurd h (not_treeId hwear id),
      fun member h => absurd h (not_treeMember hwear member), fun _ => hstray, ?_⟩
    rintro ⟨n, key, entries, hdirect, c, rest, hkey, -⟩
    have hroot := (stands_root (stands_of_direct hdirect)).2
    cases n with
    | zero =>
      obtain ⟨val, hval⟩ := hroot key [] rfl
      rw [List.mem_singleton, Prod.mk.injEq] at hval
      have hlen := congrArg List.length (hval.1.symm.trans hkey)
      rw [List.length_append, List.length_cons] at hlen
      have hwearLen : wearKey.length = 4 := rfl
      have hdisplaysLen : displays.length = 8 := rfl
      omega
    | succ n =>
      obtain ⟨val, hval⟩ := hroot [] _ rfl
      rw [List.mem_singleton, Prod.mk.injEq] at hval
      cases hval.1
  have hcollect : collectUnknownKeys strayTree = some [] := by decide
  obtain ⟨results, hresults, hmem⟩ := hexact.1 strayTree hadmits
  rw [hcollect] at hresults
  cases hresults
  have hin : InTree [wearKey] := .child .root (.inr ⟨_, rfl, by decide⟩)
  have hany : ¬ AnyChild [wearKey] := by
    rintro (⟨c, hc, h⟩ | ⟨zone, h⟩)
    · rw [List.cons.injEq] at h
      exact hwear (h.1 ▸ hc)
    · cases h
  have hstands : Stands strayTree [wearKey] (.table [(bogus, .scalar)]) := by
    have harray : Stands strayTree [wearKey] (.array [.array [.table [(bogus, .scalar)]]]) :=
      .key .root (by simp)
    exact .item (.item harray List.mem_cons_self) List.mem_cons_self
  have hbelow : Below [wearKey] := .inl ⟨hin, .inr (by intro h; cases h)⟩
  have hreport := (hmem [wearKey] _ bogus .scalar hstands (by simp) hbelow).mpr ⟨?_, ?_⟩
  · cases hreport
  · intro h
    exact not_knownChild hany (by decide) (inTree_concat.mp h).2
  · rintro ⟨id, rest, h | h⟩
    · cases h
    · cases h

theorem not_cut {s : Scope} (hexact : s.Exact) : ¬ s.cut := by
  intro hcut
  have hname : cutName ∉ collections := by decide
  have hadmits : s.AdmitsTree cutTree := by
    refine ⟨fun id h => absurd h (not_treeId hname id),
      fun member h => absurd h (not_treeMember hname member), ?_, fun _ => hcut⟩
    rintro ⟨path, entries, hin, -, hstands, hdirect⟩
    cases path with
    | nil =>
      have := (stands_root hstands).1 rfl
      cases this
      exact absurd (.root rfl) hdirect
    | cons key rest =>
      obtain ⟨val, hval⟩ := (stands_root hstands).2 key rest rfl
      rw [List.mem_singleton, Prod.mk.injEq] at hval
      have hin' : InTree ([] ++ key :: rest) := hin
      have hchild := inTree_next hin'
      rw [hval.1] at hchild
      refine absurd hchild (not_knownChild ?_ (by decide))
      rintro (⟨c, -, h⟩ | ⟨zone, h⟩)
      · cases h
      · cases h
  obtain ⟨results, hresults, -⟩ := hexact.1 cutTree hadmits
  have hcollect : collectUnknownKeys cutTree = none := by decide
  rw [hcollect] at hresults
  cases hresults

/-- The walk and the check are right for what a configuration uses just when its ids are plain and
nothing in it is stray, cut or doubled. -/
theorem exact_iff (s : Scope) : s.Exact ↔ s.Sound := by
  constructor
  · intro h
    exact ⟨not_stray h, not_cut h, fun _ hid => sensor_plain h hid, fun _ hid => not_twice h hid,
      fun _ _ hid hmember => member_plain h hid hmember⟩
  · exact Scope.Sound.exact

/-! ## A dotted id -/

def dotted : Key := chars "a.b"

/-- A sensor `a.b` with one key that is not known and one that is. -/
def dottedTree : Value :=
  .table [(sensors, .table [(dotted, .table [(bogus, .scalar), (typeKey, .scalar)])])]

/-- The unknown key is not reported, and the known one is not accepted. -/
theorem dotted_id_unread : ¬ ExactTree dottedTree ∧ ¬ ExactPath [sensors, dotted, typeKey] := by
  refine ⟨?_, ?_⟩
  · rintro ⟨results, hresults, hmem⟩
    have hcollect : collectUnknownKeys dottedTree = some [] := by decide
    rw [hcollect] at hresults
    cases hresults
    have hstands : Stands dottedTree [sensors, dotted]
        (.table [(bogus, .scalar), (typeKey, .scalar)]) :=
      .key (.key .root List.mem_cons_self) List.mem_cons_self
    obtain ⟨-, hsensors, -, hall⟩ := sensors_root
    have hin : InTree [sensors, dotted] := inTree_concat.mpr ⟨.child .root hsensors, hall dotted⟩
    have hbelow : Below [sensors, dotted] := .inl ⟨hin, .inr (by intro h; cases h)⟩
    have hreport := (hmem _ _ bogus .scalar hstands (by simp) hbelow).mpr ⟨?_, ?_⟩
    · cases hreport
    · intro h
      exact sensor_out sensor_keys.1 [] (.inl h)
    · rintro ⟨id, rest, h | h⟩
      · cases h
      · cases h
  · rintro ⟨known, hcheck, hiff⟩
    have hfalse : isKnownConfigPath [sensors, dotted, typeKey] = some false := by decide
    rw [hfalse] at hcheck
    cases hcheck
    have := hiff.mpr ⟨by simp, .inl (sensor_known sensor_keys.2.2)⟩
    cases this

end Dormant.Schema
