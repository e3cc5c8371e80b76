import Dormant.Web.PatchPlaces

/-!
# What a conversion keeps

A value without nulls whose integers are those of TOML is the same again when it is read back as
JSON. A null inside is rejected, except in the fields of a new entity, where the field is dropped.
-/

namespace Dormant.ConfigPatch
set_option autoImplicit false

open Checks ConfigApply

/-- TOML has no null, and its integers are those of 64 bits with a sign. -/
def Json.Exact : Json → Prop
  | .null => False
  | .number (.posInt n) => n.toNat < 2 ^ 63
  | _ => True

theorem ofInt_posInt {n : UInt64} : JsonNumber.ofInt n.toNat = .posInt n := by
  rw [JsonNumber.ofInt, if_pos (Int.natCast_nonneg _), Int.toNat_natCast, UInt64.ofNat_toNat]

theorem ofInt_negInt {n : Int64} (h : n.toInt < 0) : JsonNumber.ofInt n.toInt = .negInt n := by
  rw [JsonNumber.ofInt, if_neg (Int.not_le.mpr h), Int64.ofInt_toInt]

theorem entriesToJson_append (entries entries' : Table) :
    entriesToJson (entries ++ entries') = entriesToJson entries ++ entriesToJson entries' := by
  induction entries with
  | nil => rfl
  | cons entry entries ih => rw [List.cons_append, entriesToJson, entriesToJson, ih]; rfl

/-! ## Exact values -/

mutual

theorem exact_value {value : Json} (hproper : value.All Json.Proper)
    (hexact : value.All Json.Exact) :
    ∃ item, jsonToTomlValue value = .ok item ∧ item.toJson = value := by
  cases value with
  | null => exact absurd hexact id
  | boolean b => exact ⟨_, rfl, rfl⟩
  | string text => exact ⟨_, rfl, rfl⟩
  | number n =>
    cases n with
    | posInt n =>
      have hsmall : (JsonNumber.posInt n).asI64 = some (n.toNat : ℤ) := if_pos hexact
      refine ⟨.scalar plain (.integer n.toNat), ?_, ?_⟩
      · rw [jsonToTomlValue, hsmall]
      · rw [Item.toJson, ofInt_posInt]
    | negInt n =>
      refine ⟨.scalar plain (.integer n.toInt), rfl, ?_⟩
      rw [Item.toJson, ofInt_negInt hproper]
    | float bits => exact ⟨_, rfl, rfl⟩
  | array items =>
    obtain ⟨values, hvalues, hsame⟩ := exact_items hproper.2 hexact.2
    refine ⟨.array plain values, ?_, ?_⟩
    · rw [jsonToTomlValue, hvalues]
      rfl
    · rw [Item.toJson, hsame]
  | object members =>
    have hnew : ∀ member ∈ members, member.1 ∉ ([] : Table).map Prod.fst :=
      fun _ _ => List.not_mem_nil
    obtain ⟨entries, hentries, hsame⟩ := exact_members hproper.2 hexact.2 hproper.1 hnew
    refine ⟨.inlineTable plain entries, ?_, ?_⟩
    · rw [jsonToTomlValue, hentries]
      rfl
    · rw [Item.toJson, hsame]

theorem exact_items {items : List Json} (hproper : ItemsAll Json.Proper items)
    (hexact : ItemsAll Json.Exact items) :
    ∃ values, jsonToTomlValues items = .ok values ∧ itemsToJson values = items := by
  cases items with
  | nil => exact ⟨[], rfl, rfl⟩
  | cons item items =>
    obtain ⟨value, hvalue, hsame⟩ := exact_value hproper.1 hexact.1
    obtain ⟨values, hvalues, hrest⟩ := exact_items hproper.2 hexact.2
    refine ⟨value :: values, ?_, ?_⟩
    · rw [jsonToTomlValues, hvalue, hvalues]
      rfl
    · rw [itemsToJson, hsame, hrest]

/-- The keys are new in the table and come once. -/
theorem exact_members {members : List (String × Json)} {table : Table}
    (hproper : MembersAll Json.Proper members) (hexact : MembersAll Json.Exact members)
    (hnodup : (members.map Prod.fst).Nodup)
    (hnew : ∀ member ∈ members, member.1 ∉ table.map Prod.fst) :
    ∃ entries, jsonToTomlEntries members table = .ok (table ++ entries) ∧
      entriesToJson entries = members := by
  cases members with
  | nil =>
    refine ⟨[], ?_, rfl⟩
    rw [List.append_nil, jsonToTomlEntries]
  | cons member members =>
    obtain ⟨hfirst, hnodup⟩ := List.nodup_cons.mp hnodup
    obtain ⟨value, hvalue, hsame⟩ := exact_value hproper.1 hexact.1
    have hput : Entries.put member.1 (plain, value) table = table ++ [(member.1, plain, value)] :=
      Entries.put_of_not_mem (hnew member (List.mem_cons_self ..))
    have hrestNew : ∀ other ∈ members,
        other.1 ∉ (table ++ [(member.1, plain, value)]).map Prod.fst := by
      intro other hother hmem
      rw [List.map_append, List.mem_append] at hmem
      obtain hmem | hmem := hmem
      · exact hnew other (List.mem_cons_of_mem _ hother) hmem
      · rw [List.map_singleton, List.mem_singleton] at hmem
        exact hfirst (hmem ▸ List.mem_map_of_mem hother)
    obtain ⟨entries, hentries, hrest⟩ := exact_members hproper.2 hexact.2 hnodup hrestNew
    refine ⟨(member.1, plain, value) :: entries, ?_, ?_⟩
    · rw [jsonToTomlEntries, hvalue]
      change jsonToTomlEntries members (Entries.put member.1 (plain, value) table) = _
      rw [hput, hentries, List.append_assoc, List.singleton_append]
    · rw [entriesToJson, hsame, hrest]

end

theorem exact_entry {json : Json} {entry : Item} (hproper : json.All Json.Proper)
    (hexact : json.All Json.Exact) (h : jsonToEntry json = .ok entry) : entry.toJson = json := by
  cases json with
  | object members =>
    have hnew : ∀ member ∈ members, member.1 ∉ ([] : Table).map Prod.fst :=
      fun _ _ => List.not_mem_nil
    obtain ⟨entries, hentries, hsame⟩ := exact_members hproper.2 hexact.2 hproper.1 hnew
    rw [jsonToEntry, hentries] at h
    cases h
    rw [Item.toJson]
    exact congrArg _ hsame
  | _ => cases h

theorem exact_entries {items : List Json} {entries : List Item}
    (hproper : ItemsAll Json.Proper items) (hexact : ItemsAll Json.Exact items)
    (h : items.mapM jsonToEntry = .ok entries) : itemsToJson entries = items := by
  induction items generalizing entries with
  | nil =>
    cases h
    rfl
  | cons item items ih =>
    rw [List.mapM_cons] at h
    obtain ⟨entry, hentry, h⟩ := bind_eq_ok.mp h
    obtain ⟨rest, hrest, h⟩ := bind_eq_ok.mp h
    cases h
    rw [itemsToJson, exact_entry hproper.1 hexact.1 hentry, ih hproper.2 hexact.2 hrest]

theorem exact_newItem {isAot : Bool} {value : Json} {item : Item}
    (hproper : value.All Json.Proper) (hexact : value.All Json.Exact)
    (h : newItem isAot value = .ok item) : item.toJson = value := by
  unfold newItem at h
  split at h
  · cases value with
    | array items =>
      obtain ⟨entries, hentries, h⟩ := bind_eq_ok.mp h
      cases h
      rw [Item.toJson, exact_entries hproper.2 hexact.2 hentries]
    | _ => cases h
  · obtain ⟨item', hitem', hsame⟩ := exact_value hproper hexact
    rw [hitem'] at h
    cases h
    exact hsame

theorem toJson_setSuffix (item : Item) (suffix : Option String) :
    (item.setSuffix suffix).toJson = item.toJson := by
  cases suffix with
  | none => cases item <;> rfl
  | some text =>
    cases item with
    | scalar decor s => cases s <;> rfl
    | _ => rfl

/-! ## New entities -/

def Json.withoutNulls : Json → Json
  | .object members => .object (members.filter (!·.2.isNull))
  | value => value

/-- Each field that is not null is exact. -/
def Json.FieldsExact : Json → Prop
  | .object members => ∀ member ∈ members, member.2.isNull = false → member.2.All Exact
  | _ => False

theorem exact_fields {members : List (String × Json)} {table : Table}
    (hproper : MembersAll Json.Proper members)
    (hexact : ∀ member ∈ members, member.2.isNull = false → member.2.All Json.Exact)
    (hnodup : (members.map Prod.fst).Nodup)
    (hnew : ∀ member ∈ members, member.1 ∉ table.map Prod.fst) :
    entriesToJson (members.foldl putField table) =
      entriesToJson table ++ members.filter (!·.2.isNull) := by
  induction members generalizing table with
  | nil => exact (List.append_nil _).symm
  | cons member members ih =>
    obtain ⟨hfirst, hnodup⟩ := List.nodup_cons.mp hnodup
    have hlater := fun other hother => hexact other (List.mem_cons_of_mem _ hother)
    rw [List.foldl_cons]
    cases hnull : member.2.isNull with
    | true =>
      rw [putField, if_pos hnull, List.filter_cons_of_neg (by rw [hnull]; decide)]
      exact ih hproper.2 hlater hnodup fun other hother => hnew other (List.mem_cons_of_mem _ hother)
    | false =>
      obtain ⟨value, hvalue, hsame⟩ := exact_value hproper.1
        (hexact member (List.mem_cons_self ..) hnull)
      have hput : putField table member = table ++ [(member.1, plain, value)] := by
        rw [putField, hnull, if_neg Bool.false_ne_true, hvalue]
        exact Entries.put_of_not_mem (hnew member (List.mem_cons_self ..))
      have hrestNew : ∀ other ∈ members,
          other.1 ∉ (table ++ [(member.1, plain, value)]).map Prod.fst := by
        intro other hother hmem
        rw [List.map_append, List.mem_append] at hmem
        obtain hmem | hmem := hmem
        · exact hnew other (List.mem_cons_of_mem _ hother) hmem
        · rw [List.map_singleton, List.mem_singleton] at hmem
          exact hfirst (hmem ▸ List.mem_map_of_mem hother)
      rw [hput, ih hproper.2 hlater hnodup hrestNew, List.filter_cons_of_pos (by rw [hnull]; decide),
        entriesToJson_append, List.append_assoc, entriesToJson, entriesToJson, hsame,
        List.singleton_append]

theorem exact_table {value : Json} (hproper : value.All Json.Proper) (hexact : value.FieldsExact) :
    (Item.table plain (jsonToTomlTable value)).toJson = value.withoutNulls := by
  cases value with
  | object members =>
    have hnew : ∀ member ∈ members, member.1 ∉ ([] : Table).map Prod.fst :=
      fun _ _ => List.not_mem_nil
    rw [Item.toJson, jsonToTomlTable, exact_fields hproper.2 hexact hproper.1 hnew]
    rfl
  | _ => exact absurd hexact id

/-! ## Nulls -/

def Json.NotNull (value : Json) : Prop := value.isNull = false

mutual

theorem notNull_value {value : Json} {item : Item} (h : jsonToTomlValue value = .ok item) :
    value.All Json.NotNull := by
  cases value with
  | null => cases h
  | boolean b => exact rfl
  | string text => exact rfl
  | number n => exact rfl
  | array items =>
    obtain ⟨values, hvalues, -⟩ := bind_eq_ok.mp h
    exact ⟨rfl, notNull_items hvalues⟩
  | object members =>
    obtain ⟨entries, hentries, -⟩ := bind_eq_ok.mp h
    exact ⟨rfl, notNull_members hentries⟩

theorem notNull_items {items : List Json} {values : List Item}
    (h : jsonToTomlValues items = .ok values) : ItemsAll Json.NotNull items := by
  cases items with
  | nil => exact trivial
  | cons item items =>
    obtain ⟨value, hvalue, h⟩ := bind_eq_ok.mp h
    obtain ⟨rest, hrest, -⟩ := bind_eq_ok.mp h
    exact ⟨notNull_value hvalue, notNull_items hrest⟩

theorem notNull_members {members : List (String × Json)} {table entries : Table}
    (h : jsonToTomlEntries members table = .ok entries) : MembersAll Json.NotNull members := by
  cases members with
  | nil => exact trivial
  | cons member members =>
    obtain ⟨value, hvalue, hrest⟩ := bind_eq_ok.mp h
    exact ⟨notNull_value hvalue, notNull_members hrest⟩

end

theorem notNull_entries {items : List Json} {entries : List Item}
    (h : items.mapM jsonToEntry = .ok entries) : ItemsAll Json.NotNull items := by
  induction items generalizing entries with
  | nil => exact trivial
  | cons item items ih =>
    rw [List.mapM_cons] at h
    obtain ⟨entry, hentry, h⟩ := bind_eq_ok.mp h
    obtain ⟨rest, hrest, -⟩ := bind_eq_ok.mp h
    refine ⟨?_, ih hrest⟩
    cases item with
    | object members =>
      obtain ⟨table, htable, -⟩ := bind_eq_ok.mp hentry
      exact ⟨rfl, notNull_members htable⟩
    | _ => cases hentry

/-- A value with a null inside is rejected. -/
theorem notNull_newItem {isAot : Bool} {value : Json} {item : Item}
    (h : newItem isAot value = .ok item) : value.All Json.NotNull := by
  unfold newItem at h
  split at h
  · cases value with
    | array items =>
      obtain ⟨entries, hentries, -⟩ := bind_eq_ok.mp h
      exact ⟨rfl, notNull_entries hentries⟩
    | _ => cases h
  · exact notNull_value h

end Dormant.ConfigPatch
