import Dormant.Web.PatchGates
import Dormant.Web.PathPlaces

/-!
# Entities of a batch

In the batches in which no path names a collection or goes through an entity that is gone, entities
come and go only by their own patches, and a new entity has creatable fields only. `Inv` is what
holds after each patch of such a batch.
-/

namespace Dormant.ConfigPatch
set_option autoImplicit false

open Checks ConfigApply Places

/-! ## What is locked -/

def Segment.text : Segment → String
  | .key k => k
  | .index i => toString i

/-- The place ends in a locked leaf. -/
def Locked (place : List Segment) : Prop := ∃ leaf ∈ lockedLeaves, place.getLast? = some (.key leaf)

/-- The place is at or under a redacted path. An empty path redacts nothing. -/
def Redacted (redacted : List (List String)) (place : List Segment) : Prop :=
  ∃ r ∈ redacted, r ≠ [] ∧ r <+: place.map Segment.text

/-- The collection has the entity, in a table of any form. -/
def Entity (root : Table) (c id : String) : Prop := (root.at [.key c, .key id]).isSome

def CreatableField (c field : String) : Prop :=
  ∃ allowed, creatableFields.lookup c = some allowed ∧ field ∈ allowed

/-- The path of a set or a removal. -/
def patchPath : Patch Payload → Option (List String)
  | .set path _ => some path
  | .remove path => some path
  | .createEntity .. => none
  | .deleteEntity .. => none

/-- The patch, after the patches before it. -/
structure Harmless (doc : Document) (redacted : List (List String))
    (before : List (Patch Payload)) (patch : Patch Payload) : Prop where
  notCollection : ∀ c ∈ collections, patchPath patch ≠ some [c]
  notEntity : ∀ c ∈ collections, ∀ id, patch ≠ .remove [c, id]
  noneInside : ∀ path, patchPath patch = some path → ∀ place, pathPlace path <+: place →
    Locked place → doc.root.at place = none
  noneThrough : ∀ path, patchPath patch = some path → ∀ leaf ∈ lockedLeaves, leaf ∉ path
  notHidden : ∀ path, patchPath patch = some path → (pathPlace path).map Segment.text ≠ path →
    ∀ r ∈ redacted, r ≠ [] → ¬ r <+: (pathPlace path).map Segment.text ∧
      ¬ (pathPlace path).map Segment.text <+: r
  notRevived : ∀ path, patchPath patch = some path → ∀ c id, [c, id] <+: path →
    .deleteEntity c id ∉ before

def HarmlessBatch (doc : Document) (redacted : List (List String))
    (patches : List (Patch Payload)) : Prop :=
  ∀ before patch after, patches = before ++ patch :: after → Harmless doc redacted before patch

variable {doc : Document} {redacted : List (List String)} {root root' : Table}
variable {c id : String} {path : List String} {place : List Segment}

/-! ## Entities -/

theorem tableAt_key : root.tableAt [.key c] = (root.get c).bind Item.asTable := by
  unfold Table.tableAt Table.get
  rw [at_key]
  cases root.lookup c <;> rfl

theorem isSome_of_tableAt {t : Table} (h : root.tableAt place = some t) :
    (root.at place).isSome := by
  unfold Table.tableAt at h
  obtain ⟨node, hnode, -⟩ := Option.bind_eq_some_iff.mp h
  exact Option.isSome_of_eq_some hnode

theorem entity_iff_lookup {t : Table} (h : root.tableAt [.key c] = some t) :
    Entity root c id ↔ (t.lookup id).isSome := by
  have hat : root.at ([.key c] ++ [.key id]) = t.lookup id :=
    (at_below h (List.cons_ne_nil _ _)).trans at_key
  unfold Entity
  rw [← hat]
  rfl

theorem entityExists_iff : entityExists doc c id = true ↔
    (doc.root.tableAt [.key c]).isSome ∧ Entity doc.root c id := by
  unfold entityExists
  rw [← tableAt_key]
  cases htable : doc.root.tableAt [.key c] with
  | none => simp
  | some t =>
    rw [entity_iff_lookup htable]
    dsimp only [Table.get]
    rw [Option.isSome_map]
    simp

theorem entity_collection (h : Entity root c id) : (root.at [.key c]).isSome :=
  find_isSome_above (List.prefix_append [Segment.key c] [.key id]) h

/-! ## The run of a batch -/

/-- What holds after the patches before. -/
structure Inv (doc : Document) (before : List (Patch Payload)) (mid : Table) : Prop where
  entities : ∀ c ∈ collections, ∀ id, Entity mid c id ↔
    Entity doc.root c id ∧ .deleteEntity c id ∉ before ∨
      ∃ value, .createEntity c id value ∈ before
  created : ∀ c id value, .createEntity c id value ∈ before →
    c ∈ collections ∧ ¬ Entity doc.root c id ∧
      ∀ field, (mid.at [.key c, .key id, .key field]).isSome → CreatableField c field
  notTable : ∀ c ∈ collections, doc.root.tableAt [.key c] = none →
    (doc.root.at [.key c]).isSome → mid.at [.key c] = doc.root.at [.key c]

theorem inv_start : Inv doc [] doc.root where
  entities := by simp
  created := by
    intro c id value h
    cases h
  notTable := fun _ _ _ _ => rfl

theorem passed_of_check {patch : Patch Payload} (h : checkPatch doc redacted patch = .ok ())
    (hpath : patchPath patch = some path) : Passed doc redacted path := by
  cases patch with
  | set path' value =>
    cases hpath
    exact checkPath_ok h
  | remove path' =>
    cases hpath
    exact checkPath_ok h
  | createEntity collection id value => cases hpath
  | deleteEntity collection id => cases hpath

theorem reach_collection (hpassed : Passed doc redacted path) (hc : c ∈ collections)
    (hne : path ≠ [c]) (h : Overlap [.key c] (pathPlace path)) :
    ∃ id p, path = c :: id :: p ∧ entityExists doc c id = true := by
  have hhead : ∃ rest, pathPlace path = .key c :: rest := by
    obtain ⟨rest, hrest⟩ | hbelow := h
    · exact ⟨rest, hrest.symm⟩
    · obtain hplace | hplace := List.prefix_cons_iff.mp hbelow
      · obtain ⟨a, p, rfl⟩ := List.exists_cons_of_ne_nil hpassed.nonempty
        exact absurd hplace pathPlace_ne_nil
      · obtain ⟨rest, hrest, -⟩ := hplace
        exact ⟨rest, hrest⟩
  obtain ⟨rest, hrest⟩ := hhead
  obtain ⟨p, rfl⟩ := pathPlace_head hrest
  cases p with
  | nil => exact absurd rfl hne
  | cons id p => exact ⟨id, p, rfl, hpassed.entity c id p rfl hc⟩

theorem reach_entity (hpassed : Passed doc redacted path) (hc : c ∈ collections)
    (hne : path ≠ [c]) (h : Overlap [.key c, .key id] (pathPlace path)) :
    entityExists doc c id = true ∧ [c, id] <+: path ∧ [.key c, .key id] <+: pathPlace path := by
  have habove : Overlap ([.key c] ++ [.key id]) (pathPlace path) := h
  obtain ⟨id', p, rfl, hexists⟩ := reach_collection hpassed hc hne habove.above
  obtain ⟨segment, rest, hplace⟩ : ∃ segment rest,
      pathPlace (c :: id' :: p) = .key c :: segment :: rest := pathPlace_collection hc
  rw [hplace, overlap_cons] at h
  have hsegment : segment = .key id := by
    obtain h | h := h
    · exact ((List.cons_prefix_cons.mp h).1).symm
    · exact (List.cons_prefix_cons.mp h).1
  subst hsegment
  obtain ⟨p', hp'⟩ := pathPlace_second hc hplace
  cases hp'
  refine ⟨hexists, ⟨p, rfl⟩, ?_⟩
  rw [hplace]
  exact ⟨rest, rfl⟩

variable {before : List (Patch Payload)} {mid next : Table} {patch : Patch Payload}

/-- The table that something is removed from stays. -/
theorem applyRemove_parent {b : String} {p : List String}
    (happly : applyRemove (c :: id :: b :: p) mid = .ok next)
    (hplace : [.key c, .key id] <+: pathPlace (c :: id :: b :: p)) : Entity next c id := by
  obtain ⟨leaf, hleaf⟩ := getLast?_cons_some c (id :: b :: p)
  unfold applyRemove at happly
  unfold pathPlace at hplace
  rw [hleaf] at happly hplace
  dsimp only at happly hplace
  rw [List.dropLast_cons_cons, List.dropLast_cons_cons] at happly hplace
  obtain ⟨t, t', -, -, hnow, -⟩ := parentTable_edited happly
  refine find_isSome_above ?_ (isSome_of_tableAt hnow)
  have hne : parentPlace (id :: (b :: p).dropLast) ≠ [] := parentPlace_ne_nil
  obtain ⟨segment, rest, hparent⟩ := List.exists_cons_of_ne_nil hne
  rw [parentPlace_cons, hparent] at hplace ⊢
  obtain ⟨-, hplace⟩ := List.cons_prefix_cons.mp hplace
  obtain ⟨hsegment, -⟩ := List.cons_prefix_cons.mp hplace
  rw [← hsegment]
  exact ⟨rest, rfl⟩

/-- A set or a removal of an accepted batch leaves something at the entity it is in. -/
theorem entity_of_walk (hpath : patchPath patch = some path)
    (happly : applyPatch mid patch = .ok next) (hnot : patch ≠ .remove [c, id])
    (h : [c, id] <+: path) (hplace : [.key c, .key id] <+: pathPlace path) : Entity next c id := by
  cases patch with
  | set path' value =>
    cases hpath
    have hleaves := (applySet_spec happly).2
    have hsome : (next.at (pathPlace path)).isSome := by
      generalize next.at (pathPlace path) = node at hleaves
      cases hleaves
      rfl
    exact find_isSome_above hplace hsome
  | remove path' =>
    cases hpath
    obtain ⟨p, rfl⟩ := h
    cases p with
    | nil => exact absurd rfl hnot
    | cons b p => exact applyRemove_parent happly hplace
  | createEntity collection id value => cases hpath
  | deleteEntity collection id => cases hpath

theorem walk_place (hpath : patchPath patch = some path) : patchPlace patch = pathPlace path := by
  cases patch with
  | set path' value =>
    cases hpath
    rfl
  | remove path' =>
    cases hpath
    rfl
  | createEntity collection id value => cases hpath
  | deleteEntity collection id => cases hpath

theorem mem_append_walk {other : Patch Payload} (hpath : patchPath patch = some path)
    (hother : patchPath other = none) : other ∈ before ++ [patch] ↔ other ∈ before := by
  rw [List.mem_append, List.mem_singleton]
  refine or_iff_left ?_
  rintro rfl
  rw [hpath] at hother
  cases hother

/-- A set or a removal changes the entities of no collection. -/
theorem Inv.walk (h : Inv doc before mid) (hpath : patchPath patch = some path)
    (hcheck : checkPatch doc redacted patch = .ok ())
    (hharmless : Harmless doc redacted before patch)
    (happly : applyPatch mid patch = .ok next) : Inv doc (before ++ [patch]) next := by
  have hpassed := passed_of_check hcheck hpath
  have hsame : mid.SameOff (pathPlace path) next := walk_place hpath ▸ (applyPatch_spec happly).1
  have hne : ∀ c ∈ collections, path ≠ [c] :=
    fun c hc heq => hharmless.notCollection c hc (heq ▸ hpath)
  refine ⟨fun c hc id => ?_, fun c id value hmem => ?_, fun c hc htable hsome => ?_⟩
  · rw [mem_append_walk hpath rfl]
    simp only [mem_append_walk hpath (show patchPath (.createEntity ..) = none from rfl)]
    rw [← h.entities c hc id]
    by_cases hover : Overlap [.key c, .key id] (pathPlace path)
    · obtain ⟨hexists, hinside, hplace⟩ := reach_entity hpassed hc (hne c hc) hover
      have hnow : Entity next c id :=
        entity_of_walk hpath happly (hharmless.notEntity c hc id) hinside hplace
      have hwas : Entity mid c id := (h.entities c hc id).mpr
        (.inl ⟨(entityExists_iff.mp hexists).2, hharmless.notRevived path hpath c id hinside⟩)
      exact iff_of_true hnow hwas
    · unfold Entity
      have hat : next.at [.key c, .key id] = mid.at [.key c, .key id] := hsame _ hover
      rw [hat]
  · rw [mem_append_walk hpath rfl] at hmem
    obtain ⟨hc, hfresh, hfields⟩ := h.created c id value hmem
    refine ⟨hc, hfresh, fun field hfield => hfields field ?_⟩
    have hoff : ¬ Overlap ([.key c, .key id] ++ [.key field]) (pathPlace path) := by
      intro hover
      obtain ⟨hexists, -⟩ := reach_entity hpassed hc (hne c hc) hover.above
      exact hfresh (entityExists_iff.mp hexists).2
    have hat : next.at [.key c, .key id, .key field] = mid.at [.key c, .key id, .key field] :=
      hsame _ hoff
    rw [← hat]
    exact hfield
  · have hoff : ¬ Overlap [.key c] (pathPlace path) := by
      intro hover
      obtain ⟨id, p, -, hexists⟩ := reach_collection hpassed hc (hne c hc) hover
      rw [entityExists_iff, htable] at hexists
      cases hexists.1
    exact (hsame _ hoff).trans (h.notTable c hc htable hsome)

/-- The places of two entities. -/
theorem overlap_entities {c' id' : String} {rest : List Segment}
    (h : Overlap (.key c :: .key id :: rest) [.key c', .key id']) : c = c' ∧ id = id' := by
  obtain h | h := h
  · obtain ⟨hc, h⟩ := List.cons_prefix_cons.mp h
    obtain ⟨hid, -⟩ := List.cons_prefix_cons.mp h
    exact ⟨Segment.key.inj hc, Segment.key.inj hid⟩
  · obtain ⟨hc, h⟩ := List.cons_prefix_cons.mp h
    obtain ⟨hid, -⟩ := List.cons_prefix_cons.mp h
    exact ⟨(Segment.key.inj hc).symm, (Segment.key.inj hid).symm⟩

/-- A patch of an entity leaves the other entities alone. -/
theorem Inv.others (h : Inv doc before mid) {c' id' : String} (hc' : c' ∈ collections)
    (hsame : mid.SameOff [.key c', .key id'] next)
    (hdelete : ∀ c id, patch = .deleteEntity c id → c = c' ∧ id = id')
    (hcreate : ∀ c id value, patch = .createEntity c id value → c = c' ∧ id = id')
    (hown : Entity next c' id' ↔ Entity doc.root c' id' ∧ .deleteEntity c' id' ∉ before ++ [patch] ∨
      ∃ value, .createEntity c' id' value ∈ before ++ [patch])
    (hcreated : ∀ value, .createEntity c' id' value ∈ before ++ [patch] →
      ¬ Entity doc.root c' id' ∧
        ∀ field, (next.at [.key c', .key id', .key field]).isSome → CreatableField c' field)
    (htable : doc.root.tableAt [.key c'] = none → doc.root.at [.key c'] = none) :
    Inv doc (before ++ [patch]) next := by
  refine ⟨fun c hc id => ?_, fun c id value hmem => ?_, fun c hc hnone hsome => ?_⟩
  · by_cases heq : c = c' ∧ id = id'
    · obtain ⟨rfl, rfl⟩ := heq
      exact hown
    · have hat : next.at [.key c, .key id] = mid.at [.key c, .key id] :=
        hsame _ fun hover => heq (overlap_entities hover)
      have hdeleted : .deleteEntity c id ∈ before ++ [patch] ↔ .deleteEntity c id ∈ before := by
        rw [List.mem_append, List.mem_singleton]
        exact or_iff_left fun hpatch => heq (hdelete c id hpatch.symm)
      have hnew (value : Payload) : .createEntity c id value ∈ before ++ [patch] ↔
          .createEntity c id value ∈ before := by
        rw [List.mem_append, List.mem_singleton]
        exact or_iff_left fun hpatch => heq (hcreate c id value hpatch.symm)
      simp only [hdeleted, hnew]
      rw [← h.entities c hc id, Entity, hat]
      rfl
  · by_cases heq : c = c' ∧ id = id'
    · obtain ⟨rfl, rfl⟩ := heq
      exact ⟨hc', hcreated value hmem⟩
    · rw [List.mem_append, List.mem_singleton] at hmem
      obtain ⟨hc, hfresh, hfields⟩ := h.created c id value
        (hmem.resolve_right fun hpatch => heq (hcreate c id value hpatch.symm))
      refine ⟨hc, hfresh, fun field hfield => hfields field ?_⟩
      have hat : next.at [.key c, .key id, .key field] = mid.at [.key c, .key id, .key field] :=
        hsame _ fun hover => heq (overlap_entities hover)
      rw [← hat]
      exact hfield
  · have hoff : ¬ Overlap [Segment.key c] [.key c', .key id'] := by
      intro hover
      have hcc : c = c' := by
        obtain hover | hover := hover
        · exact Segment.key.inj (List.cons_prefix_cons.mp hover).1
        · exact (Segment.key.inj (List.cons_prefix_cons.mp hover).1).symm
      subst hcc
      rw [htable hnone] at hsome
      cases hsome
    exact (hsame _ hoff).trans (h.notTable c hc hnone hsome)

/-- The fields of a new entity are among those of its payload. -/
theorem field_of_putFields {members : List (String × Json)} {table : Table} {field : String}
    (h : ((members.foldl putField table).lookup field).isSome) :
    (table.lookup field).isSome ∨ ∃ member ∈ members, member.1 = field := by
  induction members generalizing table with
  | nil => exact .inl h
  | cons member members ih =>
    obtain hput | ⟨other, hother, heq⟩ := ih h
    · by_cases heq : member.1 = field
      · exact .inr ⟨member, List.mem_cons_self .., heq⟩
      · left
        unfold putField at hput
        split at hput
        · exact hput
        · split at hput
          · rwa [Entries.lookup_put_of_ne (Ne.symm heq)] at hput
          · exact hput
    · exact .inr ⟨other, List.mem_cons_of_mem _ hother, heq⟩

/-- An entity is created in a table, or in a collection that is new. -/
theorem Inv.createTable {value : Json} (h : Inv doc before mid) (hc : c ∈ collections)
    (happly : applyCreateEntity c id value mid = .ok next)
    (hnone : doc.root.tableAt [.key c] = none) : doc.root.at [.key c] = none := by
  by_contra hne
  have hat : mid.at [.key c] = doc.root.at [.key c] :=
    h.notTable c hc hnone (Option.isSome_iff_ne_none.mpr hne)
  obtain ⟨t, t', -, hwas, -⟩ := enterTable_edited (applyCreateEntity_enters happly)
  obtain hwas | ⟨hwas, -⟩ := hwas
  · unfold Table.tableAt at hwas hnone
    rw [hat, hnone] at hwas
    cases hwas
  · exact hne (hat.symm.trans hwas)

theorem Inv.create {value : Payload} (h : Inv doc before mid)
    (hcheck : checkPatch doc redacted (.createEntity c id value) = .ok ())
    (happly : applyPatch mid (.createEntity c id value) = .ok next) :
    Inv doc (before ++ [.createEntity c id value]) next := by
  obtain ⟨hc, habsent, members, allowed, hvalue, hallowed, hfields⟩ :=
    checkCreateEntity_ok (mapError_eq_ok.mp hcheck)
  obtain ⟨hsame, hleaves⟩ := applyPatch_spec happly
  have hat : next.at [.key c, .key id] = some (plain, .table plain (jsonToTomlTable value.json)) := by
    change Leaves _ (next.at [.key c, .key id]) at hleaves
    generalize next.at [.key c, .key id] = node at hleaves
    cases hleaves
    rfl
  have htable := h.createTable hc happly
  have hfresh : ¬ Entity doc.root c id := by
    intro hentity
    cases hroot : doc.root.tableAt [.key c] with
    | none =>
      have hsome := entity_collection hentity
      rw [htable hroot] at hsome
      cases hsome
    | some t =>
      have hexists := entityExists_iff.mpr ⟨Option.isSome_of_eq_some hroot, hentity⟩
      rw [habsent] at hexists
      cases hexists
  refine h.others hc hsame (fun _ _ heq => by cases heq) (fun _ _ _ heq => ?_) ?_
    (fun _ _ => ⟨hfresh, fun field hfield => ?_⟩) htable
  · cases heq
    exact ⟨rfl, rfl⟩
  · refine iff_of_true (Option.isSome_of_eq_some hat) (.inr ⟨value, ?_⟩)
    exact List.mem_append_right _ (List.mem_singleton_self _)
  · have hentity : next.tableAt [.key c, .key id] = some (jsonToTomlTable value.json) := by
      unfold Table.tableAt
      rw [hat]
      rfl
    have hbelow : next.at ([.key c, .key id] ++ [.key field]) =
        (jsonToTomlTable value.json).lookup field :=
      (at_below hentity (List.cons_ne_nil _ _)).trans at_key
    change (next.at ([.key c, .key id] ++ [.key field])).isSome at hfield
    rw [hbelow, hvalue] at hfield
    obtain hnil | ⟨member, hmember, rfl⟩ := field_of_putFields hfield
    · cases hnil
    · exact ⟨allowed, hallowed, hfields member hmember⟩

theorem Inv.delete (h : Inv doc before mid)
    (hcheck : checkPatch doc redacted (.deleteEntity c id) = .ok ())
    (happly : applyPatch mid (.deleteEntity c id) = .ok next) :
    Inv doc (before ++ [.deleteEntity c id]) next := by
  obtain ⟨hc, hexists⟩ := checkDeleteEntity_ok (mapError_eq_ok.mp hcheck)
  obtain ⟨hsame, hleaves⟩ := applyPatch_spec happly
  have hat : next.at [.key c, .key id] = none := by
    change Leaves _ (next.at [.key c, .key id]) at hleaves
    generalize next.at [.key c, .key id] = node at hleaves
    cases hleaves
    rfl
  obtain ⟨htable, hentity⟩ := entityExists_iff.mp hexists
  have hnotCreated (value : Payload) :
      .createEntity c id value ∉ before ++ [.deleteEntity c id] := by
    intro hmem
    rw [List.mem_append, List.mem_singleton] at hmem
    obtain hmem | hmem := hmem
    · exact (h.created c id value hmem).2.1 hentity
    · cases hmem
  refine h.others hc hsame (fun _ _ heq => ?_) (fun _ _ _ heq => by cases heq) ?_
    (fun value hmem => absurd hmem (hnotCreated value)) fun hnone => ?_
  · cases heq
    exact ⟨rfl, rfl⟩
  · refine iff_of_false ?_ ?_
    · unfold Entity
      rw [hat]
      decide
    · rintro (⟨-, hdeleted⟩ | ⟨value, hmem⟩)
      · exact hdeleted (List.mem_append_right _ (List.mem_singleton_self _))
      · exact hnotCreated value hmem
  · rw [hnone] at htable
    cases htable

theorem Inv.step (h : Inv doc before mid) (hcheck : checkPatch doc redacted patch = .ok ())
    (hharmless : Harmless doc redacted before patch) (happly : applyPatch mid patch = .ok next) :
    Inv doc (before ++ [patch]) next := by
  cases patch with
  | set path value => exact h.walk rfl hcheck hharmless happly
  | remove path => exact h.walk rfl hcheck hharmless happly
  | createEntity c id value => exact h.create hcheck happly
  | deleteEntity c id => exact h.delete hcheck happly

theorem Inv.run {after : List (Patch Payload)} (h : Inv doc before mid)
    (hcheck : ∀ patch ∈ after, checkPatch doc redacted patch = .ok ())
    (hharmless : HarmlessBatch doc redacted (before ++ after))
    (happly : after.foldlM applyPatch mid = .ok next) : Inv doc (before ++ after) next := by
  induction after generalizing before mid with
  | nil =>
    cases happly
    rw [List.append_nil]
    exact h
  | cons patch after ih =>
    obtain ⟨mid', hpatch, hrest⟩ := bind_eq_ok.mp happly
    have hstep := h.step (hcheck patch (List.mem_cons_self ..))
      (hharmless before patch after rfl) hpatch
    rw [List.append_cons] at hharmless ⊢
    exact ih hstep (fun later hlater => hcheck later (List.mem_cons_of_mem _ hlater)) hharmless hrest

end Dormant.ConfigPatch
