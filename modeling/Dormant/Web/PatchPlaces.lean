import Dormant.Foundations.Checks
import Dormant.Web.PatchApply

/-!
# What one patch changes

`Edited` says of a way to a table that it leads to a place, that the table there is the one that was
acted on, and that what changes there is all that changes. Each patch has a place, and nothing
changes that is neither above nor below it.
-/

namespace Dormant.ConfigPatch
set_option autoImplicit false

open Checks ConfigApply Places

variable {t t' root root' : Table} {key : String} {place place' : List Segment}

/-! ## Tables and their nodes -/

theorem at_key : t.at [.key key] = t.lookup key := by
  unfold Table.at
  rw [find_cons]
  change (t.lookup key).bind some = t.lookup key
  cases t.lookup key <;> rfl

/-- Below a table its own comments do not matter. -/
theorem find_table (decor own : Decor) (hplace : place ≠ []) :
    find Node.child (decor, .table own t) place = t.at place := by
  cases place with
  | nil => exact absurd rfl hplace
  | cons segment place =>
    unfold Table.at
    rw [find_cons, find_cons]
    cases segment <;> rfl

/-- The table at a place. -/
def Table.tableAt (root : Table) (place : List Segment) : Option Table :=
  (root.at place).bind fun node => node.2.asTable

theorem asTable_eq_some {item : Item} {entries : Table} (h : item.asTable = some entries) :
    ∃ own, item = .table own entries := by
  cases item with
  | table own entries' =>
    cases h
    exact ⟨own, rfl⟩
  | _ => cases h

theorem at_below (h : root.tableAt place = some t) (hplace : place' ≠ []) :
    root.at (place ++ place') = t.at place' := by
  unfold Table.tableAt at h
  obtain ⟨node, hnode, hentries⟩ := Option.bind_eq_some_iff.mp h
  obtain ⟨own, hitem⟩ := asTable_eq_some hentries
  have hfind : find Node.child root.node place = some node := hnode
  have hbelow := find_table (t := t) node.1 own hplace
  unfold Table.at at hbelow ⊢
  rw [find_append, hfind, Option.bind_some, ← hbelow, ← hitem]

theorem at_none_below (h : root.at place = none) : root.at (place ++ place') = none := by
  have hfind : find Node.child root.node place = none := h
  unfold Table.at
  rw [find_append, hfind, Option.bind_none]

theorem at_empty (hplace : place ≠ []) : Table.at [] place = none := by
  cases place with
  | nil => exact absurd rfl hplace
  | cons segment place =>
    unfold Table.at
    rw [find_cons]
    cases segment <;> rfl

theorem sameOff_put (node : Node) : t.SameOff [.key key] (Entries.put key node t) := by
  refine SameOff.of_children fun segment hsegment => ?_
  cases segment with
  | key other => exact Entries.lookup_put_of_ne fun heq => hsegment (congrArg _ heq)
  | index i => rfl

/-- A change below the node of a key. -/
theorem sameOff_put_below {node node' : Node}
    (hold : ∀ p, p ≠ [] →
      (t.lookup key).bind (find Node.child · p) = find Node.child node p)
    (h : Places.SameOff Node.child place node node') :
    t.SameOff (.key key :: place) (Entries.put key node' t) := by
  refine SameOff.cons Entries.lookup_put_self hold (fun segment hsegment => ?_) h
  cases segment with
  | key other => exact Entries.lookup_put_of_ne fun heq => hsegment (congrArg _ heq)
  | index i => rfl

/-- A change of a member of an array of tables. -/
theorem sameOff_set {decor : Decor} {tables : List Item} {index : ℕ} {item item' : Item}
    (hitem : tables[index]? = some item)
    (h : Places.SameOff Node.child place (plain, item) (plain, item')) :
    Places.SameOff Node.child (.index index :: place) (decor, .arrayOfTables tables)
      (decor, .arrayOfTables (tables.set index item')) := by
  refine SameOff.cons ?_ (fun p _ => ?_) (fun segment hsegment => ?_) h
  · have hset : (tables.set index item')[index]? = some item' :=
      List.getElem?_set_self (List.getElem?_eq_some_iff.mp hitem).1
    change (tables.set index item')[index]?.map _ = _
    rw [hset, Option.map_some]
  · change (tables[index]?.map _).bind _ = _
    rw [hitem, Option.map_some, Option.bind_some]
  · cases segment with
    | key other => rfl
    | index i =>
      have hne : index ≠ i := fun heq => hsegment (congrArg _ heq.symm)
      change (tables.set index item')[i]?.map _ = tables[i]?.map _
      rw [List.getElem?_set_ne hne]

theorem sameOff_drop : t.SameOff [.key key] (Entries.drop key t) := by
  refine SameOff.of_children fun segment hsegment => ?_
  cases segment with
  | key other => exact Entries.lookup_drop_of_ne fun heq => hsegment (congrArg _ heq)
  | index i => rfl

theorem sameOff_node (decor own : Decor) (h : t.SameOff place t') :
    Places.SameOff Node.child place (decor, .table own t) (decor, .table own t') := by
  intro p hp
  have hne : p ≠ [] := by
    rintro rfl
    exact hp (overlap_nil _)
  rw [find_table decor own hne, find_table decor own hne]
  exact h p hp

/-! ## Ways to a table -/

/-- The act was on the table at the place, or on an empty one where there was none. -/
inductive Edited (place : List Segment) (act : Table → Except Stop Table)
    (root root' : Table) : Prop where
  | intro (t t' : Table) (act_eq : act t = .ok t')
    (was : root.tableAt place = some t ∨ root.at place = none ∧ t = [])
    (now : root'.tableAt place = some t')
    (sameOff : ∀ q, t.SameOff q t' → root.SameOff (place ++ q) root')

variable {act inner : Table → Except Stop Table}

theorem Edited.here (h : act root = .ok root') : Edited [] act root root' :=
  .intro root root' h (.inl rfl) rfl fun _ hsame => hsame

theorem Edited.below (h : Edited place act root root')
    (hinner : ∀ t t', act t = .ok t' → Edited place' inner t t') :
    Edited (place ++ place') inner root root' := by
  obtain ⟨t, t', hact, hwas, hnow, hsame⟩ := h
  obtain ⟨u, u', hact', hwas', hnow', hsame'⟩ := hinner t t' hact
  by_cases hplace : place' = []
  · subst hplace
    cases hnow'
    have hu : u = t := by
      obtain hu | hu := hwas'
      · exact (Option.some_inj.mp hu).symm
      · cases hu.1
    subst hu
    rw [List.append_nil]
    exact .intro u t' hact' hwas hnow hsame
  · refine .intro u u' hact' ?_ ?_ fun q hq => ?_
    · obtain hwas | ⟨hnone, rfl⟩ := hwas
      · unfold Table.tableAt
        rw [at_below hwas hplace]
        exact hwas'
      · right
        obtain hu | ⟨-, rfl⟩ := hwas'
        · unfold Table.tableAt at hu
          rw [at_empty hplace] at hu
          cases hu
        · exact ⟨at_none_below hnone, rfl⟩
    · unfold Table.tableAt
      rw [at_below hnow hplace]
      exact hnow'
    · rw [List.append_assoc]
      exact hsame _ (hsame' q hq)

theorem enterTable_edited {mayCreate : Bool} (h : enterTable mayCreate act key root = .ok root') :
    Edited [.key key] act root root' := by
  have htable {decor own : Decor} {t' : Table} :
      Table.tableAt (Entries.put key (decor, .table own t') root) [.key key] = some t' := by
    unfold Table.tableAt
    rw [at_key, Entries.lookup_put_self]
    rfl
  unfold enterTable at h
  split at h
  · rename_i hnone
    split at h
    · obtain ⟨t', hact, hput⟩ := bind_eq_ok.mp h
      cases hput
      refine .intro [] t' hact (.inr ⟨at_key.trans hnone, rfl⟩) htable fun q hq =>
        sameOff_put_below (fun p hp => ?_) hq
      rw [hnone]
      exact (at_empty hp).symm
    · cases h
  · rename_i decor own entries hsome
    obtain ⟨t', hact, hput⟩ := bind_eq_ok.mp h
    cases hput
    refine .intro entries t' hact (.inl ?_) htable fun q hq =>
      sameOff_put_below (fun p hp => ?_) (sameOff_node decor own hq)
    · unfold Table.tableAt
      rw [at_key, hsome]
      rfl
    · rw [hsome, Option.bind_some]
  · cases h

theorem enterArrayOfTables_edited {index : ℕ}
    (h : enterArrayOfTables act key index root = .ok root') :
    Edited [.key key, .index index] act root root' := by
  unfold enterArrayOfTables at h
  split at h
  · cases h
  · rename_i decor tables hsome
    split at h
    · rename_i own entries hentry
      obtain ⟨t', hact, hput⟩ := bind_eq_ok.mp h
      cases hput
      have hmember {tables : List Item} {entries : Table}
          (hget : tables[index]? = some (.table own entries)) :
          find Node.child (decor, .arrayOfTables tables) [.index index] =
            some (plain, .table own entries) := by
        change (tables[index]?.map _).bind _ = _
        rw [hget]
        rfl
      have hset : (tables.set index (.table own t'))[index]? = some (.table own t') :=
        List.getElem?_set_self (List.getElem?_eq_some_iff.mp hentry).1
      refine .intro entries t' hact (.inl ?_) ?_ fun q hq => ?_
      · unfold Table.tableAt Table.at
        rw [find_cons]
        change ((root.lookup key).bind _).bind _ = _
        rw [hsome, Option.bind_some, hmember hentry]
        rfl
      · unfold Table.tableAt Table.at
        rw [find_cons]
        change (((Entries.put key _ root).lookup key).bind _).bind _ = _
        rw [Entries.lookup_put_self, Option.bind_some, hmember hset]
        rfl
      · refine sameOff_put_below (fun p _ => ?_) (sameOff_set hentry (sameOff_node plain own hq))
        rw [hsome, Option.bind_some]
    · cases h
  · cases h

theorem walkTable_edited {createMissing : Bool} {path : List String} {underCollection : Bool}
    (h : walkTable createMissing act underCollection path root = .ok root') :
    Edited (path.map .key) act root root' := by
  induction path generalizing root root' underCollection with
  | nil => exact .here h
  | cons seg path ih => exact (enterTable_edited h).below fun t t' hact => ih hact

/-! ## Patches -/

/-- The place of the table that a path leads to. -/
def parentPlace (path : List String) : List Segment :=
  match path.getLast? with
  | none => []
  | some last =>
    if isDigitSegment last then
      path.dropLast.map .key ++ [.index ((parseUsize last).getD 0)]
    else path.map .key

theorem dropLast_append {path : List String} {last : String} (h : path.getLast? = some last) :
    path.dropLast ++ [last] = path :=
  List.dropLast_append_getLast? last h

theorem parentTable_edited {createMissing : Bool} {path : List String}
    (h : parentTable createMissing act path root = .ok root') :
    Edited (parentPlace path) act root root' := by
  unfold parentTable at h
  unfold parentPlace
  cases hlast : path.getLast? with
  | none =>
    rw [hlast] at h
    exact .here h
  | some last =>
    rw [hlast] at h
    dsimp only at h ⊢
    split at h
    · rename_i hdigit
      rw [if_pos hdigit]
      split at h
      · cases h
      · cases h
      · rename_i index key hparse hkey
        have hedited := (walkTable_edited h).below
          fun t t' hact => enterArrayOfTables_edited hact
        have hplace : path.dropLast.map Segment.key ++ [.index index] =
            path.dropLast.dropLast.map .key ++ [.key key, .index index] := by
          rw [← dropLast_append hkey, List.map_append, List.append_assoc, List.dropLast_concat]
          rfl
        rw [hparse, Option.getD_some, hplace]
        exact hedited
    · rename_i hdigit
      rw [if_neg hdigit]
      have hedited := (walkTable_edited h).below fun t t' hact => enterTable_edited hact
      have hplace : path.map Segment.key = path.dropLast.map .key ++ [.key last] := by
        rw [← dropLast_append hlast, List.map_append, List.dropLast_concat]
        rfl
      rw [hplace]
      exact hedited

/-- The place that a path of a patch leads to. -/
def pathPlace (path : List String) : List Segment :=
  match path.getLast? with
  | none => []
  | some leaf => parentPlace path.dropLast ++ [.key leaf]

def patchPlace : Patch Payload → List Segment
  | .set path _ => pathPlace path
  | .remove path => pathPlace path
  | .createEntity collection id _ => [.key collection, .key id]
  | .deleteEntity collection id => [.key collection, .key id]

/-- What a patch leaves at its place. -/
inductive Leaves : Patch Payload → Option Node → Prop where
  | set {path : List String} {value : Payload} {decor : Decor} {isAot : Bool} {item : Item}
    {suffix : Option String} (converts : newItem isAot value.json = .ok item) :
      Leaves (.set path value) (some (decor, item.setSuffix suffix))
  | remove {path : List String} : Leaves (.remove path) none
  | createEntity {collection id : String} {value : Payload} :
      Leaves (.createEntity collection id value)
        (some (plain, .table plain (jsonToTomlTable value.json)))
  | deleteEntity {collection id : String} : Leaves (.deleteEntity collection id) none

theorem Edited.leaf {leaf : String} (h : Edited place act root root')
    (hact : ∀ t t', act t = .ok t' → t.SameOff [.key leaf] t') :
    root.SameOff (place ++ [.key leaf]) root' ∧
      ∃ t t', act t = .ok t' ∧ root'.at (place ++ [.key leaf]) = t'.lookup leaf := by
  obtain ⟨t, t', heq, -, hnow, hsame⟩ := h
  refine ⟨hsame _ (hact t t' heq), t, t', heq, ?_⟩
  rw [at_below hnow (List.cons_ne_nil _ _), at_key]

theorem setLeaf_eq_ok {leaf : String} {isAot : Bool} {value : Json}
    (h : setLeaf leaf isAot value t = .ok t') :
    ∃ item decor suffix, newItem isAot value = .ok item ∧
      t' = Entries.put leaf (decor, item.setSuffix suffix) t := by
  obtain ⟨item, hitem, hput⟩ := bind_eq_ok.mp h
  have hnew : newItem isAot value = .ok item := by
    cases hnew : newItem isAot value with
    | error e =>
      rw [hnew] at hitem
      cases hitem
    | ok item' =>
      rw [hnew] at hitem
      cases hitem
      rfl
  split at hput
  · rename_i decor old hold
    cases hput
    exact ⟨item, decor, old.suffix, hnew, rfl⟩
  · cases hput
    refine ⟨item, plain, none, hnew, ?_⟩
    cases item <;> rfl

theorem applySet_spec {path : List String} {value : Payload}
    (h : applySet path value.json root = .ok root') :
    root.SameOff (pathPlace path) root' ∧
      Leaves (.set path value) (root'.at (pathPlace path)) := by
  unfold applySet at h
  unfold pathPlace
  cases hleaf : path.getLast? with
  | none =>
    rw [hleaf] at h
    cases h
  | some leaf =>
    rw [hleaf] at h
    obtain ⟨hsame, t, t', hact, hat⟩ := (parentTable_edited h).leaf fun t t' hact => by
      obtain ⟨item, decor, suffix, -, rfl⟩ := setLeaf_eq_ok hact
      exact sameOff_put _
    obtain ⟨item, decor, suffix, hnew, rfl⟩ := setLeaf_eq_ok hact
    dsimp only
    rw [hat, Entries.lookup_put_self]
    exact ⟨hsame, .set hnew⟩

theorem applyRemove_spec {path : List String} (h : applyRemove path root = .ok root') :
    root.SameOff (pathPlace path) root' ∧ root'.at (pathPlace path) = none := by
  unfold applyRemove at h
  unfold pathPlace
  cases hleaf : path.getLast? with
  | none =>
    rw [hleaf] at h
    cases h
  | some leaf =>
    rw [hleaf] at h
    obtain ⟨hsame, t, t', hact, hat⟩ := (parentTable_edited h).leaf fun t t' hact => by
      cases hact
      exact sameOff_drop
    cases hact
    dsimp only
    rw [hat, Entries.lookup_drop_self]
    exact ⟨hsame, rfl⟩

/-- Where an entity is created or deleted, its collection is entered. -/
theorem applyCreateEntity_enters {collection id : String} {value : Json}
    (h : applyCreateEntity collection id value root = .ok root') :
    enterTable true (fun table => .ok (Entries.put id (plain, .table plain (jsonToTomlTable value))
      table)) collection root = .ok root' := by
  unfold applyCreateEntity at h
  unfold enterTable
  dsimp only at h
  split at h
  · exact h
  · exact h
  · cases h

theorem applyDeleteEntity_enters {collection id : String}
    (h : applyDeleteEntity collection id root = .ok root') :
    enterTable false (fun table => .ok (Entries.drop id table)) collection root = .ok root' := by
  unfold applyDeleteEntity at h
  unfold enterTable
  split at h
  · rename_i decor own entries hsome
    rw [hsome]
    exact h
  · cases h

theorem applyPatch_spec {patch : Patch Payload} (h : applyPatch root patch = .ok root') :
    root.SameOff (patchPlace patch) root' ∧ Leaves patch (root'.at (patchPlace patch)) := by
  cases patch with
  | set path value => exact applySet_spec h
  | remove path =>
    obtain ⟨hsame, hnone⟩ := applyRemove_spec h
    refine ⟨hsame, ?_⟩
    unfold patchPlace
    rw [hnone]
    exact .remove
  | createEntity collection id value =>
    obtain ⟨hsame, t, t', hact, hat⟩ :=
      (enterTable_edited (applyCreateEntity_enters h)).leaf fun t t' hact => by
        cases hact
        exact sameOff_put _
    cases hact
    refine ⟨hsame, ?_⟩
    change Leaves _ (root'.at ([.key collection] ++ [.key id]))
    rw [hat, Entries.lookup_put_self]
    exact .createEntity
  | deleteEntity collection id =>
    obtain ⟨hsame, t, t', hact, hat⟩ :=
      (enterTable_edited (applyDeleteEntity_enters h)).leaf fun t t' hact => by
        cases hact
        exact sameOff_drop
    cases hact
    refine ⟨hsame, ?_⟩
    change Leaves _ (root'.at ([.key collection] ++ [.key id]))
    rw [hat, Entries.lookup_drop_self]
    exact .deleteEntity

/-! ## Batches -/

/-- The patches after a prefix of the batch. -/
theorem foldlM_append_ok {before after : List (Patch Payload)}
    (h : (before ++ after).foldlM applyPatch root = .ok root') :
    ∃ mid, before.foldlM applyPatch root = .ok mid ∧ after.foldlM applyPatch mid = .ok root' := by
  rw [List.foldlM_append] at h
  exact bind_eq_ok.mp h

/-- What no patch of the batch is above or below stays as it is, with its comments. -/
theorem applyPatches_kept {patches : List (Patch Payload)}
    (h : patches.foldlM applyPatch root = .ok root')
    (hoff : ∀ patch ∈ patches, ¬ Overlap place (patchPlace patch)) :
    root'.at place = root.at place := by
  induction patches generalizing root with
  | nil =>
    cases h
    rfl
  | cons patch patches ih =>
    obtain ⟨mid, hpatch, hrest⟩ := bind_eq_ok.mp h
    rw [ih hrest fun later hlater => hoff later (List.mem_cons_of_mem _ hlater)]
    exact (applyPatch_spec hpatch).1 place (hoff patch (List.mem_cons_self ..))

/-- What a patch left stays, when no later patch is at its place, above or below it. -/
theorem applyPatches_leaves {before after : List (Patch Payload)} {patch : Patch Payload}
    (h : (before ++ patch :: after).foldlM applyPatch root = .ok root')
    (hoff : ∀ later ∈ after, ¬ Overlap (patchPlace patch) (patchPlace later)) :
    Leaves patch (root'.at (patchPlace patch)) := by
  obtain ⟨mid, -, hrest⟩ := foldlM_append_ok h
  obtain ⟨mid', hpatch, hlater⟩ := bind_eq_ok.mp hrest
  rw [applyPatches_kept hlater hoff]
  exact (applyPatch_spec hpatch).2

end Dormant.ConfigPatch
