import Dormant.Web.PatchCheck

/-!
# Applying patches

`apply_patches` of `config_patch.rs`: each patch changes the document that the ones before it left.
A mutable reference to a table is the function that is applied to it, and the tables around it are
put together again.
-/

namespace Dormant.ConfigPatch
set_option autoImplicit false

open ConfigApply

/-! ## Ways to a table -/

/-- The item at the path is an array of tables. A path with an index does not lead to one. -/
def isAtAotKey (table : Table) : List String → Bool
  | [] => false
  | seg :: rest =>
    if isDigitSegment seg then false
    else
      match table.get seg with
      | none => false
      | some item =>
        if rest.isEmpty then item.asArrayOfTables.isSome
        else
          match item.asTableLike with
          | some table => isAtAotKey table rest
          | none => false

/-- The table of a key, which may be new. -/
def enterTable (mayCreate : Bool) (act : Table → Except Stop Table) (key : String)
    (table : Table) : Except Stop Table :=
  match table.lookup key with
  | none =>
    if mayCreate then do return Entries.put key (plain, .table plain (← act [])) table
    else throw (.rejected (.pathDenied ("key not found: " ++ key)))
  | some (decor, .table own entries) => do
    return Entries.put key (decor, .table own (← act entries)) table
  | some _ => throw (.rejected (.pathDenied (key ++ " is not a table")))

/-- `underCollection` says that the table is a collection, whose children are never made here. -/
def walkTable (createMissing : Bool) (act : Table → Except Stop Table) :
    (underCollection : Bool) → List String → Table → Except Stop Table
  | _, [], table => act table
  | underCollection, seg :: rest, table =>
    enterTable (createMissing && !underCollection)
      (walkTable createMissing act (collections.contains seg) rest) seg table

def enterArrayOfTables (act : Table → Except Stop Table) (key : String) (index : ℕ)
    (table : Table) : Except Stop Table :=
  match table.lookup key with
  | none => throw (.rejected (.pathDenied ("AOT key not found: " ++ key)))
  | some (decor, .arrayOfTables tables) =>
    match tables[index]? with
    | some (.table own entries) => do
      return Entries.put key
        (decor, .arrayOfTables (tables.set index (.table own (← act entries)))) table
    | _ =>
      throw (.rejected (.pathDenied ("AOT index " ++ toString index ++ " out of bounds")))
  | some _ => throw (.rejected (.pathDenied (key ++ " is not an ArrayOfTables")))

/-- `parent_table_mut`: the last segment is an index, or the key of the table itself. -/
def parentTable (createMissing : Bool) (act : Table → Except Stop Table) (path : List String)
    (root : Table) : Except Stop Table :=
  match path.getLast? with
  | none => act root
  | some last =>
    let before := path.dropLast
    if isDigitSegment last then
      match parseUsize last, before.getLast? with
      | none, _ => throw (.rejected (.pathDenied "invalid AOT index"))
      -- The index is the first segment, and there is nothing to split off.
      | some _, none => throw .panic
      | some index, some key =>
        walkTable createMissing (enterArrayOfTables act key index) false before.dropLast root
    else walkTable createMissing (enterTable createMissing act last) false before root

/-! ## Patches -/

def Json.isArray : Json → Bool
  | .array _ => true
  | _ => false

def newItem (isAot : Bool) (value : Json) : Except PatchError Item :=
  if isAot && value.isArray then jsonToArrayOfTables value else jsonToTomlValue value

/-- An item in place of an old one keeps the comment after it. -/
def setLeaf (leaf : String) (isAot : Bool) (value : Json) (table : Table) :
    Except Stop Table := do
  let item ← (newItem isAot value).mapError .rejected
  match table.lookup leaf with
  | some (decor, old) =>
    return Entries.put leaf (decor, item.setSuffix old.suffix) table
  | none => return Entries.put leaf (plain, item) table

def applySet (path : List String) (value : Json) (root : Table) : Except Stop Table :=
  match path.getLast? with
  | none => throw .panic
  | some leaf =>
    parentTable true (setLeaf leaf (isAtAotKey root path) value) path.dropLast root

def applyRemove (path : List String) (root : Table) : Except Stop Table :=
  match path.getLast? with
  | none => throw .panic
  | some leaf => parentTable false (fun table => .ok (Entries.drop leaf table)) path.dropLast root

/-- A key that is inserted once more loses its comments. -/
def applyCreateEntity (collection id : String) (value : Json) (root : Table) :
    Except Stop Table :=
  let entity : Node := (plain, .table plain (jsonToTomlTable value))
  match root.lookup collection with
  | none =>
    .ok (Entries.put collection (plain, .table plain (Entries.put id entity [])) root)
  | some (decor, .table own entries) =>
    .ok (Entries.put collection (decor, .table own (Entries.put id entity entries)) root)
  | some _ => throw .panic

def applyDeleteEntity (collection id : String) (root : Table) : Except Stop Table :=
  match root.lookup collection with
  | some (decor, .table own entries) =>
    .ok (Entries.put collection (decor, .table own (Entries.drop id entries)) root)
  | _ => throw .panic

def applyPatch (root : Table) : Patch Payload → Except Stop Table
  | .createEntity collection id value => applyCreateEntity collection id value.json root
  | .deleteEntity collection id => applyDeleteEntity collection id root
  | .set path value => applySet path value.json root
  | .remove path => applyRemove path root

def applyPatches (doc : Document) (patches : List (Patch Payload)) : Except Stop Document := do
  return { doc with root := ← patches.foldlM applyPatch doc.root }

end Dormant.ConfigPatch
