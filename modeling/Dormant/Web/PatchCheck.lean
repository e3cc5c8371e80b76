import Dormant.Config.KnownKeys
import Dormant.Web.Document

/-!
# Checking patches

`check_patches` of `config_patch.rs`: the gates that each patch of a batch passes, against the
document as it is before the batch.
-/

namespace Dormant.ConfigPatch
set_option autoImplicit false

open ConfigApply

/-- A patch is rejected, or the program panics. -/
inductive Stop where
  | panic
  | rejected (e : PatchError)

/-! ## Sets and removals -/

def removableKeys : List String :=
  ["blank_mode", "degraded_mode", "dwell", "order", "image_duration", "scale_mode", "transition",
    "transition_duration", "hold_time", "stale_timeout", "ddc_display", "output", "wol_mac",
    "host", "playback_roles"]

def lockedLeaves : List String := ["type", "blank_data", "wake_data"]

def maxPathDepth : ℕ := 8

def dotted (path : List String) : String := ".".intercalate path

def checkSegment (seg : String) : Except PatchError Unit :=
  if seg.isEmpty then .error (.pathDenied "path contains empty segment")
  else if seg = "." then .error (.pathDenied ("path segment '.' is reserved: '" ++ seg ++ "'"))
  else if seg = ".." then .error (.pathDenied ("path segment '..' is reserved: '" ++ seg ++ "'"))
  else if seg.toList.contains '\x00' then
    .error (.pathDenied ("path segment contains NUL byte: '" ++ seg ++ "'"))
  else .ok ()

def checkHygiene (path : List String) : Except PatchError Unit :=
  if path.length > maxPathDepth then
    .error (.pathDenied ("path depth " ++ toString path.length ++ " exceeds maximum " ++
      toString maxPathDepth))
  else path.forM checkSegment

def isDigitSegment (seg : String) : Bool := Schema.isDigitSegment seg.toList

/-- The walk of `is_table_container`. -/
def targetIsTable (table : Table) : List String → Bool
  | [] => false
  | seg :: rest =>
    if isDigitSegment seg && !rest.isEmpty then false
    else
      match table.get seg with
      | none => false
      | some item =>
        if rest.isEmpty then item.isTable
        else
          match item.asTableLike with
          | some table => targetIsTable table rest
          | none => false

def isTableContainer (doc : Document) (path : List String) : Bool :=
  match path.getLast? with
  | none => true
  | some last =>
    if isDigitSegment last then true
    else if last = "ladder" ∨ last = "source" then false
    else targetIsTable doc.root path

mutual

def checkPayloadForLockedLeaves : Json → Except PatchError Unit
  | .object members => checkMembersForLockedLeaves members
  | .array items => checkItemsForLockedLeaves items
  | _ => .ok ()

def checkItemsForLockedLeaves : List Json → Except PatchError Unit
  | [] => .ok ()
  | item :: items => do
    checkPayloadForLockedLeaves item
    checkItemsForLockedLeaves items

def checkMembersForLockedLeaves : List (String × Json) → Except PatchError Unit
  | [] => .ok ()
  | member :: members =>
    if lockedLeaves.contains member.1 then
      .error (.pathDenied ("locked key '" ++ member.1 ++ "' found in replacement payload"))
    else do
      checkPayloadForLockedLeaves member.2
      checkMembersForLockedLeaves members

end

/-- A removal has no value. -/
def checkEditableSubset (path : List String) (value : Option Json) (current : Document) :
    Except PatchError Unit :=
  let leaf := path.getLast?.getD ""
  if lockedLeaves.contains leaf then
    .error (.pathDenied ("'" ++ leaf ++ "' is a locked config key — not editable via patch API"))
  else
    match value with
    | some value =>
      if isTableContainer current path then
        .error (.pathDenied "container paths are not patchable; set leaf values or whole arrays")
      else checkPayloadForLockedLeaves value
    | none =>
      if !path.isEmpty && !removableKeys.contains leaf then
        .error (.pathDenied ("'" ++ leaf ++ "' is a required key — not removable"))
      else .ok ()

def checkRedacted (path : List String) (redacted : List (List String)) : Except PatchError Unit :=
  redacted.forM fun r =>
    if r.isEmpty then .ok ()
    else if r.isPrefixOf path then
      .error (.redactedPath ("path " ++ dotted path ++ " is under redacted prefix " ++ dotted r))
    else if path.isPrefixOf r then
      .error (.redactedPath
        ("path " ++ dotted path ++ " is an ancestor of redacted path " ++ dotted r))
    else .ok ()

def collections : List String := ["sensors", "zones", "displays", "rules"]

/-- The keys of a collection that is written as a table. -/
def entityExists (doc : Document) (collection id : String) : Bool :=
  match (doc.root.get collection).bind Item.asTable with
  | some table => (table.get id).isSome
  | none => false

def checkCollectionEntity (path : List String) (current : Document) : Option String :=
  match path with
  | root :: entity :: _ =>
    if !collections.contains root then none
    else if entityExists current root entity then none
    else some entity
  | _ => none

/-- `str::parse::<usize>` of digits. -/
def parseUsize (digits : String) : Option ℕ :=
  let n := digits.toList.foldl (fun n c => 10 * n + (c.toNat - '0'.toNat)) 0
  if n < 2 ^ 64 then some n else none

/-- The item that a path of keys leads to, through tables of either form. -/
def itemAt (table : Table) : List String → Option Item
  | [] => none
  | seg :: rest =>
    if rest.isEmpty then table.get seg
    else
      match (table.get seg).bind Item.asTableLike with
      | some table => itemAt table rest
      | none => none

def aotIndexExists (doc : Document) (path : List String) (index : ℕ) : Bool :=
  match (itemAt doc.root path).bind Item.asArrayOfTables with
  | some tables => index < tables.length
  | none => false

/-- The rest of the path, after the segments before it. -/
def checkAotIndices (current : Document) (before : List String) :
    List String → Except PatchError Unit
  | seg :: next :: rest =>
    let path := before ++ [seg]
    if (seg = "source" ∨ seg = "ladder") ∧ isDigitSegment next then
      match parseUsize next with
      | none => .error (.pathDenied "invalid index")
      | some index =>
        if aotIndexExists current path index then checkAotIndices current path (next :: rest)
        else
          .error (.entityUnknown
            ("index " ++ toString index ++ " in " ++ dotted path ++ " out of range"))
    else checkAotIndices current path (next :: rest)
  | _ => .ok ()

def checkEntityExistence (path : List String) (current : Document) : Except PatchError Unit :=
  match checkCollectionEntity path current with
  | some entity => .error (.entityUnknown ("entity '" ++ entity ++ "' not found in config"))
  | none => checkAotIndices current [] path

/-! ## Entities -/

def creatableFields : List (String × List String) :=
  [("sensors", ["type", "kind", "hold_time", "stale_timeout", "broker_url", "topic", "field",
      "payload_on", "payload_off", "url", "entity", "port", "baud"]),
    ("zones", ["mode", "members", "unavailable_policy", "weights"]),
    ("displays", ["controllers", "host", "blank_mode", "output", "ddc_display", "wol_mac",
      "samsung_restore_backlight", "restore_brightness", "treat_unreachable_as_blanked",
      "command_timeout", "shared_input_code", "shared_input_write_code", "shared_peer_input_code",
      "shared_peer_input_write_code"]),
    ("rules", ["zone", "displays", "grace_period", "inhibitors", "min_blank_time",
      "min_wake_time", "activity_idle_threshold", "activity_poll_interval", "wake_retries",
      "wake_retry_backoff", "wake_retry_interval"])]

def reservedEntityIds : List String :=
  ["weights", "source", "ladder", "blank_data", "wake_data", "type"] ++ removableKeys

def validateEntityId (id : String) : Except PatchError Unit :=
  if id.isEmpty then .error (.pathDenied "entity id must not be empty")
  else if id.length > 64 then
    .error (.pathDenied ("entity id '" ++ id ++ "' exceeds the maximum length of 64"))
  else if !id.toList.head?.any Char.isLower then
    .error (.pathDenied ("entity id '" ++ id ++ "' must start with a lowercase ASCII letter"))
  else if !id.toList.all fun c => c.isLower || c.isDigit || c == '_' || c == '-' then
    .error (.pathDenied ("entity id '" ++ id ++ "' contains characters outside [a-z0-9_-]"))
  else if reservedEntityIds.contains id then
    .error (.pathDenied ("entity id '" ++ id ++ "' is a reserved config key name"))
  else .ok ()

def checkCreatableField (collection : String) (allowed : List String) (member : String × Json) :
    Except PatchError Unit :=
  if !allowed.contains member.1 then
    .error (.pathDenied
      ("'" ++ member.1 ++ "' is not a creatable field for '" ++ collection ++ "'"))
  else if member.1 = "type" then .ok ()
  else checkPayloadForLockedLeaves member.2

def checkCreateEntity (collection id : String) (value : Json) (current : Document) :
    Except PatchError Unit :=
  if !collections.contains collection then
    .error (.pathDenied ("'" ++ collection ++ "' is not a CRUD collection"))
  else do
    validateEntityId id
    if entityExists current collection id then
      .error (.entityExists ("entity '" ++ id ++ "' already exists in '" ++ collection ++ "'"))
    else
      match creatableFields.lookup collection, value with
      | none, _ =>
        .error (.pathDenied ("no creatable-field allowlist defined for '" ++ collection ++ "'"))
      | some allowed, .object members => members.forM (checkCreatableField collection allowed)
      | some _, _ => .error (.pathDenied "create payload must be a JSON object")

def checkDeleteEntity (collection id : String) (current : Document) : Except PatchError Unit :=
  if !collections.contains collection then
    .error (.pathDenied ("'" ++ collection ++ "' is not a CRUD collection"))
  else do
    validateEntityId id
    if entityExists current collection id then .ok ()
    else
      .error (.entityUnknown ("entity '" ++ id ++ "' not found in '" ++ collection ++ "'"))

/-! ## The pipeline -/

/-- The stages after `is_known_config_path`. -/
def checkKnown (path : List String) (value : Option Json) (current : Document)
    (redacted : List (List String)) : Except PatchError Unit := do
  checkEditableSubset path value current
  checkRedacted path redacted
  checkEntityExistence path current

/-- A removal has no value. -/
def checkPath (path : List String) (value : Option Json) (current : Document)
    (redacted : List (List String)) : Except Stop Unit := do
  (checkHygiene path).mapError .rejected
  match Schema.isKnownConfigPath (path.map String.toList) with
  | none => throw .panic
  | some false => throw (.rejected (.pathDenied ("unknown config path: " ++ dotted path)))
  | some true => (checkKnown path value current redacted).mapError .rejected

def checkPatch (current : Document) (redacted : List (List String)) :
    Patch Payload → Except Stop Unit
  | .createEntity collection id value =>
    (checkCreateEntity collection id value.json current).mapError .rejected
  | .deleteEntity collection id => (checkDeleteEntity collection id current).mapError .rejected
  | .set path value => checkPath path (some value.json) current redacted
  | .remove path => checkPath path none current redacted

def checkPatches (patches : List (Patch Payload)) (current : Document)
    (redacted : List (List String)) : Except Stop Unit :=
  patches.forM (checkPatch current redacted)

end Dormant.ConfigPatch
