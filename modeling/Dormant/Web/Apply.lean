import Dormant.Foundations.Files
import Mathlib.Data.List.Sort
import Mathlib.Data.String.Basic

/-!
# Applying patches to the config file

`post_apply` of `config_apply.rs`. Each file operation is told whether it succeeds, and somebody
else may write the config file before any of them. What is called to parse, check, patch and
validate a document is left open.
-/

namespace Dormant.ConfigApply
set_option autoImplicit false

open Files

/-! ## Requests and answers -/

inductive Patch (V : Type) where
  | set (path : List String) (value : V)
  | remove (path : List String)
  | createEntity (collection id : String) (value : V)
  | deleteEntity (collection id : String)

inductive PatchError where
  | pathDenied (message : String)
  | redactedPath (message : String)
  | entityUnknown (message : String)
  | valueRejected (message : String)
  | entityExists (message : String)

/-- The errors of `post_apply`. -/
inductive WebError (E : Type) where
  | reloadUnavailable
  | configReadError (message : String)
  | fingerprintMismatch
  | validationFailed (errors : List E)
  | redactedPathTargeted (message : String)
  | patchPathDenied (message : String)
  | entityUnknown (message : String)
  | patchValueRejected (message : String)
  | patchCapExceeded (count : UInt32)
  | entityExists (message : String)
  | entityCrudFeatureDisabled
  | hookEditDisabled

def patchErrorToWeb {E : Type} : PatchError → WebError E
  | .pathDenied message => .patchPathDenied message
  | .redactedPath message => .redactedPathTargeted message
  | .entityUnknown message => .entityUnknown message
  | .valueRejected message => .patchValueRejected message
  | .entityExists message => .entityExists message

structure ApplyRequest (V : Type) where
  fingerprint : String
  patches : List (Patch V)

structure ApplyResponse where
  applied : Bool
  reload : String
  detail : Option String

def patchCap : ℕ := 256

def maxBackups : ℕ := 5

/-! ## What is called -/

/-- The documents, configurations, credentials and validation errors are left open. -/
structure Calls (V D C K E : Type) where
  digest : ByteArray → String
  fromUtf8Lossy : ByteArray → String
  parseDoc : String → Except String D
  parseConfig : String → Except String C
  entityCrudEnabled : C → Bool
  hookEditEnabled : C → Bool
  redactConfigSecrets : C → List (List String)
  checkPatches : List (Patch V) → D → List (List String) → Except PatchError Unit
  applyPatches : D → List (Patch V) → Except PatchError D
  docToString : D → String
  loadConfig : ByteArray → Except String C
  validate : C → K → List E

section
variable {V D C K E : Type} (calls : Calls V D C K E)

def Patch.isEntityCrud : Patch V → Bool
  | .createEntity .. | .deleteEntity .. => true
  | _ => false

def Patch.isHookEdit : Patch V → Bool
  | .set path _ | .remove path => path.any (· = "hooks")
  | _ => false

/-- Steps 1 to 5, from the bytes that were read to the patched text. -/
def prepare (body : ApplyRequest V) (rawBytes : ByteArray) : Except (WebError E) String := do
  if calls.digest rawBytes ≠ body.fingerprint then throw .fingerprintMismatch
  let raw := calls.fromUtf8Lossy rawBytes
  let doc ← (calls.parseDoc raw).mapError fun e => .configReadError ("toml parse error: " ++ e)
  let cfg ← (calls.parseConfig raw).mapError fun e =>
    .configReadError ("config deserialize error: " ++ e)
  if body.patches.any Patch.isEntityCrud && !calls.entityCrudEnabled cfg then
    throw .entityCrudFeatureDisabled
  if body.patches.any Patch.isHookEdit && !calls.hookEditEnabled cfg then throw .hookEditDisabled
  (calls.checkPatches body.patches doc (calls.redactConfigSecrets cfg)).mapError patchErrorToWeb
  let doc ← (calls.applyPatches doc body.patches).mapError patchErrorToWeb
  return calls.docToString doc

end

/-! ## Files -/

/-- The directory of the config file, and its `backups`. -/
structure Disk where
  files : Dir String ByteArray
  backups : List (String × ByteArray)

inductive FileOp where
  | writeTemp
  | removeTemp
  | copyBackup
  | pruneBackups
  | rename
  deriving DecidableEq

/-- A step that changes files. -/
structure Step where
  op : FileOp
  before : Disk
  after : Disk

structure Run where
  disk : Disk
  log : List Step

/-- Where somebody else may write the config file. -/
inductive Gap where
  | beforeRead
  | beforeTemp
  | beforeLoad
  | beforeCredentials
  | beforeRemoval
  | beforeBackups
  | beforeCopy
  | beforeListing
  | beforeSync
  | beforeRename
  | beforeDirSync

/-- A write that fails may leave something in the file. -/
inductive WriteOutcome where
  | written
  | failed (error : String) (left : Option ByteArray)

inductive SyncOutcome where
  | synced
  | notOpened (error : String)
  | failed (error : String)

inductive ReloadOutcome where
  | reloaded
  | rejected (detail : String)

/-- What comes of the request for a reload. -/
inductive ReloadReply where
  | unavailable
  | receipt (revision : String) (outcome : ReloadOutcome)
  | closed
  | elapsed

/-- How each operation ends, as an error text where it fails, and what others write. -/
structure World (K : Type) where
  edits : Gap → Option ByteArray
  read : Option String
  rand : UInt16
  tempWritten : WriteOutcome
  tempRead : Option String
  credentials : Except String K
  tempRemoved : Bool
  backupsCreated : Option String
  draws : List (String × UInt16)
  copied : WriteOutcome
  listed : Option String
  entryRead : String → Bool
  pruned : String → Bool
  synced : SyncOutcome
  renamed : Option String
  dirSynced : SyncOutcome
  reload : ReloadReply

def notFound : String := "No such file or directory (os error 2)"

/-- Four hexadecimal digits. -/
def rand4 (val : UInt16) : String :=
  String.ofList ([val.toNat / 4096, val.toNat / 256 % 16, val.toNat / 16 % 16, val.toNat % 16].map
    Nat.digitChar)

/-- The time is given as `humantime` formats it. -/
def backupFilename (ts rand : String) : String :=
  "config.toml." ++ ts.map (fun c => if c = ':' then '-' else c) ++ "." ++ rand

def tempName (rand : UInt16) : String := "config.toml.tmp." ++ rand4 rand

/-- `draws` ends before a name that is free when the loop is still drawing. -/
def freshName (draws : List (String × UInt16)) (backups : List (String × ByteArray)) :
    Option String :=
  (draws.map fun draw => backupFilename draw.1 (rand4 draw.2)).find? fun name =>
    !(backups.map Prod.fst).contains name

namespace Run

def act (r : Run) (op : FileOp) (disk : Disk) : Run := ⟨disk, r.log ++ [⟨op, r.disk, disk⟩]⟩

/-- Somebody else writes the config file. -/
def edit (r : Run) (config : String) (bytes : Option ByteArray) : Run :=
  match bytes with
  | some bytes => { r with disk.files := r.disk.files.write config bytes }
  | none => r

end Run

/-! ## The steps -/

/-- A request is answered with an error, or is still drawing a name for the backup. -/
inductive Stop (E : Type) where
  | failed (error : WebError E)
  | drawing

section
variable {V D C K E : Type} (calls : Calls V D C K E) (w : World K) (config : String)

abbrev Stage (E : Type) := Run → Except (Stop E × Run) Run

def fail (message : String) (r : Run) : Except (Stop E × Run) Run :=
  .error (.failed (.configReadError message), r)

/-- An error, after an attempt to remove the temporary file. -/
def discard (error : WebError E) (r : Run) : Except (Stop E × Run) Run :=
  let r := r.edit config (w.edits .beforeRemoval)
  let r := if w.tempRemoved then
      r.act .removeTemp { r.disk with files := r.disk.files.remove (tempName w.rand) }
    else r
  .error (.failed error, r)

def writeTemp (content : String) : Stage E := fun r =>
  let r := r.edit config (w.edits .beforeTemp)
  let write (bytes : ByteArray) : Run :=
    r.act .writeTemp { r.disk with files := r.disk.files.write (tempName w.rand) bytes }
  match w.tempWritten with
  | .written => .ok (write content.toByteArray)
  | .failed e none => fail ("cannot write temp config: " ++ e) r
  | .failed e (some left) => fail ("cannot write temp config: " ++ e) (write left)

def loadTemp (r : Run) : Except String C :=
  match w.tempRead, r.disk.files (tempName w.rand) with
  | some e, _ => .error e
  | none, some bytes => calls.loadConfig bytes
  | none, none => .error notFound

def validateTemp : Stage E := fun r =>
  let r := r.edit config (w.edits .beforeLoad)
  match loadTemp calls w r with
  | .error e => discard w config (.configReadError e) r
  | .ok cfg =>
    let r := r.edit config (w.edits .beforeCredentials)
    match w.credentials with
    | .error e => discard w config (.configReadError ("credentials error: " ++ e)) r
    | .ok creds =>
      match calls.validate cfg creds with
      | [] => .ok r
      | errors => discard w config (.validationFailed errors) r

/-- The names behind the newest five. -/
def surplus (backups : List (String × ByteArray)) : List String :=
  let entries := (backups.map Prod.fst).filter fun name =>
    w.entryRead name && name.startsWith "config.toml."
  (entries.insertionSort (· ≥ ·)).drop maxBackups

def prunedBackups (backups : List (String × ByteArray)) : List (String × ByteArray) :=
  backups.filter fun backup => !((surplus w backups).contains backup.1 && w.pruned backup.1)

def pruneBackups : Stage E := fun r =>
  let r := r.edit config (w.edits .beforeListing)
  match w.listed with
  | some e => fail ("cannot read backups dir: " ++ e) r
  | none => .ok (r.act .pruneBackups { r.disk with backups := prunedBackups w r.disk.backups })

def backupCurrent : Stage E := fun r =>
  let r := r.edit config (w.edits .beforeBackups)
  match w.backupsCreated with
  | some e => fail ("cannot create backups dir: " ++ e) r
  | none =>
    match freshName w.draws r.disk.backups with
    | none => .error (.drawing, r)
    | some name =>
      let r := r.edit config (w.edits .beforeCopy)
      let copy (bytes : ByteArray) : Run :=
        r.act .copyBackup { r.disk with backups := r.disk.backups ++ [(name, bytes)] }
      match w.copied, r.disk.files config with
      | .failed e none, _ => fail ("backup failed: " ++ e) r
      | .failed e (some left), _ => fail ("backup failed: " ++ e) (copy left)
      | .written, none => fail ("backup failed: " ++ notFound) r
      | .written, some bytes => pruneBackups w config (copy bytes)

def syncFile : Stage E := fun r =>
  let r := r.edit config (w.edits .beforeSync)
  match w.synced with
  | .synced => .ok r
  | .notOpened e => fail ("cannot open for fsync: " ++ e) r
  | .failed e => fail ("fsync failed: " ++ e) r

def renameTemp : Stage E := fun r =>
  let r := r.edit config (w.edits .beforeRename)
  match w.renamed, r.disk.files.rename (tempName w.rand) config with
  | some e, _ => discard w config (.configReadError ("rename failed: " ++ e)) r
  | none, none => discard w config (.configReadError ("rename failed: " ++ notFound)) r
  | none, some files => .ok (r.act .rename { r.disk with files })

def syncDir : Stage E := fun r =>
  let r := r.edit config (w.edits .beforeDirSync)
  match w.dirSynced with
  | .synced => .ok r
  | .notOpened e => fail ("cannot open dir for fsync: " ++ e) r
  | .failed e => fail ("dir fsync failed: " ++ e) r

/-- Step 9. -/
def answer (patched : String) : Except (WebError E) ApplyResponse :=
  match w.reload with
  | .unavailable => .error .reloadUnavailable
  | .receipt revision outcome =>
    if revision = calls.digest patched.toByteArray then
      match outcome with
      | .reloaded => .ok ⟨true, "reloaded", none⟩
      | .rejected detail => .ok ⟨true, "rejected", some detail⟩
    else .ok ⟨true, "superseded", none⟩
  | .closed | .elapsed => .ok ⟨true, "pending", none⟩

/-- Steps 6 to 8. -/
def replaceConfig (patched : String) (r : Run) : Except (Stop E × Run) Run := do
  let r ← writeTemp w config patched r
  let r ← validateTemp calls w config r
  let r ← backupCurrent w config r
  let r ← syncFile w config r
  let r ← renameTemp w config r
  syncDir w config r

/-- The bytes of the config file, or why it cannot be read. -/
def readConfig (r : Run) : Except (WebError E) ByteArray :=
  match w.read, r.disk.files config with
  | some e, _ => .error (.configReadError ("cannot read config: " ++ e))
  | none, none => .error (.configReadError ("cannot read config: " ++ notFound))
  | none, some bytes => .ok bytes

def prepared (body : ApplyRequest V) (r : Run) : Except (WebError E) String := do
  let rawBytes ← readConfig w config r
  prepare calls body rawBytes

def postApply (body : ApplyRequest V) (disk : Disk) :
    Except (Stop E × Run) (ApplyResponse × Run) :=
  let r : Run := ⟨disk, []⟩
  if body.patches.length > patchCap then
    .error (.failed (.patchCapExceeded (if body.patches.length ≤ 4294967295 then
      UInt32.ofNat body.patches.length else 4294967295)), r)
  else
    let r := r.edit config (w.edits .beforeRead)
    match prepared calls w config body r with
    | .error e => .error (.failed e, r)
    | .ok patched => do
      let r ← replaceConfig calls w config patched r
      match answer calls w patched with
      | .error e => .error (.failed e, r)
      | .ok response => .ok (response, r)

end

end Dormant.ConfigApply
