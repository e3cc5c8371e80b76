import Dormant.Foundations.Files
import Dormant.Wear.Tracker

/-!
# The files of the ledgers

What loading and persisting do to the wear directory: `read_ledger_contents`,
`load_or_create_ledger`, `write_atomic_bytes` and `persist_ledger` of `wear_tracker.rs`. Each file
operation is told whether it succeeds. How a ledger is written as JSON is left open.
-/

namespace Dormant.LedgerStore
set_option autoImplicit false

open Files

/-! ## Names -/

abbrev Name := List Char

/-- `id-` and the bytes in hexadecimal. -/
def ledgerIdentityKey (identity : String) : Name :=
  ['i', 'd', '-'] ++ identity.toByteArray.data.toList.flatMap fun byte : UInt8 =>
    [(byte >>> 4).toNat.digitChar, (byte &&& 0x0f).toNat.digitChar]

def sanitizeIdentityKey (identity : String) : Name :=
  ((identity.toList.map Char.toLower).map fun c =>
    if c.isLower || c.isDigit || c = '.' || c = '_' || c = '-' then c else '-').take 64

def ledgerName (key : Name) : Name := ['w', 'e', 'a', 'r', '-'] ++ key ++ ['.', 'j', 's', 'o', 'n']

def tmpFilename (key : Name) (pid seq : ℕ) : Name :=
  ledgerName key ++ ['.', 't', 'm', 'p', '.'] ++ Nat.toDigits 10 pid ++ ['.'] ++ Nat.toDigits 10 seq

def corruptName (key : Name) (nowEpochS : UInt64) : Name :=
  ledgerName key ++ ['.', 'c', 'o', 'r', 'r', 'u', 'p', 't', '.'] ++
    Nat.toDigits 10 nowEpochS.toNat

/-- `Path::file_stem`: what stands before the last dot, unless the name starts with it. -/
def fileStem (name : Name) : Name :=
  match name.reverse.dropWhile (· ≠ '.') with
  | _ :: c :: rest => (c :: rest).reverse
  | _ => name

def withExtension (name extension : Name) : Name := fileStem name ++ '.' :: extension

def migratedName (legacyKey : Name) : Name :=
  withExtension (ledgerName legacyKey)
    ['j', 's', 'o', 'n', '.', 'm', 'i', 'g', 'r', 'a', 't', 'e', 'd']

/-! ## File operations -/

abbrev WearDir := Dir Name ByteArray

/-- A write that fails may leave a part of the bytes, or something else, in the file. -/
inductive WriteOutcome where
  | written
  | failed (left : Option ByteArray)

structure AtomicOutcomes where
  created : Bool
  pid : ℕ
  seq : ℕ
  wrote : WriteOutcome
  permitted : Bool
  renamed : Bool

inductive ReadResult where
  | contents (text : String)
  | notFound
  | failed

def renameFile (d : WearDir) (source target : Name) (succeeds : Bool) : Option WearDir :=
  if succeeds then d.rename source target else none

/-- A file that is not UTF-8 is not read. -/
def readToString (d : WearDir) (name : Name) (succeeds : Bool) : ReadResult :=
  if succeeds then
    match d name with
    | none => .notFound
    | some bytes =>
      match String.fromUTF8? bytes with
      | some text => .contents text
      | none => .failed
  else .failed

/-- Whether it succeeded, and the directory after it. -/
def writeAtomicBytes (d : WearDir) (key : Name) (bytes : ByteArray) (o : AtomicOutcomes) :
    Bool × WearDir :=
  if o.created then
    let tmp := tmpFilename key o.pid o.seq
    match o.wrote with
    | .failed none => (false, d)
    | .failed (some left) => (false, d.write tmp left)
    | .written =>
      let d := d.write tmp bytes
      if o.permitted then
        match renameFile d tmp (ledgerName key) o.renamed with
        | some d => (true, d)
        | none => (false, d)
      else (false, d)
  else (false, d)

structure LoadOutcomes where
  canonicalRead : Bool
  legacyRead : Bool
  adopted : AtomicOutcomes
  migratedStat : Bool
  migratedRenamed : Bool
  corruptRenamed : Bool

/-! ## Loading and persisting -/

section
variable (fromStr : String → Option WearLedger) (toStr : WearLedger → Option String)

/-- The legacy file under the canonical name, and out of the way where that worked. -/
def adoptLegacy (d : WearDir) (key legacyKey : Name) (text : String) (o : LoadOutcomes) :
    LedgerRead × WearDir :=
  match writeAtomicBytes d key text.toByteArray o.adopted with
  | (true, d) =>
    let migrated := migratedName legacyKey
    if o.migratedStat && (d migrated).isSome then (.contents (fromStr text) false, d)
    else
      let d := (renameFile d (ledgerName legacyKey) migrated o.migratedRenamed).getD d
      (.contents (fromStr text) false, d)
  | (false, d) => (.contents (fromStr text) true, d)

def readLedgerContents (d : WearDir) (key legacyKey : Name) (o : LoadOutcomes) :
    LedgerRead × WearDir :=
  match readToString d (ledgerName key) o.canonicalRead with
  | .contents text => (.contents (fromStr text) false, d)
  | .failed => (.unreadable, d)
  | .notFound =>
    if legacyKey = key then (.absent, d)
    else
      match readToString d (ledgerName legacyKey) o.legacyRead with
      | .contents text => adoptLegacy fromStr d key legacyKey text o
      | .notFound => (.absent, d)
      | .failed => (.unreadable, d)

/-- What the configuration says of the display, and the time. -/
structure LoadArgs where
  identity : WearIdentity
  panelType : PanelType
  rows : UInt16
  cols : UInt16
  nowEpochS : UInt64

def loadOrCreateLedger (d : WearDir) (key legacyKey : Name) (args : LoadArgs) (o : LoadOutcomes) :
    LoadResult × WearDir :=
  let (file, d) := readLedgerContents fromStr d key legacyKey o
  let loaded (renamed : Bool) : LoadResult :=
    Dormant.loadOrCreateLedger file renamed args.identity args.panelType args.rows args.cols
      args.nowEpochS
  match file with
  | .contents none _ =>
    match renameFile d (ledgerName key) (corruptName key args.nowEpochS) o.corruptRenamed with
    | some d => (loaded true, d)
    | none => (loaded false, d)
  | _ => (loaded false, d)

def persistLedger (d : WearDir) (key : Name) (ledger : WearLedger) (o : AtomicOutcomes) :
    WearDir :=
  match toStr ledger with
  | some json => (writeAtomicBytes d key json.toByteArray o).2
  | none => d

/-! ## Runs -/

/-- For each panel identity whose ledger is loaded, whether it is read-only. -/
structure Store where
  dir : WearDir
  persistReadonly : String → Option Bool

/-- `persist` is of the ledger that the tracker has at the time. -/
inductive Op where
  | load (identity : String) (args : LoadArgs) (o : LoadOutcomes)
  | persist (identity : String) (ledger : WearLedger) (o : AtomicOutcomes)

def Op.identity : Op → String
  | .load identity _ _ => identity
  | .persist identity _ _ => identity

namespace Store
variable (s : Store)

def loadResult (identity : String) (args : LoadArgs) (o : LoadOutcomes) : LoadResult × WearDir :=
  loadOrCreateLedger fromStr s.dir (ledgerIdentityKey identity) (sanitizeIdentityKey identity)
    args o

/-- A ledger is loaded once. -/
def load (identity : String) (args : LoadArgs) (o : LoadOutcomes) : Store :=
  match s.persistReadonly identity with
  | some _ => s
  | none =>
    let (result, dir) := s.loadResult fromStr identity args o
    { dir
      persistReadonly :=
        Function.update s.persistReadonly identity (some result.persistReadonly) }

def persist (identity : String) (ledger : WearLedger) (o : AtomicOutcomes) : Store :=
  match s.persistReadonly identity with
  | some false =>
    { s with dir := persistLedger toStr s.dir (ledgerIdentityKey identity) ledger o }
  | _ => s

def step : Op → Store
  | .load identity args o => s.load fromStr identity args o
  | .persist identity ledger o => s.persist toStr identity ledger o

def run (ops : List Op) : Store := ops.foldl (fun s op => s.step fromStr toStr op) s

end Store

end

end Dormant.LedgerStore
