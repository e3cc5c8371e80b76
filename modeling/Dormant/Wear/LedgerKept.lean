import Dormant.Wear.LedgerStore

/-!
# No ledger file is destroyed

The files that a load or a persist of a panel touches have names of their own: the canonical names
of two panels differ, and what stands behind `.json` tells the other files apart. The bytes under a
canonical or legacy name are moved, stay under a name that is read-only, or were parsed.
-/

namespace Dormant.LedgerStore
set_option autoImplicit false

open Files

/-! ## Keys -/

theorem digitChar_inj {m n : ℕ} (hm : m < 16) (hn : n < 16) (h : m.digitChar = n.digitChar) :
    m = n := by
  have hall : ∀ m < 16, ∀ n < 16, m.digitChar = n.digitChar → m = n := by decide
  exact hall m hm n hn h

theorem digitChar_ne_dot {n : ℕ} (hn : n < 16) : n.digitChar ≠ '.' := by
  have hall : ∀ n < 16, n.digitChar ≠ '.' := by decide
  exact hall n hn

theorem toNat_high (byte : UInt8) : (byte >>> 4).toNat = byte.toNat / 16 := by
  rw [UInt8.toNat_shiftRight, Nat.shiftRight_eq_div_pow]
  rfl

theorem toNat_low (byte : UInt8) : (byte &&& 0x0f).toNat = byte.toNat % 16 := by
  rw [UInt8.toNat_and]
  exact Nat.and_two_pow_sub_one_eq_mod byte.toNat 4

theorem hex_inj {bytes bytes' : List UInt8}
    (h : (bytes.flatMap fun byte : UInt8 =>
        [(byte >>> 4).toNat.digitChar, (byte &&& 0x0f).toNat.digitChar]) =
      bytes'.flatMap fun byte : UInt8 =>
        [(byte >>> 4).toNat.digitChar, (byte &&& 0x0f).toNat.digitChar]) : bytes = bytes' := by
  induction bytes generalizing bytes' with
  | nil =>
    cases bytes' with
    | nil => rfl
    | cons byte' bytes' => simp at h
  | cons byte bytes ih =>
    cases bytes' with
    | nil => simp at h
    | cons byte' bytes' =>
      simp only [List.flatMap_cons, List.cons_append, List.nil_append, List.cons.injEq, toNat_high,
        toNat_low] at h
      obtain ⟨hhigh, hlow, hrest⟩ := h
      have hlt := byte.toNat_lt
      have hlt' := byte'.toNat_lt
      have hhigh := digitChar_inj (by omega) (by omega) hhigh
      have hlow := digitChar_inj (by omega) (by omega) hlow
      have hbyte : byte = byte' := UInt8.toNat_inj.mp (by omega)
      rw [hbyte, ih (by simpa only [toNat_high, toNat_low] using hrest)]

theorem ledgerIdentityKey_inj {identity identity' : String}
    (h : ledgerIdentityKey identity = ledgerIdentityKey identity') : identity = identity' := by
  have hbytes := hex_inj (List.append_cancel_left h)
  exact String.toByteArray_inj.mp (ByteArray.ext (Array.toList_inj.mp hbytes))

theorem dot_notMem_key (identity : String) : '.' ∉ ledgerIdentityKey identity := by
  intro h
  obtain h | h := List.mem_append.mp h
  · exact absurd h (by decide)
  · obtain ⟨byte, -, hdigit⟩ := List.mem_flatMap.mp h
    have hlt := byte.toNat_lt
    simp only [List.mem_cons, List.not_mem_nil, or_false, toNat_high, toNat_low] at hdigit
    obtain hdigit | hdigit := hdigit
    · exact digitChar_ne_dot (by omega) hdigit.symm
    · exact digitChar_ne_dot (by omega) hdigit.symm

theorem length_le_size (identity : String) :
    identity.toList.length ≤ identity.toByteArray.data.toList.length := by
  have hbytes : identity.toByteArray.data.toList =
      identity.toList.flatMap String.utf8EncodeChar := by
    rw [← String.utf8Encode_toList]
    simp [List.utf8Encode]
  rw [hbytes, List.length_flatMap]
  have hpos : ∀ c : Char, 1 ≤ (String.utf8EncodeChar c).length := fun c =>
    List.length_pos_iff.mpr String.utf8EncodeChar_ne_nil
  induction identity.toList with
  | nil => exact Nat.le_refl _
  | cons c cs ih =>
    have := hpos c
    simp only [List.length_cons, List.map_cons, List.sum_cons]
    omega

/-- A sanitized identity is no longer than the identity, and its bytes take twice as much. -/
theorem sanitized_ne_key (identity : String) :
    sanitizeIdentityKey identity ≠ ledgerIdentityKey identity := by
  intro h
  have hlen := congrArg List.length h
  have hsize := length_le_size identity
  have hhex (bytes : List UInt8) : (bytes.flatMap fun byte : UInt8 =>
      [(byte >>> 4).toNat.digitChar, (byte &&& 0x0f).toNat.digitChar]).length =
      2 * bytes.length := by
    induction bytes with
    | nil => rfl
    | cons byte bytes ih =>
      rw [List.flatMap_cons, List.length_append, ih, List.length_cons]
      simp only [List.length_cons, List.length_nil]
      omega
  rw [sanitizeIdentityKey, ledgerIdentityKey, List.length_append, hhex, List.length_take,
    List.length_map, List.length_map] at hlen
  simp only [List.length_cons, List.length_nil] at hlen
  omega

/-! ## Names -/

theorem ledgerName_inj {key key' : Name} (h : ledgerName key = ledgerName key') : key = key' :=
  List.append_cancel_left (List.append_cancel_right h)

theorem getLast?_ledgerName (key : Name) : (ledgerName key).getLast? = some 'n' := by
  rw [ledgerName, List.getLast?_append_of_ne_nil _ (by simp)]
  rfl

theorem getLast?_migratedName (legacyKey : Name) :
    (migratedName legacyKey).getLast? = some 'd' := by
  rw [migratedName, withExtension, List.getLast?_append_of_ne_nil _ (by simp)]
  rfl

/-- A name that ends in a letter is none that ends in a number. -/
theorem ne_numbered {name : Name} {c : Char} (hlast : name.getLast? = some c)
    (hc : c.isDigit = false) (front : Name) (n : ℕ) : name ≠ front ++ Nat.toDigits 10 n := by
  rintro rfl
  rw [List.getLast?_append_of_ne_nil _ Nat.toDigits_ne_nil] at hlast
  have hdigit :=
    Nat.isDigit_of_mem_toDigits (by decide) (by decide) (List.mem_of_getLast? hlast)
  rw [hc] at hdigit
  cases hdigit

theorem takeWhile_name {key : Name} (hkey : '.' ∉ key) (rest : Name) :
    (ledgerName key ++ rest).takeWhile (· ≠ '.') = ['w', 'e', 'a', 'r', '-'] ++ key := by
  have hfront : ∀ c ∈ ['w', 'e', 'a', 'r', '-'] ++ key, decide (c ≠ '.') = true := by
    intro c hc
    rw [decide_eq_true_iff]
    rintro rfl
    obtain hc | hc := List.mem_append.mp hc
    · exact absurd hc (by decide)
    · exact hkey hc
  have hrest : (['.', 'j', 's', 'o', 'n'] ++ rest).takeWhile (· ≠ '.') = [] := rfl
  rw [ledgerName, List.append_assoc, List.takeWhile_append_of_pos hfront, hrest, List.append_nil]

/-- The name of a panel's file tells the panel, whatever stands behind `.json`. -/
theorem panel_of_name {identity identity' : String} {rest rest' : Name}
    (h : ledgerName (ledgerIdentityKey identity) ++ rest =
      ledgerName (ledgerIdentityKey identity') ++ rest') : identity = identity' := by
  have hfront := congrArg (List.takeWhile (· ≠ '.')) h
  rw [takeWhile_name (dot_notMem_key _), takeWhile_name (dot_notMem_key _)] at hfront
  exact ledgerIdentityKey_inj (List.append_cancel_left hfront)

/-! ## What an operation touches -/

/-- The files that a load or a persist of a panel may change. -/
inductive Touched (identity : String) : Name → Prop
  | canonical : Touched identity (ledgerName (ledgerIdentityKey identity))
  | temporary (pid seq : ℕ) : Touched identity (tmpFilename (ledgerIdentityKey identity) pid seq)
  | corrupt (nowEpochS : UInt64) :
    Touched identity (corruptName (ledgerIdentityKey identity) nowEpochS)
  | legacy : Touched identity (ledgerName (sanitizeIdentityKey identity))
  | migrated : Touched identity (migratedName (sanitizeIdentityKey identity))

variable {d d' : WearDir} {key name : Name} {identity identity' : String}

theorem renameFile_eq_some {source target : Name} {succeeds : Bool}
    (h : renameFile d source target succeeds = some d') : d.rename source target = some d' := by
  unfold renameFile at h
  split at h
  · exact h
  · cases h

theorem writeAtomicBytes_other {bytes : ByteArray} {o : AtomicOutcomes}
    (hname : name ≠ ledgerName key) (htmp : name ≠ tmpFilename key o.pid o.seq) :
    (writeAtomicBytes d key bytes o).2 name = d name := by
  unfold writeAtomicBytes
  split
  · dsimp only
    split
    · rfl
    · exact Dir.write_other htmp
    · split
      · split
        · rename_i hrename
          exact (Dir.rename_other (renameFile_eq_some hrename) htmp hname).trans
            (Dir.write_other htmp)
        · exact Dir.write_other htmp
      · exact Dir.write_other htmp
  · rfl

section
variable (fromStr : String → Option WearLedger) (toStr : WearLedger → Option String)

/-- The directory after an adoption: the legacy file may be renamed after the write. -/
theorem adoptLegacy_dir (d : WearDir) (key legacyKey : Name) (text : String) (o : LoadOutcomes) :
    (adoptLegacy fromStr d key legacyKey text o).2 =
        (writeAtomicBytes d key text.toByteArray o.adopted).2 ∨
      (writeAtomicBytes d key text.toByteArray o.adopted).2.rename (ledgerName legacyKey)
          (migratedName legacyKey) =
        some (adoptLegacy fromStr d key legacyKey text o).2 := by
  unfold adoptLegacy
  split
  · rename_i dir heq
    rw [heq]
    dsimp only
    split
    · exact .inl rfl
    · cases hrename : renameFile dir (ledgerName legacyKey) (migratedName legacyKey)
        o.migratedRenamed with
      | none => exact .inl rfl
      | some dir' => exact .inr (renameFile_eq_some hrename)
  · rename_i dir heq
    rw [heq]
    exact .inl rfl

theorem adoptLegacy_other {legacyKey : Name} {text : String} {o : LoadOutcomes}
    (hname : name ≠ ledgerName key) (htmp : ∀ pid seq, name ≠ tmpFilename key pid seq)
    (hlegacy : name ≠ ledgerName legacyKey) (hmigrated : name ≠ migratedName legacyKey) :
    (adoptLegacy fromStr d key legacyKey text o).2 name = d name := by
  have hwrite : (writeAtomicBytes d key text.toByteArray o.adopted).2 name = d name :=
    writeAtomicBytes_other hname (htmp _ _)
  obtain h | h := adoptLegacy_dir fromStr d key legacyKey text o
  · rw [h, hwrite]
  · rw [Dir.rename_other h hlegacy hmigrated, hwrite]

theorem readLedgerContents_other {legacyKey : Name} {o : LoadOutcomes}
    (hname : name ≠ ledgerName key) (htmp : ∀ pid seq, name ≠ tmpFilename key pid seq)
    (hlegacy : name ≠ ledgerName legacyKey) (hmigrated : name ≠ migratedName legacyKey) :
    (readLedgerContents fromStr d key legacyKey o).2 name = d name := by
  unfold readLedgerContents
  split
  · rfl
  · rfl
  · split
    · rfl
    · split
      · exact adoptLegacy_other fromStr hname htmp hlegacy hmigrated
      · rfl
      · rfl

/-- The directory after a load: the canonical file may be moved once more. -/
theorem loadOrCreateLedger_dir (d : WearDir) (key legacyKey : Name) (args : LoadArgs)
    (o : LoadOutcomes) :
    (loadOrCreateLedger fromStr d key legacyKey args o).2 =
        (readLedgerContents fromStr d key legacyKey o).2 ∨
      (readLedgerContents fromStr d key legacyKey o).2.rename (ledgerName key)
          (corruptName key args.nowEpochS) =
        some (loadOrCreateLedger fromStr d key legacyKey args o).2 := by
  unfold loadOrCreateLedger
  dsimp only
  split
  · split
    · rename_i hrename
      exact .inr (renameFile_eq_some hrename)
    · exact .inl rfl
  · exact .inl rfl

theorem loadOrCreateLedger_other {legacyKey : Name} {args : LoadArgs} {o : LoadOutcomes}
    (hname : name ≠ ledgerName key) (htmp : ∀ pid seq, name ≠ tmpFilename key pid seq)
    (hlegacy : name ≠ ledgerName legacyKey) (hmigrated : name ≠ migratedName legacyKey)
    (hcorrupt : ∀ now, name ≠ corruptName key now) :
    (loadOrCreateLedger fromStr d key legacyKey args o).2 name = d name := by
  have hread : (readLedgerContents fromStr d key legacyKey o).2 name = d name :=
    readLedgerContents_other fromStr hname htmp hlegacy hmigrated
  obtain h | h := loadOrCreateLedger_dir fromStr d key legacyKey args o
  · rw [h, hread]
  · rw [Dir.rename_other h hname (hcorrupt _), hread]

theorem persistLedger_other {ledger : WearLedger} {o : AtomicOutcomes}
    (hname : name ≠ ledgerName key) (htmp : ∀ pid seq, name ≠ tmpFilename key pid seq) :
    (persistLedger toStr d key ledger o) name = d name := by
  unfold persistLedger
  cases toStr ledger with
  | none => rfl
  | some json => exact writeAtomicBytes_other hname (htmp _ _)

/-! ## The legacy file -/

/-- The bytes are in the legacy file, or in the file that it was renamed to. -/
def LegacyKept (d : WearDir) (legacyKey : Name) (bytes : ByteArray) : Prop :=
  d (ledgerName legacyKey) = some bytes ∨
    d (migratedName legacyKey) = some bytes ∧ d (ledgerName legacyKey) = none

theorem LegacyKept.holds {legacyKey : Name} {bytes : ByteArray}
    (h : LegacyKept d legacyKey bytes) : d.Holds bytes := by
  obtain h | ⟨h, -⟩ := h
  · exact ⟨_, h⟩
  · exact ⟨_, h⟩

theorem LegacyKept.congr {legacyKey : Name} {bytes : ByteArray}
    (hlegacy : d' (ledgerName legacyKey) = d (ledgerName legacyKey))
    (hmigrated : d' (migratedName legacyKey) = d (migratedName legacyKey))
    (h : LegacyKept d legacyKey bytes) : LegacyKept d' legacyKey bytes := by
  unfold LegacyKept
  rw [hlegacy, hmigrated]
  exact h

theorem ledgerName_ne_migratedName (key legacyKey : Name) :
    ledgerName key ≠ migratedName legacyKey := by
  intro h
  have hlast := congrArg List.getLast? h
  rw [getLast?_ledgerName, getLast?_migratedName] at hlast
  exact absurd (Option.some.inj hlast) (by decide)

theorem LegacyKept.rename {legacyKey : Name} {bytes : ByteArray}
    (hrename : d.rename (ledgerName legacyKey) (migratedName legacyKey) = some d')
    (h : LegacyKept d legacyKey bytes) : LegacyKept d' legacyKey bytes := by
  have hnone := Dir.rename_source hrename (ledgerName_ne_migratedName _ _)
  obtain h | ⟨-, h⟩ := h
  · exact .inr ⟨(Dir.rename_target hrename).trans h, hnone⟩
  · obtain ⟨_, hsome, -⟩ := Dir.rename_eq_some.mp hrename
    rw [h] at hsome
    cases hsome

theorem ledgerName_ne_tmpFilename (key key' : Name) (pid seq : ℕ) :
    ledgerName key ≠ tmpFilename key' pid seq :=
  ne_numbered (getLast?_ledgerName key) (by decide) _ _

theorem ledgerName_ne_corruptName (key key' : Name) (now : UInt64) :
    ledgerName key ≠ corruptName key' now :=
  ne_numbered (getLast?_ledgerName key) (by decide) _ _

theorem migratedName_ne_tmpFilename (legacyKey key : Name) (pid seq : ℕ) :
    migratedName legacyKey ≠ tmpFilename key pid seq :=
  ne_numbered (getLast?_migratedName legacyKey) (by decide) _ _

theorem migratedName_ne_corruptName (legacyKey key : Name) (now : UInt64) :
    migratedName legacyKey ≠ corruptName key now :=
  ne_numbered (getLast?_migratedName legacyKey) (by decide) _ _

section
variable {legacyKey : Name} {bytes : ByteArray} (hkey : legacyKey ≠ key)
include hkey

theorem LegacyKept.writeAtomicBytes (written : ByteArray) (o : AtomicOutcomes)
    (h : LegacyKept d legacyKey bytes) :
    LegacyKept (writeAtomicBytes d key written o).2 legacyKey bytes :=
  h.congr
    (writeAtomicBytes_other (fun heq => hkey (ledgerName_inj heq))
      (ledgerName_ne_tmpFilename _ _ _ _))
    (writeAtomicBytes_other (ledgerName_ne_migratedName _ _).symm
      (migratedName_ne_tmpFilename _ _ _ _))

theorem LegacyKept.adoptLegacy {text : String} {o : LoadOutcomes}
    (h : LegacyKept d legacyKey bytes) :
    LegacyKept (adoptLegacy fromStr d key legacyKey text o).2 legacyKey bytes := by
  have hwrite := h.writeAtomicBytes hkey text.toByteArray o.adopted
  obtain hdir | hdir := adoptLegacy_dir fromStr d key legacyKey text o
  · rw [hdir]
    exact hwrite
  · exact hwrite.rename hdir

theorem LegacyKept.readLedgerContents (o : LoadOutcomes) (h : LegacyKept d legacyKey bytes) :
    LegacyKept (readLedgerContents fromStr d key legacyKey o).2 legacyKey bytes := by
  unfold LedgerStore.readLedgerContents
  split
  · exact h
  · exact h
  · split
    · exact h
    · split
      · exact h.adoptLegacy fromStr hkey
      · exact h
      · exact h

theorem LegacyKept.loadOrCreateLedger {args : LoadArgs} {o : LoadOutcomes}
    (h : LegacyKept d legacyKey bytes) :
    LegacyKept (loadOrCreateLedger fromStr d key legacyKey args o).2 legacyKey bytes := by
  have hread := h.readLedgerContents fromStr hkey o
  obtain hdir | hdir := loadOrCreateLedger_dir fromStr d key legacyKey args o
  · rw [hdir]
    exact hread
  · exact hread.congr
      (Dir.rename_other hdir (fun heq => hkey (ledgerName_inj heq))
        (ledgerName_ne_corruptName _ _ _))
      (Dir.rename_other hdir (ledgerName_ne_migratedName _ _).symm
        (migratedName_ne_corruptName _ _ _))

end

/-! ## The canonical file -/

/-- The ledger in memory comes from these bytes. -/
def ParsedFrom (args : LoadArgs) (ledger : WearLedger) (bytes : ByteArray) : Prop :=
  ∃ text file, String.fromUTF8? bytes = some text ∧ fromStr text = some file ∧
    ledger = { file with identity := args.identity, panelType := args.panelType }

/-- What a load leaves of the bytes of the canonical file. -/
def CanonicalKept (d : WearDir) (key : Name) (args : LoadArgs) (readonly : Bool)
    (bytes : ByteArray) : Prop :=
  readonly = true ∧ d (ledgerName key) = some bytes ∨
    d (corruptName key args.nowEpochS) = some bytes

theorem readToString_present (succeeds : Bool) {bytes : ByteArray} (h : d name = some bytes) :
    readToString d name succeeds = .failed ∨
      ∃ text, String.fromUTF8? bytes = some text ∧
        readToString d name succeeds = .contents text := by
  unfold readToString
  rw [h]
  dsimp only
  split
  · split
    · rename_i text htext
      exact .inr ⟨text, htext, rfl⟩
    · exact .inl rfl
  · exact .inl rfl

theorem readToString_absent {succeeds : Bool} (h : readToString d name succeeds = .notFound) :
    d name = none := by
  cases hname : d name with
  | none => rfl
  | some bytes =>
    obtain hread | ⟨text, -, hread⟩ := readToString_present succeeds hname
    · rw [h] at hread
      cases hread
    · rw [h] at hread
      cases hread

theorem loadOrCreateLedger_canonical (legacyKey : Name) (args : LoadArgs) (o : LoadOutcomes)
    {bytes : ByteArray} (h : d (ledgerName key) = some bytes) :
    ParsedFrom fromStr args (loadOrCreateLedger fromStr d key legacyKey args o).1.ledger bytes ∨
      CanonicalKept (loadOrCreateLedger fromStr d key legacyKey args o).2 key args
        (loadOrCreateLedger fromStr d key legacyKey args o).1.persistReadonly bytes := by
  obtain hread | ⟨text, htext, hread⟩ := readToString_present o.canonicalRead h
  · have hcontents : readLedgerContents fromStr d key legacyKey o = (.unreadable, d) := by
      rw [readLedgerContents, hread]
    rw [loadOrCreateLedger, hcontents]
    exact .inr (.inl ⟨rfl, h⟩)
  · have hcontents : readLedgerContents fromStr d key legacyKey o =
        (.contents (fromStr text) false, d) := by
      rw [readLedgerContents, hread]
    rw [loadOrCreateLedger, hcontents]
    cases hparsed : fromStr text with
    | none =>
      dsimp only
      cases hrename : renameFile d (ledgerName key) (corruptName key args.nowEpochS)
        o.corruptRenamed with
      | none => exact .inr (.inl ⟨rfl, h⟩)
      | some dir =>
        exact .inr (.inr ((Dir.rename_target (renameFile_eq_some hrename)).trans h))
    | some file =>
      unfold Dormant.loadOrCreateLedger
      dsimp only
      split
      · exact .inr (.inl ⟨rfl, h⟩)
      · exact .inl ⟨text, file, htext, hparsed, rfl⟩

theorem readLedgerContents_absent {legacyKey : Name} {o : LoadOutcomes}
    (h : (readLedgerContents fromStr d key legacyKey o).1 = .absent) :
    d (ledgerName key) = none ∧ d (ledgerName legacyKey) = none := by
  unfold readLedgerContents at h
  split at h
  · cases h
  · cases h
  · rename_i hread
    have habsent := readToString_absent hread
    split at h
    · rename_i hsame
      rw [hsame]
      exact ⟨habsent, habsent⟩
    · split at h
      · unfold adoptLegacy at h
        split at h
        · dsimp only at h
          split at h <;> cases h
        · cases h
      · rename_i hlegacy
        exact ⟨habsent, readToString_absent hlegacy⟩
      · cases h

theorem seedless {file : LedgerRead} {renamed : Bool} {args : LoadArgs}
    (h : (Dormant.loadOrCreateLedger file renamed args.identity args.panelType args.rows args.cols
      args.nowEpochS).needsSeed = true) : file = .absent := by
  unfold Dormant.loadOrCreateLedger at h
  dsimp only at h
  split at h
  · rfl
  · cases h
  · split at h <;> cases h
  · cases h

theorem loadOrCreateLedger_result (d : WearDir) (key legacyKey : Name) (args : LoadArgs)
    (o : LoadOutcomes) :
    ∃ renamed, (loadOrCreateLedger fromStr d key legacyKey args o).1 =
      Dormant.loadOrCreateLedger (readLedgerContents fromStr d key legacyKey o).1 renamed
        args.identity args.panelType args.rows args.cols args.nowEpochS := by
  unfold loadOrCreateLedger
  dsimp only
  split
  · split
    · exact ⟨true, rfl⟩
    · exact ⟨false, rfl⟩
  · exact ⟨false, rfl⟩

/-- A seed is wanted only where there was no file. -/
theorem needsSeed_absent {legacyKey : Name} {args : LoadArgs} {o : LoadOutcomes}
    (h : (loadOrCreateLedger fromStr d key legacyKey args o).1.needsSeed = true) :
    d (ledgerName key) = none ∧ d (ledgerName legacyKey) = none := by
  obtain ⟨renamed, hresult⟩ := loadOrCreateLedger_result fromStr d key legacyKey args o
  rw [hresult] at h
  exact readLedgerContents_absent fromStr (seedless h)

end

/-! ## Runs -/

section
variable {fromStr : String → Option WearLedger} {toStr : WearLedger → Option String} {s : Store}

/-- What keeps the bytes of a canonical file after the load. -/
structure CanonicalHeld (s : Store) (identity : String) (args : LoadArgs) (bytes : ByteArray) :
    Prop where
  loaded : (s.persistReadonly identity).isSome
  kept : CanonicalKept s.dir (ledgerIdentityKey identity) args
    ((s.persistReadonly identity).getD false) bytes

theorem CanonicalHeld.holds {args : LoadArgs} {bytes : ByteArray}
    (h : CanonicalHeld s identity args bytes) : s.dir.Holds bytes := by
  obtain ⟨-, h⟩ | h := h.kept
  · exact ⟨_, h⟩
  · exact ⟨_, h⟩

theorem corruptName_ne_tmpFilename (now : UInt64) (pid seq : ℕ) :
    corruptName (ledgerIdentityKey identity) now ≠
      tmpFilename (ledgerIdentityKey identity') pid seq := by
  intro h
  unfold corruptName tmpFilename at h
  simp only [List.append_assoc] at h
  obtain rfl := panel_of_name h
  have htail := List.append_cancel_left h
  simp at htail

/-- A file of a panel is not among those that another panel's operations touch. -/
theorem not_touched {rest : Name} (hne : identity ≠ identity')
    (hlegacy : ledgerName (ledgerIdentityKey identity) ++ rest ≠
      ledgerName (sanitizeIdentityKey identity'))
    (hmigrated : ledgerName (ledgerIdentityKey identity) ++ rest ≠
      migratedName (sanitizeIdentityKey identity')) :
    ¬ Touched identity' (ledgerName (ledgerIdentityKey identity) ++ rest) := by
  intro h
  generalize hname : ledgerName (ledgerIdentityKey identity) ++ rest = name at h
  cases h with
  | canonical =>
    rw [← List.append_nil (ledgerName (ledgerIdentityKey identity'))] at hname
    exact hne (panel_of_name hname)
  | temporary pid seq =>
    unfold tmpFilename at hname
    simp only [List.append_assoc] at hname
    exact hne (panel_of_name hname)
  | corrupt now =>
    unfold corruptName at hname
    simp only [List.append_assoc] at hname
    exact hne (panel_of_name hname)
  | legacy => exact hlegacy hname
  | migrated => exact hmigrated hname

theorem step_other {op : Op} (h : ¬ Touched op.identity name) :
    (s.step fromStr toStr op).dir name = s.dir name := by
  have hname : name ≠ ledgerName (ledgerIdentityKey op.identity) :=
    fun heq => h (heq ▸ .canonical)
  have htmp : ∀ pid seq, name ≠ tmpFilename (ledgerIdentityKey op.identity) pid seq :=
    fun pid seq heq => h (heq ▸ .temporary pid seq)
  cases op with
  | load panel args o =>
    unfold Store.step Store.load
    dsimp only
    split
    · rfl
    · exact loadOrCreateLedger_other fromStr hname htmp (fun heq => h (heq ▸ .legacy))
        (fun heq => h (heq ▸ .migrated)) fun now heq => h (heq ▸ .corrupt now)
  | persist panel ledger o =>
    unfold Store.step Store.persist
    dsimp only
    split
    · exact persistLedger_other toStr hname htmp
    · rfl

theorem step_loaded {op : Op} (h : (s.persistReadonly identity).isSome) :
    (s.step fromStr toStr op).persistReadonly identity = s.persistReadonly identity := by
  cases op with
  | load panel args o =>
    unfold Store.step Store.load
    dsimp only
    split
    · rfl
    · rename_i hnone
      have hne : identity ≠ panel := by
        rintro rfl
        rw [hnone] at h
        cases h
      exact Function.update_of_ne hne ..
  | persist panel ledger o =>
    unfold Store.step Store.persist
    dsimp only
    split
    · rfl
    · rfl

/-- An operation of the panel itself: it is loaded, and is persisted only when it may be. -/
theorem CanonicalKept.step_self {args : LoadArgs} {bytes : ByteArray} {op : Op}
    (h : CanonicalHeld s op.identity args bytes) :
    CanonicalKept (s.step fromStr toStr op).dir (ledgerIdentityKey op.identity) args
      ((s.persistReadonly op.identity).getD false) bytes := by
  cases op with
  | load panel args' o =>
    obtain ⟨readonly, hloaded⟩ := Option.isSome_iff_exists.mp h.loaded
    have hsame : s.step fromStr toStr (.load panel args' o) = s := by
      simp only [Op.identity] at hloaded
      simp only [Store.step, Store.load, hloaded]
    rw [hsame]
    exact h.kept
  | persist panel ledger o =>
    have hkept := h.kept
    simp only [Op.identity] at hkept ⊢
    unfold Store.step Store.persist
    dsimp only
    split
    · rename_i hwritable
      rw [hwritable] at hkept ⊢
      obtain ⟨hreadonly, -⟩ | hcorrupt := hkept
      · cases hreadonly
      · exact .inr ((persistLedger_other toStr (ledgerName_ne_corruptName _ _ _).symm
          fun pid seq => corruptName_ne_tmpFilename _ pid seq).trans hcorrupt)
    · exact hkept

theorem CanonicalHeld.step {args : LoadArgs} {bytes : ByteArray} {op : Op}
    (hshared : sanitizeIdentityKey op.identity = sanitizeIdentityKey identity)
    (h : CanonicalHeld s identity args bytes) :
    CanonicalHeld (s.step fromStr toStr op) identity args bytes := by
  have hsame : (s.step fromStr toStr op).persistReadonly identity = s.persistReadonly identity :=
    step_loaded h.loaded
  refine ⟨by rw [hsame]; exact h.loaded, ?_⟩
  rw [hsame]
  by_cases hself : identity = op.identity
  · subst hself
    exact CanonicalKept.step_self h
  · have hcanonical : ¬ Touched op.identity (ledgerName (ledgerIdentityKey identity)) := by
      rw [← List.append_nil (ledgerName _)]
      apply not_touched hself
      · rw [List.append_nil, hshared]
        exact fun heq => sanitized_ne_key identity (ledgerName_inj heq).symm
      · rw [List.append_nil]
        exact ledgerName_ne_migratedName _ _
    have hcorrupt : ¬ Touched op.identity
        (corruptName (ledgerIdentityKey identity) args.nowEpochS) := by
      rw [corruptName, List.append_assoc]
      apply not_touched hself
      · rw [← List.append_assoc]
        exact (ledgerName_ne_corruptName _ _ _).symm
      · rw [← List.append_assoc]
        exact (migratedName_ne_corruptName _ _ _).symm
    obtain ⟨hreadonly, hdir⟩ | hdir := h.kept
    · exact .inl ⟨hreadonly, (step_other hcanonical).trans hdir⟩
    · exact .inr ((step_other hcorrupt).trans hdir)

theorem LegacyKept.step {bytes : ByteArray} {op : Op}
    (h : LegacyKept s.dir (sanitizeIdentityKey op.identity) bytes) :
    LegacyKept (s.step fromStr toStr op).dir (sanitizeIdentityKey op.identity) bytes := by
  have hkey := sanitized_ne_key op.identity
  cases op with
  | load panel args o =>
    unfold Store.step Store.load
    dsimp only
    split
    · exact h
    · exact h.loadOrCreateLedger fromStr hkey
  | persist panel ledger o =>
    unfold Store.step Store.persist
    dsimp only
    split
    · unfold persistLedger
      cases toStr ledger with
      | none => exact h
      | some json => exact h.writeAtomicBytes hkey _ _
    · exact h

theorem CanonicalHeld.run {args : LoadArgs} {bytes : ByteArray} {ops : List Op}
    (hshared : ∀ op ∈ ops, sanitizeIdentityKey op.identity = sanitizeIdentityKey identity)
    (h : CanonicalHeld s identity args bytes) :
    CanonicalHeld (s.run fromStr toStr ops) identity args bytes := by
  induction ops generalizing s with
  | nil => exact h
  | cons op ops ih =>
    exact ih (fun op' hop' => hshared op' (List.mem_cons_of_mem _ hop'))
      (h.step (hshared op (List.mem_cons_self ..)))

theorem LegacyKept.run {legacyKey : Name} {bytes : ByteArray} {ops : List Op}
    (hshared : ∀ op ∈ ops, sanitizeIdentityKey op.identity = legacyKey)
    (h : LegacyKept s.dir legacyKey bytes) :
    LegacyKept (s.run fromStr toStr ops).dir legacyKey bytes := by
  induction ops generalizing s with
  | nil => exact h
  | cons op ops ih =>
    obtain rfl := hshared op (List.mem_cons_self ..)
    exact ih (fun op' hop' => hshared op' (List.mem_cons_of_mem _ hop')) h.step

/-- Whatever fails in a load, and in the loads and persists after it of the panels with the same
legacy key, the bytes of both files are still there, but for a canonical file that the ledger was
parsed from. -/
theorem load_keeps_ledgers (fromStr : String → Option WearLedger)
    (toStr : WearLedger → Option String) (s : Store) (identity : String) (args : LoadArgs)
    (o : LoadOutcomes) (ops : List Op) (hfirst : s.persistReadonly identity = none)
    (hshared : ∀ op ∈ ops, sanitizeIdentityKey op.identity = sanitizeIdentityKey identity) :
    (∀ bytes, s.dir (ledgerName (ledgerIdentityKey identity)) = some bytes →
      ((s.load fromStr identity args o).run fromStr toStr ops).dir.Holds bytes ∨
        ParsedFrom fromStr args (s.loadResult fromStr identity args o).1.ledger bytes) ∧
      (∀ bytes, s.dir (ledgerName (sanitizeIdentityKey identity)) = some bytes →
        ((s.load fromStr identity args o).run fromStr toStr ops).dir.Holds bytes) ∧
      ((s.loadResult fromStr identity args o).1.needsSeed = true →
        s.dir (ledgerName (ledgerIdentityKey identity)) = none ∧
          s.dir (ledgerName (sanitizeIdentityKey identity)) = none) := by
  have hload : s.load fromStr identity args o = {
      dir := (s.loadResult fromStr identity args o).2
      persistReadonly := Function.update s.persistReadonly identity
        (some (s.loadResult fromStr identity args o).1.persistReadonly) } := by
    rw [Store.load, hfirst]
  refine ⟨?_, ?_, needsSeed_absent fromStr⟩
  · intro bytes hbytes
    obtain hparsed | hkept := loadOrCreateLedger_canonical fromStr (sanitizeIdentityKey identity)
      args o hbytes
    · exact .inr hparsed
    · have hheld : CanonicalHeld (s.load fromStr identity args o) identity args bytes := by
        rw [hload]
        refine ⟨?_, ?_⟩ <;> dsimp only <;> rw [Function.update_self]
        · rfl
        · exact hkept
      exact .inl (hheld.run hshared).holds
  · intro bytes hbytes
    have hkept : LegacyKept (s.load fromStr identity args o).dir (sanitizeIdentityKey identity)
        bytes := by
      rw [hload]
      exact LegacyKept.loadOrCreateLedger fromStr (sanitized_ne_key identity) (.inl hbytes)
    exact (hkept.run hshared).holds

/-- A legacy file that is not a ledger, and two panels that both take it for theirs. -/
theorem shared_file_kept :
    let s : Store := {
      dir := Dir.write (fun _ => none) (ledgerName (sanitizeIdentityKey "a:b")) "?".toByteArray
      persistReadonly := fun _ => none }
    let args : LoadArgs := ⟨⟨"", "a", none⟩, .unknown, 1, 1, 0⟩
    let wrote : AtomicOutcomes := ⟨true, 1, 0, .written, true, true⟩
    let o : LoadOutcomes := ⟨true, true, wrote, true, true, true⟩
    ((s.load (fun _ => none) "a:b" args o).run (fun _ => none) (fun _ => none)
      [.load "a/b" args o]).dir.Holds "?".toByteArray := by
  intro s args wrote o
  have hfirst : s.persistReadonly "a:b" = none := rfl
  have hshared : ∀ op ∈ [Op.load "a/b" args o],
      sanitizeIdentityKey op.identity = sanitizeIdentityKey "a:b" := by
    intro op hop
    rw [List.mem_singleton.mp hop]
    decide
  have hlegacy : s.dir (ledgerName (sanitizeIdentityKey "a:b")) = some "?".toByteArray := by
    dsimp only [s]
    exact Dir.write_self
  exact (load_keeps_ledgers (fun _ => none) (fun _ => none) s "a:b" args o [.load "a/b" args o]
    hfirst hshared).2.1 _ hlegacy

end

end Dormant.LedgerStore
