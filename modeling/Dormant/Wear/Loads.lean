import Dormant.Wear.LedgerFile
import Dormant.Wear.LedgerKept
import Dormant.Wear.Shell

/-!
# What a load comes to

Where every operation succeeds and no file is one that the tracker refuses, a ledger is loaded with
what its file held, it can be written, and no other panel's file is touched.
-/

namespace Dormant.TrackerShell
set_option autoImplicit false

open Files LedgerStore WearLedger

section
variable {fromStr : String → Option WearLedger} {toStr : WearLedger → Option String}
variable {pid seq : ℕ} {rows cols : UInt16} {d : WearDir}

/-! ## Loading -/

/-- A file that the tracker neither refuses to write nor to resize. -/
def Readable (fromStr : String → Option WearLedger) (rows cols : UInt16) (d : WearDir)
    (name : Name) : Prop :=
  ∀ bytes, d name = some bytes → ∃ text, String.fromUTF8? bytes = some text ∧
    ∀ file, fromStr text = some file →
      ¬ file.schemaVersion > wearSchemaVersion ∧ file.HasGrid rows cols

theorem parse_eq {bytes : ByteArray} {text : String} (h : String.fromUTF8? bytes = some text) :
    parse fromStr bytes = fromStr text := by
  rw [parse, h, Option.bind_some]

theorem fromUTF8?_toByteArray (text : String) :
    String.fromUTF8? text.toByteArray = some text := by
  unfold String.fromUTF8?
  rw [dif_pos text.isValidUTF8]
  rfl

theorem hasGrid_new (identity : WearIdentity) (panelType : PanelType) (nowEpochS : UInt64) :
    (WearLedger.new identity panelType rows cols nowEpochS).HasGrid rows cols :=
  ⟨rfl, rfl, List.length_replicate ..⟩

theorem wearAt_new (identity : WearIdentity) (panelType : PanelType) (nowEpochS : UInt64)
    (place : Place) : wearAt (WearLedger.new identity panelType rows cols nowEpochS) place = 0 := by
  cases place with
  | total => rfl
  | cell i =>
    have hcell : wearAt (WearLedger.new identity panelType rows cols nowEpochS) (.cell i) =
        (List.replicate (rows.toNat * cols.toNat) (0 : ℚ)).getD i 0 := rfl
    rw [hcell, List.getD_eq_getElem?_getD, List.getElem?_replicate]
    split <;> rfl

theorem writeAtomicBytes_succeeds (d : WearDir) (pid seq : ℕ) (key : Name) (bytes : ByteArray) :
    ∃ d', writeAtomicBytes d key bytes (writeSucceeds pid seq) = (true, d') ∧
      d' (ledgerName key) = some bytes := by
  have hwritten : d.write (tmpFilename key pid seq) bytes (tmpFilename key pid seq) = some bytes :=
    Dir.write_self
  refine ⟨((d.write (tmpFilename key pid seq) bytes).remove (tmpFilename key pid seq)).write
    (ledgerName key) bytes, ?_, Dir.write_self⟩
  unfold writeAtomicBytes writeSucceeds renameFile
  dsimp only
  rw [if_pos rfl, if_pos rfl, if_pos rfl, Dir.rename_of_some hwritten]

/-- What a load that succeeds comes to. -/
structure Loads (fromStr : String → Option WearLedger) (rows cols : UInt16) (d : WearDir)
    (identity : String) (result : LoadResult × WearDir) : Prop where
  writable : result.1.persistReadonly = false
  grid : result.1.ledger.HasGrid rows cols
  behind : ∀ file, (result.2 (ledgerName (ledgerIdentityKey identity))).bind (parse fromStr) =
    some file → file.totalOnHours ≤ result.1.ledger.totalOnHours
  found : (d (ledgerName (ledgerIdentityKey identity))).isSome ∨
    d (ledgerName (sanitizeIdentityKey identity)) = none →
      ∀ place, wearAt result.1.ledger place = fileWear fromStr d identity place

theorem loads_absent {identity : String} {args : LoadArgs} (hrows : args.rows = rows)
    (hcols : args.cols = cols) (hcanonical : d (ledgerName (ledgerIdentityKey identity)) = none)
    (hlegacy : d (ledgerName (sanitizeIdentityKey identity)) = none) :
    Loads fromStr rows cols d identity (LedgerStore.loadOrCreateLedger fromStr d
      (ledgerIdentityKey identity) (sanitizeIdentityKey identity) args (loadSucceeds pid seq)) := by
  have hcontents : readLedgerContents fromStr d (ledgerIdentityKey identity)
      (sanitizeIdentityKey identity) (loadSucceeds pid seq) = (.absent, d) := by
    unfold readLedgerContents readToString loadSucceeds
    dsimp only
    rw [if_pos rfl, hcanonical]
    dsimp only
    rw [if_neg (sanitized_ne_key identity), if_pos rfl, hlegacy]
  subst hrows hcols
  rw [LedgerStore.loadOrCreateLedger, hcontents]
  refine ⟨rfl, hasGrid_new _ _ _, ?_, fun _ place => ?_⟩
  · intro file hfile
    dsimp only at hfile
    rw [hcanonical] at hfile
    cases hfile
  · rw [fileWear, hcanonical]
    exact wearAt_new _ _ _ _

/-- A file that was read, and is under the canonical name now. -/
theorem loads_contents {identity : String} {args : LoadArgs} {d' : WearDir} {bytes : ByteArray}
    {text : String} (hrows : args.rows = rows) (hcols : args.cols = cols)
    (hcontents : readLedgerContents fromStr d (ledgerIdentityKey identity)
      (sanitizeIdentityKey identity) (loadSucceeds pid seq) = (.contents (fromStr text) false, d'))
    (hbytes : d' (ledgerName (ledgerIdentityKey identity)) = some bytes)
    (htext : String.fromUTF8? bytes = some text)
    (hreadable : ∀ file, fromStr text = some file →
      ¬ file.schemaVersion > wearSchemaVersion ∧ file.HasGrid rows cols)
    (hfound : (d (ledgerName (ledgerIdentityKey identity))).isSome ∨
      d (ledgerName (sanitizeIdentityKey identity)) = none →
        d (ledgerName (ledgerIdentityKey identity)) = some bytes) :
    Loads fromStr rows cols d identity (LedgerStore.loadOrCreateLedger fromStr d
      (ledgerIdentityKey identity) (sanitizeIdentityKey identity) args (loadSucceeds pid seq)) := by
  subst hrows hcols
  rw [LedgerStore.loadOrCreateLedger, hcontents]
  cases hparsed : fromStr text with
  | none =>
    have hrename := Dir.rename_of_some hbytes
      (corruptName (ledgerIdentityKey identity) args.nowEpochS)
    have hmoved : renameFile d' (ledgerName (ledgerIdentityKey identity))
        (corruptName (ledgerIdentityKey identity) args.nowEpochS)
          (loadSucceeds pid seq).corruptRenamed = some _ := (if_pos rfl).trans hrename
    dsimp only
    rw [hmoved]
    refine ⟨rfl, hasGrid_new _ _ _, ?_, fun hcase place => ?_⟩
    · intro file hfile
      dsimp only at hfile
      rw [Dir.rename_source hrename (ledgerName_ne_corruptName _ _ _)] at hfile
      cases hfile
    · rw [fileWear, hfound hcase, Option.bind_some, parse_eq htext, hparsed]
      exact wearAt_new _ _ _ _
  | some file =>
    obtain ⟨hversion, hgrid⟩ := hreadable file hparsed
    unfold Dormant.loadOrCreateLedger
    dsimp only
    rw [if_neg hversion]
    refine ⟨rfl, ⟨hgrid.rows_eq, hgrid.cols_eq, hgrid.length⟩, ?_, fun hcase place => ?_⟩
    · intro file' hfile'
      dsimp only at hfile'
      rw [hbytes, Option.bind_some, parse_eq htext, hparsed] at hfile'
      cases hfile'
      exact le_refl _
    · rw [fileWear, hfound hcase, Option.bind_some, parse_eq htext, hparsed]
      cases place <;> rfl

theorem loads {identity : String} {args : LoadArgs} (hrows : args.rows = rows)
    (hcols : args.cols = cols)
    (hcanonical : Readable fromStr rows cols d (ledgerName (ledgerIdentityKey identity)))
    (hlegacy : Readable fromStr rows cols d (ledgerName (sanitizeIdentityKey identity))) :
    Loads fromStr rows cols d identity (LedgerStore.loadOrCreateLedger fromStr d
      (ledgerIdentityKey identity) (sanitizeIdentityKey identity) args (loadSucceeds pid seq)) := by
  cases hfile : d (ledgerName (ledgerIdentityKey identity)) with
  | some bytes =>
    obtain ⟨text, htext, hreadable⟩ := hcanonical bytes hfile
    refine loads_contents hrows hcols ?_ hfile htext hreadable fun _ => hfile
    unfold readLedgerContents readToString loadSucceeds
    dsimp only
    rw [if_pos rfl, hfile]
    dsimp only
    rw [htext]
  | none =>
    cases hold : d (ledgerName (sanitizeIdentityKey identity)) with
    | none => exact loads_absent hrows hcols hfile hold
    | some bytes =>
      obtain ⟨text, htext, hreadable⟩ := hlegacy bytes hold
      obtain ⟨d₁, hwrite, hadopted⟩ := writeAtomicBytes_succeeds d pid seq
        (ledgerIdentityKey identity) text.toByteArray
      have hcontents : readLedgerContents fromStr d (ledgerIdentityKey identity)
          (sanitizeIdentityKey identity) (loadSucceeds pid seq) =
            adoptLegacy fromStr d (ledgerIdentityKey identity) (sanitizeIdentityKey identity) text
              (loadSucceeds pid seq) := by
        unfold readLedgerContents readToString loadSucceeds
        dsimp only
        rw [if_pos rfl, hfile]
        dsimp only
        rw [if_neg (sanitized_ne_key identity), if_pos rfl, hold]
        dsimp only
        rw [htext]
      obtain ⟨d', hadopt, hbytes⟩ : ∃ d', adoptLegacy fromStr d (ledgerIdentityKey identity)
          (sanitizeIdentityKey identity) text (loadSucceeds pid seq) =
            (.contents (fromStr text) false, d') ∧
              d' (ledgerName (ledgerIdentityKey identity)) = some text.toByteArray := by
        have hwrite' : writeAtomicBytes d (ledgerIdentityKey identity) text.toByteArray
            (loadSucceeds pid seq).adopted = (true, d₁) := hwrite
        unfold adoptLegacy
        rw [hwrite']
        dsimp only
        split
        · exact ⟨d₁, rfl, hadopted⟩
        · refine ⟨_, rfl, ?_⟩
          cases hrename : renameFile d₁ (ledgerName (sanitizeIdentityKey identity))
              (migratedName (sanitizeIdentityKey identity))
              (loadSucceeds pid seq).migratedRenamed with
          | none => exact hadopted
          | some d₂ =>
            refine (Dir.rename_other (renameFile_eq_some hrename) ?_ ?_).trans hadopted
            · exact fun heq => sanitized_ne_key identity (ledgerName_inj heq).symm
            · exact ledgerName_ne_migratedName _ _
      refine loads_contents hrows hcols (hcontents.trans hadopt) hbytes (fromUTF8?_toByteArray text)
        hreadable fun hcase => ?_
      rw [hfile, hold] at hcase
      simp at hcase

theorem readToString_none {name : Name} {succeeds : Bool} (h : d name = none) :
    ∀ text, readToString d name succeeds ≠ .contents text := by
  intro text
  unfold readToString
  rw [h]
  split <;> simp

/-- A load leaves a legacy file as it is, or takes it away. -/
theorem load_legacy {key legacyKey : Name} {args : LoadArgs} {o : LoadOutcomes}
    (hkey : legacyKey ≠ key) :
    (LedgerStore.loadOrCreateLedger fromStr d key legacyKey args o).2 (ledgerName legacyKey) =
        d (ledgerName legacyKey) ∨
      (LedgerStore.loadOrCreateLedger fromStr d key legacyKey args o).2
        (ledgerName legacyKey) = none := by
  cases hlegacy : d (ledgerName legacyKey) with
  | some bytes =>
    have hkept : LegacyKept d legacyKey bytes := .inl hlegacy
    have hkept' : LegacyKept (LedgerStore.loadOrCreateLedger fromStr d key legacyKey args o).2
        legacyKey bytes := hkept.loadOrCreateLedger fromStr hkey
    obtain h | ⟨-, h⟩ := hkept'
    · exact .inl h
    · exact .inr h
  | none =>
    right
    have hread : (readLedgerContents fromStr d key legacyKey o).2 = d := by
      unfold readLedgerContents
      split
      · rfl
      · rfl
      · split
        · rfl
        · split
          · rename_i htext
            exact absurd htext (readToString_none hlegacy _)
          · rfl
          · rfl
    obtain hdir | hdir := loadOrCreateLedger_dir fromStr d key legacyKey args o
    · rw [hdir, hread, hlegacy]
    · rw [hread] at hdir
      exact (Dir.rename_other hdir (fun heq => hkey (ledgerName_inj heq))
        (ledgerName_ne_corruptName _ _ _)).trans hlegacy

/-! ## What is attributed -/

theorem attributed_append (l l' : List Attribution) (identity : String) (place : Place) :
    attributed (l ++ l') identity place =
      attributed l identity place + attributed l' identity place := by
  unfold attributed
  rw [List.filter_append, List.map_append, List.sum_append]

/-- The attributions of a tick, where one display has the identity. -/
theorem attributed_tick {displays : List (DisplayId × WearInputs)}
    (hnodup : (displays.map Prod.fst).Nodup) {identities : DisplayId → Option String}
    (amount : DisplayId → Place → ℚ) {display : DisplayId} {identity : String}
    (howner : ∀ other, identities other = some identity ↔ other = display)
    (hidle : display ∉ displays.map Prod.fst → ∀ place, amount display place = 0)
    (place : Place) :
    attributed (displays.filterMap fun entry => (identities entry.1).map fun identity =>
      ⟨identity, amount entry.1⟩) identity place = amount display place := by
  have hcount (l : List (DisplayId × WearInputs)) (hl : (l.map Prod.fst).Nodup) :
      attributed (l.filterMap fun entry => (identities entry.1).map fun identity =>
        ⟨identity, amount entry.1⟩) identity place =
          if display ∈ l.map Prod.fst then amount display place else 0 := by
    induction l with
    | nil => rfl
    | cons entry l ih =>
      obtain ⟨hnew, hl⟩ := List.nodup_cons.mp hl
      have ih := ih hl
      rw [List.map_cons, List.filterMap_cons]
      by_cases hentry : entry.1 = display
      · rw [hentry] at hnew
        rw [hentry, (howner display).mpr rfl, if_pos (List.mem_cons_self ..)]
        rw [if_neg hnew] at ih
        rw [Option.map_some]
        dsimp only
        rw [← List.singleton_append, attributed_append, ih, add_zero]
        simp [attributed]
      · have hmem : display ∈ entry.1 :: l.map Prod.fst ↔ display ∈ l.map Prod.fst := by
          rw [List.mem_cons]
          exact or_iff_right fun h => hentry h.symm
        simp only [hmem]
        cases hidentity : identities entry.1 with
        | none => exact ih
        | some other =>
          have hother : other ≠ identity := by
            rintro rfl
            exact hentry ((howner entry.1).mp hidentity)
          rw [Option.map_some]
          dsimp only
          rw [← List.singleton_append, attributed_append, ih]
          simp [attributed, hother]
  rw [hcount displays hnodup]
  split
  · rfl
  · rename_i hdisplay
    exact (hidle hdisplay place).symm

theorem attributed_none {displays : List (DisplayId × WearInputs)}
    {identities : DisplayId → Option String} (amount : DisplayId → Place → ℚ) {identity : String}
    (hnone : ∀ other, identities other ≠ some identity) (place : Place) :
    attributed (displays.filterMap fun entry => (identities entry.1).map fun identity =>
      ⟨identity, amount entry.1⟩) identity place = 0 := by
  unfold attributed
  rw [List.filter_eq_nil_iff.mpr]
  · rfl
  · intro attribution hmem
    obtain ⟨entry, -, hentry⟩ := List.mem_filterMap.mp hmem
    obtain ⟨other, hother, rfl⟩ := Option.map_eq_some_iff.mp hentry
    rw [decide_eq_true_iff]
    rintro rfl
    exact hnone entry.1 hother

end

end Dormant.TrackerShell
