import Dormant.Web.Apply

/-!
# What a web apply leaves behind

While the temporary file is there the config file is as others left it (`Pending`). An error then
leaves the temporary file behind unless it goes through `discard`, and a rename replaces what others
wrote since the backup. `apply_iff` is exact about when neither happens.
-/

namespace Dormant.ConfigApply
set_option autoImplicit false

open Files

section
variable {V D C K E : Type} (calls : Calls V D C K E) (w : World K) (config : String)
  (body : ApplyRequest V) (disk : Disk)

/-! ## All or nothing -/

/-- The request gets as far as a patched text. -/
def Ready (patched : String) : Prop :=
  body.patches.length ≤ patchCap ∧
    (prepared calls w config body (Run.edit ⟨disk, []⟩ config (w.edits .beforeRead)) :
      Except (WebError E) String) = .ok patched

/-- The patched text can be read back and is valid. -/
def Valid (patched : String) : Prop :=
  w.tempRead = none ∧ ∃ cfg creds, calls.loadConfig patched.toByteArray = .ok cfg ∧
    w.credentials = .ok creds ∧ calls.validate cfg creds = []

def finalRun : Except (Stop E × Run) (ApplyResponse × Run) → Run
  | .error stopped => stopped.2
  | .ok answered => answered.2

structure AllOrNothing (result : Except (Stop E × Run) (ApplyResponse × Run)) : Prop where
  untouched : ∀ e r, result = .error (.failed e, r) → e ≠ .reloadUnavailable →
    ∀ step ∈ r.log, step.after.files config = step.before.files config
  no_temp : ∀ e r, result = .error (.failed e, r) → e ≠ .reloadUnavailable →
    (∃ step ∈ r.log, step.op = .writeTemp) → r.disk.files (tempName w.rand) = none
  exactly : ∀ response r, result = .ok (response, r) →
    ∃ patched, Ready calls w config body disk patched ∧ Valid calls w patched ∧
      ∃ step ∈ r.log, step.op = .rename ∧
        step.after.files config = some patched.toByteArray
  kept : ∀ step ∈ (finalRun result).log, step.op = .rename →
    ∀ bytes, step.before.files config = some bytes → ∃ name, (name, bytes) ∈ step.after.backups

/-! ## The condition -/

/-- The config file after what others write in these gaps. -/
def latest (gaps : List Gap) : Option ByteArray :=
  gaps.foldl (fun bytes gap => (w.edits gap).or bytes) (disk.files config)

def untilValid : List Gap := [.beforeRead, .beforeTemp, .beforeLoad, .beforeCredentials]

def untilCopy : List Gap := untilValid ++ [.beforeBackups, .beforeCopy]

def untilRename : List Gap := untilCopy ++ [.beforeListing, .beforeSync, .beforeRename]

/-- A backup that is kept holds the bytes that the rename replaces. -/
def Backed (name : String) : Prop :=
  ∃ copied, latest w config disk untilCopy = some copied ∧
    ∃ backup ∈ prunedBackups w (disk.backups ++ [(name, copied)]),
      latest w config disk untilRename = some backup.2

/-- Nothing fails between the validation and the rename but the rename itself. -/
structure Completes (patched : String) : Prop where
  created : w.backupsCreated = none
  rest : ∀ name, freshName w.draws disk.backups = some name →
    w.copied = .written ∧ w.listed = none ∧ w.synced = .synced ∧
      (w.renamed ≠ none → w.tempRemoved = true) ∧
      (w.renamed = none → Backed w config disk name ∧
        (w.dirSynced = .synced ∨
          latest w config disk untilRename = some patched.toByteArray))

def Clean : Prop :=
  ∀ patched, Ready calls w config body disk patched →
    (∀ e left, w.tempWritten ≠ .failed e (some left)) ∧
      (w.tempWritten = .written →
        (¬ Valid calls w patched → w.tempRemoved = true) ∧
          (Valid calls w patched → Completes w config disk patched))

end

/-! ## Edits by others -/

section
variable {r : Run} {config name : String} {bytes : Option ByteArray}

@[simp] theorem edit_log : (r.edit config bytes).log = r.log := by
  cases bytes <;> rfl

@[simp] theorem edit_backups : (r.edit config bytes).disk.backups = r.disk.backups := by
  cases bytes <;> rfl

@[simp] theorem edit_config :
    (r.edit config bytes).disk.files config = bytes.or (r.disk.files config) := by
  cases bytes with
  | none => rfl
  | some bytes => exact Dir.write_self

theorem edit_other (h : name ≠ config) :
    (r.edit config bytes).disk.files name = r.disk.files name := by
  cases bytes with
  | none => rfl
  | some bytes => exact Dir.write_other h

end

/-! ## While the temporary file is there -/

section
variable {V D C K E : Type} {calls : Calls V D C K E} {w : World K} {config : String}
  {body : ApplyRequest V} {disk : Disk} {r : Run} {gaps : List Gap}
  {backups : List (String × ByteArray)} {content : ByteArray}

structure Pending (w : World K) (config : String) (disk : Disk) (r : Run) (gaps : List Gap)
    (backups : List (String × ByteArray)) (content : ByteArray) : Prop where
  config_eq : r.disk.files config = latest w config disk gaps
  temp_eq : r.disk.files (tempName w.rand) = some content
  backups_eq : r.disk.backups = backups
  untouched : ∀ step ∈ r.log, step.after.files config = step.before.files config
  no_rename : ∀ step ∈ r.log, step.op ≠ .rename
  written : ∃ step ∈ r.log, step.op = .writeTemp

theorem latest_concat (gap : Gap) :
    latest w config disk (gaps ++ [gap]) = (w.edits gap).or (latest w config disk gaps) := by
  simp [latest]

theorem Pending.edit (htemp : tempName w.rand ≠ config)
    (h : Pending w config disk r gaps backups content) (gap : Gap) :
    Pending w config disk (r.edit config (w.edits gap)) (gaps ++ [gap]) backups content where
  config_eq := by rw [edit_config, h.config_eq, latest_concat]
  temp_eq := (edit_other htemp).trans h.temp_eq
  backups_eq := edit_backups.trans h.backups_eq
  untouched := by
    rw [edit_log]
    exact h.untouched
  no_rename := by
    rw [edit_log]
    exact h.no_rename
  written := by
    rw [edit_log]
    exact h.written

theorem Pending.act (h : Pending w config disk r gaps backups content) {op : FileOp}
    (hop : op ≠ .rename) (backups' : List (String × ByteArray)) :
    Pending w config disk (r.act op { r.disk with backups := backups' }) gaps backups' content where
  config_eq := h.config_eq
  temp_eq := h.temp_eq
  backups_eq := rfl
  untouched := by
    intro step hstep
    obtain hstep | hstep := List.mem_append.mp hstep
    · exact h.untouched step hstep
    · rw [List.mem_singleton.mp hstep]
  no_rename := by
    intro step hstep
    obtain hstep | hstep := List.mem_append.mp hstep
    · exact h.no_rename step hstep
    · rw [List.mem_singleton.mp hstep]
      exact hop
  written := by
    obtain ⟨step, hstep, hwrite⟩ := h.written
    exact ⟨step, List.mem_append_left _ hstep, hwrite⟩

/-! ## How a pending run ends -/

theorem not_failed (h : Pending w config disk r gaps backups content) {e : WebError E}
    (he : e ≠ .reloadUnavailable) :
    ¬ AllOrNothing calls w config body disk (.error (.failed e, r)) := by
  intro hall
  have hnone := hall.no_temp e r rfl he h.written
  rw [h.temp_eq] at hnone
  cases hnone

theorem drawing_holds (h : Pending w config disk r gaps backups content) :
    AllOrNothing calls w config body disk (.error (.drawing, r)) where
  untouched := by
    intro e r' heq
    cases heq
  no_temp := by
    intro e r' heq
    cases heq
  exactly := by
    intro response r' heq
    cases heq
  kept := fun step hstep hop => absurd hop (h.no_rename step hstep)

/-- After a removal nothing is left; without one the file is. -/
theorem discard_iff (htemp : tempName w.rand ≠ config)
    (h : Pending w config disk r gaps backups content) {e : WebError E}
    (he : e ≠ .reloadUnavailable) {x : Stop E × Run} (hx : discard w config e r = .error x) :
    AllOrNothing calls w config body disk (.error x) ↔ w.tempRemoved = true := by
  have hpending := h.edit htemp .beforeRemoval
  unfold discard at hx
  cases hremoved : w.tempRemoved with
  | false =>
    rw [hremoved] at hx
    cases hx
    exact iff_of_false (not_failed hpending he) Bool.false_ne_true
  | true =>
    rw [hremoved] at hx
    cases hx
    refine iff_of_true ⟨?_, ?_, ?_, ?_⟩ rfl
    · intro e' r' heq _ step hstep
      cases heq
      obtain hstep | hstep := List.mem_append.mp hstep
      · exact hpending.untouched step hstep
      · rw [List.mem_singleton.mp hstep]
        exact Dir.remove_other htemp.symm
    · intro e' r' heq _ _
      cases heq
      exact Dir.remove_self
    · intro response r' heq
      cases heq
    · intro step hstep hop
      obtain hstep | hstep := List.mem_append.mp hstep
      · exact absurd hop (hpending.no_rename step hstep)
      · rw [List.mem_singleton.mp hstep] at hop
        cases hop

/-! ## The stages -/

theorem loadTemp_eq (h : Pending w config disk r gaps backups content) (hread : w.tempRead = none) :
    loadTemp calls w r = calls.loadConfig content := by
  unfold loadTemp
  rw [hread, h.temp_eq]

theorem latest_isSome (h : (latest w config disk gaps).isSome) (gap : Gap) :
    (latest w config disk (gaps ++ [gap])).isSome := by
  rw [latest_concat]
  cases w.edits gap with
  | none => exact h
  | some bytes => rfl

section
variable {patched : String} (htemp : tempName w.rand ≠ config)
include htemp

theorem validateTemp_valid (h : Pending w config disk r gaps backups patched.toByteArray)
    (hvalid : Valid calls w patched) : ∃ r', validateTemp calls w config r = .ok r' ∧
      Pending w config disk r' (gaps ++ [.beforeLoad] ++ [.beforeCredentials]) backups
        patched.toByteArray := by
  obtain ⟨hread, cfg, creds, hcfg, hcreds, herrors⟩ := hvalid
  have hload := h.edit htemp .beforeLoad
  refine ⟨_, ?_, hload.edit htemp .beforeCredentials⟩
  unfold validateTemp
  dsimp only
  rw [loadTemp_eq hload hread, hcfg]
  dsimp only
  rw [hcreds]
  dsimp only
  rw [herrors]

theorem validateTemp_invalid (h : Pending w config disk r gaps backups patched.toByteArray)
    (hinvalid : ¬ Valid calls w patched) :
    ∃ e r' gaps', e ≠ .reloadUnavailable ∧
      Pending w config disk r' gaps' backups patched.toByteArray ∧
        validateTemp calls w config r = discard w config e r' := by
  have hload := h.edit htemp .beforeLoad
  have hcredentials := hload.edit htemp .beforeCredentials
  unfold validateTemp
  dsimp only
  cases hcfg : loadTemp calls w (r.edit config (w.edits .beforeLoad)) with
  | error e => exact ⟨_, _, _, by simp, hload, rfl⟩
  | ok cfg =>
    dsimp only
    cases hcreds : w.credentials with
    | error e => exact ⟨_, _, _, by simp, hcredentials, rfl⟩
    | ok creds =>
      dsimp only
      cases herrors : calls.validate cfg creds with
      | nil =>
        exfalso
        cases hread : w.tempRead with
        | some e =>
          rw [loadTemp, hread] at hcfg
          cases hcfg
        | none =>
          rw [loadTemp_eq hload hread] at hcfg
          exact hinvalid ⟨hread, cfg, creds, hcfg, hcreds, herrors⟩
      | cons error errors => exact ⟨_, _, _, by simp, hcredentials, rfl⟩

/-- The backup fails, goes on drawing, or is made. -/
theorem backupCurrent_cases (h : Pending w config disk r gaps backups content)
    (hsome : (latest w config disk gaps).isSome) :
    (∃ e r' gaps' backups', e ≠ .reloadUnavailable ∧
      Pending w config disk r' gaps' backups' content ∧
        (backupCurrent w config r : Except (Stop E × Run) Run) = .error (.failed e, r') ∧
          (w.backupsCreated ≠ none ∨ ∃ name, freshName w.draws backups = some name ∧
            (w.copied ≠ .written ∨ w.listed ≠ none))) ∨
      (w.backupsCreated = none ∧ freshName w.draws backups = none ∧ ∃ r' gaps',
        Pending w config disk r' gaps' backups content ∧
          (backupCurrent w config r : Except (Stop E × Run) Run) = .error (.drawing, r')) ∨
      (w.backupsCreated = none ∧ ∃ name copied r', freshName w.draws backups = some name ∧
        w.copied = .written ∧ w.listed = none ∧
          latest w config disk (gaps ++ [.beforeBackups] ++ [.beforeCopy]) = some copied ∧
            (backupCurrent w config r : Except (Stop E × Run) Run) = .ok r' ∧
              Pending w config disk r'
                (gaps ++ [.beforeBackups] ++ [.beforeCopy] ++ [.beforeListing])
                (prunedBackups w (backups ++ [(name, copied)])) content) := by
  have hcreated := h.edit htemp .beforeBackups
  have hcopy := hcreated.edit htemp .beforeCopy
  unfold backupCurrent
  dsimp only
  cases hmade : w.backupsCreated with
  | some e => exact .inl ⟨_, _, _, _, by simp, hcreated, rfl, .inl (by simp)⟩
  | none =>
    dsimp only
    rw [hcreated.backups_eq]
    cases hfresh : freshName w.draws backups with
    | none => exact .inr (.inl ⟨rfl, rfl, _, _, hcreated, rfl⟩)
    | some name =>
      dsimp only
      rw [hcopy.config_eq]
      obtain ⟨copied, hcopied⟩ := Option.isSome_iff_exists.mp
        (latest_isSome (latest_isSome hsome .beforeBackups) .beforeCopy)
      rw [hcopied]
      cases hwrite : w.copied with
      | failed e left =>
        cases left with
        | none => exact .inl ⟨_, _, _, _, by simp, hcopy, rfl, .inr ⟨name, rfl, .inl (by simp)⟩⟩
        | some left =>
          exact .inl ⟨_, _, _, _, by simp, hcopy.act (by decide) _, rfl,
            .inr ⟨name, rfl, .inl (by simp)⟩⟩
      | written =>
        have hlisting := (hcopy.act (show FileOp.copyBackup ≠ .rename by decide)
          (backups ++ [(name, copied)])).edit htemp .beforeListing
        dsimp only
        rw [hcopy.backups_eq]
        unfold pruneBackups
        dsimp only
        cases hlist : w.listed with
        | some e =>
          exact .inl ⟨_, _, _, _, by simp, hlisting, rfl, .inr ⟨name, rfl, .inr (by simp)⟩⟩
        | none =>
          refine .inr (.inr ⟨rfl, name, copied, _, rfl, rfl, rfl, rfl, rfl, ?_⟩)
          have hpruned := hlisting.act (show FileOp.pruneBackups ≠ .rename by decide)
            (prunedBackups w (backups ++ [(name, copied)]))
          rw [hlisting.backups_eq]
          exact hpruned

end

/-! ## After the rename -/

section
variable {patched : String} {replaced : ByteArray}

structure Replaced (w : World K) (config : String) (r : Run) (replaced : ByteArray)
    (backups : List (String × ByteArray)) (content : ByteArray) : Prop where
  steps : ∀ step ∈ r.log,
    step.op ≠ .rename ∧ step.after.files config = step.before.files config ∨
      step.op = .rename ∧ step.before.files config = some replaced ∧
        step.after.files config = some content ∧ step.after.backups = backups
  renamed : ∃ step ∈ r.log, step.op = .rename
  temp_eq : r.disk.files (tempName w.rand) = none

theorem Replaced.edit (htemp : tempName w.rand ≠ config)
    (h : Replaced w config r replaced backups content) (gap : Gap) :
    Replaced w config (r.edit config (w.edits gap)) replaced backups content where
  steps := by
    rw [edit_log]
    exact h.steps
  renamed := by
    rw [edit_log]
    exact h.renamed
  temp_eq := (edit_other htemp).trans h.temp_eq

theorem Pending.rename (htemp : tempName w.rand ≠ config)
    (h : Pending w config disk r gaps backups content)
    (hreplaced : latest w config disk gaps = some replaced) :
    ∃ files, r.disk.files.rename (tempName w.rand) config = some files ∧
      Replaced w config (r.act .rename { r.disk with files }) replaced backups content := by
  have hrename : r.disk.files.rename (tempName w.rand) config =
      some ((r.disk.files.remove (tempName w.rand)).write config content) :=
    Dir.rename_eq_some.mpr ⟨content, h.temp_eq, rfl⟩
  refine ⟨_, hrename, ?_, ?_, Dir.rename_source hrename htemp⟩
  · intro step hstep
    obtain hstep | hstep := List.mem_append.mp hstep
    · exact .inl ⟨h.no_rename step hstep, h.untouched step hstep⟩
    · rw [List.mem_singleton.mp hstep]
      exact .inr ⟨rfl, h.config_eq.trans hreplaced, Dir.write_self, h.backups_eq⟩
  · exact ⟨_, List.mem_append_right _ (List.mem_singleton_self _), rfl⟩

theorem Replaced.kept_iff (h : Replaced w config r replaced backups content) :
    (∀ step ∈ r.log, step.op = .rename → ∀ bytes, step.before.files config = some bytes →
      ∃ name, (name, bytes) ∈ step.after.backups) ↔ ∃ backup ∈ backups, backup.2 = replaced := by
  constructor
  · intro hkept
    obtain ⟨step, hstep, hop⟩ := h.renamed
    obtain ⟨hother, -⟩ | ⟨-, hbefore, -, hbackups⟩ := h.steps step hstep
    · exact absurd hop hother
    · obtain ⟨name, hname⟩ := hkept step hstep hop replaced hbefore
      rw [hbackups] at hname
      exact ⟨_, hname, rfl⟩
  · rintro ⟨⟨name, bytes⟩, hmem, rfl⟩ step hstep hop bytes' hbytes'
    obtain ⟨hother, -⟩ | ⟨-, hbefore, -, hbackups⟩ := h.steps step hstep
    · exact absurd hop hother
    · rw [hbytes'] at hbefore
      cases hbefore
      rw [hbackups]
      exact ⟨name, hmem⟩

/-- An error after the rename: the rename must have changed nothing. -/
theorem Replaced.failed_iff (h : Replaced w config r replaced backups content) {e : WebError E}
    (he : e ≠ .reloadUnavailable) :
    AllOrNothing calls w config body disk (.error (.failed e, r)) ↔
      (∃ backup ∈ backups, backup.2 = replaced) ∧ replaced = content := by
  constructor
  · intro hall
    refine ⟨h.kept_iff.mp hall.kept, ?_⟩
    obtain ⟨step, hstep, hop⟩ := h.renamed
    obtain ⟨hother, -⟩ | ⟨-, hbefore, hafter, -⟩ := h.steps step hstep
    · exact absurd hop hother
    · have hsame := hall.untouched e r rfl he step hstep
      rw [hbefore, hafter] at hsame
      exact (Option.some.inj hsame).symm
  · rintro ⟨hkept, rfl⟩
    refine ⟨?_, ?_, ?_, h.kept_iff.mpr hkept⟩
    · intro e' r' heq _ step hstep
      cases heq
      obtain ⟨-, hsame⟩ | ⟨-, hbefore, hafter, -⟩ := h.steps step hstep
      · exact hsame
      · rw [hbefore, hafter]
    · intro e' r' heq _ _
      cases heq
      exact h.temp_eq
    · intro response r' heq
      cases heq

theorem Replaced.unavailable_iff (h : Replaced w config r replaced backups content) :
    AllOrNothing calls w config body disk (.error (.failed .reloadUnavailable, r)) ↔
      ∃ backup ∈ backups, backup.2 = replaced := by
  constructor
  · intro hall
    exact h.kept_iff.mp hall.kept
  · intro hkept
    refine ⟨?_, ?_, ?_, h.kept_iff.mpr hkept⟩
    · intro e r' heq he
      cases heq
      exact absurd rfl he
    · intro e r' heq he
      cases heq
      exact absurd rfl he
    · intro response r' heq
      cases heq

theorem Replaced.answered_iff (h : Replaced w config r replaced backups patched.toByteArray)
    (hready : Ready calls w config body disk patched) (hvalid : Valid calls w patched)
    (response : ApplyResponse) :
    AllOrNothing calls w config body disk (.ok (response, r)) ↔
      ∃ backup ∈ backups, backup.2 = replaced := by
  constructor
  · intro hall
    exact h.kept_iff.mp hall.kept
  · intro hkept
    refine ⟨?_, ?_, ?_, h.kept_iff.mpr hkept⟩
    · intro e r' heq
      cases heq
    · intro e r' heq
      cases heq
    · intro response' r' heq
      cases heq
      obtain ⟨step, hstep, hop⟩ := h.renamed
      obtain ⟨hother, -⟩ | ⟨-, -, hafter, -⟩ := h.steps step hstep
      · exact absurd hop hother
      · exact ⟨patched, hready, hvalid, step, hstep, hop, hafter⟩

end

/-! ## The whole of it -/

section
variable {patched : String} (htemp : tempName w.rand ≠ config)

variable (calls w patched) in
def finish (r : Run) : Except (Stop E × Run) (ApplyResponse × Run) :=
  match answer calls w patched with
  | .error e => .error (.failed e, r)
  | .ok response => .ok (response, r)

theorem answer_error {e : WebError E} (h : answer calls w patched = .error e) :
    e = .reloadUnavailable := by
  unfold answer at h
  split at h
  · cases h
    rfl
  · split at h
    · split at h <;> cases h
    · cases h
  · cases h
  · cases h

theorem Replaced.finish_iff {replaced : ByteArray}
    (h : Replaced w config r replaced backups patched.toByteArray)
    (hready : Ready calls w config body disk patched) (hvalid : Valid calls w patched) :
    AllOrNothing calls w config body disk (finish calls w patched r) ↔
      ∃ backup ∈ backups, backup.2 = replaced := by
  unfold finish
  split
  · rename_i hanswer
    rw [answer_error hanswer]
    exact h.unavailable_iff
  · exact h.answered_iff hready hvalid _

/-- Nothing was done. -/
theorem idle_holds {e : WebError E} (hlog : r.log = []) :
    AllOrNothing calls w config body disk (.error (.failed e, r)) := by
  refine ⟨?_, ?_, ?_, ?_⟩
  · intro e' r' heq _ step hstep
    cases heq
    rw [hlog] at hstep
    cases hstep
  · rintro e' r' heq _ ⟨step, hstep, -⟩
    cases heq
    rw [hlog] at hstep
    cases hstep
  · intro response r' heq
    cases heq
  · intro step hstep
    rw [finalRun, hlog] at hstep
    cases hstep

theorem ready_isSome (hready : Ready calls w config body disk patched) :
    (latest w config disk untilValid).isSome := by
  have hread : (latest w config disk [.beforeRead]).isSome := by
    obtain ⟨-, hprepared⟩ := hready
    unfold prepared readConfig at hprepared
    rw [edit_config] at hprepared
    have hlatest : latest w config disk [.beforeRead] =
        (w.edits .beforeRead).or (disk.files config) := rfl
    rw [hlatest]
    cases hbytes : (w.edits .beforeRead).or (disk.files config) with
    | some bytes => rfl
    | none =>
      rw [hbytes] at hprepared
      cases hread : w.read <;> rw [hread] at hprepared <;> cases hprepared
  exact latest_isSome (latest_isSome (latest_isSome hread .beforeTemp) .beforeLoad)
    .beforeCredentials

include htemp

theorem syncDir_iff {replaced : ByteArray}
    (h : Replaced w config r replaced backups patched.toByteArray)
    (hready : Ready calls w config body disk patched) (hvalid : Valid calls w patched) :
    AllOrNothing calls w config body disk (syncDir w config r >>= finish calls w patched) ↔
      (∃ backup ∈ backups, backup.2 = replaced) ∧
        (w.dirSynced = .synced ∨ replaced = patched.toByteArray) := by
  have hsync := h.edit htemp .beforeDirSync
  unfold syncDir
  dsimp only
  cases hdir : w.dirSynced with
  | synced =>
    refine (hsync.finish_iff hready hvalid).trans ?_
    simp
  | notOpened e =>
    refine (hsync.failed_iff (by simp)).trans ?_
    simp
  | failed e =>
    refine (hsync.failed_iff (by simp)).trans ?_
    simp

theorem renameTemp_iff {replaced : ByteArray}
    (h : Pending w config disk r gaps backups patched.toByteArray)
    (hreplaced : latest w config disk (gaps ++ [.beforeRename]) = some replaced)
    (hready : Ready calls w config body disk patched) (hvalid : Valid calls w patched) :
    AllOrNothing calls w config body disk
        (renameTemp w config r >>= fun r => syncDir w config r >>= finish calls w patched) ↔
      (w.renamed ≠ none → w.tempRemoved = true) ∧
        (w.renamed = none → (∃ backup ∈ backups, backup.2 = replaced) ∧
          (w.dirSynced = .synced ∨ replaced = patched.toByteArray)) := by
  have hpending := h.edit htemp .beforeRename
  obtain ⟨files, hrename, hrun⟩ := hpending.rename htemp hreplaced
  unfold renameTemp
  dsimp only
  rw [hrename]
  cases hrenamed : w.renamed with
  | some e =>
    refine (discard_iff htemp hpending (by simp) rfl).trans ?_
    simp
  | none =>
    refine (syncDir_iff htemp hrun hready hvalid).trans ?_
    simp

theorem syncFile_iff {replaced : ByteArray}
    (h : Pending w config disk r gaps backups patched.toByteArray)
    (hreplaced : latest w config disk (gaps ++ [.beforeSync] ++ [.beforeRename]) = some replaced)
    (hready : Ready calls w config body disk patched) (hvalid : Valid calls w patched) :
    AllOrNothing calls w config body disk (syncFile w config r >>= fun r =>
        renameTemp w config r >>= fun r => syncDir w config r >>= finish calls w patched) ↔
      w.synced = .synced ∧ (w.renamed ≠ none → w.tempRemoved = true) ∧
        (w.renamed = none → (∃ backup ∈ backups, backup.2 = replaced) ∧
          (w.dirSynced = .synced ∨ replaced = patched.toByteArray)) := by
  have hpending := h.edit htemp .beforeSync
  unfold syncFile
  dsimp only
  cases hsynced : w.synced with
  | synced =>
    refine (renameTemp_iff htemp hpending hreplaced hready hvalid).trans ?_
    simp
  | notOpened e => exact iff_of_false (not_failed hpending (by simp)) (by simp)
  | failed e => exact iff_of_false (not_failed hpending (by simp)) (by simp)

theorem backupCurrent_iff
    (h : Pending w config disk r untilValid disk.backups patched.toByteArray)
    (hsome : (latest w config disk untilValid).isSome)
    (hready : Ready calls w config body disk patched) (hvalid : Valid calls w patched) :
    AllOrNothing calls w config body disk (backupCurrent w config r >>= fun r =>
        syncFile w config r >>= fun r => renameTemp w config r >>= fun r =>
          syncDir w config r >>= finish calls w patched) ↔
      Completes w config disk patched := by
  obtain ⟨e, r', gaps', backups', he, hpending, hrun, hwhy⟩ |
    ⟨hcreated, hdrawing, r', gaps', hpending, hrun⟩ |
    ⟨hcreated, name, copied, r', hname, hcopied, hlisted, hbytes, hrun, hpending⟩ :=
      backupCurrent_cases (E := E) htemp h hsome
  · rw [hrun]
    refine iff_of_false (not_failed hpending he) fun hcompletes => ?_
    obtain hwhy | ⟨name, hname, hwhy⟩ := hwhy
    · exact hwhy hcompletes.created
    · obtain ⟨hcopied, hlisted, -⟩ := hcompletes.rest name hname
      obtain hwhy | hwhy := hwhy
      · exact hwhy hcopied
      · exact hwhy hlisted
  · rw [hrun]
    refine iff_of_true (drawing_holds hpending) ⟨hcreated, fun name hname => ?_⟩
    rw [hdrawing] at hname
    cases hname
  · rw [hrun]
    obtain ⟨replaced, hreplaced⟩ : ∃ replaced, latest w config disk untilRename = some replaced :=
      Option.isSome_iff_exists.mp (latest_isSome (latest_isSome (latest_isSome (latest_isSome
        (latest_isSome hsome .beforeBackups) .beforeCopy) .beforeListing) .beforeSync)
          .beforeRename)
    have hbacked : Backed w config disk name ↔
        ∃ backup ∈ prunedBackups w (disk.backups ++ [(name, copied)]), backup.2 = replaced := by
      unfold Backed
      rw [hreplaced]
      constructor
      · rintro ⟨copied', hbytes', backup, hmem, hsame⟩
        obtain rfl : copied = copied' := Option.some.inj (hbytes.symm.trans hbytes')
        exact ⟨backup, hmem, (Option.some.inj hsame).symm⟩
      · rintro ⟨backup, hmem, rfl⟩
        exact ⟨copied, hbytes, backup, hmem, rfl⟩
    refine (syncFile_iff htemp hpending hreplaced hready hvalid).trans ?_
    constructor
    · rintro ⟨hsynced, hremoved, hrest⟩
      refine ⟨hcreated, fun name' hname' => ?_⟩
      obtain rfl : name = name' := Option.some.inj (hname.symm.trans hname')
      refine ⟨hcopied, hlisted, hsynced, hremoved, fun hrenamed => ?_⟩
      obtain ⟨hkept, hsame⟩ := hrest hrenamed
      rw [hreplaced, Option.some_inj]
      exact ⟨hbacked.mpr hkept, hsame⟩
    · intro hcompletes
      obtain ⟨-, -, hsynced, hremoved, hrest⟩ := hcompletes.rest name hname
      refine ⟨hsynced, hremoved, fun hrenamed => ?_⟩
      obtain ⟨hkept, hsame⟩ := hrest hrenamed
      rw [hreplaced, Option.some_inj] at hsame
      exact ⟨hbacked.mp hkept, hsame⟩

theorem validateTemp_iff
    (h : Pending w config disk r [.beforeRead, .beforeTemp] disk.backups patched.toByteArray)
    (hsome : (latest w config disk untilValid).isSome)
    (hready : Ready calls w config body disk patched) :
    AllOrNothing calls w config body disk (validateTemp calls w config r >>= fun r =>
        backupCurrent w config r >>= fun r => syncFile w config r >>= fun r =>
          renameTemp w config r >>= fun r => syncDir w config r >>= finish calls w patched) ↔
      (¬ Valid calls w patched → w.tempRemoved = true) ∧
        (Valid calls w patched → Completes w config disk patched) := by
  by_cases hvalid : Valid calls w patched
  · obtain ⟨r', hrun, hpending⟩ := validateTemp_valid htemp h hvalid
    rw [hrun]
    refine (backupCurrent_iff htemp hpending hsome hready hvalid).trans ?_
    simp [hvalid]
  · obtain ⟨e, r', gaps', he, hpending, hrun⟩ := validateTemp_invalid htemp h hvalid
    rw [hrun]
    refine (discard_iff htemp hpending he rfl).trans ?_
    simp [hvalid]

theorem pending_written (hlog : r.log = [])
    (hconfig : r.disk.files config = latest w config disk gaps)
    (hbackups : r.disk.backups = backups) (bytes : ByteArray) :
    Pending w config disk
      (r.act .writeTemp { r.disk with files := r.disk.files.write (tempName w.rand) bytes }) gaps
      backups bytes := by
  have hsteps : ∀ step ∈ (r.act .writeTemp
      { r.disk with files := r.disk.files.write (tempName w.rand) bytes }).log,
      step.op = .writeTemp ∧ step.after.files config = step.before.files config := by
    intro step hstep
    rw [Run.act, hlog] at hstep
    rw [List.mem_singleton.mp hstep]
    exact ⟨rfl, Dir.write_other htemp.symm⟩
  refine ⟨(Dir.write_other htemp.symm).trans hconfig, Dir.write_self, hbackups, ?_, ?_, ?_⟩
  · intro step hstep
    exact (hsteps step hstep).2
  · intro step hstep hop
    rw [(hsteps step hstep).1] at hop
    cases hop
  · exact ⟨_, List.mem_append_right _ (List.mem_singleton_self _), rfl⟩

theorem writeTemp_iff (hlog : r.log = [])
    (hconfig : r.disk.files config = latest w config disk [.beforeRead])
    (hbackups : r.disk.backups = disk.backups)
    (hready : Ready calls w config body disk patched) :
    AllOrNothing calls w config body disk (writeTemp w config patched r >>= fun r =>
        validateTemp calls w config r >>= fun r => backupCurrent w config r >>= fun r =>
          syncFile w config r >>= fun r => renameTemp w config r >>= fun r =>
            syncDir w config r >>= finish calls w patched) ↔
      (∀ e left, w.tempWritten ≠ .failed e (some left)) ∧
        (w.tempWritten = .written →
          (¬ Valid calls w patched → w.tempRemoved = true) ∧
            (Valid calls w patched → Completes w config disk patched)) := by
  have hlog' : (r.edit config (w.edits .beforeTemp)).log = [] := edit_log.trans hlog
  have hconfig' : (r.edit config (w.edits .beforeTemp)).disk.files config =
      latest w config disk [.beforeRead, .beforeTemp] := by
    rw [edit_config, hconfig]
    rfl
  have hpending := pending_written htemp hlog' hconfig' (edit_backups.trans hbackups)
  unfold writeTemp
  dsimp only
  cases hwritten : w.tempWritten with
  | failed e left =>
    cases left with
    | none => exact iff_of_true (idle_holds hlog') (by simp)
    | some left => exact iff_of_false (not_failed (hpending left) (by simp)) (by simp)
  | written =>
    refine (validateTemp_iff htemp (hpending _) (ready_isSome hready) hready).trans ?_
    simp

end

/-- An apply is all or nothing exactly when it is clean: an error before the rename leaves the
temporary file, unless it is removed; an error after it comes too late; and what the rename replaces
is in a backup only when nobody wrote since the copy. -/
theorem apply_iff {V D C K E : Type} (calls : Calls V D C K E) (w : World K) (config : String)
    (body : ApplyRequest V) (disk : Disk) (htemp : tempName w.rand ≠ config) :
    AllOrNothing calls w config body disk (postApply calls w config body disk) ↔
      Clean calls w config body disk := by
  by_cases hcap : body.patches.length ≤ patchCap
  · cases hprepared : (prepared calls w config body
      (Run.edit ⟨disk, []⟩ config (w.edits .beforeRead)) : Except (WebError E) String) with
    | error e =>
      have hresult : postApply calls w config body disk =
          .error (.failed e, Run.edit ⟨disk, []⟩ config (w.edits .beforeRead)) := by
        unfold postApply
        dsimp only
        rw [if_neg (Nat.not_lt.mpr hcap), hprepared]
      rw [hresult]
      refine iff_of_true (idle_holds edit_log) fun patched hready => ?_
      rw [hready.2] at hprepared
      cases hprepared
    | ok patched =>
      have hready : Ready calls w config body disk patched := ⟨hcap, hprepared⟩
      have hresult : postApply calls w config body disk =
          writeTemp w config patched (Run.edit ⟨disk, []⟩ config (w.edits .beforeRead)) >>= fun r =>
            validateTemp calls w config r >>= fun r => backupCurrent w config r >>= fun r =>
              syncFile w config r >>= fun r => renameTemp w config r >>= fun r =>
                syncDir w config r >>= finish calls w patched := by
        unfold postApply replaceConfig
        dsimp only
        rw [if_neg (Nat.not_lt.mpr hcap), hprepared]
        simp only [bind_assoc]
        rfl
      have hconfig : (Run.edit ⟨disk, []⟩ config (w.edits .beforeRead)).disk.files config =
          latest w config disk [.beforeRead] := edit_config
      rw [hresult]
      refine (writeTemp_iff htemp edit_log hconfig edit_backups hready).trans ?_
      constructor
      · intro hclean patched' hready'
        obtain rfl : patched = patched' := Except.ok.inj (hprepared.symm.trans hready'.2)
        exact hclean
      · intro hclean
        exact hclean patched hready
  · have hresult : postApply calls w config body disk =
        .error (.failed (.patchCapExceeded (if body.patches.length ≤ 4294967295 then
          UInt32.ofNat body.patches.length else 4294967295)), ⟨disk, []⟩) := by
      unfold postApply
      dsimp only
      rw [if_pos (Nat.not_le.mp hcap)]
    rw [hresult]
    exact iff_of_true (idle_holds rfl) fun patched hready => absurd hready.1 hcap

end

/-- Every call accepts what it is given. -/
def accepting : Calls Unit Unit Unit Unit Unit where
  digest := fun _ => ""
  fromUtf8Lossy := fun _ => ""
  parseDoc := fun _ => .ok ()
  parseConfig := fun _ => .ok ()
  entityCrudEnabled := fun _ => true
  hookEditEnabled := fun _ => true
  redactConfigSecrets := fun _ => []
  checkPatches := fun _ _ _ => .ok ()
  applyPatches := fun _ _ => .ok ()
  docToString := fun _ => ""
  loadConfig := fun _ => .ok ()
  validate := fun _ _ => []

/-- Only the directory of the backups cannot be made. -/
def noBackups : World Unit where
  edits := fun _ => none
  read := none
  rand := 0
  tempWritten := .written
  tempRead := none
  credentials := .ok ()
  tempRemoved := true
  backupsCreated := some "Read-only file system (os error 30)"
  draws := []
  copied := .written
  listed := none
  entryRead := fun _ => true
  pruned := fun _ => true
  synced := .synced
  renamed := none
  dirSynced := .synced
  reload := .closed

theorem tempName_zero : tempName 0 ≠ "config.toml" := by decide

theorem apply_iff_noBackups :
    AllOrNothing accepting noBackups "config.toml" ⟨"", []⟩
        ⟨Dir.write (fun _ => none) "config.toml" ByteArray.empty, []⟩
        (postApply accepting noBackups "config.toml" ⟨"", []⟩
          ⟨Dir.write (fun _ => none) "config.toml" ByteArray.empty, []⟩) ↔
      Clean accepting noBackups "config.toml" ⟨"", []⟩
        ⟨Dir.write (fun _ => none) "config.toml" ByteArray.empty, []⟩ :=
  apply_iff accepting noBackups "config.toml" ⟨"", []⟩ _ tempName_zero

theorem temp_left_behind : ¬ ∀ (w : World Unit) (config : String) (body : ApplyRequest Unit)
    (disk : Disk), tempName w.rand ≠ config →
      AllOrNothing accepting w config body disk (postApply accepting w config body disk) := by
  intro h
  have hall := h noBackups "config.toml" ⟨"", []⟩
    ⟨Dir.write (fun _ => none) "config.toml" ByteArray.empty, []⟩ tempName_zero
  have hnone := hall.no_temp _ _ rfl (by simp) ⟨_, List.mem_singleton_self _, rfl⟩
  have hne : tempName noBackups.rand ≠ "config.toml" := tempName_zero
  rw [edit_other hne, edit_other hne, edit_other hne] at hnone
  dsimp only [Run.act] at hnone
  rw [Dir.write_self] at hnone
  cases hnone

end Dormant.ConfigApply
