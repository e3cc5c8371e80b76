import Mathlib.Data.List.Sort
import Dormant.Foundations.Walk
import Dormant.Render.Scan

/-!
# The scan as a walk

What a source gives is a walk with a limit, sorted, followed by the urls and cut.
-/

namespace Dormant
set_option autoImplicit false

namespace Playlist

/-! ## What there is to find -/

abbrev File := Walk.Found OsName DirEntry

/-- What the scan asks of entries. -/
def query (recurse : Bool) : Walk.Query OsName DirEntry where
  name := DirEntry.name
  isDir entry := decide (entry.fileType = some .directory) && recurse
  keep file :=
    decide (file.entry.fileType = some .regular ∨ file.entry.fileType = some .special) &&
      (toStr (file.dir ++ [file.entry.name])).any hasMediaExtension

def entries (fs : FileSystem) (dir : Path) : List DirEntry := (fs.readDir dir).getD []

def uriOf (file : File) : String := (toStr (file.dir ++ [file.entry.name])).getD ""

/-- The directory that a source is scanned from. -/
def rootOf (fs : FileSystem) (source : ScreensaverSource) : Option Path :=
  (source.path.bind fs.canonicalize).filter fs.isDir

/-- Everything that the scan would take without a limit. -/
def mediaEntries (fs : FileSystem) (source : ScreensaverSource) : List File :=
  match rootOf fs source with
  | none => []
  | some root => Walk.walk (query source.recurse) (entries fs) (maxRecurseDepth + 1) root

/-- The scan with its limit. -/
def collected (fs : FileSystem) (source : ScreensaverSource) (limit : ℕ) : List File :=
  match rootOf fs source with
  | none => []
  | some root =>
    Walk.gather (query source.recurse) (entries fs) limit (maxRecurseDepth + 1) root []

def pathOrder (files : List File) : List String :=
  (files.map uriOf).mergeSort fun a b => decide (a ≤ b)

def skipped (fs : FileSystem) (source : ScreensaverSource) : Bool :=
  source.path.any fun path => (fs.canonicalize path).isNone

/-- The uris of a source, of which the first `room` are taken. -/
def cut (fs : FileSystem) (source : ScreensaverSource) (room : ℕ) : List String :=
  if skipped fs source then []
  else (pathOrder (collected fs source room) ++ source.urls).take room

def ScreensaverSource.item (source : ScreensaverSource) (sourceIndex : ℕ) (uri : String) :
    PlaylistItem :=
  playlistItem source.imageDuration source.wearTag sourceIndex source.itemOrder uri

theorem entries_nodup (fs : FileSystem) (dir : Path) :
    ((entries fs dir).map DirEntry.name).Nodup := by
  unfold entries
  cases hread : fs.readDir dir with
  | none => exact List.nodup_nil
  | some es => exact fs.distinct dir es hread

/-! ## The scan is a walk -/

section
variable (imageDuration : Option ℕ) (wearTag : Option String) (sourceIndex : ℕ)
  (order : PlaylistOrder)

/-- A file is taken where its path is text with a media extension. -/
theorem scanEntry_file (scan : Path → List PlaylistItem → List PlaylistItem) (recurse : Bool)
    (dir : Path) (out : List PlaylistItem) {name : OsName} {kind : FileType}
    (hkind : kind = .regular ∨ kind = .special) :
    scanEntry imageDuration wearTag sourceIndex order scan recurse dir out ⟨name, some kind⟩ =
      if (query recurse).keep ⟨dir, ⟨name, some kind⟩⟩ = true then
        out ++ [playlistItem imageDuration wearTag sourceIndex order
          (uriOf ⟨dir, ⟨name, some kind⟩⟩)]
      else out := by
  have hkeep : (query recurse).keep ⟨dir, ⟨name, some kind⟩⟩ =
      (toStr (dir ++ [name])).any hasMediaExtension := by
    rcases hkind with rfl | rfl <;> rfl
  rw [hkeep]
  unfold uriOf
  rcases hkind with rfl | rfl <;> unfold scanEntry <;> dsimp only <;>
    cases toStr (dir ++ [name]) <;> rfl

/-- One entry is visited. -/
theorem scanEntry_eq {scan : Path → List PlaylistItem → List PlaylistItem}
    {enter : Path → List File → List File} {recurse : Bool}
    (hscan : ∀ dir files,
      scan dir (files.map (playlistItem imageDuration wearTag sourceIndex order ∘ uriOf)) =
        (enter dir files).map (playlistItem imageDuration wearTag sourceIndex order ∘ uriOf))
    (dir : Path) (files : List File) (entry : DirEntry) :
    scanEntry imageDuration wearTag sourceIndex order scan recurse dir
        (files.map (playlistItem imageDuration wearTag sourceIndex order ∘ uriOf)) entry =
      (Walk.visit (query recurse) enter dir files entry).map
        (playlistItem imageDuration wearTag sourceIndex order ∘ uriOf) := by
  obtain ⟨name, fileType⟩ := entry
  have hfile (kind : FileType) (hkind : kind = .regular ∨ kind = .special) :
      scanEntry imageDuration wearTag sourceIndex order scan recurse dir
          (files.map (playlistItem imageDuration wearTag sourceIndex order ∘ uriOf))
          ⟨name, some kind⟩ =
        (Walk.visit (query recurse) enter dir files ⟨name, some kind⟩).map
          (playlistItem imageDuration wearTag sourceIndex order ∘ uriOf) := by
    have hdir : (query recurse).isDir ⟨name, some kind⟩ = false := by
      rcases hkind with rfl | rfl <;> rfl
    rw [scanEntry_file imageDuration wearTag sourceIndex order scan recurse dir _ hkind]
    unfold Walk.visit
    rw [hdir, if_neg Bool.false_ne_true]
    by_cases hkeep : (query recurse).keep ⟨dir, ⟨name, some kind⟩⟩ = true
    · rw [if_pos hkeep, if_pos hkeep, List.map_append]
      rfl
    · rw [if_neg hkeep, if_neg hkeep]
  cases fileType with
  | none => rfl
  | some kind =>
    cases kind with
    | symlink => rfl
    | directory =>
      cases recurse with
      | false => rfl
      | true => exact hscan _ files
    | regular => exact hfile .regular (.inl rfl)
    | special => exact hfile .special (.inr rfl)

theorem scanDir_eq (fs : FileSystem) (recurse : Bool) (limit levels : ℕ) (dir : Path)
    (files : List File) :
    scanDir imageDuration wearTag sourceIndex order fs recurse limit levels dir
        (files.map (playlistItem imageDuration wearTag sourceIndex order ∘ uriOf)) =
      (Walk.gather (query recurse) (entries fs) limit levels dir files).map
        (playlistItem imageDuration wearTag sourceIndex order ∘ uriOf) := by
  induction levels generalizing dir files with
  | zero => rfl
  | succ levels ih =>
    unfold scanDir Walk.gather
    rw [List.length_map]
    by_cases hfull : limit ≤ files.length
    · rw [if_pos hfull, if_pos hfull]
    · rw [if_neg hfull, if_neg hfull]
      unfold entries
      cases fs.readDir dir with
      | none => rfl
      | some es =>
        exact List.foldl_hom _ fun files entry =>
          scanEntry_eq imageDuration wearTag sourceIndex order ih dir files entry

theorem pushUrls_eq (maxItems taken : ℕ) (urls : List String) (urlItems : List PlaylistItem) :
    pushUrls imageDuration wearTag sourceIndex order maxItems taken urls urlItems =
      urlItems ++ (urls.take (maxItems - (taken + urlItems.length))).map
        (playlistItem imageDuration wearTag sourceIndex order) := by
  induction urls generalizing urlItems with
  | nil =>
    rw [List.take_nil, List.map_nil, List.append_nil]
    rfl
  | cons url urls ih =>
    unfold pushUrls
    by_cases hfull : maxItems ≤ taken + urlItems.length
    · rw [if_pos hfull, Nat.sub_eq_zero_of_le hfull, List.take_zero, List.map_nil,
        List.append_nil]
    · have hroom : maxItems - (taken + urlItems.length) =
          maxItems - (taken + (urlItems.length + 1)) + 1 := by omega
      rw [if_neg hfull, ih, List.length_append, List.length_singleton, hroom,
        List.take_succ_cons, List.map_cons, List.append_assoc, List.singleton_append]

end

/-- Sorting the items is sorting the uris. -/
theorem mergeSort_items (source : ScreensaverSource) (sourceIndex : ℕ) (files : List File) :
    (files.map (source.item sourceIndex ∘ uriOf)).mergeSort uriLe =
      (pathOrder files).map (source.item sourceIndex) := by
  have hsort : (pathOrder files).map (source.item sourceIndex) =
      ((files.map uriOf).map (source.item sourceIndex)).mergeSort uriLe :=
    List.map_mergeSort fun a _ b _ => rfl
  rw [hsort, List.map_map]

theorem combine_eq (source : ScreensaverSource) (sourceIndex maxItems taken : ℕ)
    (files : List File) :
    let pathItems := (files.map (source.item sourceIndex ∘ uriOf)).mergeSort uriLe
    (pathItems ++ pushUrls source.imageDuration source.wearTag sourceIndex source.itemOrder
        maxItems (taken + pathItems.length) source.urls []).take (maxItems - taken) =
      ((pathOrder files ++ source.urls).take (maxItems - taken)).map
        (source.item sourceIndex) := by
  intro pathItems
  have hitems : pathItems = (pathOrder files).map (source.item sourceIndex) :=
    mergeSort_items source sourceIndex files
  rw [hitems, pushUrls_eq, List.nil_append, List.length_map, List.length_nil, Nat.add_zero,
    List.take_append, List.take_append, List.map_append, List.length_map, ← List.map_take,
    ← List.map_take, List.take_take, Nat.sub_sub, Nat.min_self]
  rfl

theorem sourceItems_eq (fs : FileSystem) (maxItems taken sourceIndex : ℕ)
    (source : ScreensaverSource) :
    sourceItems fs maxItems taken sourceIndex source =
      if skipped fs source then none
      else some ((cut fs source (maxItems - taken)).map (source.item sourceIndex)) := by
  have hcombine (files : List File) := combine_eq source sourceIndex maxItems taken files
  unfold sourceItems cut
  dsimp only at hcombine ⊢
  by_cases hskipped : skipped fs source = true
  · rw [if_pos hskipped]
    unfold skipped at hskipped
    cases hpath : source.path with
    | none =>
      rw [hpath] at hskipped
      cases hskipped
    | some path =>
      rw [hpath] at hskipped
      have hnone : fs.canonicalize path = none := Option.isNone_iff_eq_none.mp hskipped
      dsimp only
      rw [hnone]
  · rw [if_neg hskipped, if_neg hskipped, ← hcombine]
    unfold skipped at hskipped
    unfold collected rootOf
    cases hpath : source.path with
    | none => rfl
    | some path =>
      rw [hpath] at hskipped
      cases hroot : fs.canonicalize path with
      | none => exact absurd (by dsimp only [Option.any]; rw [hroot]; rfl) hskipped
      | some root =>
        dsimp only
        rw [Option.bind_some, hroot]
        dsimp only
        by_cases hdir : fs.isDir root = true
        · have hscan := scanDir_eq source.imageDuration source.wearTag sourceIndex
            source.itemOrder fs source.recurse (maxItems - taken) (maxRecurseDepth + 1) root []
          rw [if_pos hdir, Option.filter_some, if_pos hdir]
          rw [List.map_nil] at hscan
          rw [hscan]
          rfl
        · rw [if_neg hdir, Option.filter_some, if_neg hdir]
          rfl

end Playlist
end Dormant
