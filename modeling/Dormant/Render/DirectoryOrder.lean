import Mathlib.Data.List.Sort
import Mathlib.Data.List.TakeWhile
import Dormant.Render.Assembly

/-!
# The order of directories

The scan stops at a limit that it looks at when it opens a directory, so near the limit the order
of the entries decides which files are in the playlist.
-/

namespace Dormant
set_option autoImplicit false

namespace Playlist

/-! ## Paths -/

theorem slash_split {a b x y : List Char} (ha : '/' ∉ a) (hb : '/' ∉ b)
    (hx : x = [] ∨ ∃ t, x = '/' :: t) (hy : y = [] ∨ ∃ t, y = '/' :: t) (h : a ++ x = b ++ y) :
    a = b ∧ x = y := by
  have hstop {s z : List Char} (hs : '/' ∉ s) (hz : z = [] ∨ ∃ t, z = '/' :: t) :
      (s ++ z).takeWhile (· ≠ '/') = s := by
    have hall : ∀ c ∈ s, decide (c ≠ '/') = true := fun c hc =>
      decide_eq_true fun heq => hs (heq ▸ hc)
    rcases hz with rfl | ⟨t, rfl⟩
    · rw [List.append_nil]
      exact List.takeWhile_eq_self_iff.mpr hall
    · rw [List.takeWhile_append_of_pos hall, List.takeWhile_cons_of_neg (by decide),
        List.append_nil]
  have hab : a = b := by
    rw [← hstop ha hx, h, hstop hb hy]
  subst hab
  exact ⟨rfl, List.append_cancel_left h⟩

theorem pathChars_shape {path : Path} {chars : List Char} (h : pathChars path = some chars) :
    chars = [] ∧ path = [] ∨ ∃ t, chars = '/' :: t := by
  cases path with
  | nil => exact .inl ⟨(Option.some.inj h).symm, rfl⟩
  | cons name rest =>
    cases name with
    | other bytes => cases h
    | utf8 text noSlash =>
      obtain ⟨tail, -, rfl⟩ := Option.map_eq_some_iff.mp h
      exact .inr ⟨_, rfl⟩

/-- Different paths are written differently. -/
theorem pathChars_inj {path path' : Path} {chars : List Char} (h : pathChars path = some chars)
    (h' : pathChars path' = some chars) : path = path' := by
  induction path generalizing path' chars with
  | nil =>
    rcases pathChars_shape h' with ⟨-, rfl⟩ | ⟨t, rfl⟩
    · rfl
    · cases h
  | cons name rest ih =>
    cases name with
    | other bytes => cases h
    | utf8 text noSlash =>
      obtain ⟨tail, htail, rfl⟩ := Option.map_eq_some_iff.mp h
      cases path' with
      | nil => cases h'
      | cons name' rest' =>
        cases name' with
        | other bytes => cases h'
        | utf8 text' noSlash' =>
          obtain ⟨tail', htail', heq⟩ := Option.map_eq_some_iff.mp h'
          have hrest := (List.cons.inj heq).2
          have hshape {p : Path} {cs : List Char} (hp : pathChars p = some cs) :
              cs = [] ∨ ∃ t, cs = '/' :: t := (pathChars_shape hp).imp And.left id
          obtain ⟨htext, rfl⟩ :=
            slash_split noSlash' noSlash (hshape htail') (hshape htail) hrest
          obtain rfl := String.toList_inj.mp htext
          rw [ih htail htail']

theorem toStr_inj {path path' : Path} {s : String} (h : toStr path = some s)
    (h' : toStr path' = some s) : path = path' := by
  obtain ⟨chars, hchars, rfl⟩ := Option.map_eq_some_iff.mp h
  obtain ⟨chars', hchars', heq⟩ := Option.map_eq_some_iff.mp h'
  rw [String.ofList_injective heq] at hchars'
  exact pathChars_inj hchars hchars'

/-! ## The finds of one source -/

variable {fs fs' : FileSystem} {source : ScreensaverSource}

theorem mediaEntries_spec {file : File} (h : file ∈ mediaEntries fs source) :
    file.entry ∈ entries fs file.dir ∧ (query source.recurse).keep file = true := by
  unfold mediaEntries at h
  split at h
  · cases h
  · exact Walk.mem_read_of_mem h

theorem mediaEntries_nodup (fs : FileSystem) (source : ScreensaverSource) :
    (mediaEntries fs source).Nodup := by
  unfold mediaEntries
  split
  · exact List.nodup_nil
  · exact Walk.walk_nodup (entries_nodup fs) _ _

theorem uriOf_spec {file : File} (h : file ∈ mediaEntries fs source) :
    toStr (file.dir ++ [file.entry.name]) = some (uriOf file) := by
  have hkeep := (mediaEntries_spec h).2
  unfold query at hkeep
  unfold uriOf
  cases hpath : toStr (file.dir ++ [file.entry.name]) with
  | none =>
    rw [Bool.and_eq_true, hpath] at hkeep
    cases hkeep.2
  | some path => rfl

/-- Two finds have two uris. -/
theorem uriOf_inj {a b : File} (ha : a ∈ mediaEntries fs source) (hb : b ∈ mediaEntries fs source)
    (h : uriOf a = uriOf b) : a = b := by
  have hpath := toStr_inj (uriOf_spec ha) (h ▸ uriOf_spec hb)
  obtain ⟨hdir, hname⟩ := List.append_inj' hpath rfl
  have hentry := List.inj_on_of_nodup_map (entries_nodup fs a.dir) (mediaEntries_spec ha).1
    (hdir ▸ (mediaEntries_spec hb).1) (List.singleton_inj.mp hname)
  cases a
  cases b
  exact Walk.Found.mk.injEq .. |>.mpr ⟨hdir, hentry⟩

theorem pathOrder_perm (files : List File) : (pathOrder files).Perm (files.map uriOf) :=
  List.mergeSort_perm _ _

theorem mem_pathOrder {files : List File} {file : File} (h : file ∈ files) :
    uriOf file ∈ pathOrder files :=
  (pathOrder_perm files).mem_iff.mpr (List.mem_map_of_mem h)

theorem pathOrder_pairwise (files : List File) : (pathOrder files).Pairwise (· ≤ ·) := by
  have htrans (a b c : String) (hab : decide (a ≤ b) = true) (hbc : decide (b ≤ c) = true) :
      decide (a ≤ c) = true :=
    decide_eq_true ((of_decide_eq_true hab).trans (of_decide_eq_true hbc))
  have htotal (a b : String) : (decide (a ≤ b) || decide (b ≤ a)) = true := by
    rw [Bool.or_eq_true, decide_eq_true_eq, decide_eq_true_eq]
    exact le_total a b
  have hsorted := List.pairwise_mergeSort htrans htotal (files.map uriOf)
  exact hsorted.imp fun h => of_decide_eq_true h

theorem pathOrder_congr {files files' : List File} (h : files.Perm files') :
    pathOrder files = pathOrder files' := by
  refine List.Perm.eq_of_pairwise' (pathOrder_pairwise files) (pathOrder_pairwise files') ?_
  exact (pathOrder_perm files).trans ((h.map uriOf).trans (pathOrder_perm files').symm)

theorem pathOrder_sublist {files files' : List File} (h : files.Sublist files') :
    (pathOrder files).Sublist (pathOrder files') := by
  refine List.sublist_of_subperm_of_pairwise ?_ (pathOrder_pairwise files)
    (pathOrder_pairwise files')
  exact (pathOrder_perm files).subperm.trans
    ((h.map uriOf).subperm.trans (pathOrder_perm files').symm.subperm)

theorem pathOrder_length (files : List File) : (pathOrder files).length = files.length := by
  rw [(pathOrder_perm files).length_eq, List.length_map]

theorem pathOrder_nil : pathOrder [] = [] :=
  List.eq_nil_of_length_eq_zero (pathOrder_length [])

theorem pathOrder_nodup (fs : FileSystem) (source : ScreensaverSource) :
    (pathOrder (mediaEntries fs source)).Nodup := by
  refine (pathOrder_perm _).nodup_iff.mpr ?_
  exact List.Nodup.map_on (fun a ha b hb => uriOf_inj ha hb) (mediaEntries_nodup fs source)

/-- What the scan collects, of what there is. -/
theorem collected_gathered (fs : FileSystem) (source : ScreensaverSource) (limit : ℕ) :
    Walk.Gathered limit [] (collected fs source limit) (mediaEntries fs source) := by
  unfold collected mediaEntries
  cases rootOf fs source with
  | none => exact .everything
  | some root =>
    obtain ⟨new, hnew, hgathered⟩ := Walk.gather_gathered (q := query source.recurse) limit
      (entries_nodup fs) (maxRecurseDepth + 1) root []
    dsimp only
    rw [hnew]
    exact hgathered

/-! ## Sizes -/

def size (fs : FileSystem) (source : ScreensaverSource) : ℕ :=
  if skipped fs source then 0 else (mediaEntries fs source).length + source.urls.length

theorem cut_sized (fs : FileSystem) : Sized (cut fs) (size fs) := by
  intro source room
  have hgathered := collected_gathered fs source room
  have hle := hgathered.sublist.length_le
  unfold cut size
  split
  · exact (Nat.min_zero room).symm
  · rw [List.length_take, List.length_append, pathOrder_length]
    rcases hgathered.full with hfull | hall
    · rw [List.nil_append] at hfull
      omega
    · rw [hall]

theorem playlistFrom_eq (fs : FileSystem) (maxItems sourceIndex : ℕ) (rng : UInt64)
    (items : List PlaylistItem) (sources : List ScreensaverSource) :
    playlistFrom fs maxItems sourceIndex rng items sources =
      items ++ assemble (cut fs) sourceIndex rng (maxItems - items.length) sources := by
  induction sources generalizing sourceIndex rng items with
  | nil => exact (List.append_nil items).symm
  | cons source sources ih =>
    unfold playlistFrom
    by_cases hfull : maxItems ≤ items.length
    · have hnone := assemble_length (cut_sized fs) sourceIndex rng (maxItems - items.length)
        (source :: sources)
      rw [Nat.sub_eq_zero_of_le hfull] at hnone ⊢
      rw [if_pos hfull, List.eq_nil_of_length_eq_zero (Nat.le_zero.mp hnone), List.append_nil]
    rw [if_neg hfull, sourceItems_eq]
    unfold assemble
    by_cases hskipped : skipped fs source = true
    · have hcut : cut fs source (maxItems - items.length) = [] := if_pos hskipped
      have hshuffle : shuffle source rng [] = (rng, []) := if_neg fun h => by cases h.2
      rw [if_pos hskipped, hcut, List.map_nil, hshuffle]
      exact ih (sourceIndex + 1) rng items
    · rw [if_neg hskipped]
      dsimp only
      rw [ih, List.length_append, List.append_assoc, Nat.sub_add_eq]

/-! ## Other orders -/

/-- The same files, read in another order. -/
structure Reordered (fs fs' : FileSystem) : Prop where
  canonicalize : fs'.canonicalize = fs.canonicalize
  isDir : fs'.isDir = fs.isDir
  readDir : ∀ dir, Option.Rel List.Perm (fs'.readDir dir) (fs.readDir dir)

/-- Each directory in an order of its own. -/
def FileSystem.reorder (fs : FileSystem) (order : Path → List DirEntry)
    (h : ∀ dir, (order dir).Perm (entries fs dir)) : FileSystem where
  canonicalize := fs.canonicalize
  isDir := fs.isDir
  readDir dir := (fs.readDir dir).map fun _ => order dir
  distinct := by
    intro dir es hes
    obtain ⟨-, -, rfl⟩ := Option.map_eq_some_iff.mp hes
    exact ((h dir).map _).nodup_iff.mpr (entries_nodup fs dir)

theorem reorder_reordered {order : Path → List DirEntry}
    (h : ∀ dir, (order dir).Perm (entries fs dir)) : Reordered fs (fs.reorder order h) where
  canonicalize := rfl
  isDir := rfl
  readDir := by
    intro dir
    have hdir := h dir
    unfold FileSystem.reorder
    unfold entries at hdir
    dsimp only
    cases hread : fs.readDir dir with
    | none => exact .none
    | some es =>
      rw [hread] at hdir
      exact .some hdir

theorem entries_reorder {order : Path → List DirEntry}
    (h : ∀ dir, (order dir).Perm (entries fs dir)) : entries (fs.reorder order h) = order := by
  funext dir
  have hdir := h dir
  unfold entries FileSystem.reorder at *
  cases hread : fs.readDir dir with
  | none =>
    rw [hread] at hdir
    dsimp only
    rw [hread]
    exact hdir.eq_nil.symm
  | some es =>
    dsimp only
    rw [hread]
    rfl

section Reordered

variable (h : Reordered fs fs')

include h

theorem Reordered.entries_perm (dir : Path) : (entries fs' dir).Perm (entries fs dir) := by
  have hdir := h.readDir dir
  unfold entries
  cases hread' : fs'.readDir dir with
  | none =>
    cases hread : fs.readDir dir with
    | none => exact .refl _
    | some es =>
      rw [hread, hread'] at hdir
      cases hdir
  | some es' =>
    cases hread : fs.readDir dir with
    | none =>
      rw [hread, hread'] at hdir
      cases hdir
    | some es =>
      rw [hread, hread'] at hdir
      cases hdir with
      | some hperm => exact hperm

theorem Reordered.rootOf_eq (source : ScreensaverSource) :
    rootOf fs' source = rootOf fs source := by
  unfold rootOf
  rw [h.canonicalize, h.isDir]

theorem Reordered.skipped_eq (source : ScreensaverSource) :
    skipped fs' source = skipped fs source := by
  unfold skipped
  rw [h.canonicalize]

theorem Reordered.mediaEntries_perm (source : ScreensaverSource) :
    (mediaEntries fs' source).Perm (mediaEntries fs source) := by
  unfold mediaEntries
  rw [h.rootOf_eq]
  split
  · exact .refl _
  · exact Walk.walk_perm h.entries_perm _ _

theorem Reordered.size_eq : size fs' = size fs := by
  funext source
  unfold size
  rw [h.skipped_eq, (h.mediaEntries_perm source).length_eq]

end Reordered

/-! ## What decides -/

/-- None of the first files in path order can be left out: each is in the root directory, or too
few files are outside its directory to fill the room. -/
def Reached (fs : FileSystem) (source : ScreensaverSource) (room : ℕ) : Prop :=
  ∀ file ∈ mediaEntries fs source, uriOf file ∈ (pathOrder (mediaEntries fs source)).take room →
    rootOf fs source ≠ some file.dir →
      (mediaEntries fs source).countP (Walk.outside file.dir) < room

/-- Then the cut is the same for every order. -/
theorem cut_of_reached (h : Reordered fs fs') {room : ℕ} (hroom : 0 < room)
    (hreached : Reached fs source room) :
    cut fs' source room =
      if skipped fs source then []
      else (pathOrder (mediaEntries fs source) ++ source.urls).take room := by
  have hgathered := collected_gathered fs' source room
  have hperm := h.mediaEntries_perm source
  have horder := pathOrder_congr hperm
  unfold cut
  rw [h.skipped_eq]
  split
  · rfl
  rcases hgathered.full with hfull | hall
  · have hlength := hgathered.sublist.length_le
    rw [List.nil_append] at hfull
    rw [hperm.length_eq] at hlength
    rw [List.take_append_of_le_length (by rw [pathOrder_length]; exact hfull),
      List.take_append_of_le_length (by rw [pathOrder_length]; exact hfull.trans hlength), ← horder]
    refine Walk.take_eq_of_sublist (pathOrder_sublist hgathered.sublist)
      (pathOrder_nodup fs' source) fun uri huri => ?_
    obtain ⟨file, hfile, rfl⟩ :=
      List.mem_map.mp ((pathOrder_perm _).mem_iff.mp (List.mem_of_mem_take huri))
    refine mem_pathOrder (by_contra fun hmissed => ?_)
    have hmissed' := hgathered.missed file hfile hmissed
    rw [List.length_nil, Nat.zero_add, hperm.countP_eq] at hmissed'
    rw [horder] at huri
    have hroot : rootOf fs source ≠ some file.dir := by
      intro hroot
      rw [← h.rootOf_eq] at hroot
      unfold collected mediaEntries at *
      rw [hroot] at hmissed hfile
      exact hmissed (Walk.mem_gather_of_dir (entries_nodup fs') hroom hfile rfl)
    exact absurd (hreached file (hperm.mem_iff.mp hfile) huri hroot) (Nat.not_lt.mpr hmissed')
  · rw [hall, horder]

/-- Otherwise a file is in the cut or not, as the order is. -/
theorem exists_orders {room : ℕ} (hroom : 0 < room) (hskipped : skipped fs source = false)
    (hreached : ¬ Reached fs source room) :
    ∃ fs₁ fs₂, Reordered fs fs₁ ∧ Reordered fs fs₂ ∧
      ∃ uri, uri ∉ cut fs₁ source room ∧ uri ∈ cut fs₂ source room := by
  unfold Reached at hreached
  push Not at hreached
  obtain ⟨file, hfile, hfirst, hroot, hcount⟩ := hreached
  have hlast := Walk.wayLast_perm (query source.recurse) (entries fs) file.dir
  have hway := Walk.wayFirst_perm (query source.recurse) (entries fs) file.dir
  have h₁ := reorder_reordered hlast
  have h₂ := reorder_reordered hway
  refine ⟨fs.reorder _ hlast, fs.reorder _ hway, h₁, h₂, uriOf file, ?_, ?_⟩
  · have hgathered := collected_gathered (fs.reorder _ hlast) source room
    have hfile' := (h₁.mediaEntries_perm source).mem_iff.mpr hfile
    have hmissed : file ∉ collected (fs.reorder _ hlast) source room := by
      unfold collected
      rw [h₁.rootOf_eq, entries_reorder]
      unfold mediaEntries at hfile hcount
      cases hroot' : rootOf fs source with
      | none => exact List.not_mem_nil
      | some root =>
        rw [hroot'] at hfile hcount hroot
        refine Walk.notMem_gather_wayLast (entries_nodup fs) hfile
          (fun heq => hroot (congrArg some heq.symm)) List.not_mem_nil ?_
        rw [List.length_nil, Nat.zero_add]
        exact hcount
    have hfull : room ≤ (collected (fs.reorder _ hlast) source room).length :=
      hgathered.full.resolve_right fun hall => hmissed (hall ▸ hfile')
    unfold cut
    rw [h₁.skipped_eq, hskipped, if_neg Bool.false_ne_true,
      List.take_append_of_le_length (by rw [pathOrder_length]; exact hfull)]
    intro hmem
    obtain ⟨other, hother, heq⟩ :=
      List.mem_map.mp ((pathOrder_perm _).mem_iff.mp (List.mem_of_mem_take hmem))
    have hsame := uriOf_inj (hgathered.sublist.subset hother) hfile' heq
    exact hmissed (hsame ▸ hother)
  · have hgathered := collected_gathered (fs.reorder _ hway) source room
    have hfound : file ∈ collected (fs.reorder _ hway) source room := by
      unfold collected
      rw [h₂.rootOf_eq, entries_reorder]
      unfold mediaEntries at hfile
      cases hroot' : rootOf fs source with
      | none =>
        rw [hroot'] at hfile
        cases hfile
      | some root =>
        rw [hroot'] at hfile
        exact Walk.mem_gather_wayFirst (entries_nodup fs) hfile hroom
    rw [← pathOrder_congr (h₂.mediaEntries_perm source)] at hfirst
    have htake := Walk.mem_take_of_sublist (pathOrder_sublist hgathered.sublist)
      (pathOrder_nodup _ source) hfirst (mem_pathOrder hfound)
    unfold cut
    rw [h₂.skipped_eq, hskipped, if_neg Bool.false_ne_true, List.take_append]
    exact List.mem_append_left _ htake

/-! ## The playlist -/

/-- What a source should give: its media files in path order, then its urls. -/
def wanted (fs : FileSystem) (source : ScreensaverSource) : List String :=
  pathOrder ((mediaEntries fs source).filter fun file => file.entry.fileType = some .regular) ++
    source.urls

/-- Each source gives what it should, cut at the room that the sources before it leave. -/
structure Contributed (fs : FileSystem) (sources : List ScreensaverSource) (maxItems : ℕ)
    (items : List PlaylistItem) : Prop where
  bounded : ∀ item ∈ items, item.sourceIndex < sources.length
  ordered : items.Pairwise fun a b => a.sourceIndex ≤ b.sourceIndex
  part : ∀ i source, sources[i]? = some source →
    let room := maxItems - (items.filter (·.sourceIndex < i)).length
    let part := items.filter (·.sourceIndex = i)
    let expected := ((wanted fs source).take room).map (source.item i)
    part.Perm expected ∧ (source.shuffle = false → part = expected)

/-- The directories of a source decide what it gives at a room: a path that cannot be resolved
comes without urls, the first files in path order cannot be missed, and special files that look
like media make no difference. -/
structure Determined (fs : FileSystem) (source : ScreensaverSource) (room : ℕ) : Prop where
  resolved : skipped fs source = true → source.urls = []
  reached : Reached fs source room
  regular :
    let all := (pathOrder (mediaEntries fs source) ++ source.urls).take room
    all.Perm ((wanted fs source).take room) ∧
      (source.shuffle = false → all = (wanted fs source).take room)

theorem Reordered.refl (fs : FileSystem) : Reordered fs fs where
  canonicalize := rfl
  isDir := rfl
  readDir := by
    intro dir
    cases fs.readDir dir with
    | none => exact .none
    | some es => exact .some (.refl es)

theorem mediaEntries_of_skipped (h : skipped fs source = true) : mediaEntries fs source = [] := by
  have hroot : rootOf fs source = none := by
    unfold rootOf
    unfold skipped at h
    cases hpath : source.path with
    | none => rfl
    | some path =>
      rw [hpath] at h
      have hnone : fs.canonicalize path = none := Option.isNone_iff_eq_none.mp h
      rw [Option.bind_some, hnone]
      rfl
  unfold mediaEntries
  rw [hroot]

theorem wanted_of_skipped (h : skipped fs source = true) : wanted fs source = source.urls := by
  unfold wanted
  rw [mediaEntries_of_skipped h, List.filter_nil, pathOrder_nil, List.nil_append]

theorem item_injective (source : ScreensaverSource) (i : ℕ) :
    Function.Injective (source.item i) := fun _ _ h => congrArg PlaylistItem.uri h

/-- The items of one source in the playlist. -/
theorem part_of_build (fs : FileSystem) (now : UInt64) (sources : List ScreensaverSource)
    (seed : Option UInt64) (maxItems : ℕ) {i : ℕ} {source : ScreensaverSource}
    (hi : sources[i]? = some source) :
    let part := (buildPlaylistCapped fs now sources seed maxItems).filter (·.sourceIndex = i)
    let expected := (cut fs source (roomAfter (size fs) maxItems sources i)).map (source.item i)
    part.Perm expected ∧ (source.shuffle = false → part = expected) := by
  have hpart := assemble_part (cut_sized fs) 0 (seed.getD now) maxItems hi
  unfold buildPlaylistCapped
  rw [playlistFrom_eq]
  rw [Nat.zero_add] at hpart
  exact hpart

theorem build_eq_assemble (fs : FileSystem) (now : UInt64) (sources : List ScreensaverSource)
    (seed : Option UInt64) (maxItems : ℕ) :
    buildPlaylistCapped fs now sources seed maxItems =
      assemble (cut fs) 0 (seed.getD now) maxItems sources :=
  playlistFrom_eq fs maxItems 0 (seed.getD now) [] sources

theorem cut_zero (fs : FileSystem) (source : ScreensaverSource) : cut fs source 0 = [] := by
  have hlength := cut_sized fs source 0
  rw [Nat.zero_min] at hlength
  exact List.eq_nil_of_length_eq_zero hlength

theorem reached_of_skipped (h : skipped fs source = true) (room : ℕ) : Reached fs source room := by
  intro file hfile
  rw [mediaEntries_of_skipped h] at hfile
  cases hfile

/-- What a determined source gives, in every order. -/
theorem cut_of_determined (h : Reordered fs fs') {room : ℕ}
    (hdetermined : 0 < room → Determined fs source room) :
    cut fs' source room = cut fs source room ∧
      (cut fs source room).Perm ((wanted fs source).take room) ∧
        (source.shuffle = false → cut fs source room = (wanted fs source).take room) := by
  rcases Nat.eq_zero_or_pos room with rfl | hroom
  · rw [cut_zero, cut_zero, List.take_zero]
    exact ⟨rfl, .refl _, fun _ => rfl⟩
  obtain ⟨hresolved, hreached, hregular⟩ := hdetermined hroom
  rw [cut_of_reached h hroom hreached, cut_of_reached (.refl fs) hroom hreached]
  by_cases hskipped : skipped fs source = true
  · rw [if_pos hskipped, wanted_of_skipped hskipped, hresolved hskipped, List.take_nil]
    exact ⟨rfl, .refl _, fun _ => rfl⟩
  · rw [if_neg hskipped]
    exact ⟨rfl, hregular⟩

/-- A source that gives what it should whatever the order is determined. -/
theorem determined_of_part {room i : ℕ} (hroom : 0 < room) {part : List PlaylistItem}
    (hpart : part.Perm ((cut fs source room).map (source.item i)) ∧
      (source.shuffle = false → part = (cut fs source room).map (source.item i)))
    (hwanted : part.Perm (((wanted fs source).take room).map (source.item i)) ∧
      (source.shuffle = false → part = ((wanted fs source).take room).map (source.item i)))
    (hreached : Reached fs source room) : Determined fs source room where
  resolved := by
    intro hskipped
    have hcut : cut fs source room = [] := if_pos hskipped
    have hnone := (hwanted.1.symm.trans hpart.1).length_eq
    rw [hcut, wanted_of_skipped hskipped, List.length_map, List.length_take, List.map_nil,
      List.length_nil] at hnone
    exact List.eq_nil_of_length_eq_zero (by omega)
  reached := hreached
  regular := by
    have hcut := cut_of_reached (.refl fs) hroom hreached
    by_cases hskipped : skipped fs source = true
    · intro all
      have hall : all = (wanted fs source).take room := by
        rw [wanted_of_skipped hskipped]
        unfold all
        rw [mediaEntries_of_skipped hskipped, pathOrder_nil, List.nil_append]
      rw [hall]
      exact ⟨.refl _, fun _ => rfl⟩
    · rw [if_neg hskipped] at hcut
      rw [hcut] at hpart
      intro all
      refine ⟨(List.map_perm_map_iff (item_injective source i)).mp (hpart.1.symm.trans hwanted.1),
        fun hshuffle => ?_⟩
      exact List.map_injective_iff.mpr (item_injective source i)
        ((hpart.2 hshuffle).symm.trans (hwanted.2 hshuffle))

/-- The playlist depends on the files and not on the order of the directories, and is what the
sources should give, just when each source that is reached with room left is determined. -/
theorem playlist_of_files_iff (fs : FileSystem) (now : UInt64) (sources : List ScreensaverSource)
    (seed : Option UInt64) (maxItems : ℕ) :
    let items := buildPlaylistCapped fs now sources seed maxItems
    ((∀ fs', Reordered fs fs' → buildPlaylistCapped fs' now sources seed maxItems = items) ∧
        items.length ≤ maxItems ∧ Contributed fs sources maxItems items) ↔
      ∀ i source, sources[i]? = some source →
        let room := roomAfter (size fs) maxItems sources i
        0 < room → Determined fs source room := by
  intro items
  have hitems : items = assemble (cut fs) 0 (seed.getD now) maxItems sources :=
    build_eq_assemble fs now sources seed maxItems
  have hbefore (i : ℕ) : maxItems - (items.filter (·.sourceIndex < i)).length =
      roomAfter (size fs) maxItems sources i := by
    have h := assemble_before (cut_sized fs) 0 (seed.getD now) maxItems i sources
    rw [Nat.zero_add] at h
    rw [hitems]
    exact h
  constructor
  · rintro ⟨hsame, -, hcontributed⟩ i source hi room hroom
    have hpart := part_of_build fs now sources seed maxItems hi
    have hwanted := hcontributed.part i source hi
    dsimp only at hwanted
    rw [hbefore] at hwanted
    refine determined_of_part hroom hpart hwanted (by_contra fun hreached => ?_)
    have hskipped : skipped fs source = false := by
      by_contra hskipped
      rw [Bool.not_eq_false] at hskipped
      exact hreached (reached_of_skipped hskipped room)
    obtain ⟨fs₁, fs₂, h₁, h₂, uri, hnot, hmem⟩ := exists_orders hroom hskipped hreached
    have hpart₁ := (part_of_build fs₁ now sources seed maxItems hi).1
    have hpart₂ := (part_of_build fs₂ now sources seed maxItems hi).1
    rw [h₁.size_eq, hsame fs₁ h₁] at hpart₁
    rw [h₂.size_eq, hsame fs₂ h₂] at hpart₂
    have hitem := (hpart₂.symm.trans hpart₁).mem_iff.mp (List.mem_map_of_mem hmem)
    exact hnot ((List.mem_map_of_injective (item_injective source i)).mp hitem)
  · intro hdetermined
    refine ⟨fun fs' h => ?_, ?_, ?_, ?_, ?_⟩
    · rw [hitems, build_eq_assemble]
      refine assemble_congr (cut_sized fs) fun i source hi => ?_
      exact (cut_of_determined h (hdetermined i source hi)).1
    · rw [hitems]
      exact assemble_length (cut_sized fs) 0 (seed.getD now) maxItems sources
    · intro item hitem
      rw [hitems] at hitem
      have hindex := ((assemble_index (cut fs) 0 (seed.getD now) maxItems sources).1 item hitem).2
      rw [Nat.zero_add] at hindex
      exact hindex
    · rw [hitems]
      exact (assemble_index (cut fs) 0 (seed.getD now) maxItems sources).2
    · intro i source hi
      obtain ⟨hperm, heq⟩ := part_of_build fs now sources seed maxItems hi
      obtain ⟨-, hcut, hcut'⟩ := cut_of_determined (.refl fs) (hdetermined i source hi)
      dsimp only
      rw [hbefore]
      refine ⟨hperm.trans (hcut.map _), fun hshuffle => ?_⟩
      rw [heq hshuffle, hcut' hshuffle]

/-- A directory with two albums of one picture each. -/
def twoAlbums (albums : List DirEntry) (h : (albums.map (·.name)).Nodup) : FileSystem where
  canonicalize _ := some [.utf8 "pics" (by decide)]
  isDir _ := true
  readDir dir :=
    if dir.length = 1 then some albums
    else if dir.length = 2 then some [⟨.utf8 "1.jpg" (by decide), some .regular⟩]
    else none
  distinct := by
    intro dir entries hread
    split at hread
    · obtain rfl := Option.some.inj hread
      exact h
    · split at hread
      · obtain rfl := Option.some.inj hread
        exact List.nodup_singleton _
      · cases hread

/-- With room for one picture the order of the albums decides which it is. -/
theorem album_order_decides :
    let a : DirEntry := ⟨.utf8 "a" (by decide), some .directory⟩
    let b : DirEntry := ⟨.utf8 "b" (by decide), some .directory⟩
    let source : ScreensaverSource := ⟨some "pics", [], true, false, none, none, none⟩
    let fs := twoAlbums [a, b] (by decide)
    let fs' := twoAlbums [b, a] (by decide)
    Reordered fs fs' ∧
      (buildPlaylistCapped fs 0 [source] (some 0) 1).map (·.uri) = ["/pics/a/1.jpg"] ∧
      (buildPlaylistCapped fs' 0 [source] (some 0) 1).map (·.uri) = ["/pics/b/1.jpg"] := by
  intro a b source fs fs'
  refine ⟨⟨rfl, rfl, fun dir => ?_⟩, by decide +kernel, by decide +kernel⟩
  unfold fs fs' twoAlbums
  dsimp only
  split
  · exact .some (.swap a b [])
  · split
    · exact .some (.refl _)
    · exact .none

end Playlist
end Dormant
