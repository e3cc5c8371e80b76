import Mathlib.Data.String.Basic
import Dormant.Render.Playlist

/-!
# Scanning the sources

`playlist.rs`: the media files of a source's directory in path order and then its urls, cut at the
room that is left, and shuffled where the source asks for it.
-/

namespace Dormant
set_option autoImplicit false

namespace Playlist

/-- A file name: text, which has no separator, or bytes that are not UTF-8. -/
inductive OsName where
  | utf8 (text : String) (noSlash : '/' ∉ text.toList)
  | other (bytes : List UInt8)
  deriving DecidableEq

/-- An absolute path, by its components. -/
abbrev Path := List OsName

def pathChars : Path → Option (List Char)
  | [] => some []
  | .utf8 text _ :: rest => (pathChars rest).map fun chars => '/' :: (text.toList ++ chars)
  | .other _ :: _ => none

/-- `Path::to_str`, below the root directory. -/
def toStr (path : Path) : Option String := (pathChars path).map String.ofList

inductive FileType where
  | directory
  | symlink
  | regular
  | special
  deriving DecidableEq, Repr

/-- An entry, with its type where that can be found out. -/
structure DirEntry where
  name : OsName
  fileType : Option FileType
  deriving DecidableEq

/-- What the scan asks of the file system; the entries stand in the order they are read in. -/
structure FileSystem where
  canonicalize : String → Option Path
  isDir : Path → Bool
  readDir : Path → Option (List DirEntry)
  distinct : ∀ dir entries, readDir dir = some entries → (entries.map (·.name)).Nodup

structure ScreensaverSource where
  path : Option String
  urls : List String
  recurse : Bool
  shuffle : Bool
  order : Option String
  wearTag : Option String
  imageDuration : Option ℕ

section
variable (imageDuration : Option ℕ) (wearTag : Option String) (sourceIndex : ℕ)
  (order : PlaylistOrder)

def playlistItem (uri : String) : PlaylistItem :=
  ⟨uri, imageDuration, mediaKind uri, videoWearTag uri wearTag, sourceIndex, order⟩

/-- The loop body of `scan_dir`, where `scan` is the scan one level below. -/
def scanEntry (scan : Path → List PlaylistItem → List PlaylistItem) (recurse : Bool) (dir : Path)
    (out : List PlaylistItem) (entry : DirEntry) : List PlaylistItem :=
  match entry.fileType with
  | none => out
  | some .symlink => out
  | some .directory => if recurse then scan (dir ++ [entry.name]) out else out
  | some _ =>
    match toStr (dir ++ [entry.name]) with
    | none => out
    | some path =>
      if hasMediaExtension path then
        out ++ [playlistItem imageDuration wearTag sourceIndex order path]
      else out

/-- The first number is how many levels may still be entered. -/
def scanDir (fs : FileSystem) (recurse : Bool) (limit : ℕ) :
    ℕ → Path → List PlaylistItem → List PlaylistItem
  | 0, _, out => out
  | levels + 1, dir, out =>
    if limit ≤ out.length then out
    else
      match fs.readDir dir with
      | none => out
      | some entries =>
        entries.foldl
          (scanEntry imageDuration wearTag sourceIndex order (scanDir fs recurse limit levels)
            recurse dir) out

/-- The loop over the urls, after `taken` items. -/
def pushUrls (maxItems taken : ℕ) : List String → List PlaylistItem → List PlaylistItem
  | [], urlItems => urlItems
  | url :: urls, urlItems =>
    if maxItems ≤ taken + urlItems.length then urlItems
    else
      pushUrls maxItems taken urls
        (urlItems ++ [playlistItem imageDuration wearTag sourceIndex order url])

end

def ScreensaverSource.itemOrder (source : ScreensaverSource) : PlaylistOrder :=
  if source.order = some "wear-even" then .wearEven
  else if source.shuffle then .shuffle else .sequential

def uriLe (a b : PlaylistItem) : Bool := decide (a.uri ≤ b.uri)

/-- What a source gives after `taken` items, before its shuffle, or `none` where it is skipped. -/
def sourceItems (fs : FileSystem) (maxItems taken sourceIndex : ℕ) (source : ScreensaverSource) :
    Option (List PlaylistItem) :=
  let remaining := maxItems - taken
  let combine (pathItems : List PlaylistItem) : List PlaylistItem :=
    let pathItems := pathItems.mergeSort uriLe
    let urlItems := pushUrls source.imageDuration source.wearTag sourceIndex source.itemOrder
      maxItems (taken + pathItems.length) source.urls []
    (pathItems ++ urlItems).take remaining
  match source.path with
  | none => some (combine [])
  | some path =>
    match fs.canonicalize path with
    | none => none
    | some root =>
      if fs.isDir root then
        some (combine (scanDir source.imageDuration source.wearTag sourceIndex source.itemOrder fs
          source.recurse remaining (maxRecurseDepth + 1) root []))
      else some (combine [])

/-- The swaps at the indices from the first number down to 1. -/
def shuffleFrom : ℕ → UInt64 → Array PlaylistItem → UInt64 × Array PlaylistItem
  | 0, rng, items => (rng, items)
  | i + 1, rng, items =>
    let drawn := splitmix64Next rng
    shuffleFrom i drawn.1 (items.swapIfInBounds (i + 1) (drawn.2.toNat % (i + 2)))

def shuffle (source : ScreensaverSource) (rng : UInt64) (items : List PlaylistItem) :
    UInt64 × List PlaylistItem :=
  if source.shuffle = true ∧ 1 < items.length then
    let shuffled := shuffleFrom (items.length - 1) rng items.toArray
    (shuffled.1, shuffled.2.toList)
  else (rng, items)

/-- The loop over the sources. -/
def playlistFrom (fs : FileSystem) (maxItems : ℕ) :
    ℕ → UInt64 → List PlaylistItem → List ScreensaverSource → List PlaylistItem
  | _, _, items, [] => items
  | sourceIndex, rng, items, source :: sources =>
    if maxItems ≤ items.length then items
    else
      match sourceItems fs maxItems items.length sourceIndex source with
      | none => playlistFrom fs maxItems (sourceIndex + 1) rng items sources
      | some srcItems =>
        let shuffled := shuffle source rng srcItems
        playlistFrom fs maxItems (sourceIndex + 1) shuffled.1 (items ++ shuffled.2) sources

/-- Without a seed the clock gives one. -/
def buildPlaylistCapped (fs : FileSystem) (now : UInt64) (sources : List ScreensaverSource)
    (seed : Option UInt64) (maxItems : ℕ) : List PlaylistItem :=
  playlistFrom fs maxItems 0 (seed.getD now) [] sources

end Playlist
end Dormant
