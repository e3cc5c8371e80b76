import Mathlib.Data.List.Basic

/-!
# Playlist items

The data of `playlist.rs`: what an item of the screensaver's playlist is, and how its media class
is read off its name.
-/

namespace Dormant
set_option autoImplicit false

namespace Playlist

def imageExtensions : List String := ["jpg", "jpeg", "png", "webp", "bmp", "gif"]

def videoExtensions : List String := ["mp4", "mkv", "webm", "mov", "avi", "m4v"]

def maxRecurseDepth : ℕ := 8

def maxPlaylistItems : ℕ := 10000

/-- The next state and the next number. -/
@[irreducible]
def splitmix64Next (state : UInt64) : UInt64 × UInt64 :=
  let state := state + 0x9e3779b97f4a7c15
  let z := state
  let z := (z ^^^ (z >>> 30)) * 0xbf58476d1ce4e5b9
  let z := (z ^^^ (z >>> 27)) * 0x94d049bb133111eb
  (state, z ^^^ (z >>> 31))

inductive MediaKind where
  | image
  | video
  deriving DecidableEq, Repr

inductive PlaylistOrder where
  | sequential
  | shuffle
  | wearEven
  deriving DecidableEq, Repr

inductive WearTag where
  | dark
  | medium
  | bright
  deriving DecidableEq, Repr

structure PlaylistItem where
  uri : String
  imageDuration : Option ℕ
  mediaKind : MediaKind
  wearTag : Option WearTag
  sourceIndex : ℕ
  order : PlaylistOrder
  deriving DecidableEq, Repr

/-- `Path::file_name`: the last component, where `.` and empty components do not count. -/
def fileName (path : String) : Option (List Char) :=
  match ((path.toList.splitOn '/').filter fun part => part ≠ [] ∧ part ≠ ['.']).getLast? with
  | some name => if name = ['.', '.'] then none else some name
  | none => none

/-- `Path::extension`: what follows the last dot of the name, unless that dot is the first
character. -/
def extension (path : String) : Option String := do
  let name ← fileName path
  let after := (name.reverse.takeWhile (· ≠ '.')).reverse
  let before := (name.reverse.dropWhile (· ≠ '.')).drop 1
  if before = [] then none else some (String.ofList after)

def toAsciiLowercase (s : String) : String := String.ofList (s.toList.map Char.toLower)

/-- The test of the scanner. -/
def hasMediaExtension (path : String) : Bool :=
  ((extension path).map toAsciiLowercase).any
    fun ext => imageExtensions.contains ext || videoExtensions.contains ext

def mediaKind (uri : String) : MediaKind :=
  if ((extension uri).map toAsciiLowercase).any videoExtensions.contains then .video else .image

def videoWearTag (uri : String) (tag : Option String) : Option WearTag :=
  if mediaKind uri = .video then
    match tag with
    | some "dark" => some .dark
    | some "medium" => some .medium
    | some "bright" => some .bright
    | _ => none
  else none

example : extension "/pics/.hidden.JPG" = some "JPG" ∧ extension "/pics/.jpg" = none ∧
    extension "/pics/jpg" = none := by decide

end Playlist
end Dormant
