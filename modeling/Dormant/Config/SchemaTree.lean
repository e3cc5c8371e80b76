import Dormant.Config.KnownKeys

/-!
# The known keys as a tree

The table of known keys read by segments: each of its levels is a path on which an empty segment
stands for an arbitrary id. `InTree` is the tree this gives, with an arbitrary child below a
collection and below the weights of a zone.
-/

namespace Dormant.Schema
set_option autoImplicit false

def pattern (path : Key) : List (Option Key) :=
  if path.isEmpty then []
  else (path.splitOn '.').map fun segment => if segment.isEmpty then none else some segment

def matchesPattern : List (Option Key) → List Key → Bool
  | [], [] => true
  | none :: names, _ :: path => matchesPattern names path
  | some name :: names, segment :: path => name == segment && matchesPattern names path
  | _, _ => false

/-- The known keys of the section at a path. -/
def sectionKeys (path : List Key) : Option (List Key) :=
  (knownKeys.find? fun level => matchesPattern (pattern level.path) path).map (·.keys)

def sensors : Key := chars "sensors"
def zones : Key := chars "zones"
def displays : Key := chars "displays"
def weights : Key := chars "weights"
def ladder : Key := chars "ladder"
def screensaver : Key := chars "screensaver"
def source : Key := chars "source"
def blankData : Key := chars "blank_data"
def wakeData : Key := chars "wake_data"

/-- The children are arbitrary ids. -/
def AnyChild (path : List Key) : Prop :=
  (∃ c ∈ collections, path = [c]) ∨ ∃ zone, path = [zones, zone, weights]

def KnownChild (path : List Key) (key : Key) : Prop :=
  AnyChild path ∨ ∃ keys ∈ sectionKeys path, key ∈ keys

inductive InTree : List Key → Prop where
  | root : InTree []
  | child {path : List Key} {key : Key} (hpath : InTree path) (hkey : KnownChild path key) :
      InTree (path ++ [key])

/-- The path is at or below the free-form data of a display. -/
def UnderData (path : List Key) : Prop :=
  ∃ id rest, path = displays :: id :: blankData :: rest ∨ path = displays :: id :: wakeData :: rest

/-- The table at the path is a section of the tree or part of free-form data. -/
def Below (path : List Key) : Prop :=
  InTree path ∧ (AnyChild path ∨ sectionKeys path ≠ none) ∨ UnderData path

/-- The two arrays of tables of a display. -/
def ArrayOfTables (path : List Key) : Prop :=
  ∃ id, path = [displays, id, ladder] ∨ path = [displays, id, screensaver, source]

/-- A path of the tree with an index behind an array of tables. -/
def Indexed (path : List Key) : Prop :=
  ∃ before index key rest, ArrayOfTables before ∧ isDigitSegment index = true ∧
    path = before ++ index :: key :: rest ∧ InTree (before ++ key :: rest)

def flatten (path : List Key) : Key := path.foldl joined []

/-! ## Where a value stands -/

/-- `u` stands in `v` at a path. The items of an array stand where the array stands. -/
inductive Stands (v : Value) : List Key → Value → Prop where
  | root : Stands v [] v
  | key {path : List Key} {entries : List (Key × Value)} {key : Key} {val : Value}
      (htable : Stands v path (.table entries)) (hentry : (key, val) ∈ entries) :
      Stands v (path ++ [key]) val
  | item {path : List Key} {items : List Value} {val : Value}
      (harray : Stands v path (.array items)) (hitem : val ∈ items) : Stands v path val

/-- A table that is the value of a key, or an item of an array that is the value of a key other
than an id. -/
inductive Direct (v : Value) : List Key → List (Key × Value) → Prop where
  | root {entries : List (Key × Value)} (htable : v = .table entries) : Direct v [] entries
  | table {path : List Key} {entries below : List (Key × Value)} {key : Key}
      (htable : Direct v path entries) (hentry : (key, .table below) ∈ entries) :
      Direct v (path ++ [key]) below
  | item {path : List Key} {entries below : List (Key × Value)} {key : Key} {items : List Value}
      (htable : Direct v path entries) (hentry : (key, .array items) ∈ entries)
      (hitem : .table below ∈ items) (hid : ¬ AnyChild path) : Direct v (path ++ [key]) below

/-! ## Exactness -/

/-- A key that stands below known sections is reported just when it is not of the tree. -/
def ExactTree (v : Value) : Prop :=
  ∃ results, collectUnknownKeys v = some results ∧
    ∀ path entries key val, Stands v path (.table entries) → (key, val) ∈ entries → Below path →
      (⟨flatten (path ++ [key]), key⟩ ∈ results ↔
        ¬ InTree (path ++ [key]) ∧ ¬ UnderData path)

/-- A path is known just when it is of the tree, but for an index. -/
def ExactPath (path : List Key) : Prop :=
  ∃ known, isKnownConfigPath path = some known ∧
    (known = true ↔ path ≠ [] ∧ (InTree path ∨ Indexed path))

/-! ## What a configuration uses -/

def TreeId (v : Value) (id : Key) : Prop := ∃ c ∈ collections, ∃ u, Stands v [c, id] u

def TreeMember (v : Value) (member : Key) : Prop :=
  ∃ zone u, Stands v [zones, zone, weights, member] u

/-- A table of a known section is in an array that is the whole value or an entity, or directly in
an array. -/
def Stray (v : Value) : Prop :=
  ∃ path entries, InTree path ∧ (AnyChild path ∨ sectionKeys path ≠ none) ∧
    Stands v path (.table entries) ∧ ¬ Direct v path entries

/-- The key begins with `displays` and, right behind it, a character of several bytes. -/
def CutKey (key : Key) : Prop := ∃ c rest, key = displays ++ c :: rest ∧ c.utf8Size ≠ 1

/-- A top-level key that holds a table is of this kind. The empty key adds nothing to a path. -/
def Cut (v : Value) : Prop :=
  ∃ n key entries, Direct v (List.replicate n [] ++ [key]) entries ∧ CutKey key

def PathId (path : List Key) (id : Key) : Prop := ∃ c ∈ collections, ∃ rest, path = c :: id :: rest

def PathMember (path : List Key) (member : Key) : Prop :=
  ∃ zone rest, path = zones :: zone :: weights :: member :: rest

/-- Two indices in a row behind an array of tables. -/
def Twice (path : List Key) : Prop :=
  ∃ before index again key rest, ArrayOfTables before ∧ isDigitSegment index = true ∧
    isDigitSegment again = true ∧ path = before ++ index :: again :: key :: rest

/-- What the trees and the paths may use: ids of entities and of the weights of a zone, tables in
stray arrays, top-level keys that the lookup cuts, doubled indices. -/
structure Scope where
  id : Key → Prop
  member : Key → Prop
  stray : Prop
  cut : Prop
  twice : Prop

namespace Scope

structure AdmitsTree (s : Scope) (v : Value) : Prop where
  ids : ∀ id, TreeId v id → s.id id
  members : ∀ member, TreeMember v member → s.member member
  stray : Stray v → s.stray
  cut : Cut v → s.cut

structure AdmitsPath (s : Scope) (path : List Key) : Prop where
  ids : ∀ id, PathId path id → s.id id
  members : ∀ member, PathMember path member → s.member member
  twice : Twice path → s.twice

def Exact (s : Scope) : Prop :=
  (∀ v, s.AdmitsTree v → ExactTree v) ∧ ∀ path, s.AdmitsPath path → ExactPath path

end Scope

/-- The id has no dot and is not a structural name. -/
def PlainId (id : Key) : Prop := '.' ∉ id ∧ id ∉ [weights, ladder, source]

/-- The member does not end like the weights of a zone. -/
def PlainMember (member : Key) : Prop :=
  member ≠ weights ∧ isWeightsLevel member = false

/-- Ids are plain; with an id there is no doubled index and members are plain; nothing stray, and
nothing cut. -/
structure Scope.Sound (s : Scope) : Prop where
  stray : ¬ s.stray
  cut : ¬ s.cut
  id : ∀ id, s.id id → PlainId id
  twice : ∀ id, s.id id → ¬ s.twice
  member : ∀ id member, s.id id → s.member member → PlainMember member

end Dormant.Schema
