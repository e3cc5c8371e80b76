import Dormant.Web.Conversion

/-!
# What a batch stores

What a patch stores can be read back, as long as no later patch is at its place, above or below it.
What is neither above nor below the place of a patch stays, with its comments.
-/

namespace Dormant.ConfigPatch
set_option autoImplicit false

open Checks ConfigApply Places

/-- The values of the patch are such that TOML has them. -/
def Exact : Patch Payload → Prop
  | .set _ value => value.json.All Json.Exact
  | .createEntity _ _ value => value.json.FieldsExact
  | .remove _ => True
  | .deleteEntity _ _ => True

/-- What is read at the place of the patch is what it says. -/
def Reads : Patch Payload → Option Node → Prop
  | .set _ value, node => node.map (·.2.toJson) = some value.json
  | .createEntity _ _ value, node => node.map (·.2.toJson) = some value.json.withoutNulls
  | .remove _, node => node = none
  | .deleteEntity _ _, node => node = none

theorem Leaves.reads {patch : Patch Payload} {node : Option Node} (h : Leaves patch node)
    (hexact : Exact patch) : Reads patch node := by
  cases h with
  | set converts =>
    rename_i path value decor isAot item suffix
    have hitem : (item.setSuffix suffix).toJson = value.json :=
      (toJson_setSuffix item suffix).trans (exact_newItem value.proper hexact converts)
    exact congrArg some hitem
  | createEntity =>
    rename_i collection id value
    exact congrArg some (exact_table value.proper hexact)
  | remove => exact rfl
  | deleteEntity => exact rfl

structure Stored (doc doc' : Document) (patches : List (Patch Payload)) : Prop where
  reads : ∀ before patch after, patches = before ++ patch :: after → Exact patch →
    (∀ later ∈ after, ¬ Overlap (patchPlace patch) (patchPlace later)) →
      Reads patch (doc'.root.at (patchPlace patch))
  kept : ∀ place, (∀ patch ∈ patches, ¬ Overlap place (patchPlace patch)) →
    doc'.root.at place = doc.root.at place
  trailing : doc'.trailing = doc.trailing
  notNull : ∀ path value, .set path value ∈ patches → value.json.All Json.NotNull

variable {doc doc' : Document} {patches : List (Patch Payload)}

theorem applyPatches_root (h : applyPatches doc patches = .ok doc') :
    patches.foldlM applyPatch doc.root = .ok doc'.root ∧ doc'.trailing = doc.trailing := by
  obtain ⟨root, hroot, h⟩ := bind_eq_ok.mp h
  cases h
  exact ⟨hroot, rfl⟩

theorem applied_stored (h : applyPatches doc patches = .ok doc') : Stored doc doc' patches := by
  obtain ⟨hroot, htrailing⟩ := applyPatches_root h
  refine ⟨fun before patch after hpatches hexact hlater => ?_, fun place => ?_, htrailing,
    fun path value hmem => ?_⟩
  · rw [hpatches] at hroot
    exact (applyPatches_leaves hroot hlater).reads hexact
  · exact applyPatches_kept hroot
  · obtain ⟨before, after, rfl⟩ := List.append_of_mem hmem
    obtain ⟨mid, -, hrest⟩ := foldlM_append_ok hroot
    obtain ⟨mid', hpatch, -⟩ := bind_eq_ok.mp hrest
    have hleaves := (applyPatch_spec hpatch).2
    generalize mid'.at _ = node at hleaves
    cases hleaves with
    | set converts => exact notNull_newItem converts

/-! ## A display with a ladder -/

def text (value : String) : Item := .scalar plain (.string value)

def entry (key : String) (item : Item) : String × Node := (key, plain, item)

def ladderDoc : Document where
  root := [entry "zones" (.table plain []), entry "displays" (.table plain
    [entry "tv" (.table plain [entry "ladder" (.arrayOfTables
      [.table plain [entry "kind" (text "power_off"), entry "dwell" (text "1m")]])])])]
  trailing := none

def ladderPath : List String := ["displays", "tv", "ladder"]

def dwellPath : List String := ladderPath ++ ["0", "dwell"]

def ladderJson (dwell : String) : Json :=
  .array [.object [("kind", .string "power_off"), ("dwell", .string dwell)]]

def textPayload (value : String) : Payload := ⟨.string value, trivial⟩

def ladderPayload : Payload where
  json := ladderJson "5m"
  proper := by
    refine ⟨trivial, ⟨?_, trivial, trivial, trivial⟩, trivial⟩
    exact (by decide : ["kind", "dwell"].Nodup)

theorem ladder_stored : ∃ doc', applyPatches ladderDoc
    [.set dwellPath (textPayload "2m"), .set ["daemon", "log_level"] (textPayload "debug")] =
      .ok doc' ∧ Stored ladderDoc doc'
        [.set dwellPath (textPayload "2m"), .set ["daemon", "log_level"] (textPayload "debug")] :=
  ⟨_, rfl, applied_stored rfl⟩

/-- The batch is accepted, and something else is read at the place after it. -/
def Misses (doc : Document) (patches : List (Patch Payload)) (place : List Segment)
    (wanted : Option Json) : Prop :=
  checkPatches patches doc [] = .ok () ∧ ∃ doc', applyPatches doc patches = .ok doc' ∧
    (doc'.root.at place).map (·.2.toJson) ≠ wanted

def nullInside : Json := .object [("weights", .object [("a", .null)])]

/-- A later patch may be below the place or at it. Without one, a large integer becomes a float, and
a field of a new entity with a null inside is dropped. -/
theorem not_all_stored :
    Misses ladderDoc [.set ladderPath ladderPayload, .set dwellPath (textPayload "2m")]
        (pathPlace ladderPath) (some ladderPayload.json) ∧
      Misses ladderDoc [.remove dwellPath, .set dwellPath (textPayload "2m")]
        (pathPlace dwellPath) none ∧
      Misses ladderDoc [.set ["daemon", "web_port"] ⟨.number (.posInt 9223372036854775808), trivial⟩]
        (pathPlace ["daemon", "web_port"]) (some (.number (.posInt 9223372036854775808))) ∧
      ∃ proper, Misses ladderDoc [.createEntity "zones" "desk" ⟨nullInside, proper⟩]
        [.key "zones", .key "desk"] (some nullInside) := by
  refine ⟨⟨rfl, _, rfl, fun h => ?_⟩, ⟨rfl, _, rfl, fun h => ?_⟩, ⟨rfl, _, rfl, fun h => ?_⟩,
    ⟨?_, ⟨?_, trivial, trivial⟩, trivial⟩, rfl, _, rfl, fun h => ?_⟩
  · have hread : some (ladderJson "2m") = some (ladderJson "5m") := h
    simp [ladderJson] at hread
  · have hread : some (Json.string "2m") = none := h
    cases hread
  · have hread : some (Json.number (.float (JsonNumber.posInt 9223372036854775808).asF64)) =
        some (.number (.posInt 9223372036854775808)) := h
    cases hread
  · exact (by decide : ["weights"].Nodup)
  · exact (by decide : ["a"].Nodup)
  · have hread : some (Json.object []) = some nullInside := h
    simp [nullInside] at hread

end Dormant.ConfigPatch
