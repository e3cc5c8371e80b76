import Dormant.Web.EntityRuns

/-!
# What an accepted batch cannot touch

Values at locked leaves and under redacted paths stay as they are, in the batches in which, besides,
no set replaces what is locked inside a value, and no index hides a redacted path behind zeros.
-/

namespace Dormant.ConfigPatch
set_option autoImplicit false

open Checks ConfigApply Places

/-- Locked and redacted values of entities that stay are as they were, entities come and go by their
own patches, and a new entity has creatable fields only. -/
structure Untouched (doc doc' : Document) (redacted : List (List String))
    (patches : List (Patch Payload)) : Prop where
  values : ∀ c ∈ collections, ∀ id, .deleteEntity c id ∉ patches → ∀ rest,
    Locked (.key c :: .key id :: rest) ∨ Redacted redacted (.key c :: .key id :: rest) →
      (doc.root.at (.key c :: .key id :: rest)).isSome →
        doc'.root.at (.key c :: .key id :: rest) = doc.root.at (.key c :: .key id :: rest)
  entities : ∀ c ∈ collections, ∀ id, Entity doc'.root c id ↔
    Entity doc.root c id ∧ .deleteEntity c id ∉ patches ∨
      ∃ value, .createEntity c id value ∈ patches
  created : ∀ c id value, .createEntity c id value ∈ patches → ∀ field,
    (doc'.root.at [.key c, .key id, .key field]).isSome → CreatableField c field

variable {doc doc' : Document} {redacted : List (List String)} {path : List String}
variable {place : List Segment} {before patches : List (Patch Payload)} {patch : Patch Payload}

/-! ## Locked and redacted places -/

theorem redacted_place (hpassed : Passed doc redacted path)
    (hharmless : Harmless doc redacted before patch) (hpath : patchPath patch = some path) :
    ∀ r ∈ redacted, r ≠ [] → ¬ r <+: (pathPlace path).map Segment.text ∧
      ¬ (pathPlace path).map Segment.text <+: r := by
  by_cases htext : (pathPlace path).map Segment.text = path
  · rw [htext]
    exact hpassed.redacted
  · exact hharmless.notHidden path hpath htext

/-- No set and no removal is at a locked or redacted place, above or below it. -/
theorem walk_apart (hpassed : Passed doc redacted path)
    (hharmless : Harmless doc redacted before patch) (hpath : patchPath patch = some path)
    (hsome : (doc.root.at place).isSome) (h : Locked place ∨ Redacted redacted place) :
    ¬ Overlap place (pathPlace path) := by
  intro hover
  obtain h | ⟨r, hr, hne, hunder⟩ := h
  · obtain hover | hover := hover
    · obtain ⟨leaf, hleaf, hlast⟩ := h
      have hmem : .key leaf ∈ place := List.mem_of_getLast? hlast
      exact hharmless.noneThrough path hpath leaf hleaf (mem_of_key_mem (hover.subset hmem))
    · rw [hharmless.noneInside path hpath place hover h] at hsome
      cases hsome
  · obtain ⟨hnotUnder, hnotAbove⟩ := redacted_place hpassed hharmless hpath r hr hne
    obtain hover | hover := hover
    · exact hnotUnder (hunder.trans (hover.map Segment.text))
    · obtain h | h := List.prefix_or_prefix_of_prefix hunder (hover.map Segment.text)
      · exact hnotUnder h
      · exact hnotAbove h

theorem locked_untouched (hcheck : checkPatches patches doc redacted = .ok ())
    (hharmless : HarmlessBatch doc redacted patches)
    (happly : applyPatches doc patches = .ok doc') : Untouched doc doc' redacted patches := by
  have hchecked := forM_eq_ok.mp hcheck
  obtain ⟨root, hroot, hdoc⟩ := bind_eq_ok.mp happly
  cases hdoc
  have hinv : Inv doc ([] ++ patches) root := inv_start.run hchecked hharmless hroot
  rw [List.nil_append] at hinv
  refine ⟨fun c hc id hkept rest hlocked hsome => ?_, hinv.entities, fun c id value hmem =>
    (hinv.created c id value hmem).2.2⟩
  refine applyPatches_kept hroot fun patch hpatch hover => ?_
  obtain ⟨before, after, hsplit⟩ := List.append_of_mem hpatch
  cases hpath : patchPath patch with
  | some path =>
    rw [walk_place hpath] at hover
    exact walk_apart (passed_of_check (hchecked patch hpatch) hpath)
      (hharmless before patch after hsplit) hpath hsome hlocked hover
  | none =>
    cases patch with
    | set path value => cases hpath
    | remove path => cases hpath
    | createEntity c' id' value =>
      obtain ⟨rfl, rfl⟩ := overlap_entities hover
      exact (hinv.created c id value hpatch).2.1
        (find_isSome_above (List.prefix_append [Segment.key c, .key id] rest) hsome)
    | deleteEntity c' id' =>
      obtain ⟨rfl, rfl⟩ := overlap_entities hover
      exact hkept hpatch

/-! ## A sensor in a table, and one in an inline table -/

def sensorEntries : Table :=
  [("type", plain, .scalar plain (.string "mqtt")), ("topic", plain, .scalar plain (.string "desk"))]

def sensorsDoc (sensor : Item) : Document where
  root := [("sensors", plain, .table plain [("desk", plain, sensor), ("sofa", plain, sensor)])]
  trailing := none

def topicPath : List String := ["sensors", "desk", "topic"]

def newTopic : Payload := ⟨.string "window", trivial⟩

theorem harmless_entity {patch : Patch Payload} (hpath : patchPath patch = none) :
    Harmless doc redacted before patch where
  notCollection := by simp [hpath]
  notEntity := by
    rintro c - id rfl
    cases hpath
  noneInside := by simp [hpath]
  noneThrough := by simp [hpath]
  notHidden := by simp [hpath]
  notRevived := by simp [hpath]

theorem topic_harmless :
    Harmless (sensorsDoc (.table plain sensorEntries)) [["sensors", "sofa"]]
      [.deleteEntity "sensors" "sofa"] (.set topicPath newTopic) where
  notCollection := by
    intro c _ hpath
    cases hpath
  notEntity := by
    intro c _ id hpath
    cases hpath
  noneInside := by
    rintro path hpath place ⟨rest, rfl⟩ hlocked
    cases hpath
    cases rest with
    | nil =>
      obtain ⟨leaf, hleaf, hlast⟩ := hlocked
      cases hlast
      exact absurd hleaf (by decide)
    | cons segment rest => cases segment <;> rfl
  noneThrough := by
    rintro path hpath leaf hleaf
    cases hpath
    revert leaf
    decide
  notHidden := by
    rintro path hpath htext
    cases hpath
    exact absurd rfl htext
  notRevived := by
    rintro path hpath c id hinside hmem
    cases hpath
    cases List.mem_singleton.mp hmem
    exact absurd hinside (by decide)

theorem topic_untouched : ∃ doc', applyPatches (sensorsDoc (.table plain sensorEntries))
    [.deleteEntity "sensors" "sofa", .set topicPath newTopic] = .ok doc' ∧
      Untouched (sensorsDoc (.table plain sensorEntries)) doc' [["sensors", "sofa"]]
        [.deleteEntity "sensors" "sofa", .set topicPath newTopic] := by
  have hharmless : HarmlessBatch (sensorsDoc (.table plain sensorEntries)) [["sensors", "sofa"]]
      [.deleteEntity "sensors" "sofa", .set topicPath newTopic] := by
    intro before patch after hsplit
    match before, hsplit with
    | [], hsplit =>
      cases hsplit
      exact harmless_entity rfl
    | [_], hsplit =>
      cases hsplit
      exact topic_harmless
    | _ :: _ :: before, hsplit => cases before <;> cases hsplit
  exact ⟨_, rfl, locked_untouched rfl hharmless rfl⟩

/-- The type of the sensor is gone. -/
theorem inline_entity_replaced : ¬ ∀ doc redacted patches doc',
    checkPatches patches doc redacted = .ok () → applyPatches doc patches = .ok doc' →
      Untouched doc doc' redacted patches := by
  intro h
  have huntouched := h (sensorsDoc (.inlineTable plain sensorEntries)) []
    [.set ["sensors", "desk"] newTopic] _ rfl rfl
  have hvalue := huntouched.values "sensors" (by decide) "desk" (by simp) [.key "type"]
    (.inl ⟨"type", by decide, rfl⟩) rfl
  have hlost : none = some (plain, Item.scalar plain (.string "mqtt")) := hvalue
  cases hlost

end Dormant.ConfigPatch
