import Dormant.Foundations.Checks
import Dormant.Web.PatchCheck

/-!
# What the gates let through

For each patch of an accepted batch, what its checks say of it and of the document before the batch.
-/

namespace Dormant.ConfigPatch
set_option autoImplicit false

open Checks ConfigApply

variable {doc : Document} {redacted : List (List String)} {path : List String}
variable {collection id : String}

/-- What is known of the path of a set or a removal. -/
structure Passed (doc : Document) (redacted : List (List String)) (path : List String) : Prop where
  nonempty : path ≠ []
  redacted : ∀ r ∈ redacted, r ≠ [] → ¬ r <+: path ∧ ¬ path <+: r
  entity : ∀ c id rest, path = c :: id :: rest → c ∈ collections → entityExists doc c id = true

theorem checkRedacted_ok (h : checkRedacted path redacted = .ok ()) :
    ∀ r ∈ redacted, r ≠ [] → ¬ r <+: path ∧ ¬ path <+: r := by
  intro r hr hne
  have hcheck := forM_eq_ok.mp h r hr
  rw [if_neg (by simpa using hne)] at hcheck
  obtain ⟨hunder, hcheck⟩ := throwIf_eq_ok.mp hcheck
  obtain ⟨habove, -⟩ := throwIf_eq_ok.mp hcheck
  rw [ List.isPrefixOf_iff_prefix] at hunder habove
  exact ⟨hunder, habove⟩

theorem checkEntityExistence_ok (h : checkEntityExistence path doc = .ok ()) :
    ∀ c id rest, path = c :: id :: rest → c ∈ collections → entityExists doc c id = true := by
  rintro c id rest rfl hc
  unfold checkEntityExistence checkCollectionEntity at h
  dsimp only at h
  rw [if_neg (by simpa using hc)] at h
  split at h
  · cases h
  · rename_i hnone
    split at hnone
    · assumption
    · cases hnone

theorem checkPath_ok {value : Option Json} (h : checkPath path value doc redacted = .ok ()) :
    Passed doc redacted path := by
  obtain ⟨-, -, h⟩ := bind_eq_ok.mp h
  have hne : path ≠ [] := by
    rintro rfl
    cases h
  split at h
  · cases h
  · cases h
  · obtain ⟨-, -, h⟩ := bind_eq_ok.mp (mapError_eq_ok.mp h)
    obtain ⟨_, hredacted, hexistence⟩ := bind_eq_ok.mp h
    exact ⟨hne, checkRedacted_ok hredacted, checkEntityExistence_ok hexistence⟩

/-- What is known of an entity that is created. -/
structure Creatable (doc : Document) (collection id : String) (value : Json) : Prop where
  known : collection ∈ collections
  absent : entityExists doc collection id = false
  fields : ∃ members allowed, value = .object members ∧
    creatableFields.lookup collection = some allowed ∧ ∀ member ∈ members, member.1 ∈ allowed

theorem checkCreateEntity_ok {value : Json}
    (h : checkCreateEntity collection id value doc = .ok ()) :
    Creatable doc collection id value := by
  obtain ⟨hknown, hid⟩ := throwIf_eq_ok.mp h
  obtain ⟨_, -, hexists⟩ := bind_eq_ok.mp hid
  obtain ⟨habsent, hfields⟩ := throwIf_eq_ok.mp hexists
  refine ⟨by simpa using hknown, by simpa using habsent, ?_⟩
  cases hallowed : creatableFields.lookup collection with
  | none =>
    rw [hallowed] at hfields
    cases hfields
  | some allowed =>
    rw [hallowed] at hfields
    cases value with
    | object members =>
      refine ⟨members, allowed, rfl, rfl, fun member hmember => ?_⟩
      obtain ⟨hfield, -⟩ := throwIf_eq_ok.mp (forM_eq_ok.mp hfields member hmember)
      simpa using hfield
    | _ => cases hfields

theorem checkDeleteEntity_ok (h : checkDeleteEntity collection id doc = .ok ()) :
    collection ∈ collections ∧ entityExists doc collection id = true := by
  obtain ⟨hknown, h⟩ := throwIf_eq_ok.mp h
  obtain ⟨_, -, h⟩ := bind_eq_ok.mp h
  refine ⟨by simpa using hknown, ?_⟩
  split at h
  · assumption
  · cases h

end Dormant.ConfigPatch
