import Dormant.Web.PatchPlaces

/-!
# Where paths lead

The place of a path has the path's segments, except that an index before the last one is a number.
-/

namespace Dormant.ConfigPatch
set_option autoImplicit false

open Places

variable {root : Table} {c id : String} {path : List String} {place : List Segment}

theorem getLast?_cons_some (a : String) (p : List String) :
    ∃ last, (a :: p).getLast? = some last :=
  ⟨_, List.getLast?_eq_some_getLast (List.cons_ne_nil a p)⟩

theorem parentPlace_cons {a b : String} {p : List String} :
    parentPlace (a :: b :: p) = .key a :: parentPlace (b :: p) := by
  obtain ⟨last, hlast⟩ := getLast?_cons_some b p
  unfold parentPlace
  rw [List.getLast?_cons_cons, List.dropLast_cons_cons, hlast]
  dsimp only
  split <;> rfl

theorem pathPlace_cons {a b b' : String} {p : List String} :
    pathPlace (a :: b :: b' :: p) = .key a :: pathPlace (b :: b' :: p) := by
  obtain ⟨last, hlast⟩ := getLast?_cons_some b (b' :: p)
  unfold pathPlace
  rw [List.getLast?_cons_cons, List.dropLast_cons_cons, hlast]
  dsimp only
  rw [List.dropLast_cons_cons, parentPlace_cons, List.cons_append]

theorem not_digit_of_collection (hc : c ∈ collections) : isDigitSegment c = false := by
  simp only [collections, List.mem_cons, List.not_mem_nil, or_false] at hc
  obtain rfl | rfl | rfl | rfl := hc <;> rfl

theorem pathPlace_one {a : String} : pathPlace [a] = [.key a] := rfl

theorem pathPlace_two {a b : String} : pathPlace [a, b] =
    [if isDigitSegment a then .index ((parseUsize a).getD 0) else .key a, .key b] := by
  unfold pathPlace parentPlace
  dsimp only [List.getLast?, List.getLast, List.dropLast]
  split <;> rfl

/-- A place that starts with a key is that of a path that does. -/
theorem pathPlace_head {rest : List Segment} (h : pathPlace path = .key c :: rest) :
    ∃ p, path = c :: p := by
  match path with
  | [] => cases h
  | [a] =>
    cases h
    exact ⟨[], rfl⟩
  | [a, b] =>
    rw [pathPlace_two] at h
    split at h
    · cases h
    · cases h
      exact ⟨[b], rfl⟩
  | a :: b :: b' :: p =>
    rw [pathPlace_cons] at h
    cases h
    exact ⟨_, rfl⟩

/-- The second segment of a place that leads into a collection. -/
theorem pathPlace_second (hc : c ∈ collections) {p : List String} {rest : List Segment}
    (h : pathPlace (c :: p) = .key c :: .key id :: rest) : ∃ p', p = id :: p' := by
  match p with
  | [] => cases h
  | [b] =>
    rw [pathPlace_two, if_neg (by rw [not_digit_of_collection hc]; decide)] at h
    cases h
    exact ⟨[], rfl⟩
  | b :: b' :: p =>
    rw [pathPlace_cons] at h
    obtain ⟨p', hp'⟩ := pathPlace_head (List.cons.inj h).2
    cases hp'
    exact ⟨_, rfl⟩

/-- Each key of a place is a segment of the path. -/
theorem mem_of_key_mem {k : String} {path : List String} (h : .key k ∈ pathPlace path) :
    k ∈ path := by
  match path with
  | [] => cases h
  | [a] =>
    rw [pathPlace_one, List.mem_singleton] at h
    cases h
    exact List.mem_singleton_self _
  | [a, b] =>
    rw [pathPlace_two, List.mem_cons, List.mem_singleton] at h
    obtain h | h := h
    · split at h
      · cases h
      · cases h
        exact List.mem_cons_self ..
    · cases h
      exact List.mem_cons_of_mem _ (List.mem_singleton_self _)
  | a :: b :: b' :: p =>
    rw [pathPlace_cons, List.mem_cons] at h
    obtain h | h := h
    · cases h
      exact List.mem_cons_self ..
    · exact List.mem_cons_of_mem _ (mem_of_key_mem h)

theorem pathPlace_ne_nil {a : String} {p : List String} : pathPlace (a :: p) ≠ [] := by
  obtain ⟨last, hlast⟩ := getLast?_cons_some a p
  unfold pathPlace
  rw [hlast]
  exact List.append_ne_nil_of_right_ne_nil _ (List.cons_ne_nil _ _)

theorem pathPlace_collection (hc : c ∈ collections) {p : List String} :
    ∃ segment rest, pathPlace (c :: id :: p) = .key c :: segment :: rest := by
  cases p with
  | nil =>
    rw [pathPlace_two, if_neg (by rw [not_digit_of_collection hc]; decide)]
    exact ⟨_, _, rfl⟩
  | cons b p =>
    rw [pathPlace_cons]
    have hne : pathPlace (id :: b :: p) ≠ [] := pathPlace_ne_nil
    obtain ⟨segment, rest, hplace⟩ := List.exists_cons_of_ne_nil hne
    exact ⟨segment, rest, by rw [hplace]⟩

theorem parentPlace_ne_nil {a : String} {p : List String} : parentPlace (a :: p) ≠ [] := by
  obtain ⟨last, hlast⟩ := getLast?_cons_some a p
  unfold parentPlace
  rw [hlast]
  dsimp only
  split
  · exact List.append_ne_nil_of_right_ne_nil _ (List.cons_ne_nil _ _)
  · exact List.cons_ne_nil _ _

end Dormant.ConfigPatch
