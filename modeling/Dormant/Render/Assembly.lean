import Mathlib.Algebra.BigOperators.Group.List.Basic
import Mathlib.Algebra.GroupWithZero.Nat
import Dormant.Render.ScanWalk

/-!
# The loop over the sources

The playlist is put together from the cuts of its sources, each at the room that the sizes of the
sources before it leave.
-/

namespace Dormant
set_option autoImplicit false

namespace Playlist

/-- The loop, with the cuts of the sources as a function. -/
def assemble (cut : ScreensaverSource → ℕ → List String) :
    ℕ → UInt64 → ℕ → List ScreensaverSource → List PlaylistItem
  | _, _, _, [] => []
  | sourceIndex, rng, room, source :: sources =>
    let part := shuffle source rng ((cut source room).map (source.item sourceIndex))
    part.2 ++ assemble cut (sourceIndex + 1) part.1 (room - part.2.length) sources

/-- The room that is left after so many sources. -/
def roomAfter (size : ScreensaverSource → ℕ) (room : ℕ) (sources : List ScreensaverSource)
    (k : ℕ) : ℕ :=
  room - ((sources.take k).map size).sum

theorem shuffleFrom_perm (i : ℕ) (rng : UInt64) (items : Array PlaylistItem) :
    (shuffleFrom i rng items).2.toList.Perm items.toList := by
  induction i generalizing rng items with
  | zero => exact .refl _
  | succ i ih =>
    refine (ih _ _).trans ?_
    unfold Array.swapIfInBounds
    split
    · split
      · exact (Array.swap_perm _ _).toList
      · exact .refl _
    · exact .refl _

theorem shuffle_perm (source : ScreensaverSource) (rng : UInt64) (items : List PlaylistItem) :
    (shuffle source rng items).2.Perm items := by
  unfold shuffle
  split
  · exact shuffleFrom_perm _ rng items.toArray
  · exact .refl _

theorem shuffle_of_not {source : ScreensaverSource} (h : source.shuffle = false) (rng : UInt64)
    (items : List PlaylistItem) : shuffle source rng items = (rng, items) :=
  if_neg fun hshuffle => Bool.false_ne_true (h.symm.trans hshuffle.1)

/-- How much the sources give at a room, where that is as much as they have. -/
def Sized (cut : ScreensaverSource → ℕ → List String) (size : ScreensaverSource → ℕ) : Prop :=
  ∀ source room, (cut source room).length = min room (size source)

variable {cut cut' : ScreensaverSource → ℕ → List String} {size : ScreensaverSource → ℕ}

theorem part_length (hsize : Sized cut size) (source : ScreensaverSource) (sourceIndex : ℕ)
    (rng : UInt64) (room : ℕ) :
    (shuffle source rng ((cut source room).map (source.item sourceIndex))).2.length =
      min room (size source) := by
  rw [(shuffle_perm _ _ _).length_eq, List.length_map, hsize]

theorem part_index {source : ScreensaverSource} {sourceIndex : ℕ} {rng : UInt64}
    {uris : List String} {item : PlaylistItem}
    (h : item ∈ (shuffle source rng (uris.map (source.item sourceIndex))).2) :
    item.sourceIndex = sourceIndex := by
  obtain ⟨uri, -, rfl⟩ := List.mem_map.mp ((shuffle_perm _ _ _).mem_iff.mp h)
  rfl

theorem room_step (size : ScreensaverSource → ℕ) (source : ScreensaverSource)
    (sources : List ScreensaverSource) (room k : ℕ) :
    roomAfter size (room - min room (size source)) sources k =
      roomAfter size room (source :: sources) (k + 1) := by
  unfold roomAfter
  rw [List.take_succ_cons, List.map_cons, List.sum_cons]
  omega

theorem assemble_length (hsize : Sized cut size) (sourceIndex : ℕ) (rng : UInt64) (room : ℕ)
    (sources : List ScreensaverSource) :
    (assemble cut sourceIndex rng room sources).length ≤ room := by
  induction sources generalizing sourceIndex rng room with
  | nil => exact Nat.zero_le room
  | cons source sources ih =>
    unfold assemble
    dsimp only
    rw [List.length_append, part_length hsize]
    have hrest := ih (sourceIndex + 1)
      (shuffle source rng ((cut source room).map (source.item sourceIndex))).1
      (room - min room (size source))
    omega

variable (cut) in
/-- The items come from the sources in their order. -/
theorem assemble_index (sourceIndex : ℕ) (rng : UInt64) (room : ℕ)
    (sources : List ScreensaverSource) :
    (∀ item ∈ assemble cut sourceIndex rng room sources,
        sourceIndex ≤ item.sourceIndex ∧ item.sourceIndex < sourceIndex + sources.length) ∧
      (assemble cut sourceIndex rng room sources).Pairwise
        fun a b => a.sourceIndex ≤ b.sourceIndex := by
  induction sources generalizing sourceIndex rng room with
  | nil => exact ⟨(fun item h => by cases h), .nil⟩
  | cons source sources ih =>
    unfold assemble
    dsimp only
    generalize hpart : shuffle source rng ((cut source room).map (source.item sourceIndex)) = part
    obtain ⟨hrest, hpairwise⟩ := ih (sourceIndex + 1) part.1 (room - part.2.length)
    have hhead {item : PlaylistItem} (h : item ∈ part.2) : item.sourceIndex = sourceIndex := by
      rw [← hpart] at h
      exact part_index h
    constructor
    · intro item hitem
      rw [List.length_cons]
      rcases List.mem_append.mp hitem with h | h
      · have := hhead h
        omega
      · have := hrest item h
        omega
    · refine List.pairwise_append.mpr ⟨?_, hpairwise, fun a ha b hb => ?_⟩
      · exact List.pairwise_of_forall_mem_list fun a ha b hb =>
          (hhead ha).le.trans (hhead hb).ge
      · have := hhead ha
        have := (hrest b hb).1
        omega

/-- The items of one source are its cut, shuffled where it asks for that. -/
theorem assemble_part (hsize : Sized cut size) (sourceIndex : ℕ) (rng : UInt64) (room : ℕ)
    {sources : List ScreensaverSource} {k : ℕ} {source : ScreensaverSource}
    (hk : sources[k]? = some source) :
    let part := (assemble cut sourceIndex rng room sources).filter
      (·.sourceIndex = sourceIndex + k)
    let expected := (cut source (roomAfter size room sources k)).map
      (source.item (sourceIndex + k))
    part.Perm expected ∧ (source.shuffle = false → part = expected) := by
  induction sources generalizing sourceIndex rng room k with
  | nil => cases hk
  | cons first sources ih =>
    unfold assemble
    dsimp only
    rw [List.filter_append, part_length hsize]
    cases k with
    | zero =>
      obtain rfl := Option.some.inj hk
      have hrest := (assemble_index cut (sourceIndex + 1)
        (shuffle first rng ((cut first room).map (first.item sourceIndex))).1
        (room - min room (size first)) sources).1
      have hroom : roomAfter size room (first :: sources) 0 = room := rfl
      rw [hroom, Nat.add_zero, List.filter_eq_self.mpr fun item h => decide_eq_true (part_index h),
        List.filter_eq_nil_iff.mpr fun item h => by
          have := (hrest item h).1
          rw [decide_eq_true_eq]
          omega, List.append_nil]
      exact ⟨shuffle_perm _ _ _, fun h => congrArg Prod.snd (shuffle_of_not h _ _)⟩
    | succ k =>
      have hnone : (shuffle first rng ((cut first room).map (first.item sourceIndex))).2.filter
          (·.sourceIndex = sourceIndex + (k + 1)) = [] := by
        refine List.filter_eq_nil_iff.mpr fun item h => ?_
        rw [decide_eq_true_eq, part_index h]
        omega
      have hindex : sourceIndex + (k + 1) = sourceIndex + 1 + k := by omega
      rw [hnone, List.nil_append, ← room_step, hindex]
      exact ih _ _ _ hk

/-- What the sources before one take. -/
theorem assemble_before (hsize : Sized cut size) (sourceIndex : ℕ) (rng : UInt64) (room k : ℕ)
    (sources : List ScreensaverSource) :
    room - ((assemble cut sourceIndex rng room sources).filter
        (·.sourceIndex < sourceIndex + k)).length =
      roomAfter size room sources k := by
  induction sources generalizing sourceIndex rng room k with
  | nil =>
    unfold roomAfter
    rw [List.take_nil]
    rfl
  | cons source sources ih =>
    cases k with
    | zero =>
      have hnone : (assemble cut sourceIndex rng room (source :: sources)).filter
          (·.sourceIndex < sourceIndex + 0) = [] := by
        refine List.filter_eq_nil_iff.mpr fun item h => ?_
        have hindex := ((assemble_index cut sourceIndex rng room (source :: sources)).1 item h).1
        rw [decide_eq_true_eq]
        omega
      rw [hnone]
      rfl
    | succ k =>
      unfold assemble
      dsimp only
      rw [List.filter_append, List.filter_eq_self.mpr fun item h => by
        rw [decide_eq_true_eq, part_index h]
        omega, List.length_append, part_length hsize, ← room_step]
      have hindex : sourceIndex + (k + 1) = sourceIndex + 1 + k := by omega
      have hrest := ih (sourceIndex + 1)
        (shuffle source rng ((cut source room).map (source.item sourceIndex))).1
        (room - min room (size source)) k
      rw [hindex]
      omega

/-- Where each source is cut alike, the playlists are alike. -/
theorem assemble_congr (hsize : Sized cut size) {sourceIndex : ℕ} {rng : UInt64} {room : ℕ}
    {sources : List ScreensaverSource}
    (h : ∀ k source, sources[k]? = some source →
      cut' source (roomAfter size room sources k) = cut source (roomAfter size room sources k)) :
    assemble cut' sourceIndex rng room sources = assemble cut sourceIndex rng room sources := by
  induction sources generalizing sourceIndex rng room with
  | nil => rfl
  | cons source sources ih =>
    unfold assemble
    have hfirst : cut' source room = cut source room := h 0 source rfl
    rw [hfirst]
    dsimp only
    rw [part_length hsize, ih fun k source' hk => ?_]
    rw [room_step]
    exact h (k + 1) source' hk

end Playlist
end Dormant
