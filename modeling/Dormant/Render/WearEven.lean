import Mathlib.Data.List.Forall2
import Dormant.Render.WearOrder

/-!
# What wear-even order keeps

Groups stay where they are, and each wear-even group is sorted by its scores.
-/

namespace Dormant
set_option autoImplicit false

namespace Playlist

/-- The numbers that the generator gives from a seed on. -/
def draw : UInt64 → ℕ → UInt64
  | rng, 0 => (splitmix64Next rng).2
  | rng, k + 1 => draw (splitmix64Next rng).1 k

/-- The valid score of an item, where it has one. -/
def ScoreOf {Score : Type} (scoring : Scoring Score) (get : String → Option LumaGrid)
    (heatCells : List ℚ) (temperature : ℚ) (draw : UInt64) (item : PlaylistItem)
    (score : Score) : Prop :=
  ∃ luma, get item.uri = some luma ∧
    score = scoring.score luma.cells heatCells (jitter temperature draw) ∧
    scoring.isFinite score = true

theorem draw_zero (rng : UInt64) : draw rng 0 = (splitmix64Next rng).2 := rfl

theorem draw_succ (rng : UInt64) (k : ℕ) : draw rng (k + 1) = draw (splitmix64Next rng).1 k := rfl

variable {Score : Type} {scoring : Scoring Score} {get : String → Option LumaGrid}
  {heatCells : List ℚ} {temperature : ℚ}

theorem ScoreOf.unique {d : UInt64} {item : PlaylistItem} {s t : Score}
    (hs : ScoreOf scoring get heatCells temperature d item s)
    (ht : ScoreOf scoring get heatCells temperature d item t) : s = t := by
  obtain ⟨luma, hluma, rfl, -⟩ := hs
  obtain ⟨luma', hluma', rfl, -⟩ := ht
  rw [hluma] at hluma'
  rw [Option.some.inj hluma']

variable (scoring get) in
/-- The loop gives every item its score, or stops at one that has none. -/
theorem scoreItems_spec (rng : UInt64) (items : List PlaylistItem) :
    (∃ scored, scoreItems scoring get heatCells temperature rng items = .ok scored ∧
        scored.map (·.2) = items ∧
        ∀ k s item, scored[k]? = some (s, item) →
          ScoreOf scoring get heatCells temperature (draw rng k) item s) ∨
      (∃ e, scoreItems scoring get heatCells temperature rng items = .error e) ∧
        ∃ k item, items[k]? = some item ∧
          ∀ s, ¬ ScoreOf scoring get heatCells temperature (draw rng k) item s := by
  induction items generalizing rng with
  | nil => exact .inl ⟨[], rfl, rfl, fun k s item h => by cases h⟩
  | cons item items ih =>
    unfold scoreItems
    cases hluma : get item.uri with
    | none =>
      refine .inr ⟨⟨_, rfl⟩, 0, item, rfl, fun s hs => ?_⟩
      obtain ⟨luma, hsome, -⟩ := hs
      rw [hluma] at hsome
      cases hsome
    | some luma =>
      dsimp only
      split
      · rename_i hfinite
        rcases ih (splitmix64Next rng).1 with ⟨scored, hscored, hitems, hscores⟩ |
          ⟨⟨e, he⟩, k, other, hother, hnone⟩
        · rw [hscored]
          refine .inl ⟨_, rfl, congrArg (item :: ·) hitems, fun k s other hk => ?_⟩
          cases k with
          | zero =>
            obtain ⟨rfl, rfl⟩ := Prod.mk.inj (Option.some.inj hk)
            rw [draw_zero]
            exact ⟨luma, hluma, rfl, hfinite⟩
          | succ k =>
            rw [draw_succ]
            exact hscores k s other hk
        · rw [he]
          rw [← draw_succ] at hnone
          exact .inr ⟨⟨e, rfl⟩, k + 1, other, hother, hnone⟩
      · rename_i hfinite
        refine .inr ⟨⟨_, rfl⟩, 0, item, rfl, fun s hs => ?_⟩
        obtain ⟨luma', hsome, rfl, hvalid⟩ := hs
        rw [hluma] at hsome
        rw [← Option.some.inj hsome, draw_zero] at hvalid
        exact hfinite hvalid

/-! ## Sorting -/

variable [LinearOrder Score]

theorem before_trans (a b c : Score × PlaylistItem) (hab : before a b = true)
    (hbc : before b c = true) : before a c = true := by
  unfold before at *
  rw [decide_eq_true_eq] at *
  rcases hab with hab | ⟨hab, huri⟩
  · rcases hbc with hbc | ⟨hbc, -⟩
    · exact .inl (hab.trans hbc)
    · exact .inl (hbc ▸ hab)
  · rcases hbc with hbc | ⟨hbc, huri'⟩
    · exact .inl (hab ▸ hbc)
    · exact .inr ⟨hab.trans hbc, huri.trans huri'⟩

theorem before_total (a b : Score × PlaylistItem) : (before a b || before b a) = true := by
  unfold before
  rw [Bool.or_eq_true, decide_eq_true_eq, decide_eq_true_eq]
  rcases lt_trichotomy a.1 b.1 with hlt | heq | hgt
  · exact .inl (.inl hlt)
  · rcases le_total a.2.uri b.2.uri with huri | huri
    · exact .inl (.inr ⟨heq, huri⟩)
    · exact .inr (.inr ⟨heq.symm, huri⟩)
  · exact .inr (.inl hgt)

theorem pairwise_sorted (scored : List (Score × PlaylistItem)) :
    (scored.mergeSort before).Pairwise fun a b => before a b = true :=
  List.pairwise_mergeSort before_trans before_total scored

/-! ## One cycle -/

/-- What the items of a cycle have in common, where it is valid. -/
structure Common (catalog : LumaCatalog) (heat : HeatGrid) (temperature : ℚ)
    (get : String → Option LumaGrid) (heatCells : List ℚ) : Prop where
  temperature : 0 ≤ temperature ∧ temperature ≤ 1
  heat : resampleArea heat.cells heat.rows heat.cols lumaGridRows lumaGridCols = some heatCells
  catalog : catalog.read = some get

/-- The item has a catalog entry, and heat, temperature and its score are valid. -/
def Scorable {Score : Type} (scoring : Scoring Score) (catalog : LumaCatalog) (heat : HeatGrid)
    (temperature : ℚ) (draw : UInt64) (item : PlaylistItem) : Prop :=
  ∃ get heatCells, Common catalog heat temperature get heatCells ∧
    ∃ s, ScoreOf scoring get heatCells temperature draw item s

/-- The run in the order of its scores, and equal scores in the order of their uris. -/
structure Cycled {Score : Type} [LinearOrder Score] (scoring : Scoring Score)
    (catalog : LumaCatalog) (heat : HeatGrid) (temperature : ℚ) (seed : UInt64)
    (run run' : List PlaylistItem) : Prop where
  perm : run'.Perm run
  sorted : ∃ get heatCells, Common catalog heat temperature get heatCells ∧
    ∃ scored ordered : List (Score × PlaylistItem),
      (scored.map (·.2) = run ∧ ∀ k s item, scored[k]? = some (s, item) →
        ScoreOf scoring get heatCells temperature (draw seed k) item s) ∧
      (ordered.Perm scored ∧ ordered.Pairwise fun a b => before a b = true) ∧
      ordered.map (·.2) = run'

variable (catalog : LumaCatalog) (heat : HeatGrid) (seed : UInt64)

theorem cycle_of_common {catalog : LumaCatalog} {heat : HeatGrid}
    (h : Common catalog heat temperature get heatCells) (run : List PlaylistItem) :
    wearEvenCycle scoring run catalog heat temperature seed =
      match scoreItems scoring get heatCells temperature seed run with
      | .error e => .error e
      | .ok scored => .ok ((scored.mergeSort before).map (·.2)) := by
  unfold wearEvenCycle
  rw [if_neg (not_not.mpr h.temperature), h.heat]
  have hcatalog := h.catalog
  generalize catalog.read = entries at hcatalog
  subst hcatalog
  rfl

variable (scoring) in
theorem cycle_of_not_common {catalog : LumaCatalog} {heat : HeatGrid}
    (h : ¬ ∃ get heatCells, Common catalog heat temperature get heatCells)
    (run : List PlaylistItem) :
    ∃ e, wearEvenCycle scoring run catalog heat temperature seed = .error e := by
  unfold wearEvenCycle
  by_cases htemperature : 0 ≤ temperature ∧ temperature ≤ 1
  swap
  · exact ⟨_, if_pos htemperature⟩
  rw [if_neg (not_not.mpr htemperature)]
  cases hheat : resampleArea heat.cells heat.rows heat.cols lumaGridRows lumaGridCols with
  | none => exact ⟨_, rfl⟩
  | some heatCells =>
    cases hcatalog : catalog.read with
    | none => exact ⟨_, rfl⟩
    | some get => exact absurd ⟨get, heatCells, htemperature, hheat, hcatalog⟩ h

variable (scoring) in
/-- A cycle sorts its run, or fails at one of its items. -/
theorem cycle_spec (run : List PlaylistItem) :
    (∃ run', wearEvenCycle scoring run catalog heat temperature seed = .ok run' ∧
        Cycled scoring catalog heat temperature seed run run') ∨
      (∃ e, wearEvenCycle scoring run catalog heat temperature seed = .error e) ∧
        (run ≠ [] → ∃ k item, run[k]? = some item ∧
          ¬ Scorable scoring catalog heat temperature (draw seed k) item) := by
  by_cases hcommon : ∃ get heatCells, Common catalog heat temperature get heatCells
  swap
  · refine .inr ⟨cycle_of_not_common scoring seed hcommon run, fun hrun => ?_⟩
    obtain ⟨item, rest, rfl⟩ := List.exists_cons_of_ne_nil hrun
    exact ⟨0, item, rfl, fun ⟨get, heatCells, h, _⟩ => hcommon ⟨get, heatCells, h⟩⟩
  obtain ⟨get, heatCells, hcommon⟩ := hcommon
  rw [cycle_of_common seed hcommon]
  rcases scoreItems_spec scoring get seed run with
    ⟨scored, hscored, hrun, hscores⟩ | ⟨⟨e, he⟩, k, item, hitem, hnone⟩
  · rw [hscored]
    refine .inl ⟨_, rfl, ?_, get, heatCells, hcommon, scored, _, ⟨hrun, hscores⟩,
      ⟨List.mergeSort_perm scored before, pairwise_sorted scored⟩, rfl⟩
    rw [← hrun]
    exact (List.mergeSort_perm scored before).map _
  · rw [he]
    refine .inr ⟨⟨e, rfl⟩, fun _ => ⟨k, item, hitem, ?_⟩⟩
    rintro ⟨get', heatCells', hcommon', s, hs⟩
    obtain rfl := Option.some.inj (hcommon.catalog.symm.trans hcommon'.catalog)
    obtain rfl := Option.some.inj (hcommon.heat.symm.trans hcommon'.heat)
    exact hnone s hs

/-! ## Temperature zero -/

omit [LinearOrder Score] in
/-- Without jitter the numbers drawn make no difference. -/
theorem ScoreOf.congr {d d' : UInt64} {item : PlaylistItem} {s : Score}
    (h : ScoreOf scoring get heatCells 0 d item s) : ScoreOf scoring get heatCells 0 d' item s := by
  obtain ⟨luma, hluma, rfl, hfinite⟩ := h
  have hzero : jitter 0 d = jitter 0 d' := by
    unfold jitter
    rw [mul_zero, mul_zero]
  rw [hzero] at hfinite ⊢
  exact ⟨luma, hluma, rfl, hfinite⟩

omit [LinearOrder Score] in
theorem eq_of_scores {d : UInt64} {l l' : List (Score × PlaylistItem)}
    (hitems : l.map (·.2) = l'.map (·.2))
    (hl : ∀ p ∈ l, ScoreOf scoring get heatCells temperature d p.2 p.1)
    (hl' : ∀ p ∈ l', ScoreOf scoring get heatCells temperature d p.2 p.1) : l = l' := by
  induction l generalizing l' with
  | nil => exact (List.map_eq_nil_iff.mp hitems.symm).symm
  | cons p l ih =>
    cases l' with
    | nil => cases hitems
    | cons p' l' =>
      obtain ⟨hitem, hrest⟩ := List.cons.inj hitems
      have hp := hl p List.mem_cons_self
      have hp' := hl' p' List.mem_cons_self
      have hitem' : p.2 = p'.2 := hitem
      rw [hitem'] at hp
      rw [Prod.ext (hp.unique hp') hitem',
        ih hrest (fun q hq => hl q (List.mem_cons_of_mem _ hq))
          fun q hq => hl' q (List.mem_cons_of_mem _ hq)]

/-- Without jitter a sorted run stays as it is. -/
theorem cycle_again {run ordered : List PlaylistItem}
    (h : wearEvenCycle scoring run catalog heat 0 seed = .ok ordered) :
    wearEvenCycle scoring ordered catalog heat 0 seed = .ok ordered := by
  by_cases hcommon : ∃ get heatCells, Common catalog heat 0 get heatCells
  swap
  · obtain ⟨e, he⟩ := cycle_of_not_common scoring seed hcommon run
    rw [he] at h
    cases h
  obtain ⟨get, heatCells, hcommon⟩ := hcommon
  rw [cycle_of_common seed hcommon] at h ⊢
  rcases scoreItems_spec scoring get seed run with
    ⟨scored, hscored, hrun, hscores⟩ | ⟨⟨e, he⟩, -⟩
  swap
  · rw [he] at h
    cases h
  rw [hscored] at h
  have hordered : (scored.mergeSort before).map (·.2) = ordered := Except.ok.inj h
  have hvalid : ∀ p ∈ scored.mergeSort before,
      ScoreOf scoring get heatCells 0 (draw seed 0) p.2 p.1 := by
    intro p hp
    obtain ⟨k, hk⟩ := List.mem_iff_getElem?.mp (List.mem_mergeSort.mp hp)
    exact (hscores k p.1 p.2 hk).congr
  rcases scoreItems_spec scoring get seed ordered with
    ⟨again, hagain, hitems, hscores'⟩ | ⟨-, k, item, hitem, hnone⟩
  · have heq : again = scored.mergeSort before := by
      refine eq_of_scores (hitems.trans hordered.symm) (fun p hp => ?_) hvalid
      obtain ⟨k, hk⟩ := List.mem_iff_getElem?.mp hp
      exact (hscores' k p.1 p.2 hk).congr
    rw [hagain, heq]
    dsimp only
    rw [List.mergeSort_of_pairwise (pairwise_sorted scored), hordered]
  · rw [← hordered, List.getElem?_map, Option.map_eq_some_iff] at hitem
    obtain ⟨p, hp, rfl⟩ := hitem
    exact absurd (hvalid p (List.mem_of_getElem? hp)).congr (hnone p.1)

/-! ## Groups -/

/-- The group that the outer loop makes of a group. -/
def reorder (cycle : List PlaylistItem → Except WearOrderError (List PlaylistItem))
    (group : List PlaylistItem) : Except WearOrderError (List PlaylistItem) :=
  match group with
  | [] => .ok []
  | first :: _ => if first.order = .wearEven then cycle group else .ok group

theorem groupEnd_eq (items : List PlaylistItem) (key : ℕ × PlaylistOrder) (stop : ℕ) :
    groupEnd items key stop =
      stop + ((items.drop stop).takeWhile (·.key = key)).length := by
  fun_induction groupEnd items key stop with
  | case1 stop h hkey ih =>
    have hkey' : decide (items[stop].key = key) = true := decide_eq_true hkey
    rw [ih, List.drop_eq_getElem_cons h, List.takeWhile_cons, if_pos hkey', List.length_cons]
    omega
  | case2 stop h hkey =>
    have hkey' : ¬ decide (items[stop].key = key) = true := mt of_decide_eq_true hkey
    rw [List.drop_eq_getElem_cons h, List.takeWhile_cons, if_neg hkey']
    rfl
  | case3 stop h =>
    rw [List.drop_eq_nil_of_le (not_lt.mp h)]
    rfl

variable {cycle : List PlaylistItem → Except WearOrderError (List PlaylistItem)}

/-- A group of the outer loop, and what is after it. -/
theorem slice_group {items : List PlaylistItem} {start : ℕ} (h : start < items.length) :
    let stop := groupEnd items items[start].key (start + 1)
    let group := (items.take stop).drop start
    Groups.groups PlaylistItem.key (items.drop start) =
        group :: Groups.groups PlaylistItem.key (items.drop stop) ∧
      (∃ rest, group = items[start] :: rest) ∧
      items.drop start = group ++ items.drop stop ∧ start + group.length = stop := by
  intro stop group
  have hdrop := List.drop_eq_getElem_cons h
  have hsplit := List.takeWhile_append_dropWhile (p := (·.key = items[start].key))
    (l := items.drop (start + 1))
  have hstop : stop = start + 1 +
      ((items.drop (start + 1)).takeWhile (·.key = items[start].key)).length :=
    groupEnd_eq items _ _
  generalize hsame : (items.drop (start + 1)).takeWhile (·.key = items[start].key) = same
    at hsplit hstop
  have hrest : items.drop stop =
      (items.drop (start + 1)).dropWhile (·.key = items[start].key) := by
    rw [hstop, ← List.drop_drop]
    conv_lhs => rw [← hsplit]
    exact List.drop_left
  have hgroup : group = items[start] :: same := by
    have hlength : stop - start = same.length + 1 := by omega
    unfold group
    rw [List.drop_take, hlength, hdrop, List.take_succ_cons]
    conv_lhs => rw [← hsplit]
    rw [List.take_left]
  refine ⟨?_, ⟨same, hgroup⟩, ?_, ?_⟩
  · rw [hdrop, Groups.groups_cons, hsame, hgroup, hrest]
  · rw [hgroup, hrest, hdrop, List.cons_append, hsplit]
  · rw [hgroup, List.length_cons]
    omega

/-- The outer loop goes from group to group. -/
theorem applyFrom_eq (hcycle : ∀ run run', cycle run = .ok run' → run'.length = run.length)
    (items : List PlaylistItem) (start : ℕ) (done : List PlaylistItem)
    (hdone : done.length = start) :
    applyFrom cycle items start (done ++ items.drop start) =
      match (Groups.groups PlaylistItem.key (items.drop start)).mapM (reorder cycle) with
      | .error e => .error e
      | .ok gs => .ok (done ++ gs.flatten) := by
  induction hleft : items.length - start using Nat.strong_induction_on generalizing start done with
  | _ left ih =>
  rw [applyFrom]
  by_cases h : start < items.length
  swap
  · rw [dif_neg h, List.drop_eq_nil_of_le (not_lt.mp h)]
    rfl
  rw [dif_pos h]
  dsimp only [List.get_eq_getElem]
  obtain ⟨hgroups, ⟨rest, hgroup⟩, hslice, hlength⟩ := slice_group h
  have hlt := le_groupEnd items items[start].key (start + 1)
  generalize groupEnd items items[start].key (start + 1) = stop at *
  generalize (items.take stop).drop start = group at *
  have hreorder : reorder cycle group =
      if items[start].key.2 = .wearEven then cycle group else .ok group := by
    rw [hgroup]
    rfl
  have hnext (ordered : List PlaylistItem) (hordered : ordered.length = group.length) :
      applyFrom cycle items stop (done ++ ordered ++ items.drop stop) =
        match (do
          let first ← (Except.ok ordered : Except WearOrderError (List PlaylistItem))
          let gs ← (Groups.groups PlaylistItem.key (items.drop stop)).mapM (reorder cycle)
          pure (first :: gs)) with
        | .error e => .error e
        | .ok gs => .ok (done ++ gs.flatten) := by
    rw [ih (items.length - stop) (by omega) stop (done ++ ordered)
      (by rw [List.length_append]; omega) rfl]
    cases (Groups.groups PlaylistItem.key (items.drop stop)).mapM (reorder cycle) with
    | error e => rfl
    | ok gs => exact congrArg Except.ok (List.append_assoc done ordered gs.flatten)
  rw [hgroups, List.mapM_cons, hreorder]
  by_cases horder : items[start].key.2 = .wearEven
  · rw [if_pos horder, if_pos horder]
    cases hordered : cycle group with
    | error e => rfl
    | ok ordered =>
      have htake : (done ++ items.drop start).take start = done := List.take_left' hdone
      have hdropped : (done ++ items.drop start).drop stop = items.drop stop := by
        rw [hslice, ← List.append_assoc]
        exact List.drop_left' (by rw [List.length_append]; omega)
      dsimp only
      rw [htake, hdropped]
      exact hnext ordered (hcycle group ordered hordered)
  · rw [if_neg horder, if_neg horder, hslice, ← List.append_assoc]
    exact hnext group rfl

/-! ## The result -/

theorem mapM_ok {α β ε : Type} {f : α → Except ε β} {l : List α} {l' : List β}
    (h : l.mapM f = .ok l') : List.Forall₂ (fun a b => f a = .ok b) l l' := by
  induction l generalizing l' with
  | nil =>
    rw [List.mapM_nil] at h
    rw [← Except.ok.inj h]
    exact .nil
  | cons a l ih =>
    rw [List.mapM_cons] at h
    cases hfirst : f a with
    | error e =>
      rw [hfirst] at h
      cases h
    | ok b =>
      rw [hfirst] at h
      cases hrest : l.mapM f with
      | error e =>
        rw [hrest] at h
        cases h
      | ok rest =>
        rw [hrest] at h
        rw [← Except.ok.inj h]
        exact .cons hfirst (ih hrest)

theorem mapM_of_forall₂ {α β ε : Type} {f : α → Except ε β} {l : List α} {l' : List β}
    (h : List.Forall₂ (fun a b => f a = .ok b) l l') : l.mapM f = .ok l' := by
  induction h with
  | nil => exact List.mapM_nil
  | cons hfirst _ ih =>
    rw [List.mapM_cons, hfirst, ih]
    rfl

theorem mapM_error {α β ε : Type} {f : α → Except ε β} {l : List α} :
    (∃ e, l.mapM f = .error e) ↔ ∃ a ∈ l, ∃ e, f a = .error e := by
  constructor
  · rintro ⟨e, he⟩
    induction l with
    | nil =>
      rw [List.mapM_nil] at he
      cases he
    | cons a l ih =>
      rw [List.mapM_cons] at he
      cases hfirst : f a with
      | error e' => exact ⟨a, List.mem_cons_self, e', hfirst⟩
      | ok b =>
        cases hrest : l.mapM f with
        | error e' =>
          rw [hfirst, hrest] at he
          obtain ⟨a', ha', hfails⟩ := ih (hrest.trans he)
          exact ⟨a', List.mem_cons_of_mem _ ha', hfails⟩
        | ok rest =>
          rw [hfirst, hrest] at he
          cases he
  · rintro ⟨a, ha, e, he⟩
    cases hall : l.mapM f with
    | error e' => exact ⟨e', rfl⟩
    | ok l' =>
      obtain ⟨b, -, hok⟩ := Groups.exists_of_mem (mapM_ok hall) ha
      rw [he] at hok
      cases hok

/-- What becomes of a run. -/
def Turned {Score : Type} [LinearOrder Score] (scoring : Scoring Score) (catalog : LumaCatalog)
    (heat : HeatGrid) (temperature : ℚ) (seed : UInt64) (run run' : List PlaylistItem) : Prop :=
  (∀ item ∈ run, item.order ≠ .wearEven) ∧ run' = run ∨
    (∀ item ∈ run, item.order = .wearEven) ∧
      Cycled scoring catalog heat temperature seed run run'

theorem Cycled.scorable {run run' : List PlaylistItem}
    (h : Cycled scoring catalog heat temperature seed run run') {k : ℕ} {item : PlaylistItem}
    (hk : run[k]? = some item) :
    Scorable scoring catalog heat temperature (draw seed k) item := by
  obtain ⟨get, heatCells, hcommon, scored, ordered, ⟨hrun, hscores⟩, -⟩ := h.sorted
  rw [← hrun, List.getElem?_map, Option.map_eq_some_iff] at hk
  obtain ⟨⟨s, item'⟩, hp, rfl⟩ := hk
  exact ⟨get, heatCells, hcommon, s, hscores k s item' hp⟩

variable (scoring temperature) in
/-- A group is turned, or fails at one of its wear-even items. -/
theorem reorder_spec {items run : List PlaylistItem}
    (hrun : run ∈ Groups.groups PlaylistItem.key items) :
    (∃ run', reorder (wearEvenCycle scoring · catalog heat temperature seed) run = .ok run' ∧
        Turned scoring catalog heat temperature seed run run' ∧
        ∀ k item, run[k]? = some item → item.order = .wearEven →
          Scorable scoring catalog heat temperature (draw seed k) item) ∨
      (∃ e, reorder (wearEvenCycle scoring · catalog heat temperature seed) run = .error e) ∧
        ∃ k item, run[k]? = some item ∧ item.order = .wearEven ∧
          ¬ Scorable scoring catalog heat temperature (draw seed k) item := by
  have hne := Groups.ne_nil_of_mem hrun
  have hsame {a b : PlaylistItem} (ha : a ∈ run) (hb : b ∈ run) : a.order = b.order :=
    congrArg Prod.snd (Groups.key_eq_of_mem hrun ha hb)
  obtain ⟨first, rest, rfl⟩ := List.exists_cons_of_ne_nil hne
  unfold reorder
  dsimp only
  by_cases horder : first.order = .wearEven
  · have hall : ∀ item ∈ first :: rest, item.order = .wearEven :=
      fun item hitem => (hsame hitem List.mem_cons_self).trans horder
    rw [if_pos horder]
    rcases cycle_spec scoring catalog heat seed (first :: rest) with
      ⟨run', hok, hcycled⟩ | ⟨herror, hfails⟩
    · exact .inl ⟨run', hok, .inr ⟨hall, hcycled⟩,
        fun k item hk _ => hcycled.scorable catalog heat seed hk⟩
    · obtain ⟨k, item, hk, hnone⟩ := hfails hne
      exact .inr ⟨herror, k, item, hk, hall item (List.mem_of_getElem? hk), hnone⟩
  · have hall : ∀ item ∈ first :: rest, item.order ≠ .wearEven :=
      fun item hitem heq => horder ((hsame List.mem_cons_self hitem).trans heq)
    rw [if_neg horder]
    exact .inl ⟨_, rfl, .inl ⟨hall, rfl⟩, fun k item hk heq =>
      absurd heq (hall item (List.mem_of_getElem? hk))⟩

theorem apply_eq (items : List PlaylistItem) :
    applyWearEvenGroups scoring items catalog heat temperature seed =
      match (Groups.groups PlaylistItem.key items).mapM
        (reorder (wearEvenCycle scoring · catalog heat temperature seed)) with
      | .error e => .error e
      | .ok gs => .ok gs.flatten := by
  refine applyFrom_eq (fun run run' hok => ?_) items 0 [] rfl
  rcases cycle_spec scoring catalog heat seed run with
    ⟨run'', hok', hcycled⟩ | ⟨⟨e, he⟩, -⟩
  · rw [hok] at hok'
    rw [Except.ok.inj hok', hcycled.perm.length_eq]
  · rw [hok] at he
    cases he

theorem Turned.perm {run run' : List PlaylistItem}
    (h : Turned scoring catalog heat temperature seed run run') : run'.Perm run := by
  rcases h with ⟨-, rfl⟩ | ⟨-, hcycled⟩
  · exact .refl _
  · exact hcycled.perm

/-- What a run without failure returns. -/
theorem apply_ok {items out : List PlaylistItem}
    (h : applyWearEvenGroups scoring items catalog heat temperature seed = .ok out) :
    List.Forall₂ (fun run run' => run ∈ Groups.groups PlaylistItem.key items ∧
        reorder (wearEvenCycle scoring · catalog heat temperature seed) run = .ok run')
      (Groups.groups PlaylistItem.key items) (Groups.groups PlaylistItem.key out) ∧
    List.Forall₂ (Turned scoring catalog heat temperature seed)
      (Groups.groups PlaylistItem.key items) (Groups.groups PlaylistItem.key out) := by
  rw [apply_eq] at h
  cases hgs : (Groups.groups PlaylistItem.key items).mapM
      (reorder (wearEvenCycle scoring · catalog heat temperature seed)) with
  | error e =>
    rw [hgs] at h
    cases h
  | ok gs =>
    rw [hgs] at h
    have hreordered := List.forall₂_and_left _ _ |>.mpr ⟨fun run hrun => hrun, mapM_ok hgs⟩
    have hturned : List.Forall₂ (Turned scoring catalog heat temperature seed)
        (Groups.groups PlaylistItem.key items) gs := by
      refine hreordered.imp fun run run' ⟨hrun, hok⟩ => ?_
      rcases reorder_spec scoring temperature catalog heat seed hrun
        with ⟨run'', hok', hturned, -⟩ | ⟨⟨e, he⟩, -⟩
      · rw [hok] at hok'
        rw [Except.ok.inj hok']
        exact hturned
      · rw [hok] at he
        cases he
    have hgroups : Groups.groups PlaylistItem.key out = gs := by
      rw [← Except.ok.inj h]
      have hperms : List.Forall₂ List.Perm gs (Groups.groups PlaylistItem.key items) :=
        (hturned.imp fun run run' hrun => hrun.perm catalog heat seed).flip
      exact Groups.groups_flatten hperms
    rw [hgroups]
    exact ⟨hreordered, hturned⟩

theorem reorder_again {items run run' : List PlaylistItem}
    (hrun : run ∈ Groups.groups PlaylistItem.key items)
    (h : reorder (wearEvenCycle scoring · catalog heat 0 seed) run = .ok run') :
    reorder (wearEvenCycle scoring · catalog heat 0 seed) run' = .ok run' := by
  rcases reorder_spec scoring 0 catalog heat seed hrun with
    ⟨run'', hok, hturned, -⟩ | ⟨⟨e, he⟩, -⟩
  swap
  · rw [he] at h
    cases h
  obtain rfl : run'' = run' := Except.ok.inj (hok.symm.trans h)
  rcases hturned with ⟨-, rfl⟩ | ⟨hall, hcycled⟩
  · exact h
  · cases run'' with
    | nil => rfl
    | cons first rest =>
      have hfirst := hall first (hcycled.perm.mem_iff.mp List.mem_cons_self)
      cases run with
      | nil => exact absurd hcycled.perm.eq_nil (List.cons_ne_nil _ _)
      | cons old olds =>
        unfold reorder at h ⊢
        dsimp only at h ⊢
        rw [if_pos (hall old List.mem_cons_self)] at h
        rw [if_pos hfirst]
        exact cycle_again catalog heat seed h

/-- What is returned has the groups of the playlist, each turned: nothing else is moved, lost or
doubled. It fails just at a wear-even item without a valid score, and without jitter once is
enough. -/
theorem wear_even_keeps_groups (scoring : Scoring Score) (catalog : LumaCatalog) (heat : HeatGrid)
    (temperature : ℚ) (seed : UInt64) (items : List PlaylistItem) :
    let apply items := applyWearEvenGroups scoring items catalog heat temperature seed
    let runs := Groups.groups PlaylistItem.key
    (∀ out, apply items = .ok out → out.length = items.length ∧ out.Perm items ∧
      List.Forall₂ (Turned scoring catalog heat temperature seed) (runs items) (runs out)) ∧
    ((∃ e, apply items = .error e) ↔ ∃ run ∈ runs items, ∃ k item, run[k]? = some item ∧
      item.order = .wearEven ∧
        ¬ Scorable scoring catalog heat temperature (draw seed k) item) ∧
    (temperature = 0 → ∀ out, apply items = .ok out → apply out = .ok out) := by
  intro apply runs
  refine ⟨fun out hout => ?_, ?_, fun hzero out hout => ?_⟩
  · have hturned := (apply_ok catalog heat seed hout).2
    have hperm : out.Perm items := by
      have houtFlat : (runs out).flatten = out := Groups.flatten_groups out
      have hitemsFlat : (runs items).flatten = items := Groups.flatten_groups items
      rw [← houtFlat, ← hitemsFlat]
      refine List.Perm.flatten_congr (List.Forall₂.flip ?_)
      exact hturned.imp fun run run' hrun => hrun.perm catalog heat seed
    exact ⟨hperm.length_eq, hperm, hturned⟩
  · have happly : (∃ e, apply items = .error e) ↔ ∃ e, (runs items).mapM
        (reorder (wearEvenCycle scoring · catalog heat temperature seed)) = .error e := by
      have heq : apply items = _ := apply_eq catalog heat seed items
      rw [heq]
      cases (runs items).mapM
          (reorder (wearEvenCycle scoring · catalog heat temperature seed)) with
      | error e =>
        dsimp only
        constructor
        · rintro ⟨e', he⟩
          exact ⟨e, rfl⟩
        · rintro ⟨e', he⟩
          exact ⟨e, rfl⟩
      | ok gs =>
        dsimp only
        constructor
        · rintro ⟨e', he⟩
          cases he
        · rintro ⟨e', he⟩
          cases he
    rw [happly, mapM_error]
    refine exists_congr fun run => and_congr_right fun hrun => ?_
    rcases reorder_spec scoring temperature catalog heat seed hrun
      with ⟨run', hok, -, hall⟩ | ⟨herror, hfails⟩
    · constructor
      · rintro ⟨e, he⟩
        rw [hok] at he
        cases he
      · rintro ⟨k, item, hk, horder, hnone⟩
        exact absurd (hall k item hk horder) hnone
    · exact iff_of_true herror hfails
  · subst hzero
    have hreordered := (apply_ok catalog heat seed hout).1
    refine (apply_eq catalog heat seed out).trans ?_
    have hall : (runs out).mapM (reorder (wearEvenCycle scoring · catalog heat 0 seed)) =
        .ok (runs out) := by
      refine mapM_of_forall₂ (List.forall₂_same.mpr fun run' hrun' => ?_)
      obtain ⟨run, -, hrun, hok⟩ := Groups.exists_of_mem hreordered.flip hrun'
      exact reorder_again catalog heat seed hrun hok
    rw [hall]
    exact congrArg Except.ok (Groups.flatten_groups out)

/-- Without wear-even items the heat is not looked at, so an invalid one is no failure. -/
theorem sequential_ignores_heat :
    let item : PlaylistItem := ⟨"/a.jpg", none, .image, none, 0, .sequential⟩
    let heat : HeatGrid := ⟨0, 0, []⟩
    let scoring : Scoring ℚ := ⟨fun _ _ jitter => jitter, fun _ => true⟩
    resampleArea heat.cells heat.rows heat.cols lumaGridRows lumaGridCols = none ∧
      ¬ ∃ e, applyWearEvenGroups scoring [item] ⟨some fun _ => none⟩ heat 0 7 = .error e := by
  intro item heat scoring
  refine ⟨by decide +kernel, ?_⟩
  rintro ⟨e, he⟩
  rw [apply_eq, Groups.groups_of_forall (fun b hb => by cases hb)] at he
  cases he

end Playlist
end Dormant
