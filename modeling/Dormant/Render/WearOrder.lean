import Mathlib.Data.String.Basic
import Mathlib.Tactic.Ring
import Dormant.Foundations.Groups
import Dormant.Render.Playlist
import Dormant.Wear.Tracker

/-!
# Wear-even order

`wear_order.rs`: within each run of wear-even items of one source, bright content goes to cold
cells first. Scores are any function of the grids and the jitter into a linear order.
-/

namespace Dormant
set_option autoImplicit false

namespace Playlist

inductive WearOrderError where
  | missingLuma (uri : String)
  | invalidHeat
  | nonFiniteScore (uri : String)
  | catalogPoisoned
  deriving DecidableEq, Repr

structure HeatGrid where
  rows : UInt16
  cols : UInt16
  cells : List ℚ

/-- The map behind the lock, unless the lock is poisoned. -/
structure LumaCatalog where
  read : Option (String → Option LumaGrid)

/-- How scores are calculated, compared and found invalid. -/
structure Scoring (Score : Type) where
  score : List ℚ → List ℚ → ℚ → Score
  isFinite : Score → Bool

def jitter (temperature : ℚ) (draw : UInt64) : ℚ :=
  (draw.toNat / (UInt64.size - 1) - 1 / 2) * temperature

section
variable {Score : Type} [LinearOrder Score] (scoring : Scoring Score)

/-- The loop over the items, with the state of the generator. -/
def scoreItems (get : String → Option LumaGrid) (heatCells : List ℚ) (temperature : ℚ) :
    UInt64 → List PlaylistItem → Except WearOrderError (List (Score × PlaylistItem))
  | _, [] => .ok []
  | rng, item :: items =>
    match get item.uri with
    | none => .error (.missingLuma item.uri)
    | some luma =>
      let drawn := splitmix64Next rng
      let score := scoring.score luma.cells heatCells (jitter temperature drawn.2)
      if scoring.isFinite score then
        match scoreItems get heatCells temperature drawn.1 items with
        | .error e => .error e
        | .ok scored => .ok ((score, item) :: scored)
      else .error (.nonFiniteScore item.uri)

def before (left right : Score × PlaylistItem) : Bool :=
  decide (left.1 < right.1 ∨ left.1 = right.1 ∧ left.2.uri ≤ right.2.uri)

def wearEvenCycle (items : List PlaylistItem) (catalog : LumaCatalog) (heat : HeatGrid)
    (temperature : ℚ) (seed : UInt64) : Except WearOrderError (List PlaylistItem) :=
  if ¬ (0 ≤ temperature ∧ temperature ≤ 1) then .error .invalidHeat
  else
    match resampleArea heat.cells heat.rows heat.cols lumaGridRows lumaGridCols with
    | none => .error .invalidHeat
    | some heatCells =>
      match catalog.read with
      | none => .error .catalogPoisoned
      | some get =>
        match scoreItems scoring get heatCells temperature seed items with
        | .error e => .error e
        | .ok scored => .ok ((scored.mergeSort before).map (·.2))

end

def PlaylistItem.key (item : PlaylistItem) : ℕ × PlaylistOrder := (item.sourceIndex, item.order)

/-- The inner loop: where the group ends. -/
def groupEnd (items : List PlaylistItem) (key : ℕ × PlaylistOrder) (stop : ℕ) : ℕ :=
  if h : stop < items.length then
    if (items.get ⟨stop, h⟩).key = key then groupEnd items key (stop + 1) else stop
  else stop
termination_by items.length - stop

theorem le_groupEnd (items : List PlaylistItem) (key : ℕ × PlaylistOrder) (stop : ℕ) :
    stop ≤ groupEnd items key stop := by
  fun_induction groupEnd items key stop with
  | case1 stop h hkey ih => omega
  | case2 stop h hkey => exact le_rfl
  | case3 stop h => exact le_rfl

/-- The outer loop, at a group's start. -/
def applyFrom (cycle : List PlaylistItem → Except WearOrderError (List PlaylistItem))
    (items : List PlaylistItem) (start : ℕ) (output : List PlaylistItem) :
    Except WearOrderError (List PlaylistItem) :=
  if h : start < items.length then
    let key := (items.get ⟨start, h⟩).key
    let stop := groupEnd items key (start + 1)
    if key.2 = .wearEven then
      match cycle ((items.take stop).drop start) with
      | .error e => .error e
      | .ok ordered => applyFrom cycle items stop (output.take start ++ ordered ++ output.drop stop)
    else applyFrom cycle items stop output
  else .ok output
termination_by items.length - start
decreasing_by
  all_goals
    have := le_groupEnd items (items.get ⟨start, h⟩).key (start + 1)
    omega

def applyWearEvenGroups {Score : Type} [LinearOrder Score] (scoring : Scoring Score)
    (items : List PlaylistItem) (catalog : LumaCatalog) (heat : HeatGrid) (temperature : ℚ)
    (seed : UInt64) : Except WearOrderError (List PlaylistItem) :=
  applyFrom (wearEvenCycle scoring · catalog heat temperature seed) items 0 items

end Playlist
end Dormant
