import Dormant.Wear.LedgerFile
import Dormant.Wear.WallClock

/-!
# Wear only grows

No tick takes hours from a ledger. A tick of ledgers with the configured grid does not panic, leaves
alone the displays that are not in the snapshot and keeps the grids of the others.
-/

namespace Dormant
set_option autoImplicit false

open WearLedger

/-! ## Attribution -/

theorem finiteClamp_nonneg (value : Option ℚ) : 0 ≤ finiteClamp value := by
  cases value with
  | none => exact le_refl 0
  | some value => exact le_max_left ..

theorem spanHours_nonneg (span : ℕ) : 0 ≤ spanHours span := by
  unfold spanHours nanosPerHour
  positivity

namespace WearLedger
variable {ledger ledger' : WearLedger}

theorem total_le_attributeUniform (ledger : WearLedger) (span : ℕ) (norm : Option ℚ) :
    ledger.totalOnHours ≤ (ledger.attributeUniform span norm).totalOnHours :=
  le_add_of_nonneg_right (mul_nonneg (spanHours_nonneg span) (finiteClamp_nonneg norm))

theorem total_le_attributeSpatial {span : ℕ} {norm : Option ℚ} {luma : List (Option ℚ)}
    (hdone : ledger.attributeSpatial span norm luma = .ok ledger') :
    ledger.totalOnHours ≤ ledger'.totalOnHours := by
  unfold attributeSpatial at hdone
  split at hdone
  · cases hdone
  · cases hdone
    dsimp only
    split
    · exact le_refl _
    · refine le_add_of_nonneg_right (div_nonneg (List.sum_nonneg ?_) (Nat.cast_nonneg _))
      intro x hx
      obtain ⟨value, -, rfl⟩ := List.mem_map.mp hx
      exact mul_nonneg (mul_nonneg (spanHours_nonneg span) (finiteClamp_nonneg norm))
        (finiteClamp_nonneg value)

end WearLedger

theorem WearLedger.keeps_total (hours : ℚ) : Keeps (hours ≤ ·.totalOnHours) where
  uniform other span norm h := h.trans (total_le_attributeUniform other span norm)
  spatial hdone h := h.trans (total_le_attributeSpatial hdone)

namespace WearConfig
variable (cfg : WearConfig) (display : DisplayId) (nowEpochS : UInt64) (monotonicSpan : ℕ)
  (inputs : WearInputs)

theorem trackDwell_total (stage : StageLiteral) (shortCycleS : ℕ) (w : Dwelt) :
    (trackDwell stage shortCycleS nowEpochS w).ledger.totalOnHours = w.ledger.totalOnHours := by
  obtain ⟨dwell, hdwell⟩ := trackDwell_ledger stage shortCycleS nowEpochS w
  rw [hdwell]

theorem total_le_tickLedger (d : DisplayWear) {ledger ledger' : WearLedger}
    (h : (cfg.tickLedger display nowEpochS monotonicSpan inputs d ledger).1.ledger =
      some ledger') : ledger.totalOnHours ≤ ledger'.totalOnHours := by
  cases h
  rw [trackDwell_total]
  exact (keeps_total ledger.totalOnHours).attributeDisplay (le_refl ledger.totalOnHours)
    cfg display monotonicSpan d.nativeMax inputs

end WearConfig

/-! ## Ticks of all displays -/

/-- The ledger of a display before and after a tick. -/
inductive Grows (rows cols : UInt16) : Option WearLedger → Option WearLedger → Prop
  | absent : Grows rows cols none none
  | tracked {ledger ledger' : WearLedger} (grid : ledger'.HasGrid rows cols)
    (total : ledger.totalOnHours ≤ ledger'.totalOnHours) :
      Grows rows cols (some ledger) (some ledger')

section
variable {cfg : WearConfig} {nowEpochS : UInt64} {monotonicSpan : ℕ}

def Gridded (rows cols : UInt16) (s : TrackerState) : Prop :=
  ∀ display ledger, (s display).ledger = some ledger → ledger.HasGrid rows cols

theorem tickDisplay_grows {d : DisplayWear} (display : DisplayId) (inputs : WearInputs)
    (hgrid : ∀ ledger, d.ledger = some ledger → ledger.HasGrid cfg.gridRows cfg.gridCols) :
    ∃ r, cfg.tickDisplay display nowEpochS monotonicSpan inputs d = some r ∧
      Grows cfg.gridRows cfg.gridCols d.ledger r.1.ledger := by
  cases hledger : d.ledger with
  | none =>
    refine ⟨(d, []), ?_, ?_⟩
    · unfold WearConfig.tickDisplay
      rw [hledger]
    · rw [hledger]
      exact .absent
  | some ledger =>
    have hledgerGrid := hgrid ledger hledger
    obtain ⟨ledger', hledger', hsame⟩ := WearConfig.sameGrid_tickLedger cfg display nowEpochS
      monotonicSpan inputs d ledger
    refine ⟨cfg.tickLedger display nowEpochS monotonicSpan inputs d ledger, ?_, ?_⟩
    · rw [WearConfig.tickDisplay_eq hledger,
        WearConfig.regridded_same ⟨hledgerGrid.rows_eq, hledgerGrid.cols_eq⟩]
      rfl
    · rw [hledger']
      exact .tracked (hsame.hasGrid_iff.mpr hledgerGrid)
        (cfg.total_le_tickLedger display nowEpochS monotonicSpan inputs d hledger')

theorem Grows.gridded {rows cols : UInt16} {before after : Option WearLedger}
    (h : Grows rows cols before after) {ledger : WearLedger} (hafter : after = some ledger) :
    ledger.HasGrid rows cols := by
  cases h with
  | absent => cases hafter
  | tracked grid total =>
    cases hafter
    exact grid

/-- Each display of the snapshot comes once. -/
theorem ticks_grow {displays : List (DisplayId × WearInputs)}
    (hnodup : (displays.map Prod.fst).Nodup) (r : TrackerState × List TrackerAction)
    (hgrid : Gridded cfg.gridRows cfg.gridCols r.1) :
    ∃ r', displays.foldlM (TrackerState.tickOne cfg nowEpochS monotonicSpan) r = some r' ∧
      (∀ display, Grows cfg.gridRows cfg.gridCols (r.1 display).ledger (r'.1 display).ledger) ∧
        ∀ display, display ∉ displays.map Prod.fst → r'.1 display = r.1 display := by
  induction displays generalizing r with
  | nil =>
    refine ⟨r, rfl, fun display => ?_, fun _ _ => rfl⟩
    cases hledger : (r.1 display).ledger with
    | none => exact .absent
    | some ledger => exact .tracked (hgrid display ledger hledger) (le_refl _)
  | cons entry displays ih =>
    obtain ⟨hnew, hnodup⟩ := List.nodup_cons.mp hnodup
    obtain ⟨t, htick, hgrows⟩ : ∃ t, cfg.tickDisplay entry.1 nowEpochS monotonicSpan entry.2
        (r.1 entry.1) = some t ∧
          Grows cfg.gridRows cfg.gridCols (r.1 entry.1).ledger t.1.ledger :=
      tickDisplay_grows entry.1 entry.2 (hgrid entry.1)
    have hgrid' : Gridded cfg.gridRows cfg.gridCols (Function.update r.1 entry.1 t.1) := by
      intro display ledger hledger
      by_cases h : display = entry.1
      · subst h
        rw [Function.update_self] at hledger
        exact hgrows.gridded hledger
      · rw [Function.update_of_ne h] at hledger
        exact hgrid display ledger hledger
    obtain ⟨r', hrest, hrestGrows, hsame⟩ := ih hnodup (Function.update r.1 entry.1 t.1, r.2 ++ t.2)
      hgrid'
    dsimp only at hrestGrows hsame
    refine ⟨r', ?_, fun display => ?_, fun display hdisplay => ?_⟩
    · rw [List.foldlM_cons, tickOne_eq, htick]
      exact hrest
    · by_cases h : display = entry.1
      · subst h
        rw [hsame entry.1 hnew, Function.update_self]
        exact hgrows
      · have hgrow := hrestGrows display
        rwa [Function.update_of_ne h] at hgrow
    · rw [List.map_cons, List.mem_cons, not_or] at hdisplay
      rw [hsame display hdisplay.2, Function.update_of_ne hdisplay.1]

theorem tickWithGrids_grows (tick : TrackerTick) (s : TrackerState)
    (hgrid : Gridded cfg.gridRows cfg.gridCols s) :
    ∃ r, s.tickWithGrids cfg tick.nowEpochS tick.monotonicSpan tick.displays = some r ∧
      (∀ display, Grows cfg.gridRows cfg.gridCols (s display).ledger (r.1 display).ledger) ∧
        ∀ display, display ∉ tick.displays.map Prod.fst → r.1 display = s display := by
  unfold TrackerState.tickWithGrids
  split
  · exact ticks_grow tick.nodup (s, []) hgrid
  · refine ⟨(s, []), rfl, fun display => ?_, fun _ _ => rfl⟩
    cases hledger : (s display).ledger with
    | none => exact .absent
    | some ledger => exact .tracked (hgrid display ledger hledger) (le_refl _)

end

end Dormant
