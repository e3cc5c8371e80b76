import Dormant.Foundations.Runs
import Dormant.Wear.Tracker

/-!
# The wear tracker and the wall clock

What a tick attributes does not depend on the wall clock: two runs that differ in nothing else have
the same wear. When a tick persists does depend on it. `KeepsUp` is what the wall clock has to do
for the wear that is not persisted to stay bounded.
-/

namespace Dormant
set_option autoImplicit false

/-- A tick, whose snapshot comes from a map of displays. -/
structure TrackerTick where
  nowEpochS : UInt64
  monotonicSpan : ℕ
  displays : List (DisplayId × WearInputs)
  nodup : (displays.map Prod.fst).Nodup

/-- The ticks of one configuration. Nothing comes after a panic. -/
def wearTicks (cfg : WearConfig) : Runs.System (Option TrackerState) TrackerTick TrackerAction where
  next s tick :=
    match s.bind fun s =>
      s.tickWithGrids cfg tick.nowEpochS tick.monotonicSpan tick.displays with
    | none => (none, [])
    | some r => (some r.1, r.2)

/-! ## Attribution -/

namespace WearLedger
variable (ledger : WearLedger)

/-- A ledger but for its times. -/
def timeless : WearLedger :=
  { ledger with lastSampleAtEpochS := none, lastLongDwellEpochS := none }

theorem timeless_attributeSpatial (span : ℕ) (norm : Option ℚ) (luma : List (Option ℚ)) :
    (ledger.attributeSpatial span norm luma).map timeless =
      ledger.timeless.attributeSpatial span norm luma := by
  unfold attributeSpatial timeless
  dsimp only
  split <;> rfl

theorem timeless_resizeGrid (rows cols : UInt16) :
    (ledger.resizeGrid rows cols).map timeless = ledger.timeless.resizeGrid rows cols := by
  unfold resizeGrid
  have hregrid : ledger.timeless.regrid rows cols = ledger.regrid rows cols := rfl
  rw [hregrid]
  dsimp only [timeless]
  by_cases hempty : ledger.gridRows = 0 ∨ ledger.gridCols = 0 ∨ rows = 0 ∨ cols = 0
  · rw [if_pos hempty]
    exact (if_pos hempty).symm
  · rw [if_neg hempty]
    refine Eq.trans ?_ (if_neg hempty).symm
    by_cases hsame : ledger.gridRows = rows ∧ ledger.gridCols = cols
    · rw [if_pos hsame]
      exact (if_pos hsame).symm
    · rw [if_neg hsame]
      refine Eq.trans ?_ (if_neg hsame).symm
      cases (ledger.regrid rows cols).apportionNanos <;> rfl

end WearLedger

namespace Attributed
variable (a : Attributed) (display : DisplayId) (span : ℕ) (norm : ℚ)

def timeless : Attributed := { a with ledger := a.ledger.timeless }

theorem timeless_spatial (luma : Option LumaGrid) (mode : WearAttributionMode) :
    (a.spatial display span norm luma mode).timeless =
      a.timeless.spatial display span norm luma mode := by
  have hluma : (luma.bind fun grid => resampleArea grid.cells lumaGridRows lumaGridCols
      a.timeless.ledger.gridRows a.timeless.ledger.gridCols) = luma.bind fun grid =>
        resampleArea grid.cells lumaGridRows lumaGridCols a.ledger.gridRows a.ledger.gridCols := rfl
  unfold spatial
  rw [hluma]
  split
  · rfl
  · rename_i cells _
    have hspatial := a.ledger.timeless_attributeSpatial span (some norm) (cells.map some)
    have hledger : a.timeless.ledger = a.ledger.timeless := rfl
    rw [hledger, ← hspatial]
    cases a.ledger.attributeSpatial span (some norm) (cells.map some) <;> rfl

theorem timeless_screensaver (exposures : Option (List ScreensaverExposureSlice)) :
    (a.screensaver display span norm exposures).timeless =
      a.timeless.screensaver display span norm exposures := by
  unfold screensaver
  split
  · rfl
  · rename_i slices
    split
    · rfl
    · clear * -
      induction slices generalizing a with
      | nil => rfl
      | cons slice slices ih => rw [List.foldl_cons, List.foldl_cons, ih, timeless_spatial]

end Attributed

namespace WearConfig
variable (cfg : WearConfig) (display : DisplayId) (monotonicSpan : ℕ) (inputs : WearInputs)

theorem timeless_attributeDisplay (nativeMax : Option UInt16) (a : Attributed) :
    (cfg.attributeDisplay display monotonicSpan nativeMax inputs a).timeless =
      cfg.attributeDisplay display monotonicSpan nativeMax inputs a.timeless := by
  unfold attributeDisplay
  dsimp only
  split
  · exact a.timeless_screensaver display _ _ _
  · split
    · split
      · exact (a.push _).timeless_spatial display _ _ _ _
      · rfl
    · rfl
  · rfl

theorem timeless_regridded (ledger : WearLedger) :
    (cfg.regridded ledger).map WearLedger.timeless = cfg.regridded ledger.timeless := by
  have hrows : ledger.timeless.gridRows = ledger.gridRows := rfl
  have hcols : ledger.timeless.gridCols = ledger.gridCols := rfl
  unfold regridded
  rw [hrows, hcols]
  split
  · exact ledger.timeless_resizeGrid _ _
  · rfl

end WearConfig

/-! ## Two clocks -/

/-- What of a display the attribution reads and writes. -/
def DisplayWear.wear (d : DisplayWear) : Option WearLedger × Bool × Option UInt16 :=
  (d.ledger.map WearLedger.timeless, d.pendingSeed, d.nativeMax)

def TrackerState.wear (s : TrackerState) :
    DisplayId → Option WearLedger × Bool × Option UInt16 := fun display => (s display).wear

/-- The wear of a display in a tick, from its wear before. -/
def WearConfig.wearNext (cfg : WearConfig) (display : DisplayId) (monotonicSpan : ℕ)
    (inputs : WearInputs) (w : Option WearLedger × Bool × Option UInt16) :
    Option (Option WearLedger × Bool × Option UInt16) :=
  match w.1 with
  | none => some w
  | some ledger =>
    (cfg.regridded ledger).map fun ledger =>
      (some (cfg.attributeDisplay display monotonicSpan w.2.2 inputs
        { ledger, mode := .uniform,
          actions := if w.2.1 then [.seed display] else [] }).ledger, false, w.2.2)

section Clocks
variable (cfg : WearConfig) (display : DisplayId) (monotonicSpan : ℕ) (inputs : WearInputs)

theorem trackDwell_timeless (stage : StageLiteral) (shortCycleS : ℕ) (nowEpochS : UInt64)
    (w : Dwelt) : (trackDwell stage shortCycleS nowEpochS w).ledger.timeless =
      w.ledger.timeless := by
  unfold trackDwell
  dsimp only
  split
  · rfl
  · split
    · rfl
    · split <;> rfl

theorem wear_tickDisplay (nowEpochS : UInt64) (d : DisplayWear) :
    (cfg.tickDisplay display nowEpochS monotonicSpan inputs d).map (·.1.wear) =
      cfg.wearNext display monotonicSpan inputs d.wear := by
  unfold WearConfig.tickDisplay WearConfig.wearNext DisplayWear.wear
  cases hledger : d.ledger with
  | none => simp [hledger]
  | some ledger =>
    dsimp only [Option.map_some]
    rw [← cfg.timeless_regridded]
    cases cfg.regridded ledger with
    | none => rfl
    | some ledger =>
      simp only [Option.map_some]
      refine congrArg some (Prod.ext ?_ rfl)
      refine congrArg some ((trackDwell_timeless _ _ _ _).trans ?_)
      have hattributed := cfg.timeless_attributeDisplay display monotonicSpan inputs d.nativeMax
        { ledger, mode := .uniform, actions := if d.pendingSeed then [.seed display] else [] }
      exact congrArg (·.ledger) hattributed

/-- The wear after a tick, from the wear before. -/
def WearConfig.wearTick (cfg : WearConfig) (monotonicSpan : ℕ)
    (displays : List (DisplayId × WearInputs))
    (w : DisplayId → Option WearLedger × Bool × Option UInt16) :
    Option (DisplayId → Option WearLedger × Bool × Option UInt16) :=
  if cfg.enabled then
    displays.foldlM (fun w entry =>
      (cfg.wearNext entry.1 monotonicSpan entry.2 (w entry.1)).map
        (Function.update w entry.1)) w
  else some w

theorem tickOne_eq (nowEpochS : UInt64) (r : TrackerState × List TrackerAction)
    (entry : DisplayId × WearInputs) :
    TrackerState.tickOne cfg nowEpochS monotonicSpan r entry =
      (cfg.tickDisplay entry.1 nowEpochS monotonicSpan entry.2 (r.1 entry.1)).map fun t =>
        (Function.update r.1 entry.1 t.1, r.2 ++ t.2) := by
  unfold TrackerState.tickOne
  cases cfg.tickDisplay entry.1 nowEpochS monotonicSpan entry.2 (r.1 entry.1) <;> rfl

theorem wear_update (s : TrackerState) (d : DisplayWear) :
    TrackerState.wear (Function.update s display d) = Function.update s.wear display d.wear := by
  funext other
  unfold TrackerState.wear
  by_cases h : other = display
  · subst h
    rw [Function.update_self, Function.update_self]
  · rw [Function.update_of_ne h, Function.update_of_ne h]

theorem wear_tickWithGrids (nowEpochS : UInt64) (s : TrackerState)
    (displays : List (DisplayId × WearInputs)) :
    (s.tickWithGrids cfg nowEpochS monotonicSpan displays).map (·.1.wear) =
      cfg.wearTick monotonicSpan displays s.wear := by
  have hloop (r : TrackerState × List TrackerAction) :
      (displays.foldlM (TrackerState.tickOne cfg nowEpochS monotonicSpan) r).map (·.1.wear) =
        displays.foldlM (fun w entry => (cfg.wearNext entry.1 monotonicSpan entry.2
          (w entry.1)).map (Function.update w entry.1)) r.1.wear := by
    induction displays generalizing r with
    | nil => rfl
    | cons entry displays ih =>
      rw [List.foldlM_cons, List.foldlM_cons, tickOne_eq]
      have hwear := wear_tickDisplay cfg entry.1 monotonicSpan entry.2 nowEpochS (r.1 entry.1)
      have hbefore : r.1.wear entry.1 = (r.1 entry.1).wear := rfl
      rw [hbefore, ← hwear]
      cases cfg.tickDisplay entry.1 nowEpochS monotonicSpan entry.2 (r.1 entry.1) with
      | none => rfl
      | some t =>
        have hrest := ih (Function.update r.1 entry.1 t.1, r.2 ++ t.2)
        rw [wear_update] at hrest
        exact hrest
  unfold TrackerState.tickWithGrids WearConfig.wearTick
  split
  · exact hloop (s, [])
  · rfl

end Clocks

/-- Ticks that differ in the wall clock only. -/
def SameTick (tick tick' : TrackerTick) : Prop :=
  tick'.monotonicSpan = tick.monotonicSpan ∧ tick'.displays = tick.displays

/-- What the wear of a display comes to. -/
def WearLedger.accounts (ledger : WearLedger) : List ℚ × ℚ × UInt64 :=
  (ledger.cells, ledger.totalOnHours, ledger.sampleCount)

def TrackerState.accounts (s : TrackerState) : DisplayId → Option (List ℚ × ℚ × UInt64) :=
  fun display => (s display).ledger.map WearLedger.accounts

theorem accounts_eq (s : TrackerState) :
    s.accounts = fun display => (s.wear display).1.map WearLedger.accounts := by
  funext display
  unfold TrackerState.accounts TrackerState.wear DisplayWear.wear
  rw [Option.map_map]
  rfl

theorem wear_run (cfg : WearConfig) {ticks ticks' : List TrackerTick}
    (h : List.Forall₂ SameTick ticks ticks') {s s' : Option TrackerState}
    (hs : s.map TrackerState.wear = s'.map TrackerState.wear) :
    ((wearTicks cfg).run s ticks).map TrackerState.wear =
      ((wearTicks cfg).run s' ticks').map TrackerState.wear := by
  have hnext (s : Option TrackerState) (tick : TrackerTick) :
      ((wearTicks cfg).next s tick).1.map TrackerState.wear =
        (s.map TrackerState.wear).bind (cfg.wearTick tick.monotonicSpan tick.displays) := by
    unfold wearTicks
    cases s with
    | none => rfl
    | some s =>
      have htick := wear_tickWithGrids cfg tick.monotonicSpan tick.nowEpochS s tick.displays
      simp only [Option.bind_some, Option.map_some]
      rw [← htick]
      cases s.tickWithGrids cfg tick.nowEpochS tick.monotonicSpan tick.displays <;> rfl
  induction h generalizing s s' with
  | nil => exact hs
  | cons hsame _ ih =>
    apply ih
    rw [hnext, hnext, hsame.1, hsame.2, hs]

/-! ## What is not persisted -/

/-- The spans that actions attribute to a display. -/
def attributedTo (display : DisplayId) (actions : List TrackerAction) : ℕ :=
  (actions.map fun action =>
    match action with
    | .attributeWear d span _ _ => if d = display then span else 0
    | _ => 0).sum

theorem attributedTo_append (display : DisplayId) (as bs : List TrackerAction) :
    attributedTo display (as ++ bs) = attributedTo display as + attributedTo display bs := by
  unfold attributedTo
  rw [List.map_append, List.sum_append]

/-- Actions that tell nothing of a display. -/
def Silent (display : DisplayId) (actions : List TrackerAction) : Prop :=
  attributedTo display actions = 0 ∧ .persist display ∉ actions

theorem Silent.append {display : DisplayId} {as bs : List TrackerAction} (h : Silent display as)
    (h' : Silent display bs) : Silent display (as ++ bs) := by
  refine ⟨?_, ?_⟩
  · rw [attributedTo_append, h.1, h'.1]
  · rw [List.mem_append]
    exact fun hmem => hmem.elim h.2 h'.2

/-- Actions of one display that attribute a span and persist nothing. -/
structure Charges (display : DisplayId) (span : ℕ) (before after : List TrackerAction) : Prop where
  own : attributedTo display after = attributedTo display before + span
  others : ∀ other ≠ display, attributedTo other after = attributedTo other before
  persists : ∀ other, .persist other ∈ after ↔ .persist other ∈ before

namespace Attributed
variable (a : Attributed) (display : DisplayId) (span : ℕ) (norm : ℚ)

theorem charges_attributeWear (actions : List TrackerAction) (mode : WearAttributionMode) :
    Charges display span actions (actions ++ [.attributeWear display span norm mode]) := by
  refine ⟨?_, fun other hne => ?_, fun other => by simp⟩
  · rw [attributedTo_append]
    simp [attributedTo]
  · rw [attributedTo_append]
    simp [attributedTo, Ne.symm hne]

theorem charges_spatial (luma : Option LumaGrid) (mode : WearAttributionMode) :
    Charges display span a.actions (a.spatial display span norm luma mode).actions := by
  unfold spatial
  split
  · exact charges_attributeWear display span norm a.actions _
  · split
    · exact charges_attributeWear display span norm a.actions _
    · exact charges_attributeWear display span norm a.actions _

theorem charges_slices (slices : List ScreensaverExposureSlice) :
    Charges display (slices.map ScreensaverExposureSlice.span).sum a.actions
      (slices.foldl (fun a slice => a.spatial display slice.span norm slice.luma .uniform)
        a).actions := by
  induction slices generalizing a with
  | nil => exact ⟨rfl, fun _ _ => rfl, fun _ => Iff.rfl⟩
  | cons slice slices ih =>
    have hfirst := a.charges_spatial display slice.span norm slice.luma .uniform
    have hrest := ih (a.spatial display slice.span norm slice.luma .uniform)
    refine ⟨?_, fun other hne => ?_, fun other => ?_⟩
    · rw [List.foldl_cons, hrest.own, hfirst.own, List.map_cons, List.sum_cons]
      omega
    · rw [List.foldl_cons, hrest.others other hne, hfirst.others other hne]
    · rw [List.foldl_cons, hrest.persists, hfirst.persists]

theorem charges_screensaver (exposures : Option (List ScreensaverExposureSlice)) :
    Charges display span a.actions (a.screensaver display span norm exposures).actions := by
  unfold screensaver
  split
  · exact charges_attributeWear display span norm a.actions _
  · rename_i slices
    split
    · exact charges_attributeWear display span norm a.actions _
    · rename_i hfits
      rw [not_or, not_not] at hfits
      have hslices := a.charges_slices display norm slices
      rw [hfits.2] at hslices
      exact hslices

theorem charges_push {action : TrackerAction} (after : List TrackerAction)
    (haction : ∀ other, Silent other [action])
    (h : Charges display span (a.push action).actions after) :
    Charges display span a.actions after := by
  have hpush (other : DisplayId) :
      attributedTo other (a.push action).actions = attributedTo other a.actions := by
    unfold push
    rw [attributedTo_append, (haction other).1, Nat.add_zero]
  refine ⟨?_, fun other hne => ?_, fun other => ?_⟩
  · rw [h.own, hpush]
  · rw [h.others other hne, hpush]
  · rw [h.persists]
    unfold push
    rw [List.mem_append, or_iff_left (haction other).2]

end Attributed

namespace WearConfig
variable (cfg : WearConfig) (display : DisplayId) (monotonicSpan : ℕ) (inputs : WearInputs)

theorem charges_attributeDisplay (nativeMax : Option UInt16) (a : Attributed) :
    Charges display (cfg.span monotonicSpan (stageLiteral inputs.snapshot) inputs.exposures)
      a.actions (cfg.attributeDisplay display monotonicSpan nativeMax inputs a).actions := by
  unfold attributeDisplay
  dsimp only
  split
  · rename_i hstage
    rw [hstage]
    exact a.charges_screensaver display _ _ _
  · rename_i hstage
    rw [hstage]
    split
    · split
      · exact a.charges_push display _ _ (fun other => ⟨rfl, by simp⟩)
          ((a.push _).charges_spatial display _ _ _ _)
      · exact a.charges_push display _ _ (fun other => ⟨rfl, by simp⟩)
          (Attributed.charges_attributeWear display _ _ _ _)
    · exact Attributed.charges_attributeWear display _ _ _ _
  · exact Attributed.charges_attributeWear display _ _ _ _

/-- A display in a tick: its span is attributed, and it is persisted when its time has come. -/
theorem tickDisplay_spends {nowEpochS : UInt64} {d : DisplayWear}
    {t : DisplayWear × List TrackerAction}
    (h : cfg.tickDisplay display nowEpochS monotonicSpan inputs d = some t) :
    (∀ other ≠ display, Silent other t.2) ∧
      ((d.ledger = none ∧ Silent display t.2) ∨ d.ledger.isSome ∧
        attributedTo display t.2 =
          cfg.span monotonicSpan (stageLiteral inputs.snapshot) inputs.exposures ∧
        (.persist display ∈ t.2 ↔
          cfg.persistIntervalS ≤ nowEpochS.toNat - d.lastPersistEpochS.toNat)) := by
  have hnil (other : DisplayId) : Silent other [] := ⟨rfl, by simp⟩
  unfold tickDisplay at h
  cases hledger : d.ledger with
  | none =>
    rw [hledger] at h
    cases h
    exact ⟨fun other _ => hnil other, .inl ⟨rfl, hnil display⟩⟩
  | some ledger =>
    rw [hledger] at h
    obtain ⟨resized, -, rfl⟩ := Option.map_eq_some_iff.mp h
    obtain ⟨seeds, hseeds⟩ : ∃ seeds : List TrackerAction,
        seeds = if d.pendingSeed then [.seed display] else [] := ⟨_, rfl⟩
    have hseed (other : DisplayId) : Silent other seeds := by
      rw [hseeds]
      split
      · exact ⟨rfl, by simp⟩
      · exact hnil other
    have hcharges := cfg.charges_attributeDisplay display monotonicSpan inputs d.nativeMax
      { ledger := resized, mode := .uniform, actions := seeds }
    unfold tickLedger tickAttributed
    dsimp only
    rw [← hseeds]
    generalize cfg.attributeDisplay display monotonicSpan d.nativeMax inputs
      { ledger := resized, mode := .uniform, actions := seeds } = a at hcharges
    generalize trackDwell _ _ _ _ = w
    have hadvisory (other : DisplayId) : Silent other
        (if advisoryActive w.ledger cfg.advisoryAfter nowEpochS && !w.advisoryActive then
          [.emitAdvisory display (hoursSinceEffectiveDwell w.ledger nowEpochS)] else []) := by
      split
      · exact ⟨rfl, by simp⟩
      · exact hnil other
    generalize (if advisoryActive w.ledger cfg.advisoryAfter nowEpochS && !w.advisoryActive then
      [TrackerAction.emitAdvisory display (hoursSinceEffectiveDwell w.ledger nowEpochS)]
        else []) = advisories at hadvisory
    refine ⟨fun other hne => ?_, .inr ⟨by simp, ?_, ?_⟩⟩
    · refine Silent.append (Silent.append ⟨?_, ?_⟩ (hadvisory other)) ?_
      · rw [hcharges.others other hne, (hseed other).1]
      · rw [hcharges.persists]
        exact (hseed other).2
      · split
        · exact ⟨rfl, by simp [hne]⟩
        · exact hnil other
    · rw [attributedTo_append, attributedTo_append, hcharges.own, (hseed display).1,
        (hadvisory display).1]
      split <;> simp [attributedTo]
    · have hnot : .persist display ∉ a.actions ++ advisories := by
        rw [List.mem_append, hcharges.persists]
        exact fun hmem => hmem.elim (hseed display).2 (hadvisory display).2
      rw [List.mem_append, or_iff_right hnot]
      by_cases hpersists : cfg.persistIntervalS ≤ nowEpochS.toNat - d.lastPersistEpochS.toNat <;>
        simp [hpersists]

end WearConfig

/-- What a tick tells of a display is what its entry tells, if it has one. -/
theorem tick_display {cfg : WearConfig} {nowEpochS : UInt64} {monotonicSpan : ℕ}
    {displays : List (DisplayId × WearInputs)} (hnodup : (displays.map Prod.fst).Nodup)
    (display : DisplayId) {r₀ r : TrackerState × List TrackerAction}
    (h : displays.foldlM (TrackerState.tickOne cfg nowEpochS monotonicSpan) r₀ = some r) :
    ∃ actions, r.2 = r₀.2 ++ actions ∧ (Silent display actions ∨
      ∃ inputs t, (display, inputs) ∈ displays ∧
        cfg.tickDisplay display nowEpochS monotonicSpan inputs (r₀.1 display) = some t ∧
        attributedTo display actions = attributedTo display t.2 ∧
        (.persist display ∈ actions ↔ .persist display ∈ t.2)) := by
  induction displays generalizing r₀ with
  | nil =>
    obtain rfl : r₀ = r := Option.some.inj h
    exact ⟨[], (List.append_nil _).symm, .inl ⟨rfl, by simp⟩⟩
  | cons entry displays ih =>
    rw [List.map_cons, List.nodup_cons] at hnodup
    rw [List.foldlM_cons, tickOne_eq] at h
    cases ht : cfg.tickDisplay entry.1 nowEpochS monotonicSpan entry.2 (r₀.1 entry.1) with
    | none =>
      rw [ht] at h
      cases h
    | some t =>
      rw [ht] at h
      obtain ⟨actions, hactions, hrest⟩ := ih hnodup.2 h
      refine ⟨t.2 ++ actions, by rw [hactions, List.append_assoc], ?_⟩
      have hspends := cfg.tickDisplay_spends entry.1 monotonicSpan entry.2 ht
      by_cases hentry : display = entry.1
      · -- the other entries are of other displays
        subst hentry
        right
        have hsilent : Silent entry.1 actions := by
          rcases hrest with hsilent | ⟨inputs, t', hmem, -⟩
          · exact hsilent
          · exact absurd (List.mem_map_of_mem hmem) hnodup.1
        refine ⟨entry.2, t, List.mem_cons_self, ht, ?_, ?_⟩
        · rw [attributedTo_append, hsilent.1, Nat.add_zero]
        · rw [List.mem_append, or_iff_left hsilent.2]
      · have hother := hspends.1 display hentry
        have hsame : Function.update r₀.1 entry.1 t.1 display = r₀.1 display :=
          Function.update_of_ne hentry _ _
        rcases hrest with hsilent | ⟨inputs, t', hmem, ht', hattributed, hpersist⟩
        · exact .inl (hother.append hsilent)
        · dsimp only at ht'
          rw [hsame] at ht'
          refine .inr ⟨inputs, t', List.mem_cons_of_mem _ hmem, ht', ?_, ?_⟩
          · rw [attributedTo_append, hother.1, Nat.zero_add, hattributed]
          · rw [List.mem_append, or_iff_right hother.2, hpersist]

/-! ## The law -/

/-- The spans attributed to each display since it was persisted last. -/
def noteSpent (spent : DisplayId → ℕ) (_ : Option TrackerState) (_ : TrackerTick)
    (r : Option TrackerState × List TrackerAction) : DisplayId → ℕ := fun display =>
  if .persist display ∈ r.2 then 0 else spent display + attributedTo display r.2

def spentWatch (cfg : WearConfig) :
    Runs.System ((DisplayId → ℕ) × Option TrackerState) TrackerTick TrackerAction :=
  (wearTicks cfg).observed noteSpent

namespace WearConfig
variable (cfg : WearConfig)

/-- The persist interval, at least a second. -/
def persistBound : ℕ := max cfg.persistInterval 1000000000

/-- The slices of a tick lie in its window. -/
def Windowed (tick : TrackerTick) : Prop :=
  ∀ entry ∈ tick.displays, ∀ slices ∈ entry.2.exposures,
    (slices.map ScreensaverExposureSlice.span).sum ≤ cfg.maxSpan

/-- When the spans since the last persist exceed the persist interval with this tick, the wall
clock shows that it is over. -/
def KeepsUp (x : (DisplayId → ℕ) × Option TrackerState) (tick : TrackerTick) : Prop :=
  cfg.enabled = true → ∀ s ∈ x.2, ∀ entry ∈ tick.displays, (s entry.1).ledger.isSome →
    cfg.persistBound < x.1 entry.1 +
      cfg.span tick.monotonicSpan (stageLiteral entry.2.snapshot) entry.2.exposures →
    cfg.persistIntervalS ≤ tick.nowEpochS.toNat - (s entry.1).lastPersistEpochS.toNat

end WearConfig

section Law
variable {cfg : WearConfig} {x : (DisplayId → ℕ) × Option TrackerState} {tick : TrackerTick}

theorem span_le (hwindow : cfg.Windowed tick) {entry : DisplayId × WearInputs}
    (hentry : entry ∈ tick.displays) :
    cfg.span tick.monotonicSpan (stageLiteral entry.2.snapshot) entry.2.exposures ≤
      2 * cfg.sampleInterval := by
  unfold WearConfig.span
  split
  · rename_i slices _ hslices
    exact hwindow entry hentry slices hslices
  · exact Nat.min_le_right _ _

/-- What a tick adds to the spans of a display, and when it persists them. -/
theorem tick_spends (x : (DisplayId → ℕ) × Option TrackerState) (tick : TrackerTick)
    (display : DisplayId) : Silent display ((wearTicks cfg).next x.2 tick).2 ∨
      cfg.enabled = true ∧ ∃ s ∈ x.2, ∃ entry ∈ tick.displays, entry.1 = display ∧
        (s display).ledger.isSome ∧
        attributedTo display ((wearTicks cfg).next x.2 tick).2 =
          cfg.span tick.monotonicSpan (stageLiteral entry.2.snapshot) entry.2.exposures ∧
        (.persist display ∈ ((wearTicks cfg).next x.2 tick).2 ↔
          cfg.persistIntervalS ≤ tick.nowEpochS.toNat - (s display).lastPersistEpochS.toNat) := by
  have hnil : Silent display [] := ⟨rfl, by simp⟩
  unfold wearTicks
  dsimp only
  cases hs : x.2 with
  | none => exact .inl hnil
  | some s =>
    rw [Option.bind_some]
    cases hr : s.tickWithGrids cfg tick.nowEpochS tick.monotonicSpan tick.displays with
    | none => exact .inl hnil
    | some r =>
      dsimp only
      unfold TrackerState.tickWithGrids at hr
      split at hr
      · rename_i henabled
        obtain ⟨actions, hactions, hwhich⟩ := tick_display tick.nodup display hr
        rw [List.nil_append] at hactions
        rw [hactions]
        rcases hwhich with hsilent | ⟨inputs, t, hmem, ht, hattributed, hpersist⟩
        · exact .inl hsilent
        · obtain ⟨-, ⟨-, hsilent⟩ | ⟨hledger, hspan, hpersists⟩⟩ :=
            cfg.tickDisplay_spends display tick.monotonicSpan inputs ht
          · left
            refine ⟨hattributed.trans hsilent.1, ?_⟩
            rw [hpersist]
            exact hsilent.2
          · exact .inr ⟨henabled, s, rfl, (display, inputs), hmem, rfl, hledger,
              hattributed.trans hspan, hpersist.trans hpersists⟩
      · cases hr
        exact .inl hnil

theorem spent_next (hspent : ∀ display, x.1 display ≤ cfg.persistBound)
    (hkeeps : cfg.KeepsUp x tick) (display : DisplayId) :
    ((spentWatch cfg).next x tick).1.1 display ≤ cfg.persistBound := by
  show (if .persist display ∈ ((wearTicks cfg).next x.2 tick).2 then 0
    else x.1 display + attributedTo display ((wearTicks cfg).next x.2 tick).2) ≤ _
  split
  · exact Nat.zero_le _
  · rename_i hnot
    rcases tick_spends x tick display with hsilent |
      ⟨henabled, s, hs, entry, hentry, rfl, hledger, hspan, hpersists⟩
    · rw [hsilent.1]
      exact hspent display
    · rw [hspan]
      by_contra hover
      exact hnot (hpersists.mpr
        (hkeeps henabled s hs entry hentry hledger (Nat.lt_of_not_le hover)))

theorem unpersisted_bounded (hwindow : cfg.Windowed tick)
    (hspent : ∀ display, x.1 display ≤ cfg.persistBound) (display : DisplayId) :
    x.1 display + attributedTo display ((wearTicks cfg).next x.2 tick).2 ≤
      cfg.persistBound + 2 * cfg.sampleInterval := by
  have hbefore := hspent display
  rcases tick_spends x tick display with hsilent | ⟨-, s, hs, entry, hentry, rfl, -, hspan, -⟩
  · rw [hsilent.1]
    omega
  · rw [hspan]
    have hle := span_le hwindow hentry
    omega

end Law

/-- In two runs that differ in the wall clock only the wear is the same; and in a run whose wall
clock keeps up, what is attributed since the last persist stays within the persist interval and
two sample intervals. -/
theorem wear_ignores_wall_clock (cfg : WearConfig) (s : TrackerState)
    {ticks ticks' : List TrackerTick} (hsame : List.Forall₂ SameTick ticks ticks')
    (hwindow : ∀ tick ∈ ticks, cfg.Windowed tick) :
    (((wearTicks cfg).run (some s) ticks).map TrackerState.accounts =
        ((wearTicks cfg).run (some s) ticks').map TrackerState.accounts) ∧
      ((spentWatch cfg).Steps cfg.KeepsUp (fun _ => 0, some s) ticks →
        (spentWatch cfg).Steps (fun x tick => ∀ display,
          x.1 display + attributedTo display ((wearTicks cfg).next x.2 tick).2 ≤
            cfg.persistBound + 2 * cfg.sampleInterval) (fun _ => 0, some s) ticks) := by
  constructor
  · have hwear := wear_run cfg hsame (rfl : (some s).map TrackerState.wear = _)
    have haccounts (r : Option TrackerState) : r.map TrackerState.accounts =
        (r.map TrackerState.wear).map fun w display => (w display).1.map WearLedger.accounts := by
      cases r with
      | none => rfl
      | some r => exact congrArg some (accounts_eq r)
    rw [haccounts, haccounts, hwear]
  · intro hkeeps
    have hwindowed := Runs.System.Steps.of_mem (M := spentWatch cfg) cfg.Windowed hwindow
      (fun _ => 0, some s)
    refine (hwindowed.and hkeeps).derive (fun x => ∀ display, x.1 display ≤ cfg.persistBound)
      (fun x tick hx hi => spent_next hx hi.2) (fun x tick hx hi => unpersisted_bounded hi.1 hx)
      fun _ => Nat.zero_le _

/-! ## A clock that steps back -/

/-- The grid is two by two, a sample comes every minute and a persist every five. -/
def deskConfig : WearConfig where
  enabled := true
  sampleInterval := 60000000000
  persistInterval := 300000000000
  gridRows := 2
  gridCols := 2
  fallbackBrightness := 1
  screensaverFactor := 1
  shortCycleDwell := 600000000000
  advisoryAfter := 3600000000000
  activeSampling := false
  selectedDisplays := []

/-- A display with a ledger that was never persisted. -/
def deskTracker : TrackerState := fun _ =>
  { ledger := some (WearLedger.new ⟨"desk", "desk", none⟩ .unknown 2 2 0)
    pendingSeed := false
    advisoryActive := false
    dwellStart := none
    lastPersistEpochS := 0
    nativeMax := none }

/-- A minute of an active display. -/
def minuteAt (nowEpochS : UInt64) : TrackerTick where
  nowEpochS := nowEpochS
  monotonicSpan := 60000000000
  displays := [(⟨"desk"⟩, ⟨⟨.active, none⟩, none, none, none, none⟩)]
  nodup := by decide

theorem windowed_minuteAt (nowEpochS : UInt64) : deskConfig.Windowed (minuteAt nowEpochS) := by
  intro entry hentry slices hslices
  obtain rfl : entry = _ := List.mem_singleton.mp hentry
  cases hslices

instance (x : (DisplayId → ℕ) × Option TrackerState) (tick : TrackerTick) :
    Decidable (deskConfig.KeepsUp x tick) := by
  unfold WearConfig.KeepsUp
  exact @instDecidableForall _ _ inferInstance (Option.decidableForallMem _)

theorem wear_ignores_wall_clock_minutes :
    (((wearTicks deskConfig).run (some deskTracker) [minuteAt 1000, minuteAt 1060]).map
        TrackerState.accounts =
      ((wearTicks deskConfig).run (some deskTracker) [minuteAt 1000, minuteAt 20]).map
        TrackerState.accounts) ∧
      (spentWatch deskConfig).Steps (fun x tick => ∀ display,
        x.1 display + attributedTo display ((wearTicks deskConfig).next x.2 tick).2 ≤
          deskConfig.persistBound + 2 * deskConfig.sampleInterval)
        (fun _ => 0, some deskTracker) [minuteAt 1000, minuteAt 1060] := by
  obtain ⟨haccounts, hbound⟩ := wear_ignores_wall_clock deskConfig deskTracker
    (.cons ⟨rfl, rfl⟩ (.cons ⟨rfl, rfl⟩ .nil) : List.Forall₂ SameTick
      [minuteAt 1000, minuteAt 1060] [minuteAt 1000, minuteAt 20])
    fun tick htick => by
      simp only [List.mem_cons, List.not_mem_nil, or_false] at htick
      obtain rfl | rfl := htick <;> exact windowed_minuteAt _
  exact ⟨haccounts, hbound (by decide +kernel)⟩

/-- A persist, and then the clock goes back to what it showed long before. -/
def setBack : List TrackerTick := minuteAt 10000 :: List.replicate 8 (minuteAt 5000)

/-- Eight minutes are attributed since the persist. -/
theorem stalled_persist : (∀ tick ∈ setBack, deskConfig.Windowed tick) ∧
    ¬ (spentWatch deskConfig).Steps (fun x tick => ∀ display,
      x.1 display + attributedTo display ((wearTicks deskConfig).next x.2 tick).2 ≤
        deskConfig.persistBound + 2 * deskConfig.sampleInterval)
      (fun _ => 0, some deskTracker) setBack := by
  constructor
  · intro tick htick
    rcases List.mem_cons.mp htick with rfl | htick
    · exact windowed_minuteAt _
    · rw [List.eq_of_mem_replicate htick]
      exact windowed_minuteAt _
  · intro h
    have hdesk := h.mono fun x tick hall => hall ⟨"desk"⟩
    revert hdesk
    decide +kernel

end Dormant
