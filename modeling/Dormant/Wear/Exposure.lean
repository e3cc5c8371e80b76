import Mathlib.Algebra.GroupWithZero.Nat
import Mathlib.Logic.Function.Basic
import Dormant.Foundations.Latest
import Dormant.Foundations.Runs
import Dormant.Wear.Tracker

/-!
# Screensaver exposure

The journal of what the screensaver showed, and `collect_exposure_slices` of `wear_tracker.rs`,
which cuts an attribution window into slices at the reports of the journal. The reports of a display
are a log: a slice has the luma of the report that is in force.
-/

namespace Dormant
set_option autoImplicit false

open Latest

namespace Exposure

structure ScreensaverItemReport where
  displayId : DisplayId
  uri : Option String
  luma : Option LumaGrid
  observedAt : ℕ
  deriving DecidableEq, Repr

/-! ## Slices -/

/-- The loop over the later reports, with the current one and the cursor. -/
def exposureLoop (boundary : ℕ) :
    List ScreensaverItemReport → ScreensaverItemReport → ℕ → List ScreensaverExposureSlice
  | [], current, cursor =>
    if cursor < boundary then [⟨boundary - cursor, current.luma⟩] else []
  | report :: reports, current, cursor =>
    let upTo := min report.observedAt boundary
    let rest := exposureLoop boundary reports report upTo
    if cursor < upTo then ⟨upTo - cursor, current.luma⟩ :: rest else rest

def splitExposureSlices (reports : List ScreensaverItemReport) (start boundary : ℕ) :
    Option (List ScreensaverExposureSlice) :=
  match reports.findRev? fun report => report.observedAt ≤ start with
  | none => none
  | some current =>
    some (exposureLoop boundary (reports.filter fun report => start < report.observedAt) current
      start)

def total (slices : List ScreensaverExposureSlice) : ℕ :=
  (slices.map ScreensaverExposureSlice.span).sum

/-- The slice that covers an instant, of slices that follow each other from `start` on. -/
def sliceAt : ℕ → List ScreensaverExposureSlice → ℕ → Option ScreensaverExposureSlice
  | _, [], _ => none
  | start, slice :: slices, t =>
    if t < start + slice.span then some slice else sliceAt (start + slice.span) slices t

/-- The reports are sorted by time. -/
def Timed (reports : List ScreensaverItemReport) : Prop :=
  reports.Pairwise fun a b => a.observedAt ≤ b.observedAt

/-- The last report, in list order, at or before an instant. -/
def lastReport (reports : List ScreensaverItemReport) (t : ℕ) : Option ScreensaverItemReport :=
  (reports.filter fun report => report.observedAt ≤ t).getLast?

theorem exposureLoop_total (boundary : ℕ) (reports : List ScreensaverItemReport) :
    ∀ (current : ScreensaverItemReport) (cursor : ℕ), cursor ≤ boundary →
      (∀ report ∈ reports, cursor ≤ min report.observedAt boundary) → Timed reports →
      total (exposureLoop boundary reports current cursor) = boundary - cursor ∧
        ∀ slice ∈ exposureLoop boundary reports current cursor, 0 < slice.span := by
  induction reports with
  | nil =>
    intro current cursor hcursor _ _
    rw [exposureLoop]
    split
    · simp [total]
      omega
    · simp [total]
      omega
  | cons report reports ih =>
    intro current cursor hcursor hlater htimed
    have ⟨hhead, htail⟩ := List.pairwise_cons.mp htimed
    have hreport := hlater report (by simp)
    have ⟨htotal, hpositive⟩ := ih report (min report.observedAt boundary) (by omega)
      (by
        intro next hnext
        have := hhead next hnext
        omega) htail
    rw [exposureLoop]
    split
    · refine ⟨?_, List.forall_mem_cons.mpr ⟨?_, hpositive⟩⟩
      · unfold total at htotal ⊢
        rw [List.map_cons, List.sum_cons, htotal]
        dsimp only
        omega
      · dsimp only
        omega
    · refine ⟨?_, hpositive⟩
      rw [htotal]
      omega

theorem lastReport_cons_of_le (current report : ScreensaverItemReport)
    (reports : List ScreensaverItemReport) (t : ℕ) (h : report.observedAt ≤ t) :
    lastReport (current :: report :: reports) t = lastReport (report :: reports) t := by
  unfold lastReport
  rw [List.filter_cons]
  split
  · rw [List.filter_cons_of_pos (by simpa using h), List.getLast?_cons_cons]
  · rfl

theorem lastReport_cons_of_lt (current : ScreensaverItemReport)
    (reports : List ScreensaverItemReport) (t : ℕ) (hcurrent : current.observedAt ≤ t)
    (h : ∀ report ∈ reports, t < report.observedAt) :
    lastReport (current :: reports) t = some current := by
  have hnone : (reports.filter fun report => report.observedAt ≤ t) = [] := by
    rw [List.filter_eq_nil_iff]
    intro report hreport
    have := h report hreport
    simp
    omega
  unfold lastReport
  rw [List.filter_cons_of_pos (by simpa using hcurrent), hnone]
  rfl

/-- Each instant is in a slice, and the slice has the luma of the last report. -/
theorem exposureLoop_sliceAt (boundary : ℕ) (reports : List ScreensaverItemReport) (t : ℕ)
    (ht : t < boundary) :
    ∀ (current : ScreensaverItemReport) (cursor : ℕ), cursor ≤ t →
      min current.observedAt boundary ≤ cursor →
      (∀ report ∈ reports, cursor ≤ min report.observedAt boundary) → Timed reports →
      ∃ slice report, sliceAt cursor (exposureLoop boundary reports current cursor) t = some slice ∧
        lastReport (current :: reports) t = some report ∧ slice.luma = report.luma := by
  induction reports with
  | nil =>
    intro current cursor hcursor hcurrent _ _
    have hlast := lastReport_cons_of_lt current [] t (by omega) (by simp)
    refine ⟨⟨boundary - cursor, current.luma⟩, current, ?_, hlast, rfl⟩
    rw [exposureLoop, if_pos (by omega), sliceAt, if_pos]
    dsimp only
    omega
  | cons report reports ih =>
    intro current cursor hcursor hcurrent hlater htimed
    have ⟨hhead, htail⟩ := List.pairwise_cons.mp htimed
    have hreport := hlater report (by simp)
    rw [exposureLoop]
    by_cases hbefore : t < min report.observedAt boundary
    · have hlast : lastReport (current :: report :: reports) t = some current := by
        apply lastReport_cons_of_lt
        · omega
        · refine List.forall_mem_cons.mpr ⟨by omega, ?_⟩
          intro next hnext
          have := hhead next hnext
          omega
      refine ⟨⟨min report.observedAt boundary - cursor, current.luma⟩, current, ?_, hlast, rfl⟩
      rw [if_pos (by omega), sliceAt, if_pos]
      dsimp only
      omega
    · have ⟨slice, last, hslice, hlast, hluma⟩ := ih report (min report.observedAt boundary)
        (by omega) (Nat.le_refl _)
        (by
          intro next hnext
          have := hhead next hnext
          omega) htail
      refine ⟨slice, last, ?_, ?_, hluma⟩
      · split
        · rw [sliceAt]
          dsimp only
          have hupTo : cursor + (min report.observedAt boundary - cursor) =
              min report.observedAt boundary := by omega
          rw [hupTo, if_neg hbefore]
          exact hslice
        · have hupTo : cursor = min report.observedAt boundary := by omega
          rw [hupTo]
          exact hslice
      · rw [lastReport_cons_of_le current report reports t (by omega)]
        exact hlast

theorem findRev?_le (reports : List ScreensaverItemReport) (start : ℕ) :
    reports.findRev? (fun report => report.observedAt ≤ start) = lastReport reports start := by
  rw [List.findRev?_eq_find?_reverse, lastReport, ← List.head?_reverse, ← List.filter_reverse,
    List.head?_filter]

theorem lastReport_eq_none_iff (reports : List ScreensaverItemReport) (t : ℕ) :
    lastReport reports t = none ↔ ∀ report ∈ reports, t < report.observedAt := by
  rw [lastReport, List.getLast?_eq_none_iff, List.filter_eq_nil_iff]
  simp

/-- In a sorted log the early reports come first. -/
theorem timed_split {reports : List ScreensaverItemReport} (htimed : Timed reports) (start : ℕ) :
    reports = (reports.filter fun report => report.observedAt ≤ start) ++
      reports.filter fun report => start < report.observedAt := by
  induction reports with
  | nil => rfl
  | cons report reports ih =>
    have ⟨hhead, htail⟩ := List.pairwise_cons.mp htimed
    by_cases h : report.observedAt ≤ start
    · rw [List.filter_cons_of_pos (by simpa using h), List.filter_cons_of_neg (by simpa using h),
        List.cons_append, ← ih htail]
    · have hnone : (reports.filter fun report => report.observedAt ≤ start) = [] := by
        rw [List.filter_eq_nil_iff]
        intro next hnext
        have := hhead next hnext
        simp
        omega
      have hall : (reports.filter fun report => start < report.observedAt) = reports := by
        rw [List.filter_eq_self]
        intro next hnext
        have := hhead next hnext
        simp
        omega
      rw [List.filter_cons_of_neg (by simpa using h), List.filter_cons_of_pos (by simpa using h),
        hnone, hall, List.nil_append]

/-- The slices cut up a window, and each instant has the luma of the report in force. -/
structure Partitions (inForce : ℕ → Option ScreensaverItemReport) (start boundary : ℕ)
    (slices : List ScreensaverExposureSlice) : Prop where
  positive : ∀ slice ∈ slices, 0 < slice.span
  total : total slices = boundary - start
  shows : ∀ t, start ≤ t → t < boundary → ∃ slice report,
    sliceAt start slices t = some slice ∧ inForce t = some report ∧ slice.luma = report.luma

theorem Partitions.congr {inForce inForce' : ℕ → Option ScreensaverItemReport} {start boundary : ℕ}
    {slices : List ScreensaverExposureSlice} (h : Partitions inForce start boundary slices)
    (hcongr : ∀ t, start ≤ t → t < boundary → inForce t = inForce' t) :
    Partitions inForce' start boundary slices := by
  refine ⟨h.positive, h.total, ?_⟩
  intro t hst ht
  rw [← hcongr t hst ht]
  exact h.shows t hst ht

theorem splitExposureSlices_partitions {reports : List ScreensaverItemReport}
    (htimed : Timed reports) {start boundary : ℕ} (hstart : start ≤ boundary) :
    (splitExposureSlices reports start boundary = none ↔
        ∀ report ∈ reports, start < report.observedAt) ∧
      ∀ slices, splitExposureSlices reports start boundary = some slices →
        Partitions (lastReport reports) start boundary slices := by
  unfold splitExposureSlices
  rw [findRev?_le]
  cases hcurrent : lastReport reports start with
  | none => exact ⟨iff_of_true rfl ((lastReport_eq_none_iff reports start).mp hcurrent), by simp⟩
  | some current =>
    refine ⟨iff_of_false (by simp) ?_, ?_⟩
    · intro h
      rw [(lastReport_eq_none_iff reports start).mpr h] at hcurrent
      cases hcurrent
    intro slices hslices
    cases hslices
    have hknown : current ∈ reports ∧ current.observedAt ≤ start := by
      simpa using List.mem_of_getLast? hcurrent
    have hlater : ∀ report ∈ reports.filter fun report => start < report.observedAt,
        start ≤ min report.observedAt boundary := by
      intro report hreport
      have hlt : start < report.observedAt := by simpa using (List.mem_filter.mp hreport).2
      omega
    have htail : Timed (reports.filter fun report => start < report.observedAt) :=
      htimed.filter _
    have ⟨htotal, hpositive⟩ := exposureLoop_total boundary _ current start hstart hlater htail
    refine ⟨hpositive, htotal, ?_⟩
    intro t hst ht
    obtain ⟨slice, last, hslice, hlast, hluma⟩ :=
      exposureLoop_sliceAt boundary _ t ht current start hst (by omega) hlater htail
    refine ⟨slice, last, hslice, ?_, hluma⟩
    -- the reports up to the start count by their last one only
    rw [← hlast]
    conv_lhs => rw [timed_split htimed start]
    unfold lastReport at hcurrent ⊢
    rw [List.filter_append, List.filter_cons_of_pos (by simp; omega)]
    have hearly : ((reports.filter fun report => report.observedAt ≤ start).filter
        fun report => report.observedAt ≤ t) =
          reports.filter fun report => report.observedAt ≤ start := by
      rw [List.filter_eq_self]
      intro report hreport
      have : report.observedAt ≤ start := by simpa using (List.mem_filter.mp hreport).2
      simp
      omega
    rw [hearly, List.getLast?_append, hcurrent, List.getLast?_cons]
    cases ((reports.filter fun report => start < report.observedAt).filter
      fun report => report.observedAt ≤ t).getLast? <;> rfl

/-! ## The journal -/

def currentItemJournalCapacity : ℕ := 1024

def fromSecs (s : ℕ) : ℕ := s * 1000000000

/-- The journal, and the tracker's part of the exposure; an absent queue is empty. -/
structure JournalState where
  journal : DisplayId → List ScreensaverItemReport
  screensaverItems : DisplayId → Option ScreensaverItemReport
  screensaverTickAt : Option ℕ

def JournalState.empty : JournalState where
  journal _ := []
  screensaverItems _ := none
  screensaverTickAt := none

/-- A call of `collect_exposure_slices`, with the displays that have a ledger. -/
structure Drain where
  boundary : ℕ
  sampleInterval : ℕ
  ledgers : List DisplayId

namespace JournalState
variable (s : JournalState)

def appendItemReport (report : ScreensaverItemReport) : JournalState :=
  let queue := s.journal report.displayId
  let queue := if currentItemJournalCapacity ≤ queue.length then queue.drop 1 else queue
  { s with journal := Function.update s.journal report.displayId (queue ++ [report]) }

def windowSpan (drain : Drain) : ℕ :=
  let sampleIntervalS := max (secs drain.sampleInterval) 1
  let maxSpanS := min (sampleIntervalS * 2) 18446744073709551615
  let elapsed := s.screensaverTickAt.elim (fromSecs sampleIntervalS) (drain.boundary - ·)
  min elapsed (fromSecs maxSpanS)

def windowStart (drain : Drain) : ℕ :=
  if s.windowSpan drain ≤ drain.boundary then drain.boundary - s.windowSpan drain
  else drain.boundary

/-- The retained report and those of the queue up to the boundary, sorted by time. -/
def drainedReports (drain : Drain) (display : DisplayId) : List ScreensaverItemReport :=
  ((s.screensaverItems display).toList ++
    (s.journal display).filter fun report => report.observedAt ≤ drain.boundary).mergeSort
      fun a b => decide (a.observedAt ≤ b.observedAt)

def displaySlices (drain : Drain) (display : DisplayId) : List ScreensaverExposureSlice :=
  (splitExposureSlices (s.drainedReports drain display) (s.windowStart drain)
    drain.boundary).getD [⟨s.windowSpan drain, none⟩]

/-- Each pass of the loop touches the entries of its own display only. -/
def collectExposureSlices (drain : Drain) :
    JournalState × (DisplayId → Option (List ScreensaverExposureSlice)) :=
  ({ journal := fun display =>
      if display ∈ drain.ledgers then
        (s.journal display).filter fun report => drain.boundary < report.observedAt
      else s.journal display
     screensaverItems := fun display =>
      if display ∈ drain.ledgers then
        (s.drainedReports drain display).getLast?.or (s.screensaverItems display)
      else s.screensaverItems display
     screensaverTickAt := some drain.boundary },
    fun display => if display ∈ drain.ledgers then some (s.displaySlices drain display) else none)

end JournalState

inductive JournalOp where
  | report (report : ScreensaverItemReport)
  | drain (drain : Drain)

/-- Reports and drains in some order, and what each drain returns. -/
def journalRuns :
    Runs.System JournalState JournalOp (DisplayId → Option (List ScreensaverExposureSlice)) where
  next s
    | .report report => (s.appendItemReport report, [])
    | .drain drain => ((s.collectExposureSlices drain).1, [(s.collectExposureSlices drain).2])

def reportsOf (display : DisplayId) (ops : List JournalOp) : List ScreensaverItemReport :=
  ops.filterMap fun
    | .report report => if report.displayId = display then some report else none
    | .drain _ => none

/-- The report of a run that is in force at an instant: the last in time, and of several at one time
the last to come. -/
def inForce (display : DisplayId) (ops : List JournalOp) (t : ℕ) : Option ScreensaverItemReport :=
  latest ScreensaverItemReport.observedAt (reportsOf display ops) t

/-- Boundaries do not fall, no queue is full, and a report comes before any drain that is later
than its observation. -/
def Regular (s : JournalState) : JournalOp → Prop
  | .report report => (s.journal report.displayId).length < currentItemJournalCapacity ∧
      ∀ boundary ∈ s.screensaverTickAt, boundary ≤ report.observedAt
  | .drain drain => ∀ boundary ∈ s.screensaverTickAt, boundary ≤ drain.boundary

/-! ## Windows -/

theorem windowStart_le (s : JournalState) (drain : Drain) :
    s.windowStart drain ≤ drain.boundary := by
  unfold JournalState.windowStart
  split <;> omega

theorem tickAt_le_windowStart (s : JournalState) (drain : Drain) {boundary : ℕ}
    (hboundary : boundary ∈ s.screensaverTickAt) (hle : boundary ≤ drain.boundary) :
    boundary ≤ s.windowStart drain := by
  have hspan : s.windowSpan drain ≤ drain.boundary - boundary := by
    unfold JournalState.windowSpan
    rw [Option.mem_def.mp hboundary]
    exact Nat.min_le_left _ _
  unfold JournalState.windowStart
  split <;> omega

@[simp] theorem reportsOf_drain (display : DisplayId) (drain : Drain) (ops : List JournalOp) :
    reportsOf display (.drain drain :: ops) = reportsOf display ops := rfl

@[simp] theorem reportsOf_report (display : DisplayId) (report : ScreensaverItemReport)
    (ops : List JournalOp) :
    reportsOf display (.report report :: ops) =
      (if report.displayId = display then [report] else []) ++ reportsOf display ops := by
  unfold reportsOf
  rw [List.filterMap_cons]
  by_cases h : report.displayId = display
  · simp [h]
  · simp [h]

@[simp] theorem reportsOf_append (display : DisplayId) (ops ops' : List JournalOp) :
    reportsOf display (ops ++ ops') = reportsOf display ops ++ reportsOf display ops' :=
  List.filterMap_append

/-! ## The log and the journal -/

/-- What the tracker holds of a display stands for all that was reported of it, from the last
boundary on. -/
structure Logged (log : List ScreensaverItemReport) (s : JournalState) (display : DisplayId) :
    Prop where
  item_le : ∀ report ∈ s.screensaverItems display,
    ∃ boundary ∈ s.screensaverTickAt, report.observedAt ≤ boundary
  agrees : ∀ t, (∀ boundary ∈ s.screensaverTickAt, boundary ≤ t) →
    latest ScreensaverItemReport.observedAt log t =
      latest ScreensaverItemReport.observedAt
        ((s.screensaverItems display).toList ++ s.journal display) t

theorem logged_append {log : List ScreensaverItemReport} {s : JournalState} {display : DisplayId}
    (h : Logged log s display) (report : ScreensaverItemReport)
    (hroom : (s.journal report.displayId).length < currentItemJournalCapacity) :
    Logged (log ++ if report.displayId = display then [report] else [])
      (s.appendItemReport report) display := by
  have hqueue : (s.appendItemReport report).journal display =
      s.journal display ++ if report.displayId = display then [report] else [] := by
    unfold JournalState.appendItemReport
    dsimp only
    rw [if_neg (by omega)]
    by_cases hdisplay : report.displayId = display
    · subst hdisplay
      simp
    · rw [Function.update_of_ne (Ne.symm hdisplay), if_neg hdisplay, List.append_nil]
  refine ⟨h.item_le, ?_⟩
  intro t ht
  rw [hqueue, ← List.append_assoc]
  exact latest_append_congr (h.agrees t ht) _

/-! ## A drain -/

/-- What a drain takes of a display, in the order of its arrival. -/
def taken (s : JournalState) (drain : Drain) (display : DisplayId) : List ScreensaverItemReport :=
  (s.screensaverItems display).toList ++
    (s.journal display).filter fun report => report.observedAt ≤ drain.boundary

theorem drainedReports_timed (s : JournalState) (drain : Drain) (display : DisplayId) :
    Timed (s.drainedReports drain display) := mergeSort_sorted _

theorem lastReport_drained (s : JournalState) (drain : Drain) (display : DisplayId) (t : ℕ) :
    lastReport (s.drainedReports drain display) t =
      latest ScreensaverItemReport.observedAt (taken s drain display) t := by
  rw [lastReport, ← latest_of_sorted (drainedReports_timed s drain display) t]
  exact ((sameOrder_mergeSort _).latest_eq t).symm

/-- Of the held reports, a drain takes those that matter up to its boundary. -/
theorem held_eq_taken (s : JournalState) (drain : Drain) (display : DisplayId) (t : ℕ) :
    latest ScreensaverItemReport.observedAt
        ((s.screensaverItems display).toList ++ s.journal display) t =
      latest ScreensaverItemReport.observedAt (taken s drain display ++
        (s.journal display).filter fun report => drain.boundary < report.observedAt) t := by
  rw [taken, List.append_assoc]
  exact ((sameOrder_partition (s.journal display) drain.boundary).append_left _).latest_eq t

theorem held_eq_taken_before (s : JournalState) (drain : Drain) (display : DisplayId) {t : ℕ}
    (ht : t < drain.boundary) :
    latest ScreensaverItemReport.observedAt
        ((s.screensaverItems display).toList ++ s.journal display) t =
      latest ScreensaverItemReport.observedAt (taken s drain display) t := by
  rw [held_eq_taken s drain display t]
  apply latest_append_later
  intro report hreport
  have : drain.boundary < report.observedAt := by simpa using (List.mem_filter.mp hreport).2
  omega

theorem taken_le {log : List ScreensaverItemReport} {s : JournalState} {display : DisplayId}
    (h : Logged log s display) {drain : Drain} (hdrain : Regular s (.drain drain)) :
    ∀ report ∈ taken s drain display, report.observedAt ≤ drain.boundary := by
  intro report hreport
  rcases List.mem_append.mp hreport with hitem | hqueue
  · obtain ⟨boundary, hboundary, hle⟩ := h.item_le report (Option.mem_toList.mp hitem)
    have := hdrain boundary hboundary
    omega
  · simpa using (List.mem_filter.mp hqueue).2

/-- The item that is kept is the one in force at the boundary. -/
theorem kept_eq {log : List ScreensaverItemReport} {s : JournalState} {display : DisplayId}
    (h : Logged log s display) {drain : Drain} (hdrain : Regular s (.drain drain)) :
    (s.drainedReports drain display).getLast?.or (s.screensaverItems display) =
      latest ScreensaverItemReport.observedAt (taken s drain display) drain.boundary := by
  have hall : (s.drainedReports drain display).filter
      (fun report => report.observedAt ≤ drain.boundary) = s.drainedReports drain display := by
    rw [List.filter_eq_self]
    intro report hreport
    simpa using taken_le h hdrain report ((List.mergeSort_perm _ _).mem_iff.mp hreport)
  rw [← lastReport_drained, lastReport, hall]
  cases hlast : (s.drainedReports drain display).getLast? with
  | some report => rfl
  | none =>
    have hnone : taken s drain display = [] := by
      rw [List.getLast?_eq_none_iff] at hlast
      have hperm := List.mergeSort_perm (taken s drain display)
        fun a b => decide (a.observedAt ≤ b.observedAt)
      have hlast : (taken s drain display).mergeSort
          (fun a b => decide (a.observedAt ≤ b.observedAt)) = [] := hlast
      rw [hlast] at hperm
      exact hperm.nil_eq.symm
    have hitem := (List.append_eq_nil_iff.mp hnone).1
    rw [Option.toList_eq_nil_iff] at hitem
    rw [hitem]
    rfl

theorem logged_drain {log : List ScreensaverItemReport} {s : JournalState} {display : DisplayId}
    (h : Logged log s display) {drain : Drain} (hdrain : Regular s (.drain drain)) :
    Logged log (s.collectExposureSlices drain).1 display := by
  have hearlier {t : ℕ} (ht : ∀ boundary ∈ some drain.boundary, boundary ≤ t) :
      ∀ boundary ∈ s.screensaverTickAt, boundary ≤ t := by
    intro boundary hboundary
    have := ht drain.boundary rfl
    have := hdrain boundary hboundary
    omega
  unfold JournalState.collectExposureSlices
  by_cases hdisplay : display ∈ drain.ledgers
  · have htaken := taken_le h hdrain
    have hkept := kept_eq h hdrain
    have hkept_le : ∀ report ∈
        latest ScreensaverItemReport.observedAt (taken s drain display) drain.boundary,
        report.observedAt ≤ drain.boundary := by
      intro report hreport
      exact (isLatest_of_latest hreport).le
    refine ⟨?_, ?_⟩
    · dsimp only
      rw [if_pos hdisplay, hkept]
      intro report hreport
      exact ⟨drain.boundary, rfl, hkept_le report hreport⟩
    · dsimp only
      rw [if_pos hdisplay, if_pos hdisplay, hkept]
      intro t ht
      have hbt : drain.boundary ≤ t := ht drain.boundary rfl
      rw [h.agrees t (hearlier ht), held_eq_taken s drain display t]
      apply latest_append_congr
      rw [latest_of_le htaken hbt, latest_toList]
      intro report hreport
      have := hkept_le report hreport
      omega
  · refine ⟨?_, ?_⟩
    · dsimp only
      rw [if_neg hdisplay]
      intro report hreport
      obtain ⟨boundary, hboundary, hle⟩ := h.item_le report hreport
      have := hdrain boundary hboundary
      exact ⟨drain.boundary, rfl, by omega⟩
    · dsimp only
      rw [if_neg hdisplay, if_neg hdisplay]
      intro t ht
      exact h.agrees t (hearlier ht)

/-! ## A run -/

theorem logged_run (display : DisplayId) (ops : List JournalOp)
    (h : journalRuns.Steps Regular .empty ops) :
    Logged (reportsOf display ops) (journalRuns.run .empty ops) display := by
  induction ops using List.reverseRecOn with
  | nil => exact ⟨by simp [JournalState.empty], fun t _ => rfl⟩
  | append_singleton ops op ih =>
    rw [Runs.System.steps_append] at h
    have hop := h.2.1
    rw [Runs.System.run_append, reportsOf_append]
    cases op with
    | report report =>
      rw [reportsOf_report, show reportsOf display [] = [] from rfl, List.append_nil]
      exact logged_append (ih h.1) report hop.1
    | drain drain =>
      rw [reportsOf_drain, show reportsOf display [] = [] from rfl, List.append_nil]
      exact logged_drain (ih h.1) hop

/-- No report comes behind a boundary that is later than it. -/
theorem reports_after (display : DisplayId) (boundary : ℕ) (ops : List JournalOp) :
    ∀ s : JournalState, journalRuns.Steps Regular s ops →
      (∃ b ∈ s.screensaverTickAt, boundary ≤ b) →
      ∀ report ∈ reportsOf display ops, boundary ≤ report.observedAt := by
  induction ops with
  | nil => simp [reportsOf]
  | cons op ops ih =>
    intro s h hs report hreport
    obtain ⟨b, hb, hle⟩ := hs
    cases op with
    | report first =>
      have hfirst := h.1.2 b hb
      rw [reportsOf_report] at hreport
      rcases List.mem_append.mp hreport with hreport | hreport
      · split at hreport
        · rw [List.mem_singleton.mp hreport]
          omega
        · cases hreport
      · exact ih _ h.2 ⟨b, hb, hle⟩ report hreport
    | drain drain =>
      have hdrain := h.1 b hb
      exact ih _ h.2 ⟨drain.boundary, rfl, by omega⟩ report hreport

/-- The boundaries of a run do not fall. -/
theorem drains_before (ops : List JournalOp) (h : journalRuns.Steps Regular .empty ops) :
    ∀ earlier, .drain earlier ∈ ops →
      ∃ boundary ∈ (journalRuns.run .empty ops).screensaverTickAt, earlier.boundary ≤ boundary := by
  induction ops using List.reverseRecOn with
  | nil => simp
  | append_singleton ops op ih =>
    rw [Runs.System.steps_append] at h
    rw [Runs.System.run_append]
    intro earlier hearlier
    rcases List.mem_append.mp hearlier with hbefore | hlast
    · obtain ⟨boundary, hboundary, hle⟩ := ih h.1 earlier hbefore
      cases op with
      | report report => exact ⟨boundary, hboundary, hle⟩
      | drain drain =>
        have := h.2.1 boundary hboundary
        exact ⟨drain.boundary, rfl, by omega⟩
    · rw [← List.mem_singleton.mp hlast]
      exact ⟨earlier.boundary, rfl, Nat.le_refl _⟩

/-- Up to its boundary, a drain knows all that the run ever reports. -/
theorem inForce_taken (display : DisplayId) (before after : List JournalOp) (drain : Drain)
    (h : journalRuns.Steps Regular .empty (before ++ .drain drain :: after)) (t : ℕ)
    (hstart : (journalRuns.run .empty before).windowStart drain ≤ t) (ht : t < drain.boundary) :
    inForce display (before ++ .drain drain :: after) t =
      latest ScreensaverItemReport.observedAt
        (taken (journalRuns.run .empty before) drain display) t := by
  rw [Runs.System.steps_append] at h
  have hlogged := logged_run display before h.1
  have hlater : ∀ report ∈ reportsOf display after, t < report.observedAt := by
    intro report hreport
    have := reports_after display drain.boundary after _ h.2.2 ⟨_, rfl, Nat.le_refl _⟩ report
      hreport
    omega
  rw [inForce, reportsOf_append, reportsOf_drain, latest_append_later _ _ hlater,
    hlogged.agrees t, held_eq_taken_before _ drain display ht]
  intro boundary hboundary
  have := tickAt_le_windowStart _ drain hboundary (h.2.1 boundary hboundary)
  omega

/-- Some report of the display has come that is not later than the start of the window. -/
def KnownAtStart (display : DisplayId) (before : List JournalOp) (drain : Drain) : Prop :=
  ∃ report ∈ reportsOf display before,
    report.observedAt ≤ (journalRuns.run .empty before).windowStart drain

theorem known_iff (display : DisplayId) (before : List JournalOp) (drain : Drain)
    (h : journalRuns.Steps Regular .empty before)
    (hdrain : Regular (journalRuns.run .empty before) (.drain drain)) :
    KnownAtStart display before drain ↔
      ¬ ∀ report ∈ (journalRuns.run .empty before).drainedReports drain display,
        (journalRuns.run .empty before).windowStart drain < report.observedAt := by
  have hlogged := logged_run display before h
  generalize hs : journalRuns.run .empty before = s at hdrain hlogged ⊢
  have hstart : ∀ boundary ∈ s.screensaverTickAt, boundary ≤ s.windowStart drain :=
    fun boundary hboundary => tickAt_le_windowStart s drain hboundary (hdrain boundary hboundary)
  have hle := windowStart_le s drain
  have hlater : ∀ report ∈ (s.journal display).filter
      (fun report => drain.boundary < report.observedAt),
        s.windowStart drain < report.observedAt := by
    intro report hreport
    have : drain.boundary < report.observedAt := by simpa using (List.mem_filter.mp hreport).2
    omega
  have heq : latest ScreensaverItemReport.observedAt (reportsOf display before)
      (s.windowStart drain) =
        lastReport (s.drainedReports drain display) (s.windowStart drain) := by
    rw [hlogged.agrees _ hstart, held_eq_taken, latest_append_later _ _ hlater,
      lastReport_drained]
  rw [← lastReport_eq_none_iff, ← heq, latest_eq_none_iff, KnownAtStart, hs]
  simp only [not_forall, not_lt, exists_prop]

/-- The window of a drain, as the slices of a display have it. -/
structure Windowed (display : DisplayId) (before after : List JournalOp) (drain : Drain) :
    Prop where
  disjoint : ∀ earlier, .drain earlier ∈ before →
    earlier.boundary ≤ (journalRuns.run .empty before).windowStart drain
  known : KnownAtStart display before drain →
    Partitions (inForce display (before ++ .drain drain :: after))
      ((journalRuns.run .empty before).windowStart drain) drain.boundary
      ((journalRuns.run .empty before).displaySlices drain display)
  unknown : ¬ KnownAtStart display before drain →
    (journalRuns.run .empty before).displaySlices drain display =
      [⟨(journalRuns.run .empty before).windowSpan drain, none⟩]

theorem drain_windowed (display : DisplayId) (before after : List JournalOp) (drain : Drain)
    (h : journalRuns.Steps Regular .empty (before ++ .drain drain :: after)) :
    Windowed display before after drain := by
  have hrun := h
  rw [Runs.System.steps_append] at hrun
  have hsplit := splitExposureSlices_partitions
    (drainedReports_timed (journalRuns.run .empty before) drain display)
    (windowStart_le (journalRuns.run .empty before) drain)
  have hknown := known_iff display before drain hrun.1 hrun.2.1
  refine ⟨?_, ?_, ?_⟩
  · intro earlier hearlier
    obtain ⟨boundary, hboundary, hle⟩ := drains_before before hrun.1 earlier hearlier
    have := tickAt_le_windowStart _ drain hboundary (hrun.2.1 boundary hboundary)
    omega
  · intro hk
    rw [hknown, ← hsplit.1] at hk
    obtain ⟨slices, hslices⟩ := Option.ne_none_iff_exists'.mp hk
    rw [JournalState.displaySlices, hslices]
    refine (hsplit.2 slices hslices).congr ?_
    intro t hst ht
    rw [lastReport_drained, inForce_taken display before after drain h t hst ht]
  · intro hk
    rw [hknown, not_not, ← hsplit.1] at hk
    rw [JournalState.displaySlices, hk]
    rfl

/-! ## The tick -/

theorem spatial_actions (a : Attributed) (display : DisplayId) (span : ℕ) (norm : ℚ)
    (luma : Option LumaGrid) :
    (a.spatial display span norm luma .uniform).actions =
      a.actions ++ [.attributeWear display span norm .uniform] := by
  unfold Attributed.spatial
  split
  · rfl
  · split <;> rfl

/-- A tick attributes the slices that it is given one by one. -/
theorem screensaver_actions (a : Attributed) (display : DisplayId) (norm : ℚ)
    (slices : List ScreensaverExposureSlice) (hne : slices ≠ []) :
    (a.screensaver display (total slices) norm (some slices)).actions =
      a.actions ++ slices.map fun slice => .attributeWear display slice.span norm .uniform := by
  have hvalid : ¬ (slices.isEmpty ∨
      (slices.map ScreensaverExposureSlice.span).sum ≠ total slices) := by
    simp [total, hne]
  unfold Attributed.screensaver
  dsimp only
  rw [if_neg hvalid]
  clear hvalid hne
  induction slices generalizing a with
  | nil => simp
  | cons slice slices ih =>
    rw [List.foldl_cons, ih, spatial_actions, List.map_cons, List.append_assoc]
    rfl

/-- The slices of a window partition it; over a run the windows are disjoint, and where a report is
known at the start of a window, every instant of it has the luma of the report in force. -/
theorem exposure_partitioned :
    (∀ (reports : List ScreensaverItemReport) (start boundary : ℕ), Timed reports →
      start ≤ boundary →
        (splitExposureSlices reports start boundary = none ↔
            ∀ report ∈ reports, start < report.observedAt) ∧
          ∀ slices, splitExposureSlices reports start boundary = some slices →
            Partitions (lastReport reports) start boundary slices) ∧
      (∀ (before after : List JournalOp) (drain : Drain) (display : DisplayId),
        journalRuns.Steps Regular .empty (before ++ .drain drain :: after) →
          display ∈ drain.ledgers →
            ((journalRuns.run .empty before).collectExposureSlices drain).2 display =
                some ((journalRuns.run .empty before).displaySlices drain display) ∧
              Windowed display before after drain) ∧
      ∀ (a : Attributed) (display : DisplayId) (norm : ℚ)
        (slices : List ScreensaverExposureSlice), slices ≠ [] →
          (a.screensaver display (total slices) norm (some slices)).actions =
            a.actions ++ slices.map fun slice =>
              .attributeWear display slice.span norm .uniform := by
  refine ⟨?_, ?_, screensaver_actions⟩
  · intro reports start boundary htimed hstart
    exact splitExposureSlices_partitions htimed hstart
  · intro before after drain display h hdisplay
    exact ⟨if_pos hdisplay, drain_windowed display before after drain h⟩

def desk : DisplayId := ⟨"desk"⟩

/-- A first picture at fifteen seconds, a second one at twenty-five. -/
def firstReport : ScreensaverItemReport where
  displayId := desk
  uri := some "first.png"
  luma := some ⟨[1]⟩
  observedAt := fromSecs 15

def secondReport : ScreensaverItemReport where
  displayId := desk
  uri := some "second.png"
  luma := some ⟨[0]⟩
  observedAt := fromSecs 25

def drainAt (n : ℕ) : Drain where
  boundary := fromSecs n
  sampleInterval := fromSecs 10
  ledgers := [desk]

theorem deskRun_regular :
    journalRuns.Steps Regular .empty
      ([.report firstReport, .drain (drainAt 20), .report secondReport] ++
        .drain (drainAt 30) :: []) := by
  refine ⟨⟨by decide, ?_⟩, ?_, ⟨by decide +kernel, ?_⟩, ?_, trivial⟩
  · intro boundary hboundary
    cases hboundary
  · intro boundary hboundary
    cases hboundary
  · intro boundary hboundary
    cases hboundary
    decide
  · intro boundary hboundary
    cases hboundary
    decide

def deskWear : Attributed where
  ledger := .new ⟨"edid-1", "desk", none⟩ .unknown 1 1 0
  mode := .uniform
  actions := []

theorem exposure_partitioned_desk :
    Timed [firstReport, secondReport] ∧
      (∀ slices, splitExposureSlices [firstReport, secondReport] 0 1 = some slices →
        Partitions (lastReport [firstReport, secondReport]) 0 1 slices) ∧
      Windowed desk [.report firstReport, .drain (drainAt 20), .report secondReport] []
        (drainAt 30) ∧
      (deskWear.screensaver desk 5 1 (some [⟨5, none⟩])).actions =
        [.attributeWear desk 5 1 .uniform] := by
  have htimed : Timed [firstReport, secondReport] := by
    refine List.pairwise_cons.mpr ⟨?_, List.pairwise_singleton _ _⟩
    simp [firstReport, secondReport, fromSecs]
  refine ⟨htimed, (exposure_partitioned.1 _ 0 1 htimed (by decide)).2, ?_, ?_⟩
  · exact (exposure_partitioned.2.1 _ _ _ desk deskRun_regular (by decide)).2
  · exact exposure_partitioned.2.2 deskWear desk 1 [⟨5, none⟩] (by simp)

/-- A report in the first window of a display, at whose start nothing is known. -/
theorem first_report_unattributed :
    ¬ ∀ (before after : List JournalOp) (drain : Drain) (display : DisplayId),
      journalRuns.Steps Regular .empty (before ++ .drain drain :: after) →
        display ∈ drain.ledgers →
          ∀ report ∈ reportsOf display (before ++ .drain drain :: after),
            (journalRuns.run .empty before).windowStart drain ≤ report.observedAt →
              report.observedAt < drain.boundary →
                (sliceAt ((journalRuns.run .empty before).windowStart drain)
                    ((journalRuns.run .empty before).displaySlices drain display)
                    report.observedAt).map ScreensaverExposureSlice.luma =
                  (inForce display (before ++ .drain drain :: after) report.observedAt).map
                    ScreensaverItemReport.luma := by
  intro h
  have hregular : journalRuns.Steps Regular .empty
      ([.report firstReport] ++ .drain (drainAt 20) :: []) :=
    ((Runs.System.steps_append _ [JournalOp.report firstReport, .drain (drainAt 20)] _).mp
      deskRun_regular).1
  have hwrong := h [.report firstReport] [] (drainAt 20) desk hregular (by decide) firstReport
    (by decide +kernel) (by decide +kernel) (by decide +kernel)
  revert hwrong
  decide +kernel

end Exposure
end Dormant
