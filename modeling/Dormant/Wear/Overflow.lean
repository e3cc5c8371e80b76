import Dormant.Wear.Exposure

/-!
# A full journal

A queue of the journal drops its oldest report when it is full. `collect_exposure_slices` takes a
missing report at the start of a window for the sign of an overflow, but the item that the tracker
has kept from the drain before hides it: the instants of a dropped report are then charged to that
item. `SparedAt` is exactly when this does not happen.
-/

namespace Dormant
set_option autoImplicit false

open Latest

namespace Exposure

/-- All that was reported of each display, and what its queue has dropped since the report that the
tracker holds. -/
structure Told where
  log : DisplayId → List ScreensaverItemReport
  lost : DisplayId → List ScreensaverItemReport

def Told.nothing : Told := ⟨fun _ => [], fun _ => []⟩

/-- Whether a drain takes a report from the queue of a display. -/
def takes (s : JournalState) (drain : Drain) (display : DisplayId) : Bool :=
  (s.journal display).any fun report => report.observedAt ≤ drain.boundary

def note (told : Told) (s : JournalState) (op : JournalOp)
    (_ : JournalState × List (DisplayId → Option (List ScreensaverExposureSlice))) : Told :=
  match op with
  | .report report =>
    { log := Function.update told.log report.displayId (told.log report.displayId ++ [report])
      lost :=
        if currentItemJournalCapacity ≤ (s.journal report.displayId).length then
          Function.update told.lost report.displayId
            (told.lost report.displayId ++ (s.journal report.displayId).take 1)
        else told.lost }
  | .drain drain =>
    { told with
      lost := fun display =>
        if display ∈ drain.ledgers ∧ takes s drain display = true then [] else told.lost display }

def journalWatch :
    Runs.System (Told × JournalState) JournalOp
      (DisplayId → Option (List ScreensaverExposureSlice)) :=
  journalRuns.observed note

/-- The reports of a display come in the order of their times, and boundaries do not fall. -/
def InOrder (x : Told × JournalState) : JournalOp → Prop
  | .report report => ∀ previous ∈ (x.1.log report.displayId).getLast?,
      previous.observedAt ≤ report.observedAt
  | .drain drain => ∀ boundary ∈ x.2.screensaverTickAt, boundary ≤ drain.boundary

/-- The luma that an instant of the window is charged with. -/
def charged (s : JournalState) (drain : Drain) (display : DisplayId) (t : ℕ) : Option LumaGrid :=
  (sliceAt (s.windowStart drain) (s.displaySlices drain display) t).bind
    ScreensaverExposureSlice.luma

/-- A window charges no instant to a report that was not in force, whatever comes later, and none
whose report the queue has dropped. -/
structure HonestAt (x : Told × JournalState) (drain : Drain) (display : DisplayId) : Prop where
  shown : ∀ later : List ScreensaverItemReport,
    (∀ report ∈ later, drain.boundary ≤ report.observedAt) →
      ∀ t, x.2.windowStart drain ≤ t → t < drain.boundary →
        ∀ grid, charged x.2 drain display t = some grid →
          ∃ report, latest ScreensaverItemReport.observedAt (x.1.log display ++ later) t =
            some report ∧ report.luma = some grid
  unknown : ∀ t, x.2.windowStart drain ≤ t → t < drain.boundary →
    (∃ report ∈ x.1.lost display, report.observedAt ≤ t) →
      (∀ report ∈ x.2.journal display, t < report.observedAt) →
        charged x.2 drain display t = none

def Honest (x : Told × JournalState) : JournalOp → Prop
  | .report _ => True
  | .drain drain => ∀ display ∈ drain.ledgers, HonestAt x drain display

/-- Either the tracker holds no item with a luma, or the queue has dropped nothing since, or what it
dropped was replaced before the window or comes behind it. -/
def SparedAt (x : Told × JournalState) (drain : Drain) (display : DisplayId) : Prop :=
  ∀ item ∈ x.2.screensaverItems display, item.luma ≠ none →
    ∀ first ∈ (x.1.lost display).head?, ∀ oldest ∈ (x.2.journal display).head?,
      min oldest.observedAt drain.boundary ≤ max first.observedAt (x.2.windowStart drain)

def Spared (x : Told × JournalState) : JournalOp → Prop
  | .report _ => True
  | .drain drain => ∀ display ∈ drain.ledgers, SparedAt x drain display

/-! ## What the tracker holds -/

/-- The log is what came before the tracker's item and that item, what was dropped since, and the
queue. -/
structure Kept (x : Told × JournalState) (display : DisplayId) : Prop where
  timed : Timed (x.1.log display)
  parts : ∃ old, x.1.log display = old ++ x.1.lost display ++ x.2.journal display ∧
    x.2.screensaverItems display = old.getLast?
  queued : x.1.lost display ≠ [] → x.2.journal display ≠ []
  item_le : ∀ report ∈ x.2.screensaverItems display,
    ∃ boundary ∈ x.2.screensaverTickAt, report.observedAt ≤ boundary

theorem kept_start (display : DisplayId) : Kept (.nothing, .empty) display := by
  refine ⟨List.Pairwise.nil, ⟨[], rfl, rfl⟩, ?_, ?_⟩
  · intro h
    exact absurd rfl h
  · intro report hreport
    cases hreport

theorem timed_concat {log : List ScreensaverItemReport} (htimed : Timed log)
    (report : ScreensaverItemReport)
    (h : ∀ previous ∈ log.getLast?, previous.observedAt ≤ report.observedAt) :
    Timed (log ++ [report]) := by
  refine List.pairwise_append.mpr ⟨htimed, List.pairwise_singleton _ _, ?_⟩
  intro a ha b hb
  rw [List.mem_singleton.mp hb]
  induction log using List.reverseRecOn with
  | nil => cases ha
  | append_singleton log last _ =>
    have hlast := h last (by simp)
    rcases List.mem_append.mp ha with ha | ha
    · have := (List.pairwise_append.mp htimed).2.2 a ha last (by simp)
      omega
    · rw [List.mem_singleton.mp ha]
      exact hlast

theorem kept_report {x : Told × JournalState} {display : DisplayId} (h : Kept x display)
    (report : ScreensaverItemReport) (horder : InOrder x (.report report)) :
    Kept (journalWatch.next x (.report report)).1 display := by
  show Kept (note x.1 x.2 (.report report) _, x.2.appendItemReport report) display
  by_cases hdisplay : display = report.displayId
  · subst hdisplay
    obtain ⟨old, hlog, hitem⟩ := h.parts
    by_cases hfull : currentItemJournalCapacity ≤ (x.2.journal report.displayId).length
    · -- the oldest report of the queue joins what is lost
      have hqueue : (x.2.journal report.displayId).take 1 ++
          (x.2.journal report.displayId).drop 1 = x.2.journal report.displayId :=
        List.take_append_drop 1 _
      refine ⟨?_, ⟨old, ?_, hitem⟩, ?_, h.item_le⟩
      · simpa [note] using timed_concat h.timed report horder
      · simp only [note, JournalState.appendItemReport, if_pos hfull, Function.update_self]
        rw [hlog]
        simp only [List.append_assoc]
        rw [← List.append_assoc (List.take 1 _), hqueue]
      · intro _
        simp [JournalState.appendItemReport]
    · refine ⟨?_, ⟨old, ?_, hitem⟩, ?_, h.item_le⟩
      · simpa [note] using timed_concat h.timed report horder
      · simp only [note, JournalState.appendItemReport, if_neg hfull, Function.update_self]
        rw [hlog]
        simp only [List.append_assoc]
      · intro _
        simp [JournalState.appendItemReport]
  · have hlog : (note x.1 x.2 (.report report)
        (journalRuns.next x.2 (.report report))).log display = x.1.log display :=
      Function.update_of_ne hdisplay _ _
    have hlost : (note x.1 x.2 (.report report)
        (journalRuns.next x.2 (.report report))).lost display = x.1.lost display := by
      simp only [note]
      split
      · exact Function.update_of_ne hdisplay _ _
      · rfl
    have hqueue : (x.2.appendItemReport report).journal display = x.2.journal display :=
      Function.update_of_ne hdisplay _ _
    refine ⟨?_, ?_, ?_, h.item_le⟩
    · rw [hlog]
      exact h.timed
    · rw [hlog, hlost, hqueue]
      exact h.parts
    · rw [hlost, hqueue]
      exact h.queued

theorem getLast?_toList_sublist (l : List ScreensaverItemReport) :
    List.Sublist l.getLast?.toList l := by
  induction l using List.reverseRecOn with
  | nil => exact List.Sublist.slnil
  | append_singleton l x _ => simp

/-- The item and the queue are in order. -/
theorem held_timed {x : Told × JournalState} {display : DisplayId} (h : Kept x display) :
    Timed ((x.2.screensaverItems display).toList ++ x.2.journal display) := by
  obtain ⟨old, hlog, hitem⟩ := h.parts
  have hsub : List.Sublist ((x.2.screensaverItems display).toList ++ x.2.journal display)
      (x.1.log display) := by
    rw [hlog, hitem]
    apply List.Sublist.append
    · exact (getLast?_toList_sublist old).trans (List.sublist_append_left _ _)
    · exact List.Sublist.refl _
  exact h.timed.sublist hsub

theorem drained_eq_taken {x : Told × JournalState} {display : DisplayId} (h : Kept x display)
    (drain : Drain) : x.2.drainedReports drain display = taken x.2 drain display := by
  have htimed : Timed (taken x.2 drain display) := by
    refine (held_timed h).sublist ?_
    exact List.Sublist.append (List.Sublist.refl _) List.filter_sublist
  exact List.mergeSort_of_pairwise (htimed.imp fun hab => by simpa using hab)

theorem takes_iff (s : JournalState) (drain : Drain) (display : DisplayId) :
    takes s drain display = true ↔
      (s.journal display).filter (fun report => report.observedAt ≤ drain.boundary) ≠ [] := by
  rw [takes, List.any_eq_true, Ne, List.filter_eq_nil_iff]
  simp

theorem kept_drain {x : Told × JournalState} {display : DisplayId} (h : Kept x display)
    (drain : Drain) (horder : InOrder x (.drain drain)) :
    Kept (journalWatch.next x (.drain drain)).1 display := by
  show Kept (note x.1 x.2 (.drain drain) _, (x.2.collectExposureSlices drain).1) display
  have hdrained := drained_eq_taken h drain
  have hearlier : ∀ report ∈ x.2.screensaverItems display,
      report.observedAt ≤ drain.boundary := by
    intro report hreport
    obtain ⟨boundary, hboundary, hle⟩ := h.item_le report hreport
    have := horder boundary hboundary
    omega
  by_cases hdisplay : display ∈ drain.ledgers
  · have hqueue := timed_split (List.pairwise_append.mp (held_timed h)).2.1 drain.boundary
    obtain ⟨old, hlog, hitem⟩ := h.parts
    by_cases htakes : takes x.2 drain display = true
    · -- the last report that is taken becomes the item
      have hsome := (takes_iff x.2 drain display).mp htakes
      have hlast := List.getLast?_eq_some_getLast hsome
      refine ⟨h.timed, ⟨old ++ x.1.lost display ++ (x.2.journal display).filter
        (fun report => report.observedAt ≤ drain.boundary), ?_, ?_⟩, ?_, ?_⟩
      · simp only [note, JournalState.collectExposureSlices, hdisplay, htakes, and_self, if_true,
          List.append_nil]
        rw [List.append_assoc, ← hqueue]
        exact hlog
      · simp only [JournalState.collectExposureSlices, hdisplay, if_true]
        rw [hdrained, taken, List.getLast?_append, List.getLast?_append, hlast]
        rfl
      · simp only [note, hdisplay, htakes, and_self, if_true]
        intro hne
        exact absurd rfl hne
      · simp only [JournalState.collectExposureSlices, hdisplay, if_true]
        intro report hreport
        rw [hdrained, taken, List.getLast?_append, hlast] at hreport
        cases hreport
        refine ⟨drain.boundary, rfl, ?_⟩
        simpa using (List.mem_filter.mp (List.getLast_mem hsome)).2
    · have hnone : (x.2.journal display).filter
          (fun report => report.observedAt ≤ drain.boundary) = [] :=
        Classical.not_not.mp fun hne => htakes ((takes_iff x.2 drain display).mpr hne)
      have hrest : (x.2.journal display).filter
          (fun report => drain.boundary < report.observedAt) = x.2.journal display := by
        rw [hnone] at hqueue
        exact hqueue.symm
      have hsame : (taken x.2 drain display).getLast?.or (x.2.screensaverItems display) =
          x.2.screensaverItems display := by
        rw [taken, hnone, List.append_nil]
        cases x.2.screensaverItems display <;> rfl
      refine ⟨h.timed, ⟨old, ?_, ?_⟩, ?_, ?_⟩
      · simp only [note, JournalState.collectExposureSlices, hdisplay, htakes, if_true, hrest]
        exact hlog
      · simp only [JournalState.collectExposureSlices, hdisplay, if_true]
        rw [hdrained, hsame]
        exact hitem
      · simp only [note, JournalState.collectExposureSlices, hdisplay, htakes, if_true, hrest]
        exact h.queued
      · simp only [JournalState.collectExposureSlices, hdisplay, if_true]
        rw [hdrained, hsame]
        intro report hreport
        exact ⟨drain.boundary, rfl, hearlier report hreport⟩
  · refine ⟨h.timed, ?_, ?_, ?_⟩
    · simp only [note, JournalState.collectExposureSlices, hdisplay, false_and, if_false]
      exact h.parts
    · simp only [note, JournalState.collectExposureSlices, hdisplay, false_and, if_false]
      exact h.queued
    · simp only [JournalState.collectExposureSlices, hdisplay, if_false]
      intro report hreport
      exact ⟨drain.boundary, rfl, hearlier report hreport⟩

theorem kept_next (display : DisplayId) (x : Told × JournalState) (op : JournalOp)
    (h : Kept x display) (horder : InOrder x op) : Kept (journalWatch.next x op).1 display := by
  cases op with
  | report report => exact kept_report h report horder
  | drain drain => exact kept_drain h drain horder

/-! ## A window -/

/-- What an instant is charged with, from the item and the queue. -/
theorem charged_eq {x : Told × JournalState} {display : DisplayId} (h : Kept x display)
    (drain : Drain) {t : ℕ} (hst : x.2.windowStart drain ≤ t) (ht : t < drain.boundary) :
    charged x.2 drain display t =
      if ∀ report ∈ taken x.2 drain display, x.2.windowStart drain < report.observedAt then none
      else (lastReport (taken x.2 drain display) t).bind ScreensaverItemReport.luma := by
  have hsplit := splitExposureSlices_partitions (drainedReports_timed x.2 drain display)
    (windowStart_le x.2 drain)
  rw [drained_eq_taken h drain] at hsplit
  unfold charged JournalState.displaySlices
  rw [drained_eq_taken h drain]
  cases hslices : splitExposureSlices (taken x.2 drain display) (x.2.windowStart drain)
      drain.boundary with
  | none =>
    rw [if_pos (hsplit.1.mp hslices), Option.getD_none, sliceAt]
    split <;> rfl
  | some slices =>
    have hknown : ¬ ∀ report ∈ taken x.2 drain display,
        x.2.windowStart drain < report.observedAt := by
      intro hnone
      rw [hsplit.1.mpr hnone] at hslices
      cases hslices
    obtain ⟨slice, report, hslice, hreport, hluma⟩ := (hsplit.2 slices hslices).shows t hst ht
    rw [if_neg hknown, Option.getD_some, hslice, hreport]
    exact hluma

theorem lastReport_append_of_none (reports later : List ScreensaverItemReport) (t : ℕ)
    (h : ∀ report ∈ later, t < report.observedAt) :
    lastReport (reports ++ later) t = lastReport reports t := by
  have hnone : (later.filter fun report => report.observedAt ≤ t) = [] := by
    rw [List.filter_eq_nil_iff]
    intro report hreport
    have := h report hreport
    simp
    omega
  rw [lastReport, List.filter_append, hnone, List.append_nil, lastReport]

theorem lastReport_append_of_some (reports later : List ScreensaverItemReport) (t : ℕ)
    (h : ∃ report ∈ later, report.observedAt ≤ t) :
    lastReport (reports ++ later) t = lastReport later t := by
  have hsome : (later.filter fun report => report.observedAt ≤ t) ≠ [] := by
    obtain ⟨report, hreport, hle⟩ := h
    exact List.ne_nil_of_mem (List.mem_filter.mpr ⟨hreport, by simpa using hle⟩)
  rw [lastReport, List.filter_append, List.getLast?_append, List.getLast?_eq_some_getLast hsome,
    lastReport, List.getLast?_eq_some_getLast hsome]
  rfl

/-- The first of a sorted list is not later than any of it. -/
theorem head_le {reports : List ScreensaverItemReport} (htimed : Timed reports)
    {first : ScreensaverItemReport} (hfirst : first ∈ reports.head?) :
    ∀ report ∈ reports, first.observedAt ≤ report.observedAt := by
  intro report hreport
  cases reports with
  | nil => cases hfirst
  | cons head tail =>
    cases hfirst
    rcases List.mem_cons.mp hreport with heq | htail
    · rw [heq]
    · exact (List.pairwise_cons.mp htimed).1 report htail

theorem exists_head {reports : List ScreensaverItemReport} (hne : reports ≠ []) :
    ∃ first, first ∈ reports.head? := by
  cases reports with
  | nil => exact absurd rfl hne
  | cons head tail => exact ⟨head, rfl⟩

/-- Without a report of the queue, only the item is left. -/
theorem last_of_unqueued {s : JournalState} {display : DisplayId} (drain : Drain) {t : ℕ}
    (hunqueued : ∀ report ∈ s.journal display, t < report.observedAt) :
    lastReport (taken s drain display) t =
      lastReport (s.screensaverItems display).toList t := by
  rw [taken, lastReport_append_of_none]
  intro report hreport
  exact hunqueued report (List.mem_filter.mp hreport).1

section
variable {x : Told × JournalState} {display : DisplayId} (h : Kept x display) {drain : Drain}
  {t : ℕ} (ht : t < drain.boundary)
include h ht

/-- The queue alone decides an instant that one of its reports covers. -/
theorem last_of_queued (hqueued : ∃ report ∈ x.2.journal display, report.observedAt ≤ t) :
    lastReport (taken x.2 drain display) t = lastReport (x.2.journal display) t ∧
      lastReport (x.1.log display) t = lastReport (x.2.journal display) t := by
  obtain ⟨old, hlog, _⟩ := h.parts
  have hfilter : lastReport ((x.2.journal display).filter
      fun report => report.observedAt ≤ drain.boundary) t =
        lastReport (x.2.journal display) t := by
    unfold lastReport
    rw [List.filter_filter]
    congr 1
    apply List.filter_congr
    intro report _
    by_cases hle : report.observedAt ≤ t
    · have : report.observedAt ≤ drain.boundary := by omega
      simp [hle, this]
    · simp [hle]
  constructor
  · rw [taken, lastReport_append_of_some, hfilter]
    obtain ⟨report, hreport, hle⟩ := hqueued
    exact ⟨report, List.mem_filter.mpr ⟨hreport, by simp; omega⟩, hle⟩
  · rw [hlog, lastReport_append_of_some _ _ _ hqueued]

omit ht in
theorem item_last {item : ScreensaverItemReport} (hitem : item ∈ x.2.screensaverItems display)
    (hle : item.observedAt ≤ t) (hlost : ∀ report ∈ x.1.lost display, t < report.observedAt)
    (hunqueued : ∀ report ∈ x.2.journal display, t < report.observedAt) :
    lastReport (x.1.log display) t = some item := by
  obtain ⟨old, hlog, hlast⟩ := h.parts
  have htimed := h.timed
  rw [hlog] at htimed
  have hold : Timed old :=
    (List.pairwise_append.mp (List.pairwise_append.mp htimed).1).1
  have hitem : old.getLast? = some item := by rw [← hlast, Option.mem_def.mp hitem]
  rw [hlog, lastReport_append_of_none _ _ _ hunqueued, lastReport_append_of_none _ _ _ hlost]
  obtain ⟨before, rfl⟩ := List.getLast?_eq_some_iff.mp hitem
  have hall : ((before ++ [item]).filter fun report => report.observedAt ≤ t) =
      before ++ [item] := by
    rw [List.filter_eq_self]
    intro report hreport
    rcases List.mem_append.mp hreport with hbefore | hitem
    · have := (List.pairwise_append.mp hold).2.2 report hbefore item (by simp)
      simp
      omega
    · rw [List.mem_singleton.mp hitem]
      simpa using hle
  rw [lastReport, hall]
  exact hitem

end

/-- An instant charged to the item, while a dropped report was in force, is what `SparedAt` rules
out. -/
theorem spared_instant {x : Told × JournalState} {display : DisplayId} (h : Kept x display)
    {drain : Drain} (hspared : SparedAt x drain display) {t : ℕ}
    (hst : x.2.windowStart drain ≤ t) (ht : t < drain.boundary)
    (hunqueued : ∀ report ∈ x.2.journal display, t < report.observedAt)
    (hlost : ∃ report ∈ x.1.lost display, report.observedAt ≤ t) {item : ScreensaverItemReport}
    (hitem : item ∈ x.2.screensaverItems display) : item.luma = none := by
  obtain ⟨report, hreport, hle⟩ := hlost
  obtain ⟨old, hlog, _⟩ := h.parts
  have htimed := h.timed
  rw [hlog] at htimed
  have hlostTimed : Timed (x.1.lost display) :=
    (List.pairwise_append.mp (List.pairwise_append.mp htimed).1).2.1
  obtain ⟨first, hfirst⟩ := exists_head (List.ne_nil_of_mem hreport)
  obtain ⟨oldest, holdest⟩ := exists_head (h.queued (List.ne_nil_of_mem hreport))
  have hfirst_le := head_le hlostTimed hfirst report hreport
  have holdest_lt := hunqueued oldest (List.mem_of_mem_head? holdest)
  by_contra hluma
  have := hspared item hitem hluma first hfirst oldest holdest
  omega

theorem honestAt_of_sparedAt {x : Told × JournalState} {display : DisplayId}
    (h : Kept x display) {drain : Drain} (hspared : SparedAt x drain display) :
    HonestAt x drain display := by
  have hitem {t : ℕ} {report : ScreensaverItemReport}
      (hlast : lastReport (x.2.screensaverItems display).toList t = some report) :
      report ∈ x.2.screensaverItems display ∧ report.observedAt ≤ t := by
    have hmem := List.mem_filter.mp (List.mem_of_getLast? hlast)
    exact ⟨Option.mem_toList.mp hmem.1, by simpa using hmem.2⟩
  refine ⟨?_, ?_⟩
  · intro later hlater t hst ht grid hgrid
    rw [charged_eq h drain hst ht] at hgrid
    split at hgrid
    · cases hgrid
    obtain ⟨report, hlast, hluma⟩ := Option.bind_eq_some_iff.mp hgrid
    refine ⟨report, ?_, hluma⟩
    have hpast : ∀ report ∈ later, t < report.observedAt := by
      intro report hreport
      have := hlater report hreport
      omega
    rw [latest_append_later _ _ hpast, latest_of_sorted h.timed]
    show lastReport (x.1.log display) t = some report
    by_cases hqueued : ∃ report ∈ x.2.journal display, report.observedAt ≤ t
    · have hboth := last_of_queued h ht hqueued
      rw [hboth.2, ← hboth.1, hlast]
    · have hunqueued : ∀ report ∈ x.2.journal display, t < report.observedAt := by
        intro report hreport
        by_contra hle
        exact hqueued ⟨report, hreport, by omega⟩
      rw [last_of_unqueued drain hunqueued] at hlast
      have hheld := hitem hlast
      by_cases hlost : ∃ report ∈ x.1.lost display, report.observedAt ≤ t
      · rw [spared_instant h hspared hst ht hunqueued hlost hheld.1] at hluma
        cases hluma
      · refine item_last h hheld.1 hheld.2 ?_ hunqueued
        intro report hreport
        by_contra hle
        exact hlost ⟨report, hreport, by omega⟩
  · intro t hst ht hlost hunqueued
    rw [charged_eq h drain hst ht]
    split
    · rfl
    · rw [last_of_unqueued drain hunqueued]
      cases hlast : lastReport (x.2.screensaverItems display).toList t with
      | none => rfl
      | some report => exact spared_instant h hspared hst ht hunqueued hlost (hitem hlast).1

theorem sparedAt_of_honestAt {x : Told × JournalState} {display : DisplayId}
    (h : Kept x display) {drain : Drain} (horder : InOrder x (.drain drain))
    (hhonest : HonestAt x drain display) : SparedAt x drain display := by
  intro item hitem hluma first hfirst oldest holdest
  by_contra hmeets
  -- the first instant of the window at which a dropped report was in force
  have hst : x.2.windowStart drain ≤ max first.observedAt (x.2.windowStart drain) :=
    Nat.le_max_right _ _
  have ht : max first.observedAt (x.2.windowStart drain) < drain.boundary := by omega
  have hqueueTimed : Timed (x.2.journal display) :=
    (List.pairwise_append.mp (held_timed h)).2.1
  have hunqueued : ∀ report ∈ x.2.journal display,
      max first.observedAt (x.2.windowStart drain) < report.observedAt := by
    intro report hreport
    have := head_le hqueueTimed holdest report hreport
    omega
  have hnone := hhonest.unknown _ hst ht
    ⟨first, List.mem_of_mem_head? hfirst, Nat.le_max_left _ _⟩ hunqueued
  have hearly : item.observedAt ≤ x.2.windowStart drain := by
    obtain ⟨boundary, hboundary, hle⟩ := h.item_le item hitem
    have := tickAt_le_windowStart x.2 drain hboundary (horder boundary hboundary)
    omega
  have hknown : ¬ ∀ report ∈ taken x.2 drain display,
      x.2.windowStart drain < report.observedAt := by
    intro hall
    have := hall item (List.mem_append_left _ (Option.mem_toList.mpr hitem))
    omega
  rw [charged_eq h drain hst ht, if_neg hknown, last_of_unqueued drain hunqueued,
    Option.mem_def.mp hitem, Option.toList_some,
    lastReport_cons_of_lt item [] _ (by omega) (by simp)] at hnone
  exact hluma hnone

/-! ## The law -/

def KeptAll (x : Told × JournalState) : Prop := ∀ display, Kept x display

theorem honest_iff_spared {x : Told × JournalState} (h : KeptAll x) {op : JournalOp}
    (horder : InOrder x op) : Honest x op ↔ Spared x op := by
  cases op with
  | report report => exact Iff.rfl
  | drain drain =>
    constructor
    · intro hhonest display hdisplay
      exact sparedAt_of_honestAt (h display) horder (hhonest display hdisplay)
    · intro hspared display hdisplay
      exact honestAt_of_sparedAt (h display) (hspared display hdisplay)

/-- In a run whose reports and drains are in order, every drain charges the right images exactly
when every drain is spared. -/
theorem overflow_honest_iff (ops : List JournalOp)
    (horder : journalWatch.Steps InOrder (.nothing, .empty) ops) :
    journalWatch.Steps Honest (.nothing, .empty) ops ↔
      journalWatch.Steps Spared (.nothing, .empty) ops := by
  have hnext : ∀ (C : Told × JournalState → JournalOp → Prop) x op, KeptAll x →
      InOrder x op ∧ C x op → KeptAll (journalWatch.next x op).1 :=
    fun _ x op h hC display => kept_next display x op (h display) hC.1
  constructor
  · intro hhonest
    exact (horder.and hhonest).derive KeptAll (hnext Honest)
      (fun x op h hC => (honest_iff_spared h hC.1).mp hC.2) kept_start
  · intro hspared
    exact (horder.and hspared).derive KeptAll (hnext Spared)
      (fun x op h hC => (honest_iff_spared h hC.1).mpr hC.2) kept_start

/-! ## A full queue -/

/-- The picture before the window, then the end of the screensaver, then a picture that is reported
over and over. -/
def earlyReport : ScreensaverItemReport where
  displayId := desk
  uri := some "first.png"
  luma := some ⟨[1]⟩
  observedAt := fromSecs 5

def endReport : ScreensaverItemReport where
  displayId := desk
  uri := none
  luma := none
  observedAt := fromSecs 12

def floodReport : ScreensaverItemReport where
  displayId := desk
  uri := some "second.png"
  luma := some ⟨[0]⟩
  observedAt := fromSecs 15

def beforeFlood : List JournalOp := [.report earlyReport, .drain (drainAt 10), .report endReport]

def flood (n : ℕ) : List JournalOp := List.replicate n (.report floodReport)

theorem beforeFlood_inOrder : journalWatch.Steps InOrder (.nothing, .empty) beforeFlood := by
  refine ⟨?_, ?_, ?_, trivial⟩
  · intro previous hprevious
    cases hprevious
  · intro boundary hboundary
    cases hboundary
  · intro previous hprevious
    have hlast : some earlyReport = some previous := hprevious
    cases hlast
    decide

theorem overflow_honest_iff_desk :
    journalWatch.Steps Honest (.nothing, .empty) (beforeFlood ++ [.drain (drainAt 20)]) ↔
      journalWatch.Steps Spared (.nothing, .empty) (beforeFlood ++ [.drain (drainAt 20)]) := by
  apply overflow_honest_iff
  refine (Runs.System.steps_append _ _ _).mpr ⟨beforeFlood_inOrder, ?_, trivial⟩
  intro boundary hboundary
  have htick : some (fromSecs 10) = some boundary := hboundary
  cases htick
  decide

theorem flood_inOrder (n : ℕ) : ∀ x : Told × JournalState,
    (∀ previous ∈ (x.1.log desk).getLast?, previous.observedAt ≤ floodReport.observedAt) →
      journalWatch.Steps InOrder x (flood n) := by
  induction n with
  | zero =>
    intro x _
    trivial
  | succ n ih =>
    intro x hx
    refine ⟨hx, ih _ ?_⟩
    intro previous hprevious
    have hlog : (journalWatch.next x (.report floodReport)).1.1.log desk =
        x.1.log desk ++ [floodReport] := by
      show Function.update x.1.log desk (x.1.log desk ++ [floodReport]) desk = _
      exact Function.update_self _ _ _
    rw [hlog, List.getLast?_concat] at hprevious
    cases hprevious
    exact Nat.le_refl _

/-- As long as there is room, the queue takes them all. -/
theorem flood_queued (n : ℕ) : ∀ x : Told × JournalState,
    (x.2.journal desk).length + n ≤ currentItemJournalCapacity →
      (journalWatch.run x (flood n)).2.journal desk =
          x.2.journal desk ++ List.replicate n floodReport ∧
        (journalWatch.run x (flood n)).2.screensaverItems = x.2.screensaverItems ∧
        (journalWatch.run x (flood n)).2.screensaverTickAt = x.2.screensaverTickAt ∧
        (journalWatch.run x (flood n)).1.lost = x.1.lost := by
  induction n with
  | zero =>
    intro x _
    simp [flood]
  | succ n ih =>
    intro x hroom
    have hspare : ¬ currentItemJournalCapacity ≤ (x.2.journal floodReport.displayId).length := by
      show ¬ currentItemJournalCapacity ≤ (x.2.journal desk).length
      omega
    have hqueue : (journalWatch.next x (.report floodReport)).1.2.journal desk =
        x.2.journal desk ++ [floodReport] := by
      show (x.2.appendItemReport floodReport).journal desk = _
      unfold JournalState.appendItemReport
      dsimp only
      rw [if_neg hspare]
      exact Function.update_self _ _ _
    have hlost : (journalWatch.next x (.report floodReport)).1.1.lost = x.1.lost :=
      if_neg hspare
    have hrest := ih (journalWatch.next x (.report floodReport)).1 (by
      rw [hqueue, List.length_append, List.length_singleton]
      omega)
    rw [hqueue, hlost] at hrest
    have hrun : journalWatch.run x (flood (n + 1)) =
        journalWatch.run (journalWatch.next x (.report floodReport)).1 (flood n) := rfl
    rw [hrun]
    refine ⟨?_, hrest.2.1, hrest.2.2.1, hrest.2.2.2⟩
    rw [hrest.1, List.append_assoc, List.replicate_succ]
    rfl

/-- One more, and the oldest is lost. -/
theorem flood_dropped (x : Told × JournalState)
    (hfull : currentItemJournalCapacity ≤ (x.2.journal desk).length) :
    (journalWatch.next x (.report floodReport)).1.1.lost desk =
        x.1.lost desk ++ (x.2.journal desk).take 1 ∧
      (journalWatch.next x (.report floodReport)).1.2.journal desk =
        (x.2.journal desk).drop 1 ++ [floodReport] := by
  constructor
  · show (if currentItemJournalCapacity ≤ (x.2.journal desk).length then
      Function.update x.1.lost desk (x.1.lost desk ++ (x.2.journal desk).take 1)
      else x.1.lost) desk = _
    rw [if_pos hfull, Function.update_self]
  · show Function.update x.2.journal desk
      ((if currentItemJournalCapacity ≤ (x.2.journal desk).length then
        (x.2.journal desk).drop 1 else x.2.journal desk) ++ [floodReport]) desk = _
    rw [if_pos hfull, Function.update_self]

theorem flood_succ (n : ℕ) : flood (n + 1) = flood n ++ [.report floodReport] :=
  List.replicate_succ'

/-- The flood fills the queue behind the end of the screensaver, and pushes that out. -/
theorem flooded (n : ℕ) (hn : n + 1 = currentItemJournalCapacity) (x : Told × JournalState)
    (hqueue : x.2.journal desk = [endReport]) (hlost : x.1.lost desk = []) :
    (journalWatch.run x (flood (n + 1))).1.lost desk = [endReport] ∧
      (journalWatch.run x (flood (n + 1))).2.journal desk =
        List.replicate n floodReport ++ [floodReport] ∧
      (journalWatch.run x (flood (n + 1))).2.screensaverItems = x.2.screensaverItems ∧
      (journalWatch.run x (flood (n + 1))).2.screensaverTickAt = x.2.screensaverTickAt := by
  have hroom : (x.2.journal desk).length + n ≤ currentItemJournalCapacity := by
    rw [hqueue, List.length_singleton]
    omega
  obtain ⟨hqueue', hitem', htick', hlost'⟩ := flood_queued n x hroom
  rw [flood_succ, Runs.System.run_append]
  generalize journalWatch.run x (flood n) = y at hqueue' hitem' htick' hlost' ⊢
  have hfull : currentItemJournalCapacity ≤ (y.2.journal desk).length := by
    rw [hqueue', hqueue, List.length_append, List.length_singleton, List.length_replicate]
    omega
  obtain ⟨hdropped, hrest⟩ := flood_dropped y hfull
  rw [hqueue', hqueue, hlost', hlost] at hdropped
  rw [hqueue', hqueue] at hrest
  exact ⟨hdropped, hrest, hitem', htick'⟩

/-- The item of the drain before is charged for what came after it. -/
theorem overflow_charged :
    ¬ ∀ ops, journalWatch.Steps InOrder (.nothing, .empty) ops →
      journalWatch.Steps Honest (.nothing, .empty) ops := by
  intro hclaim
  obtain ⟨n, hn⟩ : ∃ n, n + 1 = currentItemJournalCapacity := ⟨1023, rfl⟩
  generalize hx : journalWatch.run (.nothing, .empty) beforeFlood = x
  have hlast : (x.1.log desk).getLast? = some endReport := by
    subst hx
    rfl
  have hqueue : x.2.journal desk = [endReport] := by
    subst hx
    decide +kernel
  have hitem : x.2.screensaverItems desk = some earlyReport := by
    subst hx
    decide +kernel
  have htick : x.2.screensaverTickAt = some (fromSecs 10) := by
    subst hx
    rfl
  have hlost : x.1.lost desk = [] := by
    subst hx
    decide +kernel
  obtain ⟨hzlost, hzqueue, hzitem, hztick⟩ := flooded n hn x hqueue hlost
  have hflood : journalWatch.Steps InOrder x (flood (n + 1)) := by
    apply flood_inOrder
    rw [hlast]
    intro previous hprevious
    cases hprevious
    decide
  have horder : journalWatch.Steps InOrder (.nothing, .empty) (beforeFlood ++ flood (n + 1)) := by
    rw [Runs.System.steps_append, hx]
    exact ⟨beforeFlood_inOrder, hflood⟩
  have hkept : KeptAll (journalWatch.run x (flood (n + 1))) := by
    have hend : KeptAll (journalWatch.run (.nothing, .empty) (beforeFlood ++ flood (n + 1))) :=
      horder.invariant (fun x op h hC display => kept_next display x op (h display) hC) kept_start
    rwa [Runs.System.run_append, hx] at hend
  generalize hz : journalWatch.run x (flood (n + 1)) = z at *
  have hzitem : z.2.screensaverItems desk = some earlyReport := by rw [hzitem, hitem]
  have hdrain : InOrder z (.drain (drainAt 20)) := by
    intro boundary hboundary
    rw [hztick, htick] at hboundary
    cases hboundary
    decide
  have hrun : journalWatch.Steps InOrder (.nothing, .empty)
      (beforeFlood ++ flood (n + 1) ++ [.drain (drainAt 20)]) := by
    rw [Runs.System.steps_append, Runs.System.run_append, hx, hz]
    exact ⟨horder, hdrain, trivial⟩
  have hhonest := hclaim _ hrun
  rw [Runs.System.steps_append, Runs.System.run_append, hx, hz] at hhonest
  have hspared : SparedAt z (drainAt 20) desk :=
    (honest_iff_spared hkept hdrain).mp hhonest.2.1 desk (by decide)
  have holdest (m : ℕ) : floodReport ∈ (List.replicate m floodReport ++ [floodReport]).head? := by
    cases m <;> rfl
  have hstart : z.2.windowStart (drainAt 20) = fromSecs 10 := by
    unfold JournalState.windowStart JournalState.windowSpan
    rw [hztick, htick]
    decide +kernel
  -- the screensaver ended at twelve seconds, and the next report known is of fifteen
  have hle := hspared earlyReport (by rw [hzitem]; rfl) (by decide) endReport
    (by rw [hzlost]; rfl) floodReport (by rw [hzqueue]; exact holdest n)
  rw [hstart] at hle
  revert hle
  decide

end Exposure
end Dormant
