import Dormant.Rules.Chores

/-!
# The failure reports

`handle_internal_result` steps the machine and keeps the failure books, and looks at the result
for each of the two on its own. `FollowsAccepted` says of a step that the books and the reports
follow the machine, and `heedsStale` names the steps on which they do not.
-/

namespace Dormant
set_option autoImplicit false

def DaemonEvent.reportsOn (display : DisplayId) : DaemonEvent → Bool
  | .wakeRetry d _ | .blankFailure d _ _ | .blankRecovered d | .wakeRecovered d _ => d == display
  | _ => false

namespace RulesEngine

/-- The failure reports of a step. What others publish through the engine is none of them. -/
def reports (event : Event) (outputs : List Output) : List DaemonEvent :=
  match event with
  | .control (.publishDaemonEvent _) => []
  | _ => outputs.filterMap Output.report?

/-- The failure books of a display change, or a report on it is sent. -/
def touchesFailures (e : RulesEngine) (i : Env × Event) (display : DisplayId) : Prop :=
  (engine.next e i).1.wakeAttempts display ≠ e.wakeAttempts display ∨
    (engine.next e i).1.lastBlankFailed display ≠ e.lastBlankFailed display ∨
    ∃ report ∈ reports i.2 (engine.next e i).2, report.reportsOn display = true

/-- The event is a result that the display's machine accepts. -/
def acceptsResult (e : RulesEngine) (event : Event) (display : DisplayId) : Prop :=
  match event with
  | .result (.blank d gen _) => d = display ∧
      ∃ machine ∈ e.machines d, machine.phase = .blanking ∧ machine.lastBlankGen = some gen
  | .result (.wake d gen _) => d = display ∧
      ∃ machine ∈ e.machines d, machine.phase = .waking ∧ machine.lastWakeGen = some gen
  | _ => False

structure FollowsAccepted (e : RulesEngine) (i : Env × Event) : Prop where
  accepted : ∀ display, e.touchesFailures i display → e.acceptsResult i.2 display
  recovered : ∀ display attempts,
    .wakeRecovered display attempts ∈ reports i.2 (engine.next e i).2 →
      ∀ machine ∈ (engine.next e i).1.machines display, machine.phase ≠ .waking

/-- A result that the machine does not accept is a failure, or a success while a failure of
its kind is on the books. -/
def heedsStale (e : RulesEngine) (i : Env × Event) : Prop :=
  match i.2 with
  | .result (.blank d _ result) =>
    ¬ e.acceptsResult i.2 d ∧ (result.toBool = false ∨ e.lastBlankFailed d = true)
  | .result (.wake d _ result) =>
    ¬ e.acceptsResult i.2 d ∧ (result.toBool = false ∨ e.wakeAttempts d ≠ none)
  | _ => False

/-! ## The deeds that keep the books -/

structure Books where
  wakeAttempts : DisplayId → Option UInt64
  lastBlankFailed : DisplayId → Bool
  reports : List DaemonEvent

def books (e : RulesEngine) : Books :=
  { wakeAttempts := e.wakeAttempts, lastBlankFailed := e.lastBlankFailed,
    reports := e.outbox.filterMap Output.report? }

variable {e e' : RulesEngine} {now : ℕ}

theorem report_outputOf (e : RulesEngine) (display : DisplayId) (effects : List Effect) :
    (effects.filterMap (e.outputOf display)).filterMap Output.report? = [] := by
  rw [List.filterMap_filterMap]
  apply List.filterMap_eq_nil_iff.mpr
  intro effect _
  cases effect <;> simp only [outputOf]
  case logTransition => rfl
  all_goals first | rfl | (split <;> rfl)

theorem report_aside {notes : List Output} (h : ∀ o ∈ notes, o.aside = true) :
    notes.filterMap Output.report? = [] := by
  apply List.filterMap_eq_nil_iff.mpr
  intro o ho
  have haside := h o ho
  simp only [Output.aside, Bool.and_eq_true, Option.isNone_iff_eq_none] at haside
  exact haside.1

theorem books_stepMachine (e : RulesEngine) (display : DisplayId) (input : Input) (now : ℕ) :
    (e.stepMachine display input now).books = e.books := by
  cases hm : e.machines display with
  | none => rw [stepMachine_none e display now hm]
  | some machine =>
    obtain ⟨notes, scopes, hnotes, hstep⟩ := stepMachine_eq hm input now
    rw [hstep]
    simp only [books, List.filterMap_append, report_aside hnotes, report_outputOf,
      List.append_nil]

theorem books_chore (h : Chore now e e') : e'.books = e.books := by
  cases h with
  | book => rfl
  | send h =>
    simp only [Output.aside, Bool.and_eq_true, Option.isNone_iff_eq_none] at h
    simp [books, send, h.1]
  | tell display h => exact books_stepMachine e display _ now

theorem books_deed (h : Deed now e e') : e'.books = e.books := by
  cases h with
  | chore h => exact books_chore h
  | see display present => exact books_stepMachine e display _ now
  | write => rfl
  | arm => rfl
  | flag display active =>
    unfold setHoldFlag
    split
    · rfl
    · rfl

theorem books_deeds (h : Deeds now e e') : e'.books = e.books :=
  h.keeps (P := fun e' => e'.books = e.books) (fun _ _ hd hb => (books_deed hd).trans hb) rfl

theorem books_fireDueTimer (e : RulesEngine) (env : Env) :
    (e.fireDueTimer env).books = e.books := by
  unfold fireDueTimer
  split
  · rfl
  · rename_i deadline entry _
    split
    · rfl
    · have hfired := books_deeds
        (deeds_fireTimer (e.popTimer (deadline, entry)) env (deadline, entry))
      exact hfired.trans rfl

/-! ## What a result writes -/

/-- The books after a result. -/
def Books.hear (b : Books) : InternalResult → Books
  | .blank d _ (.error failure) =>
    { b with
      lastBlankFailed := Function.update b.lastBlankFailed d true
      reports := b.reports ++ [.blankFailure d failure.controller failure.error] }
  | .blank d _ (.ok _) =>
    if b.lastBlankFailed d then
      { b with
        lastBlankFailed := Function.update b.lastBlankFailed d false
        reports := b.reports ++ [.blankRecovered d] }
    else b
  | .wake d _ (.ok _) =>
    match b.wakeAttempts d with
    | none => b
    | some n =>
      { b with
        wakeAttempts := Function.update b.wakeAttempts d none
        reports := if 0 < n then b.reports ++ [.wakeRecovered d n] else b.reports }
  | .wake d _ (.error _) =>
    let n := (b.wakeAttempts d).getD 0
    let attempt := if n.toNat + 1 = 2 ^ 64 then n else n + 1
    { b with
      wakeAttempts := Function.update b.wakeAttempts d (some attempt)
      reports := b.reports ++ [.wakeRetry d attempt] }
  | .render _ _ _ | .exerciseResume _ _ _ => b

theorem books_sendReport (e : RulesEngine) {report : DaemonEvent} (h : report.isReport = true) :
    (e.send (.event report)).books = { e.books with reports := e.books.reports ++ [report] } := by
  simp [books, send, Output.report?, h]

theorem books_handleInternalResult (e : RulesEngine) (env : Env) (res : InternalResult) :
    (e.handleInternalResult env res).books = e.books.hear res := by
  have htold (d : DisplayId) (input : Input) :
      (e.stepMachine d input env.nowTick).books = e.books :=
    books_stepMachine e d input env.nowTick
  cases res with
  | render d gen result => exact htold d _
  | exerciseResume rules operationId generation =>
    simp only [handleInternalResult, Books.hear]
    split
    · exact books_deeds (Chores.foldl (fun e r => chores_handleResume e env (some r)) _ e).deeds
    · rfl
  | blank d gen result =>
    cases result with
    | error failure =>
      simp only [handleInternalResult, Books.hear]
      rw [books_sendReport _ rfl, ← htold d (.blankResult gen (.error failure))]
      rfl
    | ok u =>
      simp only [handleInternalResult, Books.hear]
      rw [← htold d (.blankResult gen (.ok u))]
      generalize e.stepMachine d (.blankResult gen (.ok u)) env.nowTick = e'
      have hfailed : e'.books.lastBlankFailed d = e'.lastBlankFailed d := rfl
      rw [hfailed]
      split
      · exact books_sendReport _ (by rfl)
      · rfl
  | wake d gen result =>
    cases result with
    | error failure =>
      simp only [handleInternalResult, Books.hear]
      rw [books_sendReport _ rfl, ← htold d (.wakeResult gen (.error failure))]
      rfl
    | ok u =>
      simp only [handleInternalResult, Books.hear]
      rw [← htold d (.wakeResult gen (.ok u))]
      generalize e.stepMachine d (.wakeResult gen (.ok u)) env.nowTick = e'
      have hattempts : e'.books.wakeAttempts d = e'.wakeAttempts d := rfl
      rw [hattempts]
      cases e'.wakeAttempts d with
      | none => rfl
      | some n =>
        dsimp only
        split
        · exact books_sendReport _ (by rfl)
        · rfl

/-- Between two states of the books, those of a display change, or a report on it is new. -/
def Books.Touched (b b' : Books) (display : DisplayId) : Prop :=
  b'.wakeAttempts display ≠ b.wakeAttempts display ∨
    b'.lastBlankFailed display ≠ b.lastBlankFailed display ∨
    ∃ report ∈ b'.reports, report.reportsOn display = true

/-- A result is noted in the books unless it is a success with no failure to clear. -/
def Books.notes (b : Books) (display : DisplayId) : InternalResult → Prop
  | .blank d _ result => d = display ∧ (result.toBool = false ∨ b.lastBlankFailed d = true)
  | .wake d _ result => d = display ∧ (result.toBool = false ∨ b.wakeAttempts d ≠ none)
  | _ => False

theorem Books.touched_iff {b : Books} (h : b.reports = []) (res : InternalResult)
    (display : DisplayId) : b.Touched (b.hear res) display ↔ b.notes display res := by
  have hself : ¬ b.Touched b display := by
    simp [Books.Touched, h]
  cases res with
  | render d gen result => exact iff_of_false hself id
  | exerciseResume rules operationId generation => exact iff_of_false hself id
  | blank d gen result =>
    cases result with
    | error failure =>
      by_cases hd : d = display
      · simp [Books.Touched, Books.hear, Books.notes, DaemonEvent.reportsOn, h, hd, Except.toBool]
      · simp [Books.Touched, Books.hear, Books.notes, DaemonEvent.reportsOn, h, hd, Ne.symm hd]
    | ok u =>
      by_cases hf : b.lastBlankFailed d = true
      · simp only [Books.hear, if_pos hf]
        by_cases hd : d = display
        · subst hd
          simp [Books.Touched, Books.notes, h, hf]
        · simp [Books.Touched, Books.notes, DaemonEvent.reportsOn, h, hd, Ne.symm hd]
      · simp only [Books.hear, if_neg hf]
        simpa [Books.notes, hf, Except.toBool] using hself
  | wake d gen result =>
    cases result with
    | error failure =>
      by_cases hd : d = display
      · simp [Books.Touched, Books.hear, Books.notes, DaemonEvent.reportsOn, h, hd, Except.toBool]
      · simp [Books.Touched, Books.hear, Books.notes, DaemonEvent.reportsOn, h, hd, Ne.symm hd]
    | ok u =>
      cases hn : b.wakeAttempts d with
      | none =>
        simp only [Books.hear, hn]
        simpa [Books.notes, hn, Except.toBool] using hself
      | some n =>
        by_cases hd : d = display
        · subst hd
          simp [Books.Touched, Books.hear, Books.notes, h, hn]
        · have hout : ∀ report ∈ (b.hear (.wake d gen (.ok u))).reports,
              report.reportsOn display = false := by
            simp only [Books.hear, hn, h]
            split <;> simp [DaemonEvent.reportsOn, hd]
          simp only [Books.Touched, Books.notes, hd, false_and, iff_false, not_or, not_exists, not_and]
          refine ⟨?_, ?_, fun report hr => by simp [hout report hr]⟩
          · simp [Books.hear, hn, Ne.symm hd]
          · simp [Books.hear, hn]

/-! ## The steps of the engine -/

/-- The event is a result that is noted in the failure books of a display. -/
def noted (e : RulesEngine) (event : Event) (display : DisplayId) : Prop :=
  match event with
  | .result res => e.books.notes display res
  | _ => False

theorem not_touchesFailures {i : Env × Event}
    (hbooks : (engine.next e i).1.wakeAttempts = e.wakeAttempts ∧
      (engine.next e i).1.lastBlankFailed = e.lastBlankFailed)
    (hreports : reports i.2 (engine.next e i).2 = []) (display : DisplayId) :
    ¬ e.touchesFailures i display := by
  simp [touchesFailures, hbooks, hreports]

theorem not_touchesFailures_of_books {i : Env × Event}
    (h : (engine.next e i).1.books = { e.books with reports := [] }) (display : DisplayId) :
    ¬ e.touchesFailures i display := by
  simp only [books, Books.mk.injEq] at h
  obtain ⟨hattempts, hfailed, hreports⟩ := h
  apply not_touchesFailures ⟨hattempts, hfailed⟩
  unfold reports
  split
  · rfl
  · exact hreports

theorem touchesFailures_iff (e : RulesEngine) (env : Env) (event : Event) (display : DisplayId) :
    e.touchesFailures (env, event) display ↔ e.noted event display := by
  have hquiet (event : Event)
      (h : (({ e with outbox := [] } : RulesEngine).handle env event).books =
        ({ e with outbox := [] } : RulesEngine).books) :
      ¬ e.touchesFailures (env, event) display := by
    apply not_touchesFailures_of_books
    exact h
  cases event with
  | presence ev =>
    exact iff_of_false (hquiet _ (books_deeds (deeds_handlePresenceEvent _ env ev))) id
  | sweep => exact iff_of_false (hquiet _ (books_deeds (deeds_sweepStaleSensors _ env))) id
  | timer => exact iff_of_false (hquiet _ (books_fireDueTimer _ env)) id
  | control msg =>
    refine iff_of_false ?_ id
    by_cases h : ∀ event, msg = .publishDaemonEvent event → event.isReport = false
    · exact hquiet _ (books_deeds (deeds_handleControl _ env h))
    · push Not at h
      obtain ⟨event, rfl, -⟩ := h
      exact not_touchesFailures ⟨rfl, rfl⟩ rfl display
  | result res =>
    have hheard := books_handleInternalResult { e with outbox := [] } env res
    have htouched := Books.touched_iff (b := ({ e with outbox := [] } : RulesEngine).books) rfl
      res display
    rw [← hheard] at htouched
    exact htouched

theorem heedsStale_iff (e : RulesEngine) (env : Env) (event : Event) :
    e.heedsStale (env, event) ↔
      ∃ display, e.noted event display ∧ ¬ e.acceptsResult event display := by
  cases event with
  | result res =>
    cases res with
    | blank d gen result =>
      constructor
      · rintro ⟨hstale, hnoted⟩
        exact ⟨d, ⟨rfl, hnoted⟩, hstale⟩
      · rintro ⟨display, ⟨rfl, hnoted⟩, hstale⟩
        exact ⟨hstale, hnoted⟩
    | wake d gen result =>
      constructor
      · rintro ⟨hstale, hnoted⟩
        exact ⟨d, ⟨rfl, hnoted⟩, hstale⟩
      · rintro ⟨display, ⟨rfl, hnoted⟩, hstale⟩
        exact ⟨hstale, hnoted⟩
    | render d gen result => simp [heedsStale, noted, Books.notes]
    | exerciseResume rules operationId generation => simp [heedsStale, noted, Books.notes]
  | presence ev => simp [heedsStale, noted]
  | control msg => simp [heedsStale, noted]
  | timer => simp [heedsStale, noted]
  | sweep => simp [heedsStale, noted]

/-- A wake that the machine accepts as done leaves the phase Waking. -/
theorem awake_of_accepted {e : RulesEngine} {env : Env} {display : DisplayId} {gen : UInt64}
    (h : e.acceptsResult (.result (.wake display gen (.ok ()))) display) :
    ∀ machine ∈ (engine.next e (env, .result (.wake display gen (.ok ())))).1.machines display,
      machine.phase ≠ .waking := by
  obtain ⟨-, machine, hm, hphase, hgen⟩ := h
  intro machine' hm'
  have hm0 : ({ e with outbox := [] } : RulesEngine).machines display = some machine := hm
  obtain ⟨notes, scopes, -, hstep⟩ := stepMachine_eq hm0 (.wakeResult gen (.ok ())) env.nowTick
  have hafter : (({ e with outbox := [] } : RulesEngine).handleInternalResult env
      (.wake display gen (.ok ()))).machines display =
        some (machine.step (.wakeResult gen (.ok ())) env.nowTick).1 := by
    simp only [handleInternalResult, hstep]
    split
    · simp
    · split
      · simp [send]
      · simp
  have hmachine : machine' = (machine.step (.wakeResult gen (.ok ())) env.nowTick).1 :=
    Option.some.inj (Eq.trans (Eq.symm hm') hafter)
  have hawake : machine.step (.wakeResult gen (.ok ())) env.nowTick =
      { machine with lastWake := some env.nowTick }.enterActive env.nowTick "wake_completed" := by
    simp [DisplayStateMachine.step, hphase, DisplayStateMachine.stepWaking, hgen]
  rw [hmachine, hawake]
  intro hwaking
  rcases DisplayStateMachine.enterActive_phase
    { machine with lastWake := some env.nowTick } env.nowTick "wake_completed" with hp | hp
  · rw [hp] at hwaking
    cases hwaking
  · rw [hp] at hwaking
    cases hwaking

theorem wakeRecovered_of_reported {e : RulesEngine} {env : Env} {event : Event}
    {display : DisplayId} {attempts : UInt64}
    (h : .wakeRecovered display attempts ∈ reports event (engine.next e (env, event)).2) :
    ∃ gen, event = .result (.wake display gen (.ok ())) := by
  have htouched : e.touchesFailures (env, event) display :=
    .inr (.inr ⟨_, h, by simp [DaemonEvent.reportsOn]⟩)
  have hnoted := (touchesFailures_iff e env event display).mp htouched
  cases event with
  | result res =>
    have hheard := congrArg Books.reports
      (books_handleInternalResult { e with outbox := [] } env res)
    have hmem : .wakeRecovered display attempts ∈
        (({ e with outbox := [] } : RulesEngine).books.hear res).reports := hheard ▸ h
    cases res with
    | wake d gen result =>
      obtain ⟨rfl, -⟩ := hnoted
      cases result with
      | ok u => exact ⟨gen, rfl⟩
      | error failure => simp [Books.hear, books] at hmem
    | blank d gen result =>
      cases result with
      | error failure => simp [Books.hear, books] at hmem
      | ok u =>
        simp only [Books.hear] at hmem
        split at hmem <;> simp [books] at hmem
    | render d gen result => exact absurd hnoted id
    | exerciseResume rules operationId generation => exact absurd hnoted id
  | presence ev => exact absurd hnoted id
  | control msg => exact absurd hnoted id
  | timer => exact absurd hnoted id
  | sweep => exact absurd hnoted id

/-- The books and the reports follow the machine on exactly the steps that heed no result
which it does not accept. -/
theorem followsAccepted_iff (e : RulesEngine) (i : Env × Event) :
    e.FollowsAccepted i ↔ ¬ e.heedsStale i := by
  obtain ⟨env, event⟩ := i
  rw [heedsStale_iff]
  constructor
  · rintro h ⟨display, hnoted, hstale⟩
    exact hstale (h.accepted display ((touchesFailures_iff e env event display).mpr hnoted))
  · intro h
    have haccepted (display : DisplayId) (ht : e.touchesFailures (env, event) display) :
        e.acceptsResult event display := by
      by_contra hstale
      exact h ⟨display, (touchesFailures_iff e env event display).mp ht, hstale⟩
    refine ⟨haccepted, fun display attempts hr => ?_⟩
    have hdisplay : e.acceptsResult event display :=
      haccepted display (.inr (.inr ⟨_, hr, by simp [DaemonEvent.reportsOn]⟩))
    obtain ⟨gen, rfl⟩ := wakeRecovered_of_reported hr
    exact awake_of_accepted hdisplay

/-! ## Runs -/

/-- In every run the failure books and reports follow the results that the machines accept, on
every step, if and only if no step heeds a result that its machine does not accept. -/
theorem failures_follow_accepted_iff (e : RulesEngine) (events : List (Env × Event)) :
    engine.Steps FollowsAccepted e events ↔
      engine.Steps (fun e i => ¬ e.heedsStale i) e events :=
  Runs.System.steps_congr followsAccepted_iff e events

/-- Three wakes of a dark display, of which the first has failed and the second has succeeded
by the time the third is in flight. -/
def supersededWakes : List (Env × Event) :=
  [(Env.plain 1, .control (.forceBlank ⟨"monitor"⟩)),
    (Env.plain 2, .result (.blank ⟨"monitor"⟩ 1 (.ok ()))),
    (Env.plain 3, .control (.forceWake ⟨"monitor"⟩)),
    (Env.plain 4, .control (.forceWake ⟨"monitor"⟩)),
    (Env.plain 5, .control (.forceWake ⟨"monitor"⟩)),
    (Env.plain 6, .result (.wake ⟨"monitor"⟩ 2 (.error ⟨"ddcci", "E_DISPLAY_IO"⟩))),
    (Env.plain 7, .result (.wake ⟨"monitor"⟩ 3 (.ok ())))]

/-- The recovery is reported of a display that is in phase Waking. -/
theorem superseded_wakes_heeded :
    ∃ e, new sharedSetup (fun _ => true) 0 = .ok e ∧
      .event (.wakeRecovered ⟨"monitor"⟩ 1) ∈ engine.outputs e supersededWakes ∧
      ((engine.run e supersededWakes).machines ⟨"monitor"⟩).map (·.phase) = some .waking ∧
      ¬ engine.Steps FollowsAccepted e supersededWakes := by
  refine ⟨_, rfl, by decide, by decide, fun h => ?_⟩
  obtain ⟨-, -, -, -, -, hfailed, -⟩ := h
  obtain ⟨-, machine, hm, -, hgen⟩ := hfailed.accepted ⟨"monitor"⟩ (.inl (by decide))
  obtain rfl := Option.some.inj hm
  exact absurd hgen (by decide)

end RulesEngine
end Dormant
