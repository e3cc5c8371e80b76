import Dormant.Displays.Tokens

/-!
# Commands that are superseded

Any number of commands on one executor, in any order of their steps. A wake that has been superseded
does not return success, and attempts no controller but one whose availability it was asking for by
then. A blank is not superseded. While no blank and no such wake is in the way, the controllers get
their commands in the order of the rotations.
-/

namespace Dormant
set_option autoImplicit false

open Tasks

/-! ## What a call does at once -/

inductive ExecutorPast.Acts (s : ExecutorState) (q : ExecutorPast) :
    ExecutorState → ExecutorPast → Prop
  | rotated (hq : q.token = none) :
      Acts s q { s with supersede := s.supersede + 1 }
        { q with token := some (s.supersede + 1), fresh := true }
  | looked (token : ℕ) (hq : q.token = some token) :
      Acts s q s { q with fresh := decide (token = s.supersede) }
  | other (s' : ExecutorState) (hsame : s'.supersede = s.supersede) : Acts s q s' q

theorem executorActs {ex : DisplayExecutor} {s : ExecutorState} {q : ExecutorPast}
    {i : ExecutorCall} {f : ExecutorState → ExecutorState × i.Reply}
    (hf : (executions ex).act i = some f) (hmay : q.may i) :
    q.Acts s (f s).1 ((executions ex).got s ((executions ex).ask s q i) i (f s).2) := by
  cases i with
  | rotateSupersede =>
    obtain rfl := Option.some.inj hf
    exact .rotated hmay
  | isCancelled token =>
    obtain rfl := Option.some.inj hf
    have hfresh : (!decide (token ≠ s.supersede)) = decide (token = s.supersede) := by simp
    show q.Acts s s { q with fresh := !decide (token ≠ s.supersede) }
    rw [hfresh]
    exact .looked token hmay
  | owner =>
    obtain rfl := Option.some.inj hf
    exact .other _ rfl
  | recordOwner i =>
    obtain rfl := Option.some.inj hf
    exact .other _ rfl
  | clearIfOwner i =>
    obtain rfl := Option.some.inj hf
    exact .other _ rfl
  | storeHealth health =>
    obtain rfl := Option.some.inj hf
    exact .other _ rfl
  | supportedModes i =>
    obtain rfl := Option.some.inj hf
    exact .other _ rfl
  | isAvailable i => cases hf
  | reprobe i => cases hf
  | blank i mode => cases hf
  | wake i => cases hf
  | backoff duration => cases hf
  | panic => cases hf

/-! ## One command -/

/-- A fresh look has found the token current, and a command that is passing was current when it
asked. -/
structure ExecutorPast.Sees (s : ExecutorState) (q : ExecutorPast) : Prop where
  fresh : q.fresh = true → q.token = some s.supersede
  passing : q.passing.isSome → ∃ token, q.asked = some token ∧ q.token = some token
  token : ∀ token ∈ q.token, token ≤ s.supersede

theorem ExecutorPast.Acts.sees {s s' : ExecutorState} {q q' : ExecutorPast}
    (hacts : q.Acts s s' q') (h : q.Sees s) : q'.Sees s' := by
  cases hacts with
  | rotated hq =>
    refine ⟨fun _ => rfl, fun hpassing => ?_, fun token htoken => ?_⟩
    · obtain ⟨token, _, htoken⟩ := h.passing hpassing
      cases hq.symm.trans htoken
    · obtain rfl := Option.some.inj htoken
      exact Nat.le_refl _
  | looked token hq =>
    refine ⟨fun hfresh => ?_, h.passing, h.token⟩
    rw [← of_decide_eq_true hfresh]
    exact hq
  | other s' hsame =>
    refine ⟨fun hfresh => ?_, h.passing, fun token htoken => ?_⟩
    · rw [hsame]
      exact h.fresh hfresh
    · rw [hsame]
      exact h.token token htoken

theorem sees_ask {s : ExecutorState} {q : ExecutorPast} (h : q.Sees s) (i : ExecutorCall) :
    (q.ask s i).Sees s := by
  have hwait : (q.wait s none).Sees s :=
    ⟨fun hfresh => (by cases hfresh), fun hpassing => (by cases hpassing), h.token⟩
  cases i with
  | isAvailable i =>
    refine ⟨fun hfresh => (by cases hfresh), fun hpassing => ?_, h.token⟩
    have hfresh : q.fresh = true := by
      by_contra hstale
      have hnone : (q.ask s (.isAvailable i)).passing = none := if_neg hstale
      rw [hnone] at hpassing
      cases hpassing
    exact ⟨s.supersede, rfl, h.fresh hfresh⟩
  | reprobe i => exact hwait
  | blank i mode => exact hwait
  | wake i => exact hwait
  | backoff duration => exact hwait
  | panic => exact hwait
  | _ => exact h

/-- A command that moves on has not looked at its token since it waited. -/
theorem stale_of_bursts {ex : DisplayExecutor} {s : ExecutorState} {t : ExecutorThread}
    {stir : Stir ExecutorCall ExecutorCall.Reply} {q : ExecutorPast}
    {ran : Ran ExecutorState ExecutorPast ExecutorCall ExecutorCall.Reply CommandResult}
    (h : (executions ex).Bursts s t stir q ran)
    (ht : (executions ex).Keeps ExecutorPast.may ExecutorPast.ends (fun _ => True) t) :
    q = t.past ∧ t.past.fresh = false ∧
      ∀ i, t.past.passing = some i → t.run.pending = some (.isAvailable i) := by
  cases ht with
  | ready command =>
    have hstart : ∀ i, (ExecutorPast.start command).passing = some i →
        (Spawned.ready (ι := ExecutorCall) (ρ := ExecutorCall.Reply)
          (ex.program command)).pending = some (.isAvailable i) := fun i hi => by cases hi
    cases h with
    | polled hrun => exact ⟨rfl, rfl, hstart⟩
    | answered r hrun => cases hrun
    | dropped hrun => exact ⟨rfl, rfl, hstart⟩
    | unwound hrun => cases hrun
  | @waiting command s' q' i resume hwait hmay hnext =>
    have hq : q = (executions ex).ask s' q' i := by
      cases h with
      | polled hrun => cases hrun
      | answered r hrun =>
        cases hrun
        cases i <;> first | rfl | cases hwait
      | dropped hrun => cases hrun
      | unwound hrun => rfl
    refine ⟨hq, ?_, fun j hj => ?_⟩
    · cases i <;> first | rfl | cases hwait
    · cases i with
      | isAvailable i =>
        have hj : (if q'.fresh then some i else none) = some j := hj
        split at hj
        · obtain rfl := Option.some.inj hj
          rfl
        · cases hj
      | reprobe i => cases hj
      | blank i mode => cases hj
      | wake i => cases hj
      | backoff duration => cases hj
      | panic => cases hj
      | _ => cases hwait
  | finished command hends => cases h.live
  | panicked command hgone => cases h.live

/-! ## What a step starts and returns -/

/-- A wake that is attempted, or returns success, has the current token. The exception is one that
goes on to a controller whose availability it was asking for when it was superseded. -/
structure Obeys (p p' : ExecutorPool) (out : List (ℕ × ExecutorCall)) : Prop where
  attempted (n i : ℕ) (hout : (n, ExecutorCall.wake i) ∈ out) :
    ∃ t', p'.threads[n]? = some t' ∧
      (t'.past.token = some p'.shared.supersede ∨
        ∃ t, p.threads[n]? = some t ∧ t.run.pending = some (.isAvailable i) ∧
          t.past.asked = t'.past.token)
  returned (n : ℕ) (t' : ExecutorThread) (ht' : p'.threads[n]? = some t')
    (hresult : t'.run.result = some (.ok ())) (hwake : t'.past.command.isBlank = false) :
    p.threads[n]? = some t' ∨ t'.past.token = some p'.shared.supersede

/-- What holds of the commands between two steps. -/
structure Executing (ex : DisplayExecutor) (p : ExecutorPool) : Prop where
  keeps : ∀ t ∈ p.threads,
    (executions ex).Keeps ExecutorPast.may ExecutorPast.ends (fun _ => True) t
  label : ∀ t ∈ p.threads, t.past.command = t.request
  passing : ∀ t ∈ p.threads, t.past.passing.isSome →
    ∃ token, t.past.asked = some token ∧ t.past.token = some token
  token : ∀ t ∈ p.threads, ∀ token ∈ t.past.token, token ≤ p.shared.supersede

/-- A command in the middle of its burst. -/
structure ExecutorPast.Bursting (before : ExecutorPast) (since : ExecutorState)
    (s : ExecutorState) (q : ExecutorPast) : Prop where
  sees : q.Sees s
  later : since.supersede ≤ s.supersede
  passing : q.passing = before.passing
  asked : q.asked = before.asked

theorem ExecutorPast.Acts.bursting {before : ExecutorPast} {since s s' : ExecutorState}
    {q q' : ExecutorPast} (hacts : q.Acts s s' q') (h : before.Bursting since s q) :
    before.Bursting since s' q' := by
  have hsees := hacts.sees h.sees
  cases hacts with
  | rotated hq => exact ⟨hsees, Nat.le_succ_of_le h.later, h.passing, h.asked⟩
  | looked token hq => exact ⟨hsees, h.later, h.passing, h.asked⟩
  | other s' hsame => exact ⟨hsees, hsame ▸ h.later, h.passing, h.asked⟩

theorem Executing.bursts {ex : DisplayExecutor} {p : ExecutorPool} (h : Executing ex p) {n : ℕ}
    {t : ExecutorThread} (ht : p.threads[n]? = some t)
    {stir : Stir ExecutorCall ExecutorCall.Reply} {q : ExecutorPast}
    {ran : Ran ExecutorState ExecutorPast ExecutorCall ExecutorCall.Reply CommandResult}
    (hburst : (executions ex).Bursts p.shared t stir q ran) :
    (executions ex).Stopped ExecutorPast.may ExecutorPast.ends (fun _ => True)
      (t.past.Bursting p.shared) ran := by
  have hmem := List.mem_of_getElem? ht
  obtain ⟨hq, hstale, _⟩ := stale_of_bursts hburst (h.keeps t hmem)
  subst hq
  refine hburst.stopped (lawful_executions ex)
    (fun s q i f hf hmay hJ => (executorActs hf hmay).bursting hJ) (h.keeps t hmem) ?_
  refine ⟨⟨fun hfresh => ?_, h.passing t hmem, h.token t hmem⟩, Nat.le_refl _, rfl, rfl⟩
  cases hstale.symm.trans hfresh

/-- Where a burst stops, the history still sees the shared state. -/
theorem sees_stopped {ex : DisplayExecutor} {before : ExecutorPast} {since : ExecutorState}
    {ran : Ran ExecutorState ExecutorPast ExecutorCall ExecutorCall.Reply CommandResult}
    (h : (executions ex).Stopped ExecutorPast.may ExecutorPast.ends (fun _ => True)
      (before.Bursting since) ran) :
    ran.past.Sees ran.shared ∧ since.supersede ≤ ran.shared.supersede := by
  cases h with
  | finished hJ hends => exact ⟨hJ.sees, hJ.later⟩
  | asked hJ hwait hmay hnext => exact ⟨sees_ask hJ.sees _, hJ.later⟩
  | panicked hJ hgone => exact ⟨hJ.sees, hJ.later⟩

theorem executing_next {ex : DisplayExecutor} {p : ExecutorPool} (e : ExecutorEvent)
    (h : Executing ex p) : Executing ex ((executions ex).pool.next p e).1 := by
  have hkeeps := Scheme.keeps_next (lawful_executions ex) h.keeps e
  have hlabel : ∀ t ∈ ((executions ex).pool.next p e).1.threads, t.past.command = t.request := by
    have hask (s : ExecutorState) (q : ExecutorPast) (i : ExecutorCall) :
        (q.ask s i).command = q.command := by
      cases i <;> rfl
    have hgot (s : ExecutorState) (q : ExecutorPast) (i : ExecutorCall) (r : i.Reply) :
        (q.got s i r).command = q.command := by
      cases i <;> rfl
    exact Scheme.labelled_next (fun _ => rfl) hask hgot (fun _ _ => rfl) h.label e
  have hstep := (executions ex).stepped p e
  generalize (executions ex).pool.next p e = next at hstep hkeeps hlabel
  obtain ⟨p', out⟩ := next
  cases hstep with
  | idle => exact h
  | elsewhere change =>
    refine ⟨hkeeps, hlabel, h.passing, fun t ht token htoken => ?_⟩
    cases change with
    | supportedModes modes => exact h.token t ht token htoken
    | blankOwners registry => exact h.token t ht token htoken
  | spawned command =>
    refine ⟨hkeeps, hlabel, fun t ht hpassing => ?_, fun t ht token htoken => ?_⟩
    · rcases List.mem_append.mp ht with ht | ht
      · exact h.passing t ht hpassing
      · obtain rfl := List.mem_singleton.mp ht
        cases hpassing
    · rcases List.mem_append.mp ht with ht | ht
      · exact h.token t ht token htoken
      · obtain rfl := List.mem_singleton.mp ht
        cases htoken
  | moved hold hburst =>
    obtain ⟨hsees, hlater⟩ := sees_stopped (h.bursts hold hburst)
    refine ⟨hkeeps, hlabel, fun t ht hpassing => ?_, fun t ht token htoken => ?_⟩
    · rcases List.mem_or_eq_of_mem_set ht with ht | rfl
      · exact h.passing t ht hpassing
      · exact hsees.passing hpassing
    · rcases List.mem_or_eq_of_mem_set ht with ht | rfl
      · exact Nat.le_trans (h.token t ht token htoken) hlater
      · exact hsees.token token htoken

theorem obeys_next {ex : DisplayExecutor} {p : ExecutorPool} (e : ExecutorEvent)
    (h : Executing ex p) :
    Obeys p ((executions ex).pool.next p e).1 ((executions ex).pool.next p e).2 := by
  have hstep := (executions ex).stepped p e
  generalize (executions ex).pool.next p e = next at hstep
  obtain ⟨p', out⟩ := next
  constructor
  · intro n i hout
    cases hstep with
    | idle => cases hout
    | elsewhere => cases hout
    | spawned => cases hout
    | @moved m stir t q ran hold hburst =>
      obtain ⟨j, hj, heq⟩ := List.mem_map.mp hout
      cases heq
      have hmem := List.mem_of_getElem? hold
      have hset : (p.threads.set n { t with past := ran.past, run := ran.run })[n]? =
          some { t with past := ran.past, run := ran.run } :=
        List.getElem?_set_self (List.getElem?_eq_some_iff.mp hold).1
      refine ⟨_, hset, ?_⟩
      obtain ⟨_, _, hpending⟩ := stale_of_bursts hburst (h.keeps t hmem)
      have hstop := h.bursts hold hburst
      cases hstop with
      | finished hJ hends => cases hj
      | panicked hJ hgone => cases hj
      | asked hJ hwait hmay hnext =>
        obtain rfl := Option.some.inj (Option.mem_toList.mp hj)
        obtain ⟨_, _, hfresh | hpassing⟩ := hmay
        · exact .inl (hJ.sees.fresh hfresh)
        · refine .inr ⟨t, hold, hpending i ?_, ?_⟩
          · rw [← hJ.passing]
            exact hpassing
          · obtain ⟨token, hasked, htoken⟩ := hJ.sees.passing (by rw [hpassing]; rfl)
            rw [← hJ.asked]
            exact hasked.trans htoken.symm
  · intro n t' ht' hresult hwake
    cases hstep.becomes ht' with
    | same ht => exact .inl ht
    | spawned command hnew => cases hresult
    | moved hold hburst hshared =>
      rw [← hshared]
      cases h.bursts hold hburst with
      | finished hJ hends =>
        exact .inr (hJ.sees.fresh (hends (Option.some.inj hresult) hwake))
      | panicked hJ hgone => cases hresult
      | asked hJ hwait hmay hnext => cases hresult

/-! ## The order of the commands -/

/-- The call is a command to a controller. -/
def ExecutorCall.commands : ExecutorCall → Bool
  | .blank _ _ => true
  | .wake _ => true
  | _ => false

/-- The tokens of the commands that have been started at controllers, in order. -/
def commandLog (log : List ℕ) (_ : ExecutorPool) (_ : ExecutorEvent)
    (next : ExecutorPool × List (ℕ × ExecutorCall)) : List ℕ :=
  log ++ next.2.filterMap fun call =>
    if call.2.commands then next.1.threads[call.1]?.bind fun t => t.past.token else none

abbrev commanded (ex : DisplayExecutor) :
    Runs.System (List ℕ × ExecutorPool) ExecutorEvent (ℕ × ExecutorCall) :=
  (executions ex).pool.observed commandLog

/-- It has ended or not begun, or it is a wake that looks at its token before it goes on to a
controller. -/
def GivesWay (t : ExecutorThread) : Prop :=
  t.run.ended = true ∨ t.past.token = none ∨
    t.past.command.isBlank = false ∧ t.past.passing = none

instance (t : ExecutorThread) : Decidable (GivesWay t) :=
  inferInstanceAs (Decidable (_ ∨ _ ∨ _ ∧ _))

/-- When a command takes out a token, the others give way. -/
def Unopposed (p : ExecutorPool) : ExecutorEvent → Prop
  | .stir n .poll =>
    ∀ t ∈ p.threads[n]?, t.past.token = none → ∀ t' ∈ p.threads.eraseIdx n, GivesWay t'
  | _ => True

instance decidableUnopposed : ∀ (p : ExecutorPool) (e : ExecutorEvent), Decidable (Unopposed p e)
  | p, .stir n .poll =>
    inferInstanceAs (Decidable (∀ t ∈ p.threads[n]?, t.past.token = none →
      ∀ t' ∈ p.threads.eraseIdx n, GivesWay t'))
  | _, .stir _ (.answer _ _) => isTrue trivial
  | _, .stir _ .abort => isTrue trivial
  | _, .spawn _ => isTrue trivial
  | _, .outside _ => isTrue trivial

/-- The commands that have been superseded give way. -/
structure InOrder (log : List ℕ) (p : ExecutorPool) : Prop where
  sorted : log.Pairwise (· ≤ ·)
  bounded : ∀ token ∈ log, token ≤ p.shared.supersede
  behind : ∀ t ∈ p.threads, ∀ token ∈ t.past.token, token < p.shared.supersede → GivesWay t

structure ExecutorPast.Leading (s : ExecutorState) (q : ExecutorPast) : Prop where
  sees : q.Sees s
  behind : ∀ token ∈ q.token, token < s.supersede → q.command.isBlank = false ∧ q.passing = none

theorem ExecutorPast.Acts.leading {s s' : ExecutorState} {q q' : ExecutorPast}
    (hacts : q.Acts s s' q') (h : q.Leading s) : q'.Leading s' := by
  have hsees := hacts.sees h.sees
  cases hacts with
  | rotated hq =>
    refine ⟨hsees, fun token htoken hlt => ?_⟩
    obtain rfl := Option.some.inj htoken
    exact absurd hlt (Nat.lt_irrefl _)
  | looked token hq => exact ⟨hsees, h.behind⟩
  | other s' hsame => exact ⟨hsees, fun token htoken hlt => h.behind token htoken (hsame ▸ hlt)⟩

/-- A command that it starts has the current token. -/
theorem ExecutorPast.Leading.commands {s : ExecutorState} {q : ExecutorPast} (h : q.Leading s)
    {i : ExecutorCall} (hmay : q.may i) (hi : i.commands = true) : q.token = some s.supersede := by
  have hcurrent (htoken : q.token.isSome)
      (hahead : ¬ (q.command.isBlank = false ∧ q.passing = none)) :
      q.token = some s.supersede := by
    obtain ⟨token, htoken⟩ := Option.isSome_iff_exists.mp htoken
    rw [htoken]
    have hle := h.sees.token token htoken
    have hnot : ¬ token < s.supersede := fun hlt => hahead (h.behind token htoken hlt)
    exact congrArg some (by omega)
  cases i with
  | blank i mode =>
    obtain ⟨htoken, hblank⟩ := hmay
    exact hcurrent htoken fun hwake => by cases hblank.symm.trans hwake.1
  | wake i =>
    obtain ⟨htoken, _, hfresh | hpassing⟩ := hmay
    · exact h.sees.fresh hfresh
    · exact hcurrent htoken fun hnone => by cases hpassing.symm.trans hnone.2
  | _ => cases hi

theorem leading_ask {s : ExecutorState} {q : ExecutorPast} (h : q.Leading s) (i : ExecutorCall) :
    (q.ask s i).Leading s := by
  have hsees := sees_ask h.sees i
  have hwait : (q.wait s none).Leading s :=
    ⟨sees_ask h.sees (.wake 0), fun token htoken hlt => ⟨(h.behind token htoken hlt).1, rfl⟩⟩
  cases i with
  | isAvailable i =>
    refine ⟨hsees, fun token htoken hlt => ⟨(h.behind token htoken hlt).1, ?_⟩⟩
    refine if_neg fun hfresh => ?_
    obtain rfl := Option.some.inj ((h.sees.fresh hfresh).symm.trans htoken)
    exact Nat.lt_irrefl _ hlt
  | reprobe i => exact hwait
  | blank i mode => exact hwait
  | wake i => exact hwait
  | backoff duration => exact hwait
  | panic => exact hwait
  | _ => exact h

theorem ExecutorPast.Acts.steady {s s' : ExecutorState} {q q' : ExecutorPast} {current : ℕ}
    (hacts : q.Acts s s' q') (hcurrent : s.supersede = current) (htoken : q.token.isSome) :
    s'.supersede = current ∧ q'.token.isSome := by
  cases hacts with
  | rotated hq =>
    rw [hq] at htoken
    cases htoken
  | looked token hq => exact ⟨hcurrent, htoken⟩
  | other s' hsame => exact ⟨hsame.trans hcurrent, htoken⟩

/-- Only a command that begins takes out a token. -/
theorem supersede_of_bursts {ex : DisplayExecutor} {s : ExecutorState} {t : ExecutorThread}
    {stir : Stir ExecutorCall ExecutorCall.Reply} {q : ExecutorPast}
    {ran : Ran ExecutorState ExecutorPast ExecutorCall ExecutorCall.Reply CommandResult}
    (h : (executions ex).Bursts s t stir q ran)
    (ht : (executions ex).Keeps ExecutorPast.may ExecutorPast.ends (fun _ => True) t) :
    ran.shared.supersede = s.supersede ∨ stir = .poll ∧ t.past.token = none := by
  cases ht with
  | ready command =>
    cases h with
    | polled hrun => exact .inr ⟨rfl, rfl⟩
    | answered r hrun => cases hrun
    | dropped hrun => exact .inl rfl
    | unwound hrun => cases hrun
  | @waiting command s' q' i resume hwait hmay hnext =>
    cases h with
    | polled hrun => cases hrun
    | answered r hrun =>
      cases hrun
      left
      have hstart : ((executions ex).got s ((executions ex).ask s' q' i) i r).token.isSome := by
        cases i with
        | isAvailable i => exact hmay
        | reprobe i => exact hmay
        | blank i mode => exact hmay.1
        | wake i => exact hmay.1
        | backoff duration => exact hmay
        | panic => exact r.elim
        | _ => cases hwait
      have hstop : (executions ex).Stopped ExecutorPast.may ExecutorPast.ends (fun _ => True)
          (fun s₁ q₁ => s₁.supersede = s.supersede ∧ q₁.token.isSome)
          ((executions ex).settle (resume r) s
            ((executions ex).got s ((executions ex).ask s' q' i) i r)) :=
        Scheme.stopped_settle
          (fun s₁ q₁ i f hf hmay hJ => (executorActs hf hmay).steady hJ.1 hJ.2) (hnext s r)
          ⟨rfl, hstart⟩
      refine (hstop.holds fun s q i hJ => ⟨hJ.1, ?_⟩).1
      cases i <;> exact hJ.2
    | dropped hrun => cases hrun
    | unwound hrun => exact .inl rfl
  | finished command hends => cases h.live
  | panicked command hgone => cases h.live

theorem Executing.leads {ex : DisplayExecutor} {p : ExecutorPool} (h : Executing ex p)
    {log : List ℕ} (horder : InOrder log p) {n : ℕ} {t : ExecutorThread}
    (ht : p.threads[n]? = some t) {stir : Stir ExecutorCall ExecutorCall.Reply} {q : ExecutorPast}
    {ran : Ran ExecutorState ExecutorPast ExecutorCall ExecutorCall.Reply CommandResult}
    (hburst : (executions ex).Bursts p.shared t stir q ran) :
    (executions ex).Stopped ExecutorPast.may ExecutorPast.ends (fun _ => True)
      (fun s q => q.Leading s) ran := by
  have hmem := List.mem_of_getElem? ht
  obtain ⟨hq, hstale, _⟩ := stale_of_bursts hburst (h.keeps t hmem)
  subst hq
  refine hburst.stopped (lawful_executions ex)
    (fun s q i f hf hmay hJ => (executorActs hf hmay).leading hJ) (h.keeps t hmem) ?_
  refine ⟨⟨fun hfresh => ?_, h.passing t hmem, h.token t hmem⟩, fun token htoken hlt => ?_⟩
  · cases hstale.symm.trans hfresh
  · rcases horder.behind t hmem token htoken hlt with hended | hnone | hwake
    · cases hburst.live.symm.trans hended
    · cases hnone.symm.trans htoken
    · exact hwake

/-- A burst that stops at a command has the current token. -/
theorem commands_stopped {ex : DisplayExecutor}
    {ran : Ran ExecutorState ExecutorPast ExecutorCall ExecutorCall.Reply CommandResult}
    (h : (executions ex).Stopped ExecutorPast.may ExecutorPast.ends (fun _ => True)
      (fun s q => q.Leading s) ran) {i : ExecutorCall} (hpending : ran.run.pending = some i)
    (hi : i.commands = true) : ran.past.token = some ran.shared.supersede := by
  cases h with
  | finished hJ hends => cases hpending
  | panicked hJ hgone => cases hpending
  | @asked s q i' resume hJ hwait hmay hnext =>
    obtain rfl := Option.some.inj hpending
    have hask : (q.ask s i').token = q.token := by cases i' <;> rfl
    exact hask.trans (hJ.commands hmay hi)

/-- What a step adds to the log is the current token. -/
theorem commandLog_moved (log : List ℕ) {p : ExecutorPool} {e : ExecutorEvent} {n : ℕ}
    {t : ExecutorThread}
    {ran : Ran ExecutorState ExecutorPast ExecutorCall ExecutorCall.Reply CommandResult}
    (hn : n < p.threads.length)
    (hcommands : ∀ i, ran.run.pending = some i → i.commands = true →
      ran.past.token = some ran.shared.supersede) :
    ∃ added, (∀ token ∈ added, token = ran.shared.supersede) ∧
      commandLog log p e
        ({ shared := ran.shared
           threads := p.threads.set n { t with past := ran.past, run := ran.run } },
          ran.run.pending.toList.map fun i => (n, i)) = log ++ added := by
  refine ⟨_, fun token htoken => ?_, rfl⟩
  obtain ⟨call, hcall, hfound⟩ := List.mem_filterMap.mp htoken
  obtain ⟨i, hi, rfl⟩ := List.mem_map.mp hcall
  split at hfound
  · rename_i hi'
    rw [List.getElem?_set_self hn] at hfound
    exact Option.some.inj
      (hfound.symm.trans (hcommands i (Option.mem_toList.mp hi) hi'))
  · cases hfound

theorem inOrder_next {ex : DisplayExecutor} {log : List ℕ} {p : ExecutorPool} {e : ExecutorEvent}
    (h : Executing ex p) (horder : InOrder log p) (hunopposed : Unopposed p e) :
    InOrder (commandLog log p e ((executions ex).pool.next p e))
      ((executions ex).pool.next p e).1 := by
  have hstep := (executions ex).stepped p e
  generalize (executions ex).pool.next p e = next at hstep
  obtain ⟨p', out⟩ := next
  have hlog (hout : out = []) : commandLog log p e (p', out) = log := by
    subst hout
    exact List.append_nil log
  cases hstep with
  | idle => rwa [hlog rfl]
  | elsewhere change =>
    rw [hlog rfl]
    cases change with
    | supportedModes modes => exact ⟨horder.sorted, horder.bounded, horder.behind⟩
    | blankOwners registry => exact ⟨horder.sorted, horder.bounded, horder.behind⟩
  | spawned command =>
    rw [hlog rfl]
    refine ⟨horder.sorted, horder.bounded, fun t ht token htoken hlt => ?_⟩
    rcases List.mem_append.mp ht with ht | ht
    · exact horder.behind t ht token htoken hlt
    · obtain rfl := List.mem_singleton.mp ht
      cases htoken
  | @moved n stir t q ran hold hburst =>
    have hmem := List.mem_of_getElem? hold
    have hstop := h.leads horder hold hburst
    have hleading := hstop.holds fun s q i hJ => leading_ask hJ i
    obtain ⟨_, hlater⟩ := sees_stopped (h.bursts hold hburst)
    obtain ⟨added, hadded, hcommandLog⟩ := commandLog_moved log (t := t)
      (e := .stir n stir) (List.getElem?_eq_some_iff.mp hold).1
      fun i => commands_stopped hstop
    rw [hcommandLog]
    have hbounded : ∀ token ∈ log, token ≤ ran.shared.supersede :=
      fun token htoken => Nat.le_trans (horder.bounded token htoken) hlater
    refine ⟨List.pairwise_append.mpr ⟨horder.sorted, ?_, ?_⟩, fun token htoken => ?_,
      fun t' ht' token htoken hlt => ?_⟩
    · refine List.pairwise_of_forall_mem_list fun a ha b hb => ?_
      rw [hadded a ha, hadded b hb]
    · intro a ha b hb
      rw [hadded b hb]
      exact hbounded a ha
    · rcases List.mem_append.mp htoken with htoken | htoken
      · exact hbounded token htoken
      · exact Nat.le_of_eq (hadded token htoken)
    · obtain ⟨m, ht'⟩ := List.mem_iff_getElem?.mp ht'
      by_cases hm : n = m
      · subst hm
        rw [List.getElem?_set_self (List.getElem?_eq_some_iff.mp hold).1] at ht'
        obtain rfl := Option.some.inj ht'
        exact .inr (.inr (hleading.behind token htoken hlt))
      · rw [List.getElem?_set_ne hm] at ht'
        rcases supersede_of_bursts hburst (h.keeps t hmem) with hsame | ⟨rfl, hnone⟩
        · exact horder.behind t' (List.mem_of_getElem? ht') token htoken (hsame ▸ hlt)
        · refine hunopposed t hold hnone t' ?_
          exact List.mem_eraseIdx_iff_getElem?.mpr ⟨m, fun hmn => hm hmn.symm, ht'⟩

theorem executing_empty (ex : DisplayExecutor) (s : ExecutorState) : Executing ex ⟨s, []⟩ where
  keeps _ ht := by cases ht
  label _ ht := by cases ht
  passing _ ht := by cases ht
  token _ ht := by cases ht

/-- Superseded wakes obey, and unopposed commands come in the order of the rotations. -/
theorem superseded_obey (ex : DisplayExecutor) (s : ExecutorState) (events : List ExecutorEvent) :
    (executions ex).pool.Steps
        (fun p e => Obeys p ((executions ex).pool.next p e).1 ((executions ex).pool.next p e).2)
        ⟨s, []⟩ events ∧
      ((executions ex).pool.Steps Unopposed ⟨s, []⟩ events →
        (commanded ex).Throughout (fun x => x.1.Pairwise (· ≤ ·)) ([], ⟨s, []⟩) events) := by
  constructor
  · have hall : (executions ex).pool.Steps (fun _ _ => True) ⟨s, []⟩ events :=
      Runs.System.Steps.of_forall (fun _ _ => trivial) _ _
    exact hall.derive (Executing ex) (fun p e h _ => executing_next e h)
      (fun p e h _ => obeys_next e h) (executing_empty ex s)
  · intro hunopposed
    have hobserved : (commanded ex).Steps (fun x e => Unopposed x.2 e) ([], ⟨s, []⟩) events ↔
        (executions ex).pool.Steps Unopposed ⟨s, []⟩ events :=
      Runs.System.steps_observed [] (Pool.mk s []) events
    refine (hobserved.mpr hunopposed).throughout
      (fun x : List ℕ × ExecutorPool => Executing ex x.2 ∧ InOrder x.1 x.2)
      (fun x e h hx => ⟨executing_next e h.1, inOrder_next h.1 h.2 hx⟩)
      (fun x h => h.2.sorted) ⟨executing_empty ex s, .nil, ?_, ?_⟩
    · intro token htoken
      cases htoken
    · intro t ht
      cases ht

/-! ## A display with two controllers -/

def deskExecutor : DisplayExecutor where
  display := ⟨"monitor"⟩
  chain := ["kwin-dpms", "ddcci"]
  retry := { wakeRetries := 1, wakeRetryBackoff := 500000000 }
  chainFingerprint := "kwin-dpms,ddcci"

def deskIdle : ExecutorState where
  supersede := 0
  health := []
  blankOwners := .new
  supportedModes _ := [.powerOff]

/-- A blank that has begun at the first controller, and a wake that gets through meanwhile. -/
def blankThenWake : List ExecutorEvent :=
  [.spawn (.blank .powerOff), .stir 0 .poll, .stir 0 (.answer (.isAvailable 0) true),
    .spawn .wake, .stir 1 .poll, .stir 1 (.answer (.isAvailable 0) true),
    .stir 1 (.answer (.wake 0) (.ok ()))]

/-- The blank fails there, and goes on to the second controller after the wake has returned. -/
theorem superseded_blank_lands :
    let events := blankThenWake ++
      [.stir 0 (.answer (.blank 0 .powerOff) (.error "busy")),
        .stir 0 (.answer (.isAvailable 1) true), .stir 0 (.answer (.blank 1 .powerOff) (.ok ()))]
    let x := (commanded deskExecutor).run ([], ⟨deskIdle, []⟩) events
    x.1 = [1, 2, 1] ∧
      x.2.threads.map (fun t => (t.past.token, t.run.ended)) =
        [(some 1, true), (some 2, true)] := by
  decide

/-- A wake whose controller is at work when the blank begins: it attempts no other. -/
theorem superseded_obey_desk :
    let events : List ExecutorEvent :=
      [.spawn .wake, .stir 0 .poll, .stir 0 (.answer (.isAvailable 0) true),
        .spawn (.blank .powerOff), .stir 1 .poll, .stir 1 (.answer (.isAvailable 0) true),
        .stir 0 (.answer (.wake 0) (.error "busy")),
        .stir 1 (.answer (.blank 0 .powerOff) (.ok ()))]
    ((commanded deskExecutor).run ([], ⟨deskIdle, []⟩) events).1 = [1, 2] ∧
      (commanded deskExecutor).Throughout (fun x => x.1.Pairwise (· ≤ ·)) ([], ⟨deskIdle, []⟩)
        events := by
  exact ⟨by decide, (superseded_obey deskExecutor deskIdle _).2 (by decide)⟩

end Dormant
