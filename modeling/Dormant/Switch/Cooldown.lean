import Dormant.Switch.Verified

/-!
# Activity pulls and their cooldown

A pull checks the cooldown before its hooks and its write, and records itself after them. Two pulls
of a display that are both between the check and the record do not see each other. Where there are
no such two, the writes of the pulls that get through are a cooldown apart.
-/

namespace Dormant
set_option autoImplicit false

open Tasks

/-! ## The times of one pull -/

/-- The clock has not gone back, and what was recorded since is later than before. -/
structure SwitchState.Later (s s' : SwitchState) : Prop where
  now : s.now ≤ s'.now
  recorded (display : DisplayId) :
    s'.lastActivityPull display = s.lastActivityPull display ∨
      ∃ last, s'.lastActivityPull display = some last ∧ s.now ≤ last

theorem SwitchState.Later.of_eq {s s' : SwitchState} (hnow : s.now = s'.now)
    (hrecorded : s'.lastActivityPull = s.lastActivityPull) : s.Later s' where
  now := Nat.le_of_eq hnow
  recorded display := .inl (congrFun hrecorded display)

theorem SwitchState.Later.trans {s s' s'' : SwitchState} (h : s.Later s') (h' : s'.Later s'') :
    s.Later s'' where
  now := Nat.le_trans h.now h'.now
  recorded display := by
    rcases h'.recorded display with hsame | ⟨last, hlast, hle⟩
    · rw [hsame]
      exact h.recorded display
    · exact .inr ⟨last, hlast, Nat.le_trans h.now hle⟩

theorem later_outside (setting : SwitchSetting) (s : SwitchState) (change : SwitchChange) :
    s.Later (s.outside setting change) := by
  cases change with
  | tick elapsed => exact ⟨Nat.le_add_right _ _, fun _ => .inl rfl⟩
  | reload config executors => exact .of_eq rfl rfl
  | coordinate call => exact .of_eq rfl rfl
  | post msg =>
    obtain ⟨frontCtl, hs, -⟩ := trySend_spec setting msg s
    show s.Later (s.trySend setting msg).1
    rw [hs]
    exact .of_eq rfl rfl
  | deliver => exact .of_eq rfl rfl

structure PullPast.Timely (s : SwitchState) (q : PullPast) : Prop where
  passed : ∀ passed ∈ q.passedAt, passed ≤ s.now
  writing : ∀ writing ∈ q.writingSince, ∀ passed ∈ q.passedAt, passed ≤ writing
  written : ∀ written ∈ q.writtenAt, written ≤ s.now
  recorded : ∀ recorded ∈ q.recordedAt, recorded ≤ s.now ∧
    (∀ written ∈ q.writtenAt, written ≤ recorded) ∧
    ∃ last, s.lastActivityPull q.request.display = some last ∧ recorded ≤ last

theorem PullPast.Timely.later {s s' : SwitchState} {q : PullPast} (h : q.Timely s)
    (hs : s.Later s') : q.Timely s' where
  passed passed hpassed := Nat.le_trans (h.passed passed hpassed) hs.now
  writing := h.writing
  written written hwritten := Nat.le_trans (h.written written hwritten) hs.now
  recorded recorded hrecorded := by
    obtain ⟨hnow, hwritten, last, hlast, hle⟩ := h.recorded recorded hrecorded
    refine ⟨Nat.le_trans hnow hs.now, hwritten, ?_⟩
    rcases hs.recorded q.request.display with hsame | ⟨last', hlast', hle'⟩
    · exact ⟨last, hsame.trans hlast, hle⟩
    · exact ⟨last', hlast', Nat.le_trans hnow hle'⟩

theorem timely_start (s : SwitchState) (p : PullRequest) : (PullPast.start p).Timely s where
  passed _ h := by cases h
  writing _ h := by cases h
  written _ h := by cases h
  recorded _ h := by cases h

theorem PullPast.Acts.timely {setting : SwitchSetting} {s s' : SwitchState} {q q' : PullPast}
    (hacts : q.Acts setting s s' q') (h : q.Timely s) : s.Later s' ∧ q'.Timely s' := by
  cases hacts with
  | looked => exact ⟨.of_eq rfl rfl, h⟩
  | resolved display hq => exact ⟨.of_eq rfl rfl, h.passed, h.writing, h.written, h.recorded⟩
  | passed hq hwarm =>
    obtain ⟨_, _, rfl⟩ := hq
    refine ⟨.of_eq rfl rfl, fun passed hpassed => ?_, fun _ hw => (by cases hw),
      fun _ hw => (by cases hw), fun _ hr => (by cases hr)⟩
    obtain rfl := Option.some.inj hpassed
    exact Nat.le_refl _
  | suppressed frontCtl sent hq hleaving =>
    exact ⟨.of_eq rfl rfl, h.passed, h.writing, h.written, h.recorded⟩
  | cleared frontCtl sent hleaving hroom =>
    exact ⟨.of_eq rfl rfl, h.passed, h.writing, h.written, h.recorded⟩
  | posted frontCtl hleaving => exact ⟨.of_eq rfl rfl, h.passed, h.writing, h.written, h.recorded⟩
  | recorded hq hrecorded =>
    refine ⟨⟨Nat.le_refl _, fun display => ?_⟩, h.passed, h.writing, h.written,
      fun recorded hr => ?_⟩
    · by_cases hd : display = q.request.display
      · subst hd
        exact .inr ⟨s.now, Function.update_self _ _ _, Nat.le_refl _⟩
      · exact .inl (Function.update_of_ne hd _ _)
    · obtain rfl := Option.some.inj hr
      exact ⟨Nat.le_refl _, h.written, s.now, Function.update_self _ _ _, Nat.le_refl _⟩
  | marked verifiedCode hq => exact ⟨.of_eq rfl rfl, h.passed, h.writing, h.written, h.recorded⟩

theorem PullPast.Resumes.timely {s : SwitchState} {q before : PullPast} (hq : q.Resumes s before)
    (h : before.Timely s) : q.Timely s where
  passed passed hpassed := h.passed passed (hq.passed ▸ hpassed)
  writing writing hwriting passed hpassed :=
    h.writing writing (hq.writing ▸ hwriting) passed (hq.passed ▸ hpassed)
  written written hwritten := by
    rcases hq.written with hsame | hnow
    · exact h.written written (hsame ▸ hwritten)
    · obtain rfl := Option.some.inj (hnow.symm.trans hwritten)
      exact Nat.le_refl _
  recorded recorded hrecorded := by
    rw [hq.recorded] at hrecorded
    cases hrecorded

theorem timely_ask {s : SwitchState} {q : PullPast} (h : q.Timely s) (i : SwitchCall) :
    (q.ask s i).Timely s := by
  cases i with
  | writeInputSource display target =>
    refine ⟨h.passed, fun writing hwriting passed hpassed => ?_, h.written, h.recorded⟩
    obtain rfl := Option.some.inj hwriting
    exact h.passed passed hpassed
  | _ => exact h

/-! ## Two pulls of one display -/

/-- A pull that is `ended` or still running is done with the cooldown before the other passes the
check. -/
def PullPast.Before (cooldown : ℕ) (a : PullPast) (ended : Bool) (b : PullPast) : Prop :=
  ∀ passed ∈ b.passedAt, a.recordedAt = none ∧ ended = true ∨
    ∃ recorded, a.recordedAt = some recorded ∧ recorded + cooldown ≤ passed

/-- Between the check and the record. -/
def PullPast.Crossing (q : PullPast) (ended : Bool) : Prop :=
  q.passedAt.isSome ∧ q.recordedAt = none ∧ ended = false

inductive PullPast.Apart (cooldown : ℕ) (a : PullPast) (aEnded : Bool) (b : PullPast)
    (bEnded : Bool) : Prop
  | before (h : a.Before cooldown aEnded b)
  | after (h : b.Before cooldown bEnded a)
  | crossing (ha : a.Crossing aEnded) (hb : b.Crossing bEnded)

theorem PullPast.Apart.symm {cooldown : ℕ} {a b : PullPast} {aEnded bEnded : Bool}
    (h : a.Apart cooldown aEnded b bEnded) : b.Apart cooldown bEnded a aEnded := by
  cases h with
  | before h => exact .after h
  | after h => exact .before h
  | crossing ha hb => exact .crossing hb ha

theorem PullPast.Apart.congr {cooldown : ℕ} {a a' b : PullPast} {aEnded bEnded : Bool}
    (h : a.Apart cooldown aEnded b bEnded) (hpassed : a'.passedAt = a.passedAt)
    (hrecorded : a'.recordedAt = a.recordedAt) : a'.Apart cooldown aEnded b bEnded := by
  cases h with
  | before h =>
    refine .before fun passed hb => ?_
    rw [hrecorded]
    exact h passed hb
  | after h => exact .after fun passed ha => h passed (hpassed ▸ ha)
  | crossing ha hb =>
    refine .crossing ⟨?_, hrecorded.trans ha.2.1, ha.2.2⟩ hb
    rw [hpassed]
    exact ha.1

/-- The cooldown counts between the two. -/
def PullPast.Rivals (a b : PullPast) : Prop :=
  a.request.reason = .activity ∧ b.request.reason = .activity ∧
    a.request.display = b.request.display

/-- A pull that comes to its end. -/
theorem PullPast.Apart.atEnd {cooldown : ℕ} {a b : PullPast} {bEnded : Bool}
    (h : a.Apart cooldown false b bEnded) : a.Apart cooldown true b bEnded := by
  cases h with
  | before h =>
    refine .before fun passed hpassed => ?_
    rcases h passed hpassed with ⟨_, hlive⟩ | hrecorded
    · cases hlive
    · exact .inr hrecorded
  | after h => exact .after h
  | crossing ha hb => exact .before fun _ _ => .inl ⟨ha.2.1, rfl⟩

/-- A pull that passes the check comes after all that were recorded before. -/
theorem apart_passed {setting : SwitchSetting} {s : SwitchState} {a b : PullPast} {bEnded : Bool}
    (ha : a.Unstarted) (hwarm : s.coolingDown setting a.request.display = false)
    (hb : b.Timely s) (hdisplay : a.request.display = b.request.display) :
    PullPast.Apart setting.cooldown { a with passedAt := some s.now } false b bEnded := by
  cases hrecorded : b.recordedAt with
  | some recorded =>
    obtain ⟨_, _, last, hlast, hle⟩ := hb.recorded recorded hrecorded
    refine .after fun passed hpassed => .inr ⟨recorded, hrecorded, ?_⟩
    obtain rfl := Option.some.inj hpassed
    unfold SwitchState.coolingDown at hwarm
    rw [hdisplay, hlast] at hwarm
    have hcold : ¬ s.now < last + setting.cooldown := by simpa using hwarm
    omega
  | none =>
    cases hpassed : b.passedAt with
    | none => exact .before fun passed h => by cases hpassed.symm.trans h
    | some passed =>
      cases bEnded with
      | true => exact .after fun _ _ => .inl ⟨hrecorded, rfl⟩
      | false =>
        refine .crossing ⟨rfl, ?_, rfl⟩ ⟨by rw [hpassed]; rfl, hrecorded, rfl⟩
        obtain ⟨_, _, rfl⟩ := ha
        rfl

/-- A pull that records itself, while the other one is not crossing. -/
theorem PullPast.Apart.recorded {cooldown now : ℕ} {a b : PullPast} {bEnded : Bool}
    (h : a.Apart cooldown false b bEnded) (ha : a.recordedAt = none) (hb : ¬ b.Crossing bEnded) :
    PullPast.Apart cooldown { a with recordedAt := some now } false b bEnded := by
  cases h with
  | before h =>
    refine .before fun passed hpassed => ?_
    rcases h passed hpassed with ⟨_, hlive⟩ | ⟨_, hrecorded, _⟩
    · cases hlive
    · cases ha.symm.trans hrecorded
  | after h => exact .after h
  | crossing _ hcrossing => exact absurd hcrossing hb

/-! ## All pulls together -/

instance (a b : PullPast) : Decidable (a.Rivals b) := inferInstanceAs (Decidable (_ ∧ _ ∧ _))

instance (q : PullPast) (ended : Bool) : Decidable (q.Crossing ended) :=
  inferInstanceAs (Decidable (_ ∧ _ ∧ _))

/-- No two pulls of a display are between the check and the record. -/
def Alone (p : PullPool) : Prop :=
  p.threads.Pairwise fun a b =>
    a.past.Rivals b.past → ¬ (a.past.Crossing a.run.ended ∧ b.past.Crossing b.run.ended)

instance (p : PullPool) : Decidable (Alone p) := inferInstanceAs (Decidable (List.Pairwise _ _))

theorem Alone.not_both {p : PullPool} (h : Alone p) {i j : ℕ} {a b : PullThread} (hne : i ≠ j)
    (ha : p.threads[i]? = some a) (hb : p.threads[j]? = some b) (hrivals : a.past.Rivals b.past) :
    ¬ (a.past.Crossing a.run.ended ∧ b.past.Crossing b.run.ended) := by
  obtain ⟨hi, rfl⟩ := List.getElem?_eq_some_iff.mp ha
  obtain ⟨hj, rfl⟩ := List.getElem?_eq_some_iff.mp hb
  have hall := List.pairwise_iff_getElem.mp h
  rcases Nat.lt_or_gt_of_ne hne with hlt | hlt
  · exact hall i j hi hj hlt hrivals
  · exact fun hboth =>
      hall j i hj hi hlt ⟨hrivals.2.1, hrivals.1, hrivals.2.2.symm⟩ ⟨hboth.2, hboth.1⟩

structure Racing (setting : SwitchSetting) (p : PullPool) : Prop where
  pulling : Pulling setting p
  timely : ∀ t ∈ p.threads, t.past.Timely p.shared
  apart (i j : ℕ) (a b : PullThread) (hne : i ≠ j) (ha : p.threads[i]? = some a)
    (hb : p.threads[j]? = some b) (hrivals : a.past.Rivals b.past) :
    a.past.Apart setting.cooldown a.run.ended b.past b.run.ended

/-- One pull in the middle of its burst, against the others. While another one is crossing, it
has not written. -/
structure PullPast.Facing (setting : SwitchSetting) (p : PullPool) (n : ℕ) (s : SwitchState)
    (q : PullPast) : Prop where
  later : p.shared.Later s
  timely : q.Timely s
  apart (j : ℕ) (b : PullThread) (hne : n ≠ j) (hb : p.threads[j]? = some b)
    (hrivals : q.Rivals b.past) : q.Apart setting.cooldown false b.past b.run.ended
  first (j : ℕ) (b : PullThread) (hne : n ≠ j) (hb : p.threads[j]? = some b)
    (hrivals : q.Rivals b.past) (hcrossing : b.past.Crossing b.run.ended) : q.writtenAt = none

/-- The target, the suppression and the mark do not matter. -/
theorem PullPast.Facing.congr {setting : SwitchSetting} {p : PullPool} {n : ℕ}
    {s s' : SwitchState} {q q' : PullPast} (h : q.Facing setting p n s) (hlater : s.Later s')
    (htimely : q'.Timely s') (hrequest : q'.request = q.request)
    (hpassed : q'.passedAt = q.passedAt) (hwritten : q'.writtenAt = q.writtenAt)
    (hrecorded : q'.recordedAt = q.recordedAt) : q'.Facing setting p n s' := by
  have hrivals {b : PullPast} (hr : q'.Rivals b) : q.Rivals b := by
    unfold PullPast.Rivals at hr ⊢
    rwa [← hrequest]
  refine ⟨h.later.trans hlater, htimely, fun j b hne hb hr => ?_, fun j b hne hb hr hc => ?_⟩
  · exact (h.apart j b hne hb (hrivals hr)).congr hpassed hrecorded
  · exact hwritten.trans (h.first j b hne hb (hrivals hr) hc)

theorem PullPast.Acts.facing {setting : SwitchSetting} {p : PullPool} {n : ℕ}
    {s s' : SwitchState} {q q' : PullPast} (hothers : ∀ t ∈ p.threads, t.past.Timely p.shared)
    (hacts : q.Acts setting s s' q') (h : q.Facing setting p n s) :
    q'.Facing setting p n s' := by
  obtain ⟨hlater, htimely⟩ := hacts.timely h.timely
  cases hacts with
  | looked => exact h
  | resolved display hq => exact h.congr hlater htimely rfl rfl rfl rfl
  | passed hq hwarm =>
    refine ⟨h.later.trans hlater, htimely, fun j b hne hb hrivals => ?_, h.first⟩
    have hb := (hothers b (List.mem_of_getElem? hb)).later h.later
    exact apart_passed hq hwarm hb hrivals.2.2
  | suppressed frontCtl sent hq hleaving => exact h.congr hlater htimely rfl rfl rfl rfl
  | cleared frontCtl sent hleaving hroom => exact h.congr hlater htimely rfl rfl rfl rfl
  | posted frontCtl hleaving => exact h.congr hlater htimely rfl rfl rfl rfl
  | recorded hq hrecorded =>
    refine ⟨h.later.trans hlater, htimely, fun j b hne hb hrivals => ?_, h.first⟩
    refine (h.apart j b hne hb hrivals).recorded hrecorded fun hcrossing => ?_
    have hwritten := hq.written
    rw [h.first j b hne hb hrivals hcrossing] at hwritten
    cases hwritten
  | marked verifiedCode hq => exact h.congr hlater htimely rfl rfl rfl rfl

theorem facing_ask {setting : SwitchSetting} {p : PullPool} {n : ℕ} {s : SwitchState}
    {q : PullPast} (h : q.Facing setting p n s) (i : SwitchCall) :
    (q.ask s i).Facing setting p n s := by
  have htimely := timely_ask h.timely i
  cases i <;> exact h.congr (.of_eq rfl rfl) htimely rfl rfl rfl rfl

/-- Where a burst starts. -/
theorem Racing.facing {setting : SwitchSetting} {p : PullPool} (h : Racing setting p)
    (halone : Alone p) {n : ℕ} {t : PullThread} (ht : p.threads[n]? = some t)
    {stir : Stir SwitchCall SwitchCall.Reply} {q : PullPast}
    {ran : Ran SwitchState PullPast SwitchCall SwitchCall.Reply SwitchOutcome}
    (hburst : (pulls setting).Bursts p.shared t stir q ran) :
    q.Facing setting p n p.shared := by
  have hmem := List.mem_of_getElem? ht
  have hq := resumes hburst (h.pulling.keeps t hmem)
  have hlive := hburst.live
  have hrivals {b : PullPast} (hr : q.Rivals b) : t.past.Rivals b := by
    unfold PullPast.Rivals at hr ⊢
    rwa [← hq.request]
  refine ⟨.of_eq rfl rfl, hq.timely (h.timely t hmem), fun j b hne hb hr => ?_,
    fun j b hne hb hr hcrossing => ?_⟩
  · have hapart := h.apart n j t b hne ht hb (hrivals hr)
    rw [hlive] at hapart
    cases hapart with
    | before hbefore =>
      refine .before fun passed hpassed => ?_
      rcases hbefore passed hpassed with ⟨_, hended⟩ | ⟨_, hrecorded, _⟩
      · cases hended
      · cases hq.unrecorded.symm.trans hrecorded
    | after hafter => exact .after fun passed hpassed => hafter passed (hq.passed ▸ hpassed)
    | crossing ha hb => exact .crossing ⟨hq.passed ▸ ha.1, hq.recorded, rfl⟩ hb
  · refine hq.unpassed hr.1 ?_
    by_contra hpassed
    refine halone.not_both hne ht hb (hrivals hr) ⟨⟨?_, hq.unrecorded, hlive⟩, hcrossing⟩
    rw [← hq.passed]
    exact Option.isSome_iff_ne_none.mpr hpassed

/-- Where it stops. -/
theorem facing_stopped {setting : SwitchSetting} {p : PullPool} {n : ℕ}
    {ran : Ran SwitchState PullPast SwitchCall SwitchCall.Reply SwitchOutcome}
    (h : (pulls setting).Stopped PullPast.may PullPast.ends PullPast.Cleared
      (PullPast.Facing setting p n) ran) {j : ℕ} {b : PullThread} (hne : n ≠ j)
    (hb : p.threads[j]? = some b) (hrivals : ran.past.Rivals b.past) :
    ran.past.Apart setting.cooldown ran.run.ended b.past b.run.ended := by
  cases h with
  | finished hJ hends => exact (hJ.apart j b hne hb hrivals).atEnd
  | asked hJ hwait hmay hnext => exact (facing_ask hJ _).apart j b hne hb hrivals
  | panicked hJ hgone => exact (hJ.apart j b hne hb hrivals).atEnd

theorem racing_next {setting : SwitchSetting} {p : PullPool}
    (e : PoolEvent PullRequest SwitchChange SwitchCall SwitchCall.Reply) (h : Racing setting p)
    (halone : Alone p) : Racing setting ((pulls setting).pool.next p e).1 := by
  have hpulling := pulling_next p e h.pulling
  have hstep := (pulls setting).stepped p e
  generalize (pulls setting).pool.next p e = next at hstep hpulling
  obtain ⟨p', out⟩ := next
  cases hstep with
  | idle => exact h
  | elsewhere change =>
    exact ⟨hpulling, fun t ht => (h.timely t ht).later (later_outside setting p.shared change),
      h.apart⟩
  | spawned k =>
    have hnew {i : ℕ} {t : PullThread}
        (ht : (p.threads ++
          [⟨k, (pulls setting).start k, .ready ((pulls setting).program k)⟩])[i]? = some t) :
        p.threads[i]? = some t ∨ t.past.passedAt = none := by
      by_cases hi : i < p.threads.length
      · rw [List.getElem?_append_left hi] at ht
        exact .inl ht
      · rw [List.getElem?_append_right (Nat.le_of_not_lt hi)] at ht
        obtain rfl := List.mem_singleton.mp (List.mem_of_getElem? ht)
        exact .inr rfl
    refine ⟨hpulling, fun t ht => ?_, fun i j a b hne ha hb hrivals => ?_⟩
    · rcases List.mem_append.mp ht with ht | ht
      · exact h.timely t ht
      · obtain rfl := List.mem_singleton.mp ht
        exact timely_start p.shared k
    · rcases hnew ha with ha | ha
      · rcases hnew hb with hb | hb
        · exact h.apart i j a b hne ha hb hrivals
        · exact .before fun passed hpassed => (by cases hb.symm.trans hpassed)
      · exact .after fun passed hpassed => (by cases ha.symm.trans hpassed)
  | @moved n stir old q ran hold hburst =>
    have hmem := List.mem_of_getElem? hold
    have hstop := hburst.stopped (lawful_pulls setting)
      (fun s q i f hf hmay hJ => (acts hf hmay).facing h.timely hJ) (h.pulling.keeps old hmem)
      (h.facing halone hold hburst)
    have hran := hstop.holds fun s q i hq => facing_ask hq i
    have hthread {i : ℕ} {t : PullThread}
        (ht : (p.threads.set n { old with past := ran.past, run := ran.run })[i]? = some t) :
        (n ≠ i ∧ p.threads[i]? = some t) ∨
          (n = i ∧ t.past = ran.past ∧ t.run = ran.run) := by
      by_cases hi : n = i
      · subst hi
        rw [List.getElem?_set_self (List.getElem?_eq_some_iff.mp hold).1] at ht
        obtain rfl := Option.some.inj ht
        exact .inr ⟨rfl, rfl, rfl⟩
      · rw [List.getElem?_set_ne hi] at ht
        exact .inl ⟨hi, ht⟩
    refine ⟨hpulling, fun t ht => ?_, fun i j a b hne ha hb hrivals => ?_⟩
    · rcases List.mem_or_eq_of_mem_set ht with ht | rfl
      · exact (h.timely t ht).later hran.later
      · exact hran.timely
    · rcases hthread ha with ⟨hi, ha⟩ | ⟨rfl, hpast, hrun⟩
      · rcases hthread hb with ⟨hj, hb⟩ | ⟨rfl, hpast, hrun⟩
        · exact h.apart i j a b hne ha hb hrivals
        · rw [hpast] at hrivals ⊢
          rw [hrun]
          refine (facing_stopped hstop hi ha ?_).symm
          exact ⟨hrivals.2.1, hrivals.1, hrivals.2.2.symm⟩
      · rcases hthread hb with ⟨hj, hb⟩ | ⟨rfl, _, _⟩
        · rw [hpast] at hrivals ⊢
          rw [hrun]
          exact facing_stopped hstop hj hb hrivals
        · exact absurd rfl hne

/-! ## The law -/

/-- The writes of two activity pulls of one display that both got through are a cooldown apart. -/
def WritesApart (cooldown : ℕ) (p : PullPool) : Prop :=
  ∀ (i j : ℕ) (a b : PullThread), i ≠ j → p.threads[i]? = some a → p.threads[j]? = some b →
    a.request.reason = .activity → b.request.reason = .activity →
    a.request.display = b.request.display →
    a.run.result = some .switched → b.run.result = some .switched →
    ∃ aSince aAt bSince bAt, a.past.writingSince = some aSince ∧ a.past.writtenAt = some aAt ∧
      b.past.writingSince = some bSince ∧ b.past.writtenAt = some bAt ∧
      (aAt + cooldown ≤ bSince ∨ bAt + cooldown ≤ aSince)

theorem switched_of_result {setting : SwitchSetting} {t : PullThread}
    (h : (pulls setting).Keeps PullPast.may PullPast.ends PullPast.Cleared t)
    (hresult : t.run.result = some .switched) : t.past.Switched ∧ t.run.ended = true := by
  cases h with
  | ready k => cases hresult
  | waiting k hwait hmay hnext => cases hresult
  | finished k hends => exact ⟨hends.2 (Option.some.inj hresult), rfl⟩
  | panicked k hgone => cases hresult

/-- A pull that was recorded a cooldown before the check of the other was written before that. -/
theorem written_before {cooldown : ℕ} {s : SwitchState} {a b : PullPast} (ha : a.Timely s)
    (hb : b.Timely s) (hrecorded : a.recordedAt.isSome) (hpassed : b.passedAt.isSome)
    (h : a.Before cooldown true b) :
    ∀ written ∈ a.writtenAt, ∀ writing ∈ b.writingSince, written + cooldown ≤ writing := by
  intro written hwritten writing hwriting
  obtain ⟨passed, hpassed⟩ := Option.isSome_iff_exists.mp hpassed
  rcases h passed hpassed with ⟨hnone, _⟩ | ⟨recorded, hat, hle⟩
  · rw [hnone] at hrecorded
    cases hrecorded
  · have hwritten := (ha.recorded recorded hat).2.1 written hwritten
    have hwriting := hb.writing writing hwriting passed hpassed
    omega

theorem writesApart_of_racing {setting : SwitchSetting} {p : PullPool} (h : Racing setting p) :
    WritesApart setting.cooldown p := by
  intro i j a b hne ha hb hareason hbreason hdisplay haresult hbresult
  have hamem := List.mem_of_getElem? ha
  have hbmem := List.mem_of_getElem? hb
  obtain ⟨haswitched, haover⟩ := switched_of_result (h.pulling.keeps a hamem) haresult
  obtain ⟨hbswitched, hbover⟩ := switched_of_result (h.pulling.keeps b hbmem) hbresult
  have hrivals : a.past.Rivals b.past := by
    unfold PullPast.Rivals
    rw [h.pulling.label a hamem, h.pulling.label b hbmem]
    exact ⟨hareason, hbreason, hdisplay⟩
  obtain ⟨aSince, haSince⟩ := Option.isSome_iff_exists.mp haswitched.writing
  obtain ⟨aAt, haAt⟩ := Option.isSome_iff_exists.mp haswitched.written
  obtain ⟨bSince, hbSince⟩ := Option.isSome_iff_exists.mp hbswitched.writing
  obtain ⟨bAt, hbAt⟩ := Option.isSome_iff_exists.mp hbswitched.written
  refine ⟨aSince, aAt, bSince, bAt, haSince, haAt, hbSince, hbAt, ?_⟩
  have hapart := h.apart i j a b hne ha hb hrivals
  rw [haover, hbover] at hapart
  have hatimely := h.timely a hamem
  have hbtimely := h.timely b hbmem
  cases hapart with
  | before hbefore =>
    exact .inl (written_before hatimely hbtimely (haswitched.recorded hrivals.1)
      (hbswitched.passed hrivals.2.1) hbefore aAt haAt bSince hbSince)
  | after hafter =>
    exact .inr (written_before hbtimely hatimely (hbswitched.recorded hrivals.2.1)
      (haswitched.passed hrivals.1) hafter bAt hbAt aSince haSince)
  | crossing hcrossing _ => cases hcrossing.2.2

theorem activity_pulls_apart (setting : SwitchSetting) (s : SwitchState)
    {events : List (PoolEvent PullRequest SwitchChange SwitchCall SwitchCall.Reply)}
    (halone : (pulls setting).pool.Steps (fun p _ => Alone p) ⟨s, []⟩ events) :
    (pulls setting).pool.Throughout (WritesApart setting.cooldown) ⟨s, []⟩ events := by
  refine halone.throughout (Racing setting) (fun p e h hp => racing_next e h hp)
    (fun p h => writesApart_of_racing h) ⟨pulling_empty setting s, fun t ht => ?_, ?_⟩
  · cases ht
  · intro i j a b hne ha
    cases ha

/-- An activity pull, once it is on the stack of threads. -/
def activityPull (n : ℕ) : List (PoolEvent PullRequest SwitchChange SwitchCall SwitchCall.Reply) :=
  [.spawn ⟨deskMonitor, .activity, true⟩, .stir n .poll,
    .stir n (.answer (.powerOnIfStandby deskMonitor) ())]

def activityWritten (n : ℕ) : PoolEvent PullRequest SwitchChange SwitchCall SwitchCall.Reply :=
  .stir n (.answer (.writeInputSource deskMonitor ⟨15, .exact 15⟩) (.ok ()))

/-- Two pulls that overlap get through within one cooldown. -/
theorem activity_pulls_together :
    let p := (pulls deskSwitch).pool.run ⟨aliasedDesk none, []⟩
      (activityPull 0 ++ activityPull 1 ++ [activityWritten 0, activityWritten 1])
    (p.threads.map fun t =>
      (t.request.reason, t.run.result, t.past.writingSince, t.past.writtenAt)) =
      [(.activity, some .switched, some 0, some 0),
        (.activity, some .switched, some 0, some 0)] := by
  decide

theorem activity_pulls_apart_desk :
    let events := activityPull 0 ++ [activityWritten 0, .outside (.tick 10)] ++ activityPull 1 ++
      [activityWritten 1]
    (((pulls deskSwitch).pool.run ⟨aliasedDesk none, []⟩ events).threads.map fun t =>
      (t.run.result, t.past.writtenAt)) = [(some .switched, some 0), (some .switched, some 10)] ∧
      (pulls deskSwitch).pool.Throughout (WritesApart deskSwitch.cooldown) ⟨aliasedDesk none, []⟩
        events := by
  exact ⟨by decide, activity_pulls_apart deskSwitch (aliasedDesk none) (by decide)⟩

end Dormant
