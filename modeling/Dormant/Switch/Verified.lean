import Dormant.Switch.History

/-!
# What a verified pull leaves behind

When a pull returns, the record of its display is owned and settled, and a poll that reads the local
input again agrees with it just when the panel reports the code that was written. Its suppression is
cleared, if the control channel has room for the clear.
-/

namespace Dormant
set_option autoImplicit false

open Tasks

namespace CoordRecord

/-- The record does not contradict a panel that was just switched here, nor does it find a
contradiction when that panel is polled. -/
structure Agreed (record : CoordRecord) (readCode writeCode : UInt8) : Prop where
  owned : record.owned = true
  contested : record.contested = false
  pending : record.pendingTransitionCode = none ∧ record.pendingTransitionCount = 0
  polled (aliases : InputCodeAliases) (panelState : Option PanelState) (confirmations : UInt32)
    (policy : OwnershipFlapPolicy) (now : ℕ) (hread : aliases.localRead = readCode)
    (hwrite : aliases.localWrite = writeCode) :
    let seen := record.recordObservationAt (some ⟨readCode, aliases, panelState⟩) confirmations
      policy now
    seen.2.disagreementWith = none ∧ seen.1.owned = true

/-- A poll of the local input, right after the display was marked. -/
theorem recordObservationAt_marked (record : CoordRecord) (verifiedCode : UInt8)
    {readCode : UInt8} {aliases : InputCodeAliases} (hread : aliases.localRead = readCode)
    (panelState : Option PanelState) (confirmations : UInt32) (policy : OwnershipFlapPolicy)
    (now : ℕ) :
    let seen := (record.markOwnedImmediate verifiedCode).recordObservationAt
      (some ⟨readCode, aliases, panelState⟩) confirmations policy now
    seen.1.owned = true ∧
      seen.2.disagreementWith = if verifiedCode = readCode then none else some verifiedCode := by
  have hlocal : aliases.classify readCode = .localInput := by
    simp [InputCodeAliases.classify, hread]
  by_cases hcode : verifiedCode = readCode
  · simp [recordObservationAt, markOwnedImmediate, recordDisagreement, debounce, hlocal, hcode,
      recordLocalReturn, recordSuccessState, clearPending, clearSighting,
      InputObservationOutcome.default]
  · simp [recordObservationAt, markOwnedImmediate, recordDisagreement, debounce, hlocal, hcode,
      recordLocalReturn, recordSuccessState, clearPending, clearSighting,
      InputObservationOutcome.default]

theorem agreed_markOwnedImmediate (record : CoordRecord) (readCode writeCode : UInt8) :
    (record.markOwnedImmediate writeCode).Agreed readCode writeCode ↔ writeCode = readCode := by
  constructor
  · intro h
    have hpoll := (h.polled ⟨readCode, writeCode, none, none⟩ none 1 .disabled 0 rfl rfl).1
    have hread : (InputCodeAliases.mk readCode writeCode none none).localRead = readCode := rfl
    have hmarked := recordObservationAt_marked record writeCode hread none 1 .disabled 0
    by_contra hcode
    rw [hmarked.2, if_neg hcode] at hpoll
    cases hpoll
  · intro hcode
    refine ⟨rfl, rfl, ⟨rfl, rfl⟩, fun aliases panelState confirmations policy now hread _ => ?_⟩
    have hmarked := recordObservationAt_marked record writeCode hread panelState confirmations
      policy now
    exact ⟨hmarked.2.trans (if_pos hcode), hmarked.1⟩

end CoordRecord

namespace SwitchState

def record (s : SwitchState) (display : DisplayId) : Option CoordRecord :=
  s.coordination.bind fun coordination => coordination.records display

end SwitchState

/-! ## The record -/

/-- The target is the local input of the configuration. -/
def SwitchConfig.Targets (config : SwitchConfig) (target : InputSourceTarget)
    (readCode : UInt8) : Prop :=
  config.sharedInputCode = some readCode ∧
    target.writeCode = config.sharedInputWriteCode.getD readCode ∧
    target.expectedReadback = .exact readCode

def PullPast.Targeted (q : PullPast) : Prop :=
  ∀ config target, q.target = some (config, target) → ∃ readCode, config.Targets target readCode

theorem targets_resolveLocalTarget {s : SwitchState} {display : DisplayId} {config : SwitchConfig}
    {target : InputSourceTarget} (h : s.resolveLocalTarget display = some (config, target)) :
    ∃ readCode, config.Targets target readCode := by
  unfold SwitchState.resolveLocalTarget at h
  split at h
  · cases h
  · split at h
    · obtain ⟨readCode, hcode, hfound⟩ := Option.map_eq_some_iff.mp h
      cases hfound
      exact ⟨readCode, hcode, rfl, rfl⟩
    · cases h

/-- The record of its display is marked with what the pull has marked it. -/
def PullPast.Marked (s : SwitchState) (q : PullPast) : Prop :=
  ∀ code, q.marked = some code → ∀ record, s.record q.request.display = some record →
    ∃ prior : CoordRecord, record = prior.markOwnedImmediate code

theorem record_markOwnedImmediate {s : SwitchState} {display : DisplayId} {verifiedCode : UInt8}
    {record : CoordRecord}
    (h : SwitchState.record
      { s with
        coordination := s.coordination.map fun coordination =>
          coordination.markOwnedImmediate display verifiedCode } display = some record) :
    ∃ prior : CoordRecord, record = prior.markOwnedImmediate verifiedCode := by
  obtain ⟨marked, hmarked, hrecord⟩ := Option.bind_eq_some_iff.mp h
  obtain ⟨coordination, -, rfl⟩ := Option.map_eq_some_iff.mp hmarked
  have hmap : ((coordination.records display).map (·.markOwnedImmediate verifiedCode)) =
      some record := by
    rw [← hrecord]
    exact (Function.update_self display _ coordination.records).symm
  obtain ⟨prior, -, rfl⟩ := Option.map_eq_some_iff.mp hmap
  exact ⟨prior, rfl⟩

def PullPast.Backing (s : SwitchState) (q : PullPast) : Prop := q.Targeted ∧ q.Marked s

theorem PullPast.Acts.backing {setting : SwitchSetting} {s s' : SwitchState} {q q' : PullPast}
    (hacts : q.Acts setting s s' q') (h : q.Backing s) : q'.Backing s' := by
  obtain ⟨htargeted, hmarked⟩ := h
  cases hacts with
  | looked => exact ⟨htargeted, hmarked⟩
  | resolved display hq =>
    obtain ⟨_, _, rfl⟩ := hq
    exact ⟨fun _ _ htarget => targets_resolveLocalTarget htarget, fun _ hcode => by cases hcode⟩
  | passed hq hwarm => exact ⟨htargeted, hmarked⟩
  | suppressed frontCtl sent hq hleaving => exact ⟨htargeted, hmarked⟩
  | cleared frontCtl sent hleaving hroom => exact ⟨htargeted, hmarked⟩
  | posted frontCtl hleaving => exact ⟨htargeted, hmarked⟩
  | recorded hq hrecorded => exact ⟨htargeted, hmarked⟩
  | marked verifiedCode hq =>
    refine ⟨htargeted, fun code hcode record hrecord => ?_⟩
    obtain rfl := Option.some.inj hcode
    exact record_markOwnedImmediate hrecord

/-- The pulls that return here leave their displays agreed just when the codes coincide. -/
def ReturnsAgreed (p p' : PullPool) : Prop :=
  ∀ (n : ℕ) (t : PullThread), p'.threads[n]? = some t → t.run.result = some .switched →
    (∀ before ∈ p.threads[n]?, before.run.result ≠ some .switched) →
      ∃ config target readCode, t.past.target = some (config, target) ∧
        config.Targets target readCode ∧
        ∀ record, p'.shared.record t.request.display = some record →
          (record.Agreed readCode target.writeCode ↔ target.writeCode = readCode)

/-- What holds of the pulls between two steps. -/
structure Pulling (setting : SwitchSetting) (p : PullPool) : Prop where
  keeps : ∀ t ∈ p.threads, (pulls setting).Keeps PullPast.may PullPast.ends PullPast.Cleared t
  label : ∀ t ∈ p.threads, t.past.request = t.request

theorem pulling_next {setting : SwitchSetting} (p : PullPool)
    (e : PoolEvent PullRequest SwitchChange SwitchCall SwitchCall.Reply) (h : Pulling setting p) :
    Pulling setting ((pulls setting).pool.next p e).1 where
  keeps := Scheme.keeps_next (lawful_pulls setting) h.keeps e
  label := by
    have hask (s : SwitchState) (q : PullPast) (i : SwitchCall) :
        (q.ask s i).request = q.request := by
      cases i <;> rfl
    have hgot (s : SwitchState) (q : PullPast) (i : SwitchCall) (r : i.Reply) :
        (q.got s i r).request = q.request := by
      unfold PullPast.got
      split <;> (try split) <;> rfl
    have hlost (q : PullPast) (i : SwitchCall) : (q.lost i).request = q.request := by
      unfold PullPast.lost
      split <;> rfl
    exact Scheme.labelled_next (fun _ => rfl) hask hgot hlost h.label e

theorem returnsAgreed_next {setting : SwitchSetting} {p : PullPool}
    (e : PoolEvent PullRequest SwitchChange SwitchCall SwitchCall.Reply) (h : Pulling setting p)
    (htargeted : ∀ t ∈ p.threads, t.past.Targeted) :
    ReturnsAgreed p ((pulls setting).pool.next p e).1 ∧
      ∀ t ∈ ((pulls setting).pool.next p e).1.threads, t.past.Targeted := by
  have hmoves {n : ℕ} {t : PullThread}
      (ht : ((pulls setting).pool.next p e).1.threads[n]? = some t) :
      p.threads[n]? = some t ∨ t.run.result = none ∧ t.past.Targeted ∨
        t.past.Backing ((pulls setting).pool.next p e).1.shared ∧
          (t.run.result = some .switched → t.past.Switched) := by
    cases ((pulls setting).stepped p e).becomes ht with
    | same ht => exact .inl ht
    | spawned k hnew => exact .inr (.inl ⟨rfl, fun _ _ htarget => by cases htarget⟩)
    | @moved stir old q ran hold hburst hshared =>
      have hmem := List.mem_of_getElem? hold
      have hq := resumes hburst (h.keeps old hmem)
      have hbacking : q.Backing p.shared := by
        refine ⟨fun config target htarget => htargeted old hmem config target ?_,
          fun code hcode => ?_⟩
        · rw [← hq.target]
          exact htarget
        · rw [hq.marked] at hcode
          cases hcode
      have hstop := hburst.stopped (lawful_pulls setting)
        (fun s q i f hf hmay hJ => (acts hf hmay).backing hJ) (h.keeps old hmem) hbacking
      rw [← hshared]
      have hask (s : SwitchState) (q : PullPast) (i : SwitchCall) (hq : q.Backing s) :
          (q.ask s i).Backing s := by
        cases i <;> exact hq
      refine .inr (.inr ⟨hstop.holds hask, fun hresult => ?_⟩)
      cases hstop with
      | finished hJ hends => exact hends.2 (Option.some.inj hresult)
      | asked hJ hwait hmay hnext => cases hresult
      | panicked hJ hgone => cases hresult
  constructor
  · intro n t ht hresult hbefore
    rcases hmoves ht with hsame | ⟨hnone, -⟩ | ⟨⟨htarget, hmarked⟩, hswitched⟩
    · exact absurd hresult (hbefore t hsame)
    · rw [hnone] at hresult
      cases hresult
    · obtain ⟨config, target, hfound, hcode⟩ := (hswitched hresult).marked
      obtain ⟨readCode, hcodes⟩ := htarget config target hfound
      refine ⟨config, target, readCode, hfound, hcodes, fun record hrecord => ?_⟩
      rw [← (pulling_next p e h).label t (List.mem_of_getElem? ht)] at hrecord
      obtain ⟨prior, rfl⟩ := hmarked _ hcode record hrecord
      exact prior.agreed_markOwnedImmediate readCode target.writeCode
  · intro t ht
    obtain ⟨n, ht⟩ := List.mem_iff_getElem?.mp ht
    rcases hmoves ht with hsame | ⟨-, htarget⟩ | ⟨⟨htarget, -⟩, -⟩
    · exact htargeted t (List.mem_of_getElem? hsame)
    · exact htarget
    · exact htarget

/-! ## The suppression -/

/-- The pull has its suppression, and moves on to clear it: a hook has aborted, the write has ended,
or the pull is given up. -/
def PullThread.clears (t : PullThread) (s : SwitchState) (stir : Stir SwitchCall SwitchCall.Reply) :
    Bool :=
  match t.run, stir with
  | .waiting i _, .answer j r => decide (i = j) && t.past.held && (t.past.got s j r).leaving
  | .waiting i _, .abort => t.past.held && (t.past.lost i).leaving
  | _, _ => false

/-- There is room in the channel for the clear of the pull that is stirred. -/
def Roomy (setting : SwitchSetting) (p : PullPool) :
    PoolEvent PullRequest SwitchChange SwitchCall SwitchCall.Reply → Prop
  | .stir n stir =>
    ∀ t ∈ p.threads[n]?, PullThread.clears t p.shared stir = true →
      p.shared.frontCtl.length < setting.capacity
  | _ => True

/-- Its clear has not been refused, and there is room when it is next. -/
def PullPast.Clearing (setting : SwitchSetting) (s : SwitchState) (q : PullPast) : Prop :=
  (q.held = true → q.refused = false) ∧
    (q.leaving = true → q.held = true → s.frontCtl.length < setting.capacity)

theorem PullPast.Acts.clearing {setting : SwitchSetting} {s s' : SwitchState} {q q' : PullPast}
    (hacts : q.Acts setting s s' q') (h : q.Clearing setting s) : q'.Clearing setting s' := by
  obtain ⟨hrefused, hroom⟩ := h
  cases hacts with
  | looked => exact ⟨hrefused, hroom⟩
  | resolved display hq => exact ⟨hrefused, hroom⟩
  | passed hq hwarm => exact ⟨hrefused, hroom⟩
  | suppressed frontCtl sent hq hleaving =>
    refine ⟨fun _ => hq.refused, fun hleft => ?_⟩
    cases hleaving.symm.trans hleft
  | cleared frontCtl sent hleaving hsent =>
    refine ⟨fun hheld => ?_, fun hleft => by cases hleft⟩
    obtain ⟨hheld, hlost⟩ : q.held = true ∧ sent = false := by simpa using hheld
    cases hlost.symm.trans (hsent (hroom hleaving hheld))
  | posted frontCtl hleaving =>
    refine ⟨hrefused, fun hleft => ?_⟩
    cases hleaving.symm.trans hleft
  | recorded hq hrecorded => exact ⟨hrefused, hroom⟩
  | marked verifiedCode hq => exact ⟨hrefused, hroom⟩

theorem clears_of_bursts {setting : SwitchSetting} {s : SwitchState} {t : PullThread}
    {stir : Stir SwitchCall SwitchCall.Reply} {q : PullPast}
    {ran : Ran SwitchState PullPast SwitchCall SwitchCall.Reply SwitchOutcome}
    (h : (pulls setting).Bursts s t stir q ran)
    (ht : (pulls setting).Keeps PullPast.may PullPast.ends PullPast.Cleared t)
    (hleaving : q.leaving = true) (hheld : t.past.held = true) :
    PullThread.clears t s stir = true := by
  cases ht with
  | ready p =>
    cases h with
    | polled hrun => cases hleaving
    | answered r hrun => cases hrun
    | dropped hrun => cases hleaving
    | unwound hrun => cases hrun
  | waiting k hwait hmay hnext =>
    cases h with
    | polled hrun => cases hrun
    | answered r hrun =>
      cases hrun
      refine Bool.and_eq_true_iff.mpr ⟨Bool.and_eq_true_iff.mpr ⟨decide_eq_true rfl, hheld⟩, ?_⟩
      exact hleaving
    | dropped hrun => cases hrun
    | unwound hrun =>
      cases hrun
      exact Bool.and_eq_true_iff.mpr ⟨hheld, hleaving⟩
  | finished k hends => cases h.live
  | panicked k hgone => cases h.live

/-- No clear has been refused while the suppression was held. -/
def Unrefused (p : PullPool) : Prop :=
  ∀ t ∈ p.threads, t.past.held = true → t.past.refused = false

theorem unrefused_next {setting : SwitchSetting} {p : PullPool}
    {e : PoolEvent PullRequest SwitchChange SwitchCall SwitchCall.Reply} (h : Pulling setting p)
    (hrefused : Unrefused p) (hroomy : Roomy setting p e) :
    Unrefused ((pulls setting).pool.next p e).1 := by
  have hstep := (pulls setting).stepped p e
  generalize (pulls setting).pool.next p e = next at hstep
  obtain ⟨p', out⟩ := next
  cases hstep with
  | idle => exact hrefused
  | elsewhere => exact hrefused
  | spawned k =>
    intro t ht hheld
    rcases List.mem_append.mp ht with ht | ht
    · exact hrefused t ht hheld
    · obtain rfl := List.mem_singleton.mp ht
      rfl
  | @moved n stir old q ran hold hburst =>
    intro t ht
    rcases List.mem_or_eq_of_mem_set ht with ht | rfl
    · exact hrefused t ht
    · have hmem := List.mem_of_getElem? hold
      have hq := resumes hburst (h.keeps old hmem)
      have hclearing : q.Clearing setting p.shared := by
        refine ⟨fun hheld => ?_, fun hleaving hheld => hroomy old hold ?_⟩
        · rw [hq.refused]
          exact hrefused old hmem (hq.held ▸ hheld)
        · exact clears_of_bursts hburst (h.keeps old hmem) hleaving (hq.held ▸ hheld)
      have hstop := hburst.stopped (lawful_pulls setting)
        (fun s q i f hf hmay hJ => (acts hf hmay).clearing hJ) (h.keeps old hmem) hclearing
      have hask (s : SwitchState) (q : PullPast) (i : SwitchCall) (hq : q.Clearing setting s) :
          (q.ask s i).Clearing setting s := by
        cases i <;> exact hq
      exact (hstop.holds hask).1

/-- A pull that has ended has cleared what it has set. -/
theorem cleared_of_over {setting : SwitchSetting} {p : PullPool} (h : Pulling setting p)
    (hrefused : Unrefused p) : ∀ t ∈ p.threads, t.run.ended = true → t.past.held = false := by
  intro t ht hended
  have hcleared : t.past.Cleared := by
    cases h.keeps t ht with
    | ready k => cases hended
    | waiting k hwait hmay hnext => cases hended
    | finished k hends => exact hends.1
    | panicked k hgone => exact hgone
  by_contra hheld
  have hheld : t.past.held = true := by simpa using hheld
  cases (hrefused t ht hheld).symm.trans (hcleared hheld)

theorem pulling_empty (setting : SwitchSetting) (s : SwitchState) : Pulling setting ⟨s, []⟩ where
  keeps _ ht := by cases ht
  label _ ht := by cases ht

theorem pulls_leave (setting : SwitchSetting) (s : SwitchState)
    (events : List (PoolEvent PullRequest SwitchChange SwitchCall SwitchCall.Reply)) :
    (pulls setting).pool.Steps (fun p e => ReturnsAgreed p ((pulls setting).pool.next p e).1)
        ⟨s, []⟩ events ∧
      ((pulls setting).pool.Steps (Roomy setting) ⟨s, []⟩ events →
        (pulls setting).pool.Throughout
          (fun p => ∀ t ∈ p.threads, t.run.ended = true → t.past.held = false) ⟨s, []⟩ events) := by
  constructor
  · have hall : (pulls setting).pool.Steps (fun _ _ => True) ⟨s, []⟩ events :=
      Runs.System.Steps.of_forall (fun _ _ => trivial) _ _
    refine hall.derive (fun p => Pulling setting p ∧ ∀ t ∈ p.threads, t.past.Targeted)
      (fun p e h _ => ⟨pulling_next p e h.1, (returnsAgreed_next e h.1 h.2).2⟩)
      (fun p e h _ => (returnsAgreed_next e h.1 h.2).1) ⟨pulling_empty setting s, ?_⟩
    intro t ht
    cases ht
  · intro hroomy
    refine hroomy.throughout (fun p => Pulling setting p ∧ Unrefused p)
      (fun p e h hroom => ⟨pulling_next p e h.1, unrefused_next h.1 h.2 hroom⟩)
      (fun p h => cleared_of_over h.1 h.2) ⟨pulling_empty setting s, ?_⟩
    intro t ht
    cases ht

/-! ## A panel that is written 23 and reads 15 -/

def deskSwitch : SwitchSetting := { cooldown := 10, capacity := 64 }

def deskMonitor : DisplayId := ⟨"monitor"⟩

def aliasedDesk (writeCode : Option UInt8) : SwitchState where
  now := 0
  config display :=
    if display = deskMonitor then
      some
        { shared := true, sharedInputCode := some 15, sharedInputWriteCode := writeCode
          beforeAcquire := false, afterAcquire := false }
    else none
  executors _ := true
  coordination := some (.new [deskMonitor])
  lastActivityPull _ := none
  frontCtl := []

/-- A pull without hooks, with a write that is verified. -/
def deskPull (reason : SwitchReason) (writeCode : UInt8) :
    List (PoolEvent PullRequest SwitchChange SwitchCall SwitchCall.Reply) :=
  [.spawn ⟨deskMonitor, reason, false⟩, .stir 0 .poll,
    .stir 0 (.answer (.powerOnIfStandby deskMonitor) ()),
    .stir 0 (.answer (.writeInputSource deskMonitor ⟨writeCode, .exact 15⟩) (.ok ()))]

/-- The channel of the second pull has room for the suppression, and none for the clear. -/
theorem pulls_leave_disagreement :
    let p := (pulls deskSwitch).pool.run ⟨aliasedDesk (some 23), []⟩ (deskPull .cli 23)
    let full : SwitchState :=
      { aliasedDesk none with frontCtl := List.replicate 63 (.inputWake deskMonitor) }
    let p' := (pulls deskSwitch).pool.run ⟨full, []⟩ (deskPull .cli 15)
    (p.threads.map fun t => t.run.result) = [some .switched] ∧
      ((p.shared.record deskMonitor).map fun record =>
        (record.recordObservationAt (some ⟨15, ⟨15, 23, none, none⟩, none⟩) 1 .disabled
          0).2.disagreementWith) = some (some 23) ∧
      (p'.threads.map fun t => (t.run.result, t.past.held)) = [(some .switched, true)] := by
  decide

theorem pulls_leave_desk :
    let p := (pulls deskSwitch).pool.run ⟨aliasedDesk none, []⟩ (deskPull .cli 15)
    (p.threads.map fun t => (t.run.result, t.past.held)) = [(some .switched, false)] ∧
      (pulls deskSwitch).pool.Throughout
        (fun p => ∀ t ∈ p.threads, t.run.ended = true → t.past.held = false)
        ⟨aliasedDesk none, []⟩ (deskPull .cli 15) := by
  refine ⟨by decide, (pulls_leave deskSwitch (aliasedDesk none) (deskPull .cli 15)).2 ?_⟩
  exact ⟨trivial, fun _ _ _ => by decide, fun _ _ _ => by decide, fun _ _ _ => by decide, trivial⟩

end Dormant
