import Dormant.Coordination.Verdicts
import Dormant.Switch.Pull

/-!
# The history of a pull

Pulls run side by side, with the polls of the coordination cache, the engine at the other end of
the control channel and reloads around them. `PullPast` is what one pull has gone through, and
`may` and `ends` say where in it each call stands.
-/

namespace Dormant
set_option autoImplicit false

open Tasks

/-- What a pull has gone through, with the times. Its suppression is `held` from the message that
sets it to the one that clears it. The clear is next when it is `leaving`, and was `refused` when
the channel had no room. -/
structure PullPast where
  request : PullRequest
  target : Option (SwitchConfig × InputSourceTarget)
  held : Bool
  leaving : Bool
  refused : Bool
  marked : Option UInt8
  passedAt : Option ℕ
  writingSince : Option ℕ
  writtenAt : Option ℕ
  recordedAt : Option ℕ
  deriving DecidableEq

namespace PullPast

def start (p : PullRequest) : PullPast where
  request := p
  target := none
  held := false
  leaving := false
  refused := false
  marked := none
  passedAt := none
  writingSince := none
  writtenAt := none
  recordedAt := none

def ask (s : SwitchState) (q : PullPast) : SwitchCall → PullPast
  | .writeInputSource _ _ => { q with writingSince := some s.now }
  | _ => q

def got (s : SwitchState) (q : PullPast) : (call : SwitchCall) → call.Reply → PullPast
  | .resolveLocalTarget _, found => { q with target := found }
  | .coolingDown _, cooling => if cooling then q else { q with passedAt := some s.now }
  | .suppress _, sent => { q with held := q.held || sent }
  | .unsuppress _, sent =>
    { q with leaving := false, held := q.held && !sent, refused := q.refused || !sent }
  | .runHook _ .before, aborted => { q with leaving := aborted.isSome }
  | .writeInputSource _ _, .ok () => { q with leaving := true, writtenAt := some s.now }
  | .writeInputSource _ _, .error _ => { q with leaving := true }
  | .recordActivityPull _, () => { q with recordedAt := some s.now }
  | .markOwnedImmediate _ verifiedCode, _ => { q with marked := some verifiedCode }
  | _, _ => q

def lost (q : PullPast) : SwitchCall → PullPast
  | .runHook _ .before => { q with leaving := true }
  | .powerOnIfStandby _ => { q with leaving := true }
  | .writeInputSource _ _ => { q with leaving := true }
  | _ => q

end PullPast

/-- What happens around the pulls. -/
inductive SwitchChange where
  | tick (elapsed : ℕ)
  | reload (config : DisplayId → Option SwitchConfig) (executors : DisplayId → Bool)
  | coordinate (call : CoordCall)
  | post (msg : SwitchMsg)
  | deliver

def SwitchState.outside (setting : SwitchSetting) (s : SwitchState) : SwitchChange → SwitchState
  | .tick elapsed => { s with now := s.now + elapsed }
  | .reload config executors => { s with config := config, executors := executors }
  | .coordinate call =>
    { s with
      coordination := s.coordination.map fun coordination =>
        (coordinator.next coordination call).1 }
  | .post msg => (s.trySend setting msg).1
  | .deliver => { s with frontCtl := s.frontCtl.tail }

def pulls (setting : SwitchSetting) :
    Scheme PullRequest SwitchChange SwitchState PullPast SwitchCall SwitchCall.Reply
      SwitchOutcome where
  program p := p.pull
  act call := call.act setting
  unwind call := call.unwind
  outside change s := s.outside setting change
  start := PullPast.start
  ask := PullPast.ask
  got := PullPast.got
  lost := PullPast.lost

abbrev PullThread := Thread PullRequest PullPast SwitchCall SwitchCall.Reply SwitchOutcome

abbrev PullPool := Pool PullRequest SwitchState PullPast SwitchCall SwitchCall.Reply SwitchOutcome

/-! ## Where each call stands -/

namespace PullPast
variable (q : PullPast)

def Unstarted : Prop := ∃ p target, q = { start p with target := target }

/-- Past the gate, and not written yet. -/
structure Entered : Prop where
  passed : q.request.reason = .activity → q.passedAt.isSome
  targeted : q.target.isSome
  refused : q.refused = false
  written : q.writtenAt = none
  recorded : q.recordedAt = none
  marked : q.marked = none

structure Written : Prop where
  passed : q.request.reason = .activity → q.passedAt.isSome
  targeted : q.target.isSome
  cleared : q.held = true → q.refused = true
  writing : q.writingSince.isSome
  written : q.writtenAt.isSome
  marked : q.marked = none

def may : SwitchCall → Prop
  | .resolveLocalTarget _ => q.Unstarted
  | .readInputSource _ => q.Unstarted
  | .coolingDown display => q.Unstarted ∧ display = q.request.display
  | .suppress _ => q.Entered ∧ q.leaving = false ∧ q.writingSince = none
  | .runHook _ .before => q.Entered ∧ q.leaving = false ∧ q.writingSince = none
  | .powerOnIfStandby _ => q.Entered ∧ q.leaving = false ∧ q.writingSince = none
  | .writeInputSource _ _ => q.Entered ∧ q.leaving = false ∧ q.writingSince = none
  | .unsuppress _ => q.leaving = true
  | .runHook _ .after => q.Written ∧ q.leaving = false ∧ q.recordedAt = none
  | .recordActivityPull display =>
    q.Written ∧ q.recordedAt = none ∧ q.request.reason = .activity ∧ display = q.request.display
  | .markOwnedImmediate display verifiedCode =>
    q.Written ∧ (q.request.reason = .activity → q.recordedAt.isSome) ∧
      display = q.request.display ∧ q.target.map (·.2.writeCode) = some verifiedCode
  | .trySend _ => q.leaving = false
  | _ => True

structure Switched : Prop where
  passed : q.request.reason = .activity → q.passedAt.isSome
  writing : q.writingSince.isSome
  written : q.writtenAt.isSome
  recorded : q.request.reason = .activity → q.recordedAt.isSome
  marked : ∃ config target, q.target = some (config, target) ∧ q.marked = some target.writeCode

def Cleared : Prop := q.held = true → q.refused = true

def ends (o : SwitchOutcome) : Prop := q.Cleared ∧ (o = .switched → q.Switched)

end PullPast

/-! ## The pull conforms -/

namespace PullRequest
variable {setting : SwitchSetting} {p : PullRequest} {q : PullPast}

/-- What only sends messages leaves the history alone. -/
theorem conforms_inputWake (hleaving : q.leaving = false) :
    (pulls setting).Conforms PullPast.may (fun q' _ => q' = q) p.inputWake q := by
  unfold inputWake
  split
  · exact rfl
  · exact Scheme.conforms_request hleaving fun _ _ _ => rfl

theorem conforms_publishFailed (target : InputSourceTarget) (verified : Option Bool)
    (hleaving : q.leaving = false) :
    (pulls setting).Conforms PullPast.may (fun q' _ => q' = q)
      (p.publishFailed target verified) q := by
  refine Scheme.conforms_request trivial fun _ _ _ => ?_
  exact Scheme.conforms_request hleaving fun _ _ _ => rfl

theorem conforms_unsuppress (hleaving : q.leaving = true) :
    (pulls setting).Conforms PullPast.may
      (fun q' _ => q'.Cleared ∧
        ∃ held refused, q' = { q with leaving := false, held := held, refused := refused })
      (Task.request (SwitchCall.unsuppress p.display)) q := by
  refine ⟨hleaving, fun _ _ sent => ⟨fun hheld => ?_, q.held && !sent, q.refused || !sent, rfl⟩⟩
  have hsent : (q.held && !sent) = true := hheld
  show (q.refused || !sent) = true
  cases sent
  · simp
  · simp at hsent

theorem conforms_recordActivity (hrequest : q.request = p) (hwritten : q.Written)
    (hrecorded : q.recordedAt = none) :
    (pulls setting).Conforms PullPast.may
      (fun q' _ => (p.reason = .activity → q'.recordedAt.isSome) ∧
        ∃ recorded, q' = { q with recordedAt := recorded }) p.recordActivity q := by
  unfold recordActivity
  split
  · rename_i hactivity
    refine Scheme.conforms_request (f := Task.done) ⟨hwritten, hrecorded, ?_, ?_⟩ fun _ s _ => ?_
    · rw [hrequest, hactivity]
    · rw [hrequest]
    · exact ⟨fun _ => rfl, some s.now, rfl⟩
  · rename_i hother
    exact ⟨fun h => absurd h hother, none, by rw [← hrecorded]⟩

theorem conforms_markOwned {target : InputSourceTarget} (hleaving : q.leaving = false)
    (h : q.may (.markOwnedImmediate p.display target.writeCode)) :
    (pulls setting).Conforms PullPast.may
      (fun q' _ => q' = { q with marked := some target.writeCode }) (p.markOwned target) q := by
  refine Scheme.conforms_request h fun _ _ wired => ?_
  cases wired with
  | false => exact rfl
  | true => exact Scheme.conforms_request hleaving fun _ _ _ => rfl

theorem conforms_runHook_after {actions : Bool}
    (h : q.may (.runHook p.display .after)) :
    (pulls setting).Conforms PullPast.may (fun q' _ => q' = q) (p.runHook actions .after) q := by
  unfold runHook
  split
  · exact Scheme.conforms_request (f := Task.done) h fun _ _ _ => rfl
  · exact rfl

/-- A hook that aborts is on its way to the clear. -/
theorem conforms_runHook_before {actions : Bool}
    (h : q.may (.runHook p.display .before)) :
    (pulls setting).Conforms PullPast.may
      (fun q' aborted => q' = { q with leaving := aborted.isSome })
      (p.runHook actions .before) q := by
  unfold runHook
  split
  · exact Scheme.conforms_request (f := Task.done) h fun _ _ _ => rfl
  · obtain ⟨_, hleaving, _⟩ := h
    exact show q = { q with leaving := false } by rw [← hleaving]

/-- The end of a pull whose write has been verified. -/
theorem conforms_commit {config : SwitchConfig} {target : InputSourceTarget}
    (hrequest : q.request = p) (htarget : q.target = some (config, target))
    (hpassed : p.reason = .activity → q.passedAt.isSome) (hleaving : q.leaving = true)
    (hwriting : q.writingSince.isSome) (hwritten : q.writtenAt.isSome)
    (hrecorded : q.recordedAt = none) (hmarked : q.marked = none) :
    (pulls setting).Conforms PullPast.may PullPast.ends (p.commit config target) q := by
  refine Scheme.conforms_bind (conforms_unsuppress hleaving) fun q₁ _ hq₁ => ?_
  obtain ⟨hcleared, held, refused, rfl⟩ := hq₁
  have hw : PullPast.Written
      { q with leaving := false, held := held, refused := refused } :=
    ⟨fun h => hpassed (by rw [← hrequest]; exact h), by rw [htarget]; rfl, hcleared, hwriting,
      hwritten, hmarked⟩
  refine Scheme.conforms_bind (conforms_runHook_after ⟨hw, rfl, hrecorded⟩) fun q₂ _ hq₂ => ?_
  subst hq₂
  refine Scheme.conforms_bind (conforms_recordActivity hrequest hw hrecorded)
    fun q₃ _ hq₃ => ?_
  obtain ⟨hactivity, recorded, rfl⟩ := hq₃
  have hmay : PullPast.may
      { q with leaving := false, held := held, refused := refused, recordedAt := recorded }
      (.markOwnedImmediate p.display target.writeCode) := by
    refine ⟨⟨hw.passed, hw.targeted, hw.cleared, hw.writing, hw.written, hw.marked⟩,
      fun h => hactivity (by rw [← hrequest]; exact h), by rw [← hrequest], ?_⟩
    rw [htarget]
    rfl
  refine Scheme.conforms_bind (conforms_markOwned rfl hmay) fun q₄ _ hq₄ => ?_
  subst hq₄
  refine Scheme.conforms_request rfl fun _ _ _ => ?_
  refine Scheme.conforms_bind (conforms_inputWake rfl) fun q₅ _ hq₅ => ?_
  subst hq₅
  refine ⟨hcleared, fun _ => ⟨hw.passed, hwriting, hwritten, ?_, config, target, htarget, rfl⟩⟩
  exact fun h => hactivity (by rw [← hrequest]; exact h)

/-- The clear, and the event of a pull that did not get through. -/
theorem conforms_failed {target : InputSourceTarget} {verified : Option Bool}
    {o : SwitchOutcome} (ho : o ≠ .switched) (hleaving : q.leaving = true) :
    (pulls setting).Conforms PullPast.may PullPast.ends
      (do
        let _ ← Task.request (SwitchCall.unsuppress p.display)
        p.publishFailed target verified
        return o) q := by
  refine Scheme.conforms_bind (conforms_unsuppress hleaving) fun q₁ _ hq₁ => ?_
  obtain ⟨hcleared, held, refused, rfl⟩ := hq₁
  refine Scheme.conforms_bind (conforms_publishFailed target verified rfl) fun q₂ _ hq₂ => ?_
  subst hq₂
  exact ⟨hcleared, fun h => absurd h ho⟩

theorem conforms_acquire {config : SwitchConfig} {target : InputSourceTarget}
    (hrequest : q.request = p) (htarget : q.target = some (config, target)) (h : q.Entered)
    (hleaving : q.leaving = false) (hwriting : q.writingSince = none) :
    (pulls setting).Conforms PullPast.may PullPast.ends (p.acquire config target) q := by
  refine Scheme.conforms_request ⟨h, hleaving, hwriting⟩ fun _ _ sent => ?_
  have hentered : PullPast.Entered { q with held := q.held || sent } :=
    ⟨h.passed, h.targeted, h.refused, h.written, h.recorded, h.marked⟩
  refine Scheme.conforms_bind (conforms_runHook_before ⟨hentered, hleaving, hwriting⟩)
    fun q₁ aborted hq₁ => ?_
  subst hq₁
  cases aborted with
  | some reason => exact conforms_failed (fun h => (by cases h)) rfl
  | none =>
    have hon : PullPast.Entered { q with held := q.held || sent, leaving := false } :=
      ⟨h.passed, h.targeted, h.refused, h.written, h.recorded, h.marked⟩
    refine Scheme.conforms_request ⟨hon, rfl, hwriting⟩ fun _ _ _ => ?_
    refine Scheme.conforms_request ⟨hon, rfl, hwriting⟩ fun s s' written => ?_
    cases written with
    | error cmd => exact conforms_failed (fun h => (by cases h)) rfl
    | ok done =>
      refine conforms_commit hrequest htarget (fun hactivity => ?_) rfl rfl rfl h.recorded
        h.marked
      exact h.passed (by rw [hrequest]; exact hactivity)

/-- The read comes before the gate. -/
theorem conforms_alreadyLocal {localCode : UInt8} (h : q.Unstarted) :
    (pulls setting).Conforms PullPast.may (fun q' _ => q' = q) (p.alreadyLocal localCode) q := by
  unfold alreadyLocal
  split
  · exact rfl
  · refine Scheme.conforms_request trivial fun _ _ agrees => ?_
    cases agrees with
    | false => exact rfl
    | true =>
      refine Scheme.conforms_request h fun _ _ read => ?_
      split
      · exact rfl
      · exact rfl

theorem conforms_cooldownGate (hrequest : q.request = p) (h : q.Unstarted) :
    (pulls setting).Conforms PullPast.may
      (fun q' cooling => (cooling = true → q' = q) ∧
        (p.reason = .activity → cooling = false → q'.passedAt.isSome) ∧
        ∃ passed, q' = { q with passedAt := passed }) p.cooldownGate q := by
  have hpassed : q.passedAt = none := by
    obtain ⟨_, target, rfl⟩ := h
    rfl
  unfold cooldownGate
  split
  · refine Scheme.conforms_request (f := Task.done) ⟨h, by rw [hrequest]⟩ fun _ s cooling => ?_
    cases cooling with
    | true =>
      exact ⟨fun _ => rfl, fun _ hcooling => (by cases hcooling), none, by rw [← hpassed]; rfl⟩
    | false => exact ⟨fun hcooling => (by cases hcooling), fun _ _ => rfl, some s.now, rfl⟩
  · rename_i hother
    exact ⟨fun hcooling => (by cases hcooling), fun h => absurd h hother, none,
      by rw [← hpassed]⟩

theorem conforms_pull (setting : SwitchSetting) (p : PullRequest) :
    (pulls setting).Conforms PullPast.may PullPast.ends p.pull (PullPast.start p) := by
  have hidle {q : PullPast} (hq : q.held = false) {o : SwitchOutcome} (ho : o ≠ .switched) :
      q.ends o := ⟨fun h => absurd (hq.symm.trans h) (by decide), fun h => absurd h ho⟩
  have hstart : (PullPast.start p).may (.resolveLocalTarget p.display) := ⟨p, none, rfl⟩
  refine Scheme.conforms_request hstart fun _ _ found => ?_
  cases found with
  | none => exact hidle rfl (fun h => (by cases h))
  | some found =>
    obtain ⟨config, target⟩ := found
    generalize hq : { PullPast.start p with target := some (config, target) } = q
    have hunstarted : q.Unstarted := by
      subst hq
      exact ⟨p, some (config, target), rfl⟩
    show (pulls setting).Conforms _ _ _ { PullPast.start p with target := some (config, target) }
    rw [hq]
    refine Scheme.conforms_request trivial fun _ _ executor => ?_
    show (pulls setting).Conforms _ _ _ q
    split
    · rename_i localCode _ _
      refine Scheme.conforms_bind (conforms_alreadyLocal hunstarted) fun q₁ already hq₁ => ?_
      subst hq₁
      cases already with
      | true =>
        refine Scheme.conforms_bind (conforms_inputWake (by subst hq; rfl)) fun q₂ _ hq₂ => ?_
        subst hq₂
        exact hidle (by subst hq; rfl) (fun h => (by cases h))
      | false =>
        refine Scheme.conforms_bind (conforms_cooldownGate (by subst hq; rfl) hunstarted)
          fun q₂ cooling hq₂ => ?_
        obtain ⟨hsame, hgate, passed, rfl⟩ := hq₂
        cases cooling with
        | true => exact hidle (by subst hq; rfl) (fun h => (by cases h))
        | false =>
          have hentered : PullPast.Entered { q₁ with passedAt := passed } := by
            refine ⟨fun h => hgate ?_ rfl, ?_, ?_, ?_, ?_, ?_⟩
            · subst hq
              exact h
            all_goals subst hq; rfl
          exact conforms_acquire (by subst hq; rfl) (by subst hq; rfl) hentered
            (by subst hq; rfl) (by subst hq; rfl)
    · exact hidle (by subst hq; rfl) (fun h => (by cases h))

end PullRequest

/-- A pull that is given up clears what it has set. -/
theorem lawful_pulls (setting : SwitchSetting) :
    (pulls setting).Lawful PullPast.may PullPast.ends PullPast.Cleared where
  program p := p.conforms_pull setting
  unstarted p h := by cases h
  unwind := by
    intro s q i hwait hmay
    have hclear {q : PullPast} (display : DisplayId) (hleaving : q.leaving = true) :
        (pulls setting).Conforms (fun q i => q.may i ∧ ((pulls setting).act i).isSome)
          (fun q _ => q.Cleared)
          (do
            let _ ← Task.request (SwitchCall.unsuppress display)
            return ()) q := by
      refine Scheme.conforms_request ⟨hleaving, rfl⟩ fun _ _ sent hheld => ?_
      have hsent : (q.held && !sent) = true := hheld
      show (q.refused || !sent) = true
      cases sent
      · simp
      · simp at hsent
    cases i with
    | runHook display phase =>
      cases phase with
      | before => exact hclear display rfl
      | after => exact hmay.1.cleared
    | powerOnIfStandby display => exact hclear display rfl
    | writeInputSource display target => exact hclear display rfl
    | readInputSource display =>
      obtain ⟨_, target, rfl⟩ := hmay
      exact fun h : false = true => by cases h
    | _ => cases hwait

/-! ## What a call does at once -/

/-- All that a call can do to the shared state and to the history, and where. -/
inductive PullPast.Acts (setting : SwitchSetting) (s : SwitchState) (q : PullPast) :
    SwitchState → PullPast → Prop
  | looked : Acts setting s q s q
  | resolved (display : DisplayId) (hq : q.Unstarted) :
      Acts setting s q s { q with target := s.resolveLocalTarget display }
  | passed (hq : q.Unstarted) (hwarm : s.coolingDown setting q.request.display = false) :
      Acts setting s q s { q with passedAt := some s.now }
  | suppressed (frontCtl : List SwitchMsg) (sent : Bool) (hq : q.Entered)
      (hleaving : q.leaving = false) :
      Acts setting s q { s with frontCtl := frontCtl } { q with held := q.held || sent }
  | cleared (frontCtl : List SwitchMsg) (sent : Bool) (hleaving : q.leaving = true)
      (hroom : s.frontCtl.length < setting.capacity → sent = true) :
      Acts setting s q { s with frontCtl := frontCtl }
        { q with leaving := false, held := q.held && !sent, refused := q.refused || !sent }
  | posted (frontCtl : List SwitchMsg) (hleaving : q.leaving = false) :
      Acts setting s q { s with frontCtl := frontCtl } q
  | recorded (hq : q.Written) (hrecorded : q.recordedAt = none) :
      Acts setting s q
        { s with
          lastActivityPull :=
            Function.update s.lastActivityPull q.request.display (some s.now) }
        { q with recordedAt := some s.now }
  | marked (verifiedCode : UInt8) (hq : q.Written) :
      Acts setting s q
        { s with
          coordination := s.coordination.map fun coordination =>
            coordination.markOwnedImmediate q.request.display verifiedCode }
        { q with marked := some verifiedCode }

theorem trySend_spec (setting : SwitchSetting) (msg : SwitchMsg) (s : SwitchState) :
    ∃ frontCtl, (s.trySend setting msg).1 = { s with frontCtl := frontCtl } ∧
      (s.frontCtl.length < setting.capacity → (s.trySend setting msg).2 = true) := by
  unfold SwitchState.trySend
  split
  · exact ⟨_, rfl, fun _ => rfl⟩
  · rename_i hfull
    exact ⟨s.frontCtl, rfl, fun hroom => absurd hroom hfull⟩

theorem acts {setting : SwitchSetting} {s : SwitchState} {q : PullPast} {i : SwitchCall}
    {f : SwitchState → SwitchState × i.Reply} (hf : (pulls setting).act i = some f)
    (hmay : q.may i) :
    q.Acts setting s (f s).1 ((pulls setting).got s ((pulls setting).ask s q i) i (f s).2) := by
  cases i with
  | resolveLocalTarget display =>
    obtain rfl := Option.some.inj hf
    exact .resolved display hmay
  | coolingDown display =>
    obtain rfl := Option.some.inj hf
    obtain ⟨hq, rfl⟩ := hmay
    show q.Acts setting s s
      (if s.coolingDown setting q.request.display then q else { q with passedAt := some s.now })
    split
    · exact .looked
    · rename_i hwarm
      exact .passed hq (by simpa using hwarm)
  | suppress display =>
    obtain rfl := Option.some.inj hf
    obtain ⟨frontCtl, hs, -⟩ := trySend_spec setting
      (.setClaimSuppression display (some (s.now + suppressionDuration))) s
    dsimp only
    rw [hs]
    exact .suppressed frontCtl _ hmay.1 hmay.2.1
  | unsuppress display =>
    obtain rfl := Option.some.inj hf
    obtain ⟨frontCtl, hs, hroom⟩ := trySend_spec setting (.setClaimSuppression display none) s
    rw [hs]
    exact .cleared frontCtl _ hmay hroom
  | trySend msg =>
    obtain rfl := Option.some.inj hf
    obtain ⟨frontCtl, hs, -⟩ := trySend_spec setting msg s
    rw [hs]
    exact .posted frontCtl hmay
  | recordActivityPull display =>
    obtain rfl := Option.some.inj hf
    obtain ⟨hq, hrecorded, -, rfl⟩ := hmay
    exact .recorded hq hrecorded
  | markOwnedImmediate display verifiedCode =>
    obtain rfl := Option.some.inj hf
    obtain ⟨hq, -, rfl, -⟩ := hmay
    exact .marked verifiedCode hq
  | resolveExecutor display =>
    obtain rfl := Option.some.inj hf
    exact .looked
  | observationAgreesLocal display localCode =>
    obtain rfl := Option.some.inj hf
    exact .looked
  | owns display =>
    obtain rfl := Option.some.inj hf
    exact .looked
  | readInputSource display => cases hf
  | runHook display phase => cases hf
  | powerOnIfStandby display => cases hf
  | writeInputSource display target => cases hf

/-! ## What it waits for -/

/-- The history that a pull moves on from. It has not been marked yet, and a write that it has
asked for may have been verified just now. -/
structure PullPast.Resumes (s : SwitchState) (q before : PullPast) : Prop where
  request : q.request = before.request
  target : q.target = before.target
  held : q.held = before.held
  refused : q.refused = before.refused
  marked : q.marked = none
  passed : q.passedAt = before.passedAt
  writing : q.writingSince = before.writingSince
  written : q.writtenAt = before.writtenAt ∨ q.writtenAt = some s.now
  unpassed : q.request.reason = .activity → q.passedAt = none → q.writtenAt = none
  recorded : q.recordedAt = none
  unrecorded : before.recordedAt = none

theorem resumes {setting : SwitchSetting} {s : SwitchState} {t : PullThread}
    {stir : Stir SwitchCall SwitchCall.Reply} {q : PullPast}
    {ran : Ran SwitchState PullPast SwitchCall SwitchCall.Reply SwitchOutcome}
    (h : (pulls setting).Bursts s t stir q ran)
    (ht : (pulls setting).Keeps PullPast.may PullPast.ends PullPast.Cleared t) :
    q.Resumes s t.past := by
  have hsame {q : PullPast} (hmarked : q.marked = none) (hrecorded : q.recordedAt = none)
      (hunpassed : q.request.reason = .activity → q.passedAt = none → q.writtenAt = none) :
      q.Resumes s q :=
    ⟨rfl, rfl, rfl, rfl, hmarked, rfl, rfl, .inl rfl, hunpassed, hrecorded, hrecorded⟩
  have hpassed {q : PullPast} (h : q.request.reason = .activity → q.passedAt.isSome)
      (writtenAt : Option ℕ) (hactivity : q.request.reason = .activity)
      (hnone : q.passedAt = none) : writtenAt = none := by
    have hsome := h hactivity
    rw [hnone] at hsome
    cases hsome
  have hleft {q : PullPast} (leaving : Bool) (hq : q.Entered) :
      PullPast.Resumes s { q with leaving := leaving } q :=
    ⟨rfl, rfl, rfl, rfl, hq.marked, rfl, rfl, .inl rfl, hpassed hq.passed _, hq.recorded,
      hq.recorded⟩
  cases ht with
  | ready p =>
    cases h with
    | polled hrun => exact hsame rfl rfl fun _ _ => rfl
    | answered r hrun => cases hrun
    | dropped hrun => exact hsame rfl rfl fun _ _ => rfl
    | unwound hrun => cases hrun
  | waiting k hwait hmay hnext =>
    rename_i i resume
    cases h with
    | polled hrun => cases hrun
    | dropped hrun => cases hrun
    | answered r hrun =>
      cases hrun
      cases i with
      | readInputSource display =>
        obtain ⟨_, target, rfl⟩ := hmay
        exact hsame rfl rfl fun _ _ => rfl
      | runHook display phase =>
        cases phase with
        | before => exact hleft _ hmay.1
        | after => exact hsame hmay.1.marked hmay.2.2 (hpassed hmay.1.passed _)
      | powerOnIfStandby display =>
        exact hsame hmay.1.marked hmay.1.recorded (hpassed hmay.1.passed _)
      | writeInputSource display target =>
        obtain ⟨hq, _⟩ := hmay
        cases r with
        | error cmd =>
          exact ⟨rfl, rfl, rfl, rfl, hq.marked, rfl, rfl, .inl rfl, hpassed hq.passed _,
            hq.recorded, hq.recorded⟩
        | ok done =>
          exact ⟨rfl, rfl, rfl, rfl, hq.marked, rfl, rfl, .inr rfl, hpassed hq.passed _,
            hq.recorded, hq.recorded⟩
      | _ => cases hwait
    | unwound hrun =>
      cases hrun
      cases i with
      | readInputSource display =>
        obtain ⟨_, target, rfl⟩ := hmay
        exact hsame rfl rfl fun _ _ => rfl
      | runHook display phase =>
        cases phase with
        | before => exact hleft _ hmay.1
        | after => exact hsame hmay.1.marked hmay.2.2 (hpassed hmay.1.passed _)
      | powerOnIfStandby display => exact hleft _ hmay.1
      | writeInputSource display target =>
        obtain ⟨hq, _⟩ := hmay
        exact ⟨rfl, rfl, rfl, rfl, hq.marked, rfl, rfl, .inl rfl, hpassed hq.passed _,
          hq.recorded, hq.recorded⟩
      | _ => cases hwait
  | finished k hends => cases h.live
  | panicked k hgone => cases h.live

end Dormant
