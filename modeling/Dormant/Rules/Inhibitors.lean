import Dormant.Foundations.Latch
import Dormant.Rules.Frames

/-!
# The inhibited overlay of a shared display

Each rule keeps the OR of its inhibitors, and tells its displays of a change only. A display
that several rules drive keeps one bit, which each of them overwrites: it is a `Latch` of the
rules' bits. `Board` is that latch beside what the `SetInhibited` messages said, and
`agrees_handle` says that the engine follows it through every event.
-/

namespace Dormant
set_option autoImplicit false

/-! ## The board -/

/-- The last bit that was said of each rule and kind, and the latch of the rules' bits. -/
structure Board where
  said : RuleId → InhibitorKind → Bool
  latch : Latch RuleId DisplayId

def Board.empty : Board := { said := fun _ _ => false, latch := Latch.low }

def Board.hear (drives : RuleId → DisplayId → Prop) [∀ r d, Decidable (drives r d)]
    (kind : InhibitorKind) (inhibited : Bool) (b : Board) (r : RuleId) : Board :=
  let kinds := Function.update (b.said r) kind inhibited
  { said := Function.update b.said r kinds, latch := b.latch.set drives r (anyEngaged kinds) }

def Board.Settled (b : Board) : Prop := ∀ r, b.latch.level r = anyEngaged (b.said r)

theorem Board.Settled.hear {drives : RuleId → DisplayId → Prop} [∀ r d, Decidable (drives r d)]
    {b : Board} (h : b.Settled) (kind : InhibitorKind) (inhibited : Bool) (r : RuleId) :
    (b.hear drives kind inhibited r).Settled := by
  intro r'
  by_cases hr : r' = r
  · subst hr
    simp [Board.hear, Latch.set]
  · simpa [Board.hear, Latch.set, hr] using h r'

namespace RulesEngine
variable {b : Board} {e e' : RulesEngine}

def drives (e : RulesEngine) (r : RuleId) (display : DisplayId) : Prop := display ∈ e.displaysOf r

instance (e : RulesEngine) (r : RuleId) (display : DisplayId) : Decidable (e.drives r display) :=
  inferInstanceAs (Decidable (display ∈ e.displaysOf r))

def addressed (e : RulesEngine) : Option RuleId → List RuleId
  | some r => [r]
  | none => e.ruleOrder

def watchInhibitors (b : Board) (e : RulesEngine) (i : Env × Event)
    (_ : RulesEngine × List Output) : Board :=
  match i.2 with
  | .control (.setInhibited rule kind inhibited) =>
    (e.addressed rule).foldl (Board.hear e.drives kind inhibited) b
  | _ => b

/-! ## The events that are no inhibitor message -/

/-- The inhibitor bookkeeping and every inhibited bit stay. -/
structure Calm (e e' : RulesEngine) : Prop where
  static : Static e e'
  inhibitorState : e'.inhibitorState = e.inhibitorState
  inhibited : ∀ d, (e'.overlays d).map (·.inhibited) = (e.overlays d).map (·.inhibited)

theorem Calm.trans {e'' : RulesEngine} (h : Calm e e') (h' : Calm e' e'') : Calm e e'' where
  static := h.static.trans h'.static
  inhibitorState := h'.inhibitorState.trans h.inhibitorState
  inhibited d := (h'.inhibited d).trans (h.inhibited d)

theorem Neutral.calm (h : Neutral e e') : Calm e e' where
  static := h.static
  inhibitorState := h.inhibitorState
  inhibited _ := by rw [h.overlays]

theorem Touched.calm {T : DisplayId → Prop} {g : Overlays → Overlays} (h : Touched T g e e')
    (hg : ∀ o, (g o).inhibited = o.inhibited) : Calm e e' where
  static := h.static
  inhibitorState := h.inhibitorState
  inhibited d := by
    by_cases hd : T d
    · rw [h.hit d hd, Option.map_map]
      exact congrArg (fun f => (e.overlays d).map f) (funext hg)
    · rw [h.miss d hd]

theorem inhibited_resumedAt (o : Overlays) (now : ℕ) : (o.resumedAt now).inhibited = o.inhibited := by
  unfold Overlays.resumedAt
  split
  · split <;> rfl
  · rfl

theorem calm_handleExercise (e : RulesEngine) (env : Env) (target : DisplayId)
    (accepted : Option AcceptedOperation) : Calm e (e.handleExercise env target accepted) := by
  cases h : e.acquireExercise env target accepted with
  | none => exact (handleExercise_rejected e env h).calm
  | some operation =>
    by_cases hx : target ∈ e.executors
    · obtain ⟨e', hp, he⟩ := handleExercise_spawned e env h hx
      rw [he]
      exact (hp.calm fun _ => rfl).trans ⟨rfl, rfl, fun _ => rfl⟩
    · obtain ⟨e', e'', hp, hr, hn⟩ := handleExercise_sinkless e env h hx
      exact ((hp.calm fun _ => rfl).trans (hr.calm fun _ => rfl)).trans hn.calm

theorem calm_handleInternalResult (e : RulesEngine) (env : Env) (res : InternalResult) :
    Calm e (e.handleInternalResult env res) := by
  cases res with
  | exerciseResume rules operationId generation =>
    simp only [handleInternalResult]
    split
    · exact (touched_resumeRules e env rules).calm fun _ => rfl
    · exact ⟨rfl, rfl, fun _ => rfl⟩
  | _ => exact Neutral.calm (neutral_handleInternalResult e env (by rfl))

theorem calm_fireDueTimer (e : RulesEngine) (env : Env) : Calm e (e.fireDueTimer env) := by
  unfold fireDueTimer
  split
  · exact ⟨rfl, rfl, fun _ => rfl⟩
  · rename_i deadline entry _
    split
    · exact ⟨rfl, rfl, fun _ => rfl⟩
    · have hpop : Calm e (e.popTimer (deadline, entry)) := ⟨rfl, rfl, fun _ => rfl⟩
      refine hpop.trans ?_
      cases entry with
      | displayTick display =>
        exact (touched_displayTick _ env display deadline).calm fun o =>
          inhibited_resumedAt o deadline
      | _ => exact Neutral.calm (neutral_fireTimer _ env deadline (by rfl))

theorem calm_handleControl (e : RulesEngine) (env : Env) {msg : ControlMsg}
    (h : ∀ rule kind inhibited, msg ≠ .setInhibited rule kind inhibited) :
    Calm e (e.handleControl env msg) := by
  cases msg with
  | setInhibited rule kind inhibited => exact absurd rfl (h _ _ _)
  | pause rule untilStamp => exact (touched_handlePause e env rule untilStamp).calm fun _ => rfl
  | resume rule => exact (touched_handleResume e env rule).calm fun _ => rfl
  | emergencyWake => exact (touched_handleEmergencyWake e env).calm fun _ => rfl
  | emergencyWakeAccepted _ => exact (touched_handleEmergencyWake e env).calm fun _ => rfl
  | exercise display => exact calm_handleExercise e env display none
  | exerciseAccepted operation =>
    cases hk : operation.kind with
    | exercise display =>
      simp only [handleControl, hk]
      exact calm_handleExercise e env display (some operation)
    | emergencyWake =>
      exact Neutral.calm (neutral_handleControl e env (by simpa [ControlMsg.passes] using hk))
  | _ => exact Neutral.calm (neutral_handleControl e env (by rfl))

theorem calm_handle (e : RulesEngine) (env : Env) {event : Event}
    (h : ∀ rule kind inhibited, event ≠ .control (.setInhibited rule kind inhibited)) :
    Calm e (e.handle env event) := by
  cases event with
  | presence ev => exact (neutral_handlePresenceEvent e env ev).calm
  | control msg =>
    exact calm_handleControl e env fun rule kind inhibited hm => h rule kind inhibited (hm ▸ rfl)
  | result res => exact calm_handleInternalResult e env res
  | timer => exact calm_fireDueTimer e env
  | sweep => exact (neutral_sweepStaleSensors e env).calm

/-! ## The engine follows the board -/

/-- The engine's bookkeeping is the board, and a machine's inhibited bit is its latch. -/
structure Agrees (b : Board) (e : RulesEngine) : Prop where
  settled : b.Settled
  state : ∀ r, e.inhibitorState r = { kinds := b.said r, effective := b.latch.level r }
  inhibited : ∀ d o, e.overlays d = some o → o.inhibited = b.latch.flag d

theorem Calm.agrees (h : Calm e e') (ha : Agrees b e) : Agrees b e' where
  settled := ha.settled
  state r := by rw [h.inhibitorState, ha.state r]
  inhibited d o ho := by
    have hd := h.inhibited d
    rw [ho] at hd
    cases hs : e.overlays d with
    | none => simp [hs] at hd
    | some o' =>
      have heq : o.inhibited = o'.inhibited := by simpa [hs] using hd
      exact heq.trans (ha.inhibited d o' hs)

theorem touched_fanInhibitor (e : RulesEngine) (env : Env) (r : RuleId) (inhibited : Bool) :
    Touched (e.drives r) (·.after (.inhibitorChanged inhibited) env.now) e
      (e.fanInhibitor env r inhibited) := by
  have loop : Touched (fun d => ∃ a ∈ e.displaysOf r, d = a)
      (·.after (.inhibitorChanged inhibited) env.now) e (e.fanInhibitor env r inhibited) :=
    Touched.foldl (fun _ => by rfl) (fun e' d _ => touched_stepOne e' env d _) (e.displaysOf r)
  exact loop.congr fun d => by simp [drives]

theorem setInhibitors_state (ha : Agrees b e) (r : RuleId) (kind : InhibitorKind)
    (inhibited : Bool) (r' : RuleId) :
    Function.update e.inhibitorState r
        { kinds := Function.update (b.said r) kind inhibited,
          effective := anyEngaged (Function.update (b.said r) kind inhibited) } r' =
      { kinds := (b.hear e.drives kind inhibited r).said r',
        effective := (b.hear e.drives kind inhibited r).latch.level r' } := by
  by_cases hr : r' = r
  · subst hr
    simp [Board.hear, Latch.set]
  · simp [Board.hear, Latch.set, hr, ha.state r']

/-- One rule's update. Its displays are told when its bit changed. -/
theorem agrees_applyInhibitor (ha : Agrees b e) (env : Env) (r : RuleId) (kind : InhibitorKind)
    (inhibited : Bool) :
    Static e (e.applyInhibitor env r kind inhibited) ∧
      Agrees (b.hear e.drives kind inhibited r) (e.applyInhibitor env r kind inhibited) := by
  have hstate := setInhibitors_state ha r kind inhibited
  have hsettled : (b.hear e.drives kind inhibited r).Settled := ha.settled.hear kind inhibited r
  unfold applyInhibitor
  simp only [ha.state r]
  generalize hk : Function.update (b.said r) kind inhibited = kinds at hstate
  have hflag (d : DisplayId) : (b.hear e.drives kind inhibited r).latch.flag d =
      if e.drives r d ∧ b.latch.level r ≠ anyEngaged kinds then anyEngaged kinds
      else b.latch.flag d := by
    simp only [Board.hear, Latch.set, hk]
  by_cases hedge : anyEngaged kinds = b.latch.level r
  · rw [if_pos hedge]
    refine ⟨rfl, hsettled, hstate, fun d o ho => ?_⟩
    rw [hflag, if_neg fun hc => hc.2 hedge.symm]
    exact ha.inhibited d o ho
  · rw [if_neg hedge]
    have htold := touched_fanInhibitor
      (e.setInhibitors r { kinds := kinds, effective := anyEngaged kinds }) env r (anyEngaged kinds)
    refine ⟨Static.trans rfl htold.static, hsettled, fun r' => ?_, fun d o ho => ?_⟩
    · rw [htold.inhibitorState]
      exact hstate r'
    · rw [hflag]
      by_cases hd : e.drives r d
      · rw [if_pos ⟨hd, fun heq => hedge heq.symm⟩]
        rw [htold.hit d hd] at ho
        obtain ⟨o', -, rfl⟩ := Option.map_eq_some_iff.mp ho
        rfl
      · rw [if_neg fun hc => hd hc.1]
        rw [htold.miss d hd] at ho
        exact ha.inhibited d o ho

theorem agrees_addressed (env : Env) (kind : InhibitorKind) (inhibited : Bool)
    (rules : List RuleId) {base : RulesEngine}
    {b : Board} {e : RulesEngine}
    (hbase : Static base e) (ha : Agrees b e) :
    Static base (rules.foldl (fun e r => e.applyInhibitor env r kind inhibited) e) ∧
      Agrees (rules.foldl (Board.hear base.drives kind inhibited) b)
        (rules.foldl (fun e r => e.applyInhibitor env r kind inhibited) e) := by
  induction rules generalizing b e with
  | nil => exact ⟨hbase, ha⟩
  | cons r rules ih =>
    obtain ⟨hs, hstep⟩ := agrees_applyInhibitor ha env r kind inhibited
    have hdrives : b.hear e.drives kind inhibited r = b.hear base.drives kind inhibited r := by
      simp only [Board.hear, Latch.set, drives, hbase.displaysOf]
      congr
    exact ih (hbase.trans hs) (hdrives ▸ hstep)

/-- The engine follows the board through every event. -/
theorem agrees_handle (ha : Agrees b e) (env : Env) (event : Event) (r : RulesEngine × List Output) :
    Static e (e.handle env event) ∧
      Agrees (watchInhibitors b e (env, event) r) (e.handle env event) := by
  by_cases h : ∃ rule kind inhibited, event = .control (.setInhibited rule kind inhibited)
  · obtain ⟨rule, kind, inhibited, rfl⟩ := h
    have hall := agrees_addressed env kind inhibited (e.addressed rule) rfl ha
    cases rule <;> exact hall
  · have hcalm : Calm e (e.handle env event) := calm_handle e env
      fun rule kind inhibited he => h ⟨rule, kind, inhibited, he⟩
    have hsame : watchInhibitors b e (env, event) r = b := by
      unfold watchInhibitors
      split
      · rename_i rule kind inhibited he
        exact absurd ⟨rule, kind, inhibited, he⟩ h
      · rfl
    rw [hsame]
    exact ⟨hcalm.static, hcalm.agrees ha⟩

/-! ## Runs -/

def watched : Runs.System (Board × RulesEngine) (Env × Event) Output :=
  engine.observed watchInhibitors

theorem Board.bounded_hear {b : Board} {e : RulesEngine} {d : DisplayId}
    (h : Latch.Bounded e.drives b.latch d) (kind : InhibitorKind) (inhibited : Bool)
    (rules : List RuleId) :
    Latch.Bounded e.drives (rules.foldl (Board.hear e.drives kind inhibited) b).latch d := by
  induction rules generalizing b with
  | nil => exact h
  | cons r rules ih => exact ih (h.set r _)

structure Followed (base : RulesEngine) (x : Board × RulesEngine) : Prop where
  static : Static base x.2
  agrees : Agrees x.1 x.2
  bounded : ∀ d, Latch.Bounded x.2.drives x.1.latch d

theorem followed_next {base : RulesEngine} (x : Board × RulesEngine) (i : Env × Event)
    (h : Followed base x) : Followed base (watched.next x i).1 := by
  obtain ⟨b, e⟩ := x
  obtain ⟨env, event⟩ := i
  have ha : Agrees b { e with outbox := [] } := ⟨h.agrees.settled, h.agrees.state, h.agrees.inhibited⟩
  obtain ⟨hs, hagrees⟩ := agrees_handle ha env event (engine.next e (env, event))
  refine ⟨h.static.trans hs, hagrees, fun d => ?_⟩
  have hdrives : (({ e with outbox := [] } : RulesEngine).handle env event).drives = e.drives :=
    funext fun r => funext fun d => by
      simp only [drives, hs.displaysOf]
      rfl
  show Latch.Bounded (({ e with outbox := [] } : RulesEngine).handle env event).drives
    (watchInhibitors b e (env, event) (engine.next e (env, event))).latch d
  rw [hdrives]
  unfold watchInhibitors
  split
  · exact Board.bounded_hear (h.bounded d) _ _ _
  · exact h.bounded d

theorem followed_new {setup : Setup} {owns : DisplayId → Bool} {start : ℕ} {e : RulesEngine}
    (h : new setup owns start = .ok e) : Followed e (Board.empty, e) := by
  obtain ⟨-, -, -, -, hi, -⟩ := new_ok h
  refine ⟨rfl, ⟨fun _ => rfl, fun r => ?_, fun d o ho => ?_⟩, fun d => Latch.bounded_low⟩
  · rw [hi]
    rfl
  · rw [(overlays_new h ho).1]
    rfl

/-- In every run the inhibited bit of a display is the bit of the driving rule whose bit
changed last. It implies that some driving rule has a kind engaged, and is implied by all of
them having one. -/
theorem inhibited_by_last_change (setup : Setup) (owns : DisplayId → Bool) (start : ℕ)
    {e : RulesEngine} (h : new setup owns start = .ok e) (events : List (Env × Event))
    (d : DisplayId) (machine : DisplayStateMachine)
    (hm : (watched.run (Board.empty, e) events).2.machines d = some machine) :
    machine.overlays.inhibited = (watched.run (Board.empty, e) events).1.latch.flag d ∧
    (machine.overlays.inhibited = true → ∃ r, e.drives r d ∧
      anyEngaged ((watched.run (Board.empty, e) events).1.said r) = true) ∧
    ((∃ r, e.drives r d) → (∀ r, e.drives r d →
      anyEngaged ((watched.run (Board.empty, e) events).1.said r) = true) →
        machine.overlays.inhibited = true) := by
  have hf := Runs.System.invariant (M := watched) followed_next (followed_new h) events
  generalize watched.run (Board.empty, e) events = x at hf hm
  have hflag : machine.overlays.inhibited = x.1.latch.flag d :=
    hf.agrees.inhibited d machine.overlays (by simp [overlays, hm])
  have hdrives (r : RuleId) : x.2.drives r d ↔ e.drives r d := by
    simp only [drives, hf.static.displaysOf]
  refine ⟨hflag, fun hup => ?_, fun hex hall => ?_⟩
  · obtain ⟨r, hr, hl⟩ := (hf.bounded d).up (hflag ▸ hup)
    exact ⟨r, (hdrives r).mp hr, (hf.agrees.settled r).symm.trans hl⟩
  · obtain ⟨r, hr⟩ := hex
    refine hflag.trans ((hf.bounded d).up_of_all ⟨r, (hdrives r).mpr hr⟩ fun r' hr' => ?_)
    exact (hf.agrees.settled r').trans (hall r' ((hdrives r').mp hr'))

theorem inhibited_by_last_change_shared :
    ∃ e machine, new sharedSetup (fun _ => true) 0 = .ok e ∧
      (watched.run (Board.empty, e)
        [(Env.plain 1, .control (.setInhibited (some ⟨"desk"⟩) .userActivity true))]).2.machines
          ⟨"monitor"⟩ = some machine ∧
      machine.overlays.inhibited = true ∧ ∃ r, e.drives r ⟨"monitor"⟩ := by
  obtain ⟨e, he⟩ : ∃ e, new sharedSetup (fun _ => true) 0 = .ok e := ⟨_, rfl⟩
  obtain ⟨machine, hm, hup⟩ : ∃ machine, (watched.run (Board.empty, e)
      [(Env.plain 1, .control (.setInhibited (some ⟨"desk"⟩) .userActivity true))]).2.machines
        ⟨"monitor"⟩ = some machine ∧ machine.overlays.inhibited = true := by
    obtain rfl := Except.ok.inj he
    exact ⟨_, rfl, rfl⟩
  obtain ⟨r, hr, -⟩ := (inhibited_by_last_change _ _ 0 he _ _ machine hm).2.1 hup
  exact ⟨e, machine, he, hm, hup, r, hr⟩

/-- Two rules engage and the first releases: the display is not inhibited, with the second
rule still engaged. -/
theorem inhibited_overwritten :
    ∃ e, new sharedSetup (fun _ => true) 0 = .ok e ∧
      let x := watched.run (Board.empty, e)
        [(Env.plain 1, .control (.setInhibited (some ⟨"desk"⟩) .userActivity true)),
          (Env.plain 2, .control (.setInhibited (some ⟨"sofa"⟩) .userActivity true)),
          (Env.plain 3, .control (.setInhibited (some ⟨"desk"⟩) .userActivity false))]
      (x.2.machines ⟨"monitor"⟩).map (·.overlays.inhibited) = some false ∧
        e.drives ⟨"sofa"⟩ ⟨"monitor"⟩ ∧ anyEngaged (x.1.said ⟨"sofa"⟩) = true :=
  ⟨_, rfl, by decide, by decide, by decide⟩

end RulesEngine
end Dormant
