import Dormant.StateMachine.Commands

/-!
# Commands under way

Between a machine and its sink there are the commands that the sink has not carried out and the
results that the machine has not heard. `Turn` says what a step does to what the machine takes
the panel for. `Fits` says that this agrees with the command that the sink carried out last,
now and when all that is under way has arrived; it survives every turn.
-/

namespace Dormant
set_option autoImplicit false

inductive CommandKind where
  | blank
  | wake
  deriving DecidableEq, Repr

def Command.kind : Command → CommandKind
  | .blank _ => .blank
  | .wake _ => .wake

/-- The result of a command, as its machine hears it. -/
def Command.answer (c : Command) (result : Except CmdFailure Unit) : Input :=
  match c with
  | .blank gen => .blankResult gen result
  | .wake gen => .wakeResult gen result

structure Traffic where
  flying : List Command
  landed : List (Command × Except CmdFailure Unit)

namespace Traffic

def send (t : Traffic) (cs : List Command) : Traffic := { t with flying := t.flying ++ cs }

/-- The sink has carried the command out, or failed to. -/
def land (t : Traffic) (c : Command) (result : Except CmdFailure Unit) : Traffic :=
  { flying := t.flying.erase c, landed := (c, result) :: t.landed }

def hear (t : Traffic) (c : Command) (result : Except CmdFailure Unit) : Traffic :=
  { t with landed := t.landed.erase (c, result) }

def blanks (t : Traffic) : ℕ :=
  t.flying.countP (·.kind = .blank) + t.landed.countP (·.1.kind = .blank)

def Flying (t : Traffic) (k : CommandKind) : Prop := ∃ c ∈ t.flying, c.kind = k

/-- A success that the machine has not heard of. -/
def Landed (t : Traffic) (k : CommandKind) : Prop :=
  ∃ r ∈ t.landed, r.1.kind = k ∧ r.2.isOk = true

def Missed (t : Traffic) (k : CommandKind) : Prop :=
  ∃ r ∈ t.landed, r.1.kind = k ∧ r.2.isOk = false

def UnderWay (t : Traffic) (k : CommandKind) : Prop := t.Flying k ∨ t.Landed k

end Traffic

/-- The kind of the last command that the sink has carried out. -/
def lastAfter (last : Option CommandKind) (c : Command) (result : Except CmdFailure Unit) :
    Option CommandKind :=
  if result.isOk then some c.kind else last

/-- What a machine takes its panel for. -/
inductive Stance where
  | lit
  | blanking
  | blanked
  | waking
  deriving DecidableEq, Repr

/-- The inputs that bring a blank, or a change of owner, without presence. -/
def Input.disturbs : Input → Bool
  | .pause (some _) | .forceBlank | .softBlank | .stageTick _ | .ownershipChanged _ => true
  | _ => false

namespace DisplayStateMachine

def stance (s : DisplayStateMachine) : Stance :=
  match s.phase with
  | .active | .grace _ | .renderPending _ _ | .staged _ _ => .lit
  | .blanking => .blanking
  | .blanked => .blanked
  | .waking => .waking

/-- A tick at the end of a Grace without an overlay. -/
def graceOver (s : DisplayStateMachine) (input : Input) (now : ℕ) : Prop :=
  input = .tick ∧ s.held = false ∧ ∃ untilTick, s.phase = .grace untilTick ∧ untilTick ≤ now

/-- The input may lead to a blank. -/
def blankDue (s : DisplayStateMachine) (input : Input) (now : ℕ) : Prop :=
  s.graceOver input now ∨
    ∃ idx gen failure, s.phase = .renderPending idx gen ∧ input = .renderResult gen (.error failure)

variable {s : DisplayStateMachine} {input : Input} {now : ℕ}
  {r : DisplayStateMachine × List Effect}

/-! ## What a step does to the stance -/

inductive Turn (s : DisplayStateMachine) (input : Input) (now : ℕ)
    (r : DisplayStateMachine × List Effect) : Prop
  | stays (hs : r.1.stance = s.stance) (hc : commands r.2 = [])
      (hrender : r.1.onRender = true → s.onRender = true ∨ s.graceOver input now)
  | wakes (hs : s.stance = .blanked ∨ s.stance = .waking) (hr : r.1.stance = .waking)
      (gen : UInt64) (hc : commands r.2 = [.wake gen])
  | blanks (hs : s.stance = .lit) (hr : r.1.stance = .blanking) (gen : UInt64)
      (hc : commands r.2 = [.blank gen]) (hdue : s.blankDue input now)

theorem stance_of_phase {s t : DisplayStateMachine} (h : t.phase = s.phase) :
    t.stance = s.stance ∧ t.onRender = s.onRender := by
  simp [stance, onRender, h]

theorem Turn.of_phase (h : r.1.phase = s.phase) (hc : commands r.2 = []) :
    Turn s input now r := by
  obtain ⟨hstance, hrender⟩ := stance_of_phase h
  exact .stays hstance hc fun hr => .inl (hrender ▸ hr)

theorem stance_of_inGrace (h : s.inGrace = true) : s.stance = .lit := by
  cases hp : s.phase <;> simp [inGrace, hp] at h ⊢
  simp [stance, hp]

theorem stance_of_onRender (h : s.onRender = true) : s.stance = .lit := by
  cases hp : s.phase <;> simp [onRender, hp] at h ⊢ <;> simp [stance, hp]

theorem stance_enterGrace (s : DisplayStateMachine) (now : ℕ) (cause : String) :
    (s.enterGrace now cause).1.stance = .lit ∧ (s.enterGrace now cause).1.onRender = false := by
  simp [stance, onRender]

theorem stance_enterActive (s : DisplayStateMachine) (now : ℕ) (cause : String) :
    (s.enterActive now cause).1.stance = .lit ∧ (s.enterActive now cause).1.onRender = false := by
  rcases enterActive_phase s now cause with h | h <;> simp [stance, onRender, h]

/-- A lit panel stays lit without a surface. -/
theorem Turn.of_lit (hs : s.stance = .lit) (hr : r.1.stance = .lit ∧ r.1.onRender = false)
    (hc : commands r.2 = []) : Turn s input now r :=
  .stays (hr.1.trans hs.symm) hc fun h => absurd (hr.2.symm.trans h) Bool.false_ne_true

/-- A surface stays up. -/
theorem Turn.of_surface (hs : s.onRender = true) (hr : r.1.stance = .lit)
    (hc : commands r.2 = []) : Turn s input now r :=
  .stays (hr.trans (stance_of_onRender hs).symm) hc fun _ => .inl hs

theorem turn_enterActive (hs : s.stance = .lit) (t : DisplayStateMachine) (cause : String) :
    Turn s input now (t.enterActive now cause) :=
  .of_lit hs (stance_enterActive t now cause) (idle_enterActive t now cause).1

theorem turn_teardownRender (hs : s.stance = .lit) (t : DisplayStateMachine) (cause : String) :
    Turn s input now (t.teardownRender now cause) :=
  .of_lit hs (stance_enterActive t now cause) (idle_teardownRender t now cause).1

theorem turn_unfreezeGrace {t : DisplayStateMachine} (hs : s.stance = .lit)
    (ht : t.inGrace = true) : Turn s input now (t.unfreezeGrace now) := by
  have hlit : t.stance = .lit ∧ t.onRender = false := by
    cases hp : t.phase <;> simp [inGrace, hp] at ht
    simp [stance, onRender, hp]
  unfold unfreezeGrace
  split
  · exact .of_lit hs hlit rfl
  · split
    · exact .of_lit hs hlit rfl
    · exact .of_lit hs ⟨rfl, rfl⟩ rfl

theorem commands_scheduleStageTick (s : DisplayStateMachine) (now : ℕ) :
    commands (s.scheduleStageTick now).2 = [] := by
  unfold scheduleStageTick
  split
  · rfl
  · split <;> rfl

theorem commands_rearmStageTick (s : DisplayStateMachine) (now : ℕ) :
    commands (s.rearmStageTick now).2 = [] := by
  unfold rearmStageTick
  dsimp only
  split
  · rfl
  · split <;> rfl

/-- Entering a stage stays with the lit panel, or blanks. -/
theorem turn_enterLadderStage (hs : s.stance = .lit) (t : DisplayStateMachine) (idx : ℕ)
    (cause : String) (hdue : s.blankDue input now)
    (hrender : s.onRender = true ∨ s.graceOver input now) :
    Turn s input now (t.enterLadderStage idx now cause) := by
  unfold enterLadderStage
  split
  · exact turn_enterActive hs t cause
  · have hpre (b : Bool) (gen : UInt64) :
        commands (if b then [Effect.teardownRender gen] else []) = [] := by cases b <;> rfl
    dsimp only
    split
    · refine .blanks hs rfl (t.cmdGen + 1) ?_ hdue
      simp only [issueBlankForMode, commands_append, hpre]
      rfl
    · refine .stays (hs ▸ rfl) ?_ fun _ => hrender
      simp only [commands_append, hpre]
      rfl

theorem turn_graceTick {untilTick : ℕ} (hp : s.phase = .grace untilTick)
    (hd : ¬ s.pauseDue now) : Turn s .tick now (s.graceTick untilTick now) := by
  have hgrace : s.inGrace = true := by simp [inGrace, hp]
  have same : Turn s .tick now (s, []) := .of_phase rfl rfl
  simp only [graceTick, maybeAutoResume_not_due s now hd, List.nil_append]
  split_ifs with h1 h2 hheld hearly hblocked howned
  · exact same
  · exact same
  · refine .of_phase ?_ rfl
    unfold freezeGrace
    split <;> rfl
  · exact same
  · exact .of_phase rfl rfl
  · exact same
  · have hover : s.graceOver .tick now :=
      ⟨rfl, by simpa [held] using hheld, untilTick, hp, Nat.le_of_not_lt hearly⟩
    exact turn_enterLadderStage (stance_of_inGrace hgrace) s 0 _ (.inl hover) (.inr hover)

theorem step_turn (hd : ¬ s.pauseDue now) (hin : input.disturbs = false)
    (hspent : ∀ c, input.answers? = some c → s.Spent c) : Turn s input now (s.step input now) := by
  cases hc : input.answers? with
  | some c =>
    rw [step_spent hc (hspent c hc)]
    exact .of_phase rfl rfl
  | none =>
    have hm := step_move s input now
    generalize s.step input now = r at hm
    cases hm with
    | quiet => exact .of_phase (note_phase s input) (commands_noteEffects input)
    | ticked =>
      rw [maybeAutoResume_not_due s now hd]
      exact .of_phase rfl rfl
    | graceTicked untilTick hp => exact turn_graceTick hp hd
    | vacated hp =>
      obtain ⟨hstance, hrender⟩ := stance_enterGrace (s.seeZone false) now "zone_clear"
      refine .stays (hstance.trans (by simp [stance, hp])) (idle_enterGrace _ now _).1 fun h => ?_
      simp [hrender] at h
    | froze untilTick =>
      refine .of_phase ?_ (commands_noteEffects input)
      rw [← note_phase s input]
      unfold freezeGrace
      split <;> rfl
    | @repaused u => exact .of_phase (note_phase s (.pause u)) (commands_noteEffects (.pause u))
    | thawed hg => exact turn_unfreezeGrace (stance_of_inGrace hg) (by rw [note_inGrace, hg])
    | regained => cases hin
    | activated cause h =>
      rcases h with ⟨hg, -⟩ | ⟨-, rfl⟩
      · exact turn_enterActive (stance_of_inGrace hg) _ cause
      · cases hin
    | forceBlanked => cases hin
    | softBlanked => cases hin
    | deferred hp => exact .of_phase (note_phase s input) rfl
    | blankAnswered => cases hc
    | woken source cause h =>
      rcases h with ⟨hp, -⟩ | ⟨-, rfl, -⟩
      · exact .wakes (.inl (by simp [stance, hp])) rfl _ rfl
      · cases hin
    | rewoken pre hp hinput =>
      have hs : s.stance = .waking := by simp [stance, hp]
      rcases hinput with ⟨-, rfl⟩ | ⟨-, rfl⟩ | ⟨⟨gen, failure, rfl, -⟩, -⟩
      · exact .wakes (.inr hs) rfl _ rfl
      · exact .wakes (.inr hs) rfl _ rfl
      · cases hc
    | retried hp =>
      rw [maybeAutoResume_not_due s now hd]
      exact .wakes (.inr (by simp [stance, hp])) rfl _ rfl
    | awoken => cases hc
    | torn cause hr => exact turn_teardownRender (stance_of_onRender hr) _ cause
    | tornAwake => cases hin
    | renderForceBlanked => cases hin
    | renderSoftBlanked => cases hin
    | @rendered gen u idx hp =>
      refine .of_surface (by simp [onRender, hp]) ?_ ?_
      · simp [stance]
      · exact (commands_cons rfl _).trans (commands_scheduleStageTick _ now)
    | @renderFailed gen failure idx hp =>
      have hr : s.onRender = true := by simp [onRender, hp]
      unfold advanceToNextController
      split
      · exact turn_enterLadderStage (stance_of_onRender hr) s _ _
          (.inr ⟨idx, gen, failure, hp, rfl⟩) (.inl hr)
      · exact turn_teardownRender (stance_of_onRender hr) s _
    | advanced => cases hin
    | captured hp =>
      exact .of_phase (note_phase s input) (commands_noteEffects input)
    | rearmed hp =>
      obtain ⟨gen, deadline, hframe⟩ := (s.note input).rearmStageTick_frame now
      refine .of_phase ?_ (commands_rearmStageTick _ now)
      rw [hframe]
      exact note_phase s input

/-! ## What a result does to the stance -/

/-- The machine waited for this command, and hears how it went. -/
inductive Answered (s : DisplayStateMachine) (c : Command) (result : Except CmdFailure Unit)
    (r : DisplayStateMachine × List Effect) : Prop
  | blanked (hk : c.kind = .blank) (hs : s.stance = .blanking) (hok : result.isOk = true)
      (hr : r.1.stance = .blanked) (hc : commands r.2 = [])
  | recalled (hk : c.kind = .blank) (hs : s.stance = .blanking) (hok : result.isOk = true)
      (hr : r.1.stance = .waking) (gen : UInt64) (hc : commands r.2 = [.wake gen])
  | missed (hk : c.kind = .blank) (hs : s.stance = .blanking) (herr : result.isOk = false)
      (hr : r.1.stance = .lit ∧ r.1.onRender = false) (hc : commands r.2 = [])
  | awoken (hk : c.kind = .wake) (hs : s.stance = .waking) (hok : result.isOk = true)
      (hr : r.1.stance = .lit ∧ r.1.onRender = false) (hc : commands r.2 = [])
  | again (hk : c.kind = .wake) (hs : s.stance = .waking) (hr : r.1.stance = .waking)
      (gen : UInt64) (hc : commands r.2 = [.wake gen])

theorem answers_answer (c : Command) (result : Except CmdFailure Unit) :
    (c.answer result).answers? = some c := by
  cases c <;> rfl

theorem step_answered {c : Command} (h : ¬ s.Spent c) (result : Except CmdFailure Unit)
    (now : ℕ) : Answered s c result (s.step (c.answer result) now) := by
  cases c with
  | blank gen =>
    simp only [Spent, Classical.not_imp, not_not] at h
    obtain ⟨hp, hgen⟩ := h
    have hs : s.stance = .blanking := by simp [stance, hp]
    have hstep : s.step (.blankResult gen result) now = s.blankAnswered result now := by
      simp [step, hp, stepBlanking, hgen]
    rw [Command.answer, hstep]
    unfold blankAnswered
    cases result with
    | ok u =>
      dsimp only
      split
      · exact .recalled rfl hs rfl rfl _ rfl
      · refine .blanked rfl hs rfl (by simp [stance]) ?_
        exact (commands_cons rfl _).trans (commands_scheduleStageTick _ now)
    | error failure =>
      dsimp only
      split
      · exact .missed rfl hs rfl (stance_enterGrace _ now _) (idle_enterGrace _ now _).1
      · exact .missed rfl hs rfl (stance_enterActive _ now _) (idle_enterActive _ now _).1
  | wake gen =>
    simp only [Spent, Classical.not_imp, not_not] at h
    obtain ⟨hp, hgen⟩ := h
    have hs : s.stance = .waking := by simp [stance, hp]
    simp only [Command.answer, step, hp, stepWaking, hgen, ne_eq, not_true_eq_false, if_false]
    cases result with
    | ok u => exact .awoken rfl hs rfl (stance_enterActive _ now _) (idle_enterActive _ now _).1
    | error failure => exact .again rfl hs rfl _ rfl

/-! ## At most one blank is under way -/

/-- A blank is under way only as the one that the machine waits for, and no pause ends by
itself. -/
structure BlankAwaited (s : DisplayStateMachine) (t : Traffic) : Prop where
  single : t.blanks ≤ 1
  blanking : 0 < t.blanks → s.stance = .blanking
  openEnded : ∀ u, s.overlays.paused ≠ some ⟨some u⟩

/-- What has been carried out last agrees with what the machine takes the panel for, and so
will what is under way. -/
def Fits (s : DisplayStateMachine) (t : Traffic) (last : Option CommandKind) : Prop :=
  match s.stance with
  | .lit => last ≠ some .blank
  | .blanking => ¬ t.UnderWay .wake ∧ (t.Landed .blank → last ≠ some .wake) ∧
      (last = some .blank → ¬ t.Flying .blank ∧ ¬ t.Missed .blank)
  | .blanked => last ≠ some .wake ∧ ¬ t.UnderWay .wake
  | .waking => last = some .blank → ¬ t.Landed .wake

/-- Paused with the panel taken to be on, or about to be: no blank comes from here. -/
structure Sheltered (s : DisplayStateMachine) : Prop where
  paused : s.overlays.paused = some ⟨none⟩
  awake : s.stance = .lit ∧ s.onRender = false ∨ s.stance = .waking

end DisplayStateMachine

namespace Traffic
variable {t : Traffic} {c : Command} {result : Except CmdFailure Unit} {k : CommandKind}

theorem send_nil (t : Traffic) : t.send [] = t := by rw [send, List.append_nil]

theorem send_append (t : Traffic) (a b : List Command) : (t.send a).send b = t.send (a ++ b) := by
  simp only [send, List.append_assoc]

theorem blanks_send (t : Traffic) (cs : List Command) :
    (t.send cs).blanks = t.blanks + cs.countP (·.kind = .blank) := by
  simp only [blanks, send, List.countP_append]
  omega

theorem blanks_land (h : c ∈ t.flying) : (t.land c result).blanks = t.blanks := by
  have hperm := (List.perm_cons_erase h).countP_eq (·.kind = .blank)
  simp only [blanks, land, List.countP_cons] at hperm ⊢
  omega

theorem blanks_hear (h : (c, result) ∈ t.landed) :
    (t.hear c result).blanks + (if c.kind = .blank then 1 else 0) = t.blanks := by
  have hperm := (List.perm_cons_erase h).countP_eq (·.1.kind = .blank)
  simp only [blanks, hear, List.countP_cons, decide_eq_true_eq] at hperm ⊢
  omega

theorem blanks_pos_of_flying (h : t.Flying .blank) : 0 < t.flying.countP (·.kind = .blank) := by
  obtain ⟨c, hc, hk⟩ := h
  exact List.countP_pos_iff.mpr ⟨c, hc, by simpa using hk⟩

theorem blanks_pos_of_landed {r : Command × Except CmdFailure Unit} (h : r ∈ t.landed)
    (hk : r.1.kind = .blank) : 0 < t.landed.countP (·.1.kind = .blank) :=
  List.countP_pos_iff.mpr ⟨r, h, by simpa using hk⟩

theorem flying_send (h : (t.send [c]).Flying k) : t.Flying k ∨ c.kind = k := by
  obtain ⟨d, hd, hk⟩ := h
  rcases List.mem_append.mp hd with hd | hd
  · exact .inl ⟨d, hd, hk⟩
  · exact .inr (List.mem_singleton.mp hd ▸ hk)

theorem flying_land (h : (t.land c result).Flying k) : t.Flying k := by
  obtain ⟨d, hd, hk⟩ := h
  exact ⟨d, List.mem_of_mem_erase hd, hk⟩

theorem landed_land (h : (t.land c result).Landed k) :
    t.Landed k ∨ c.kind = k ∧ result.isOk = true := by
  obtain ⟨r, hr, hk, hok⟩ := h
  rcases List.mem_cons.mp hr with rfl | hr
  · exact .inr ⟨hk, hok⟩
  · exact .inl ⟨r, hr, hk, hok⟩

theorem missed_land (h : (t.land c result).Missed k) :
    t.Missed k ∨ c.kind = k ∧ result.isOk = false := by
  obtain ⟨r, hr, hk, hok⟩ := h
  rcases List.mem_cons.mp hr with rfl | hr
  · exact .inr ⟨hk, hok⟩
  · exact .inl ⟨r, hr, hk, hok⟩

theorem landed_hear (h : (t.hear c result).Landed k) : t.Landed k := by
  obtain ⟨r, hr, hk⟩ := h
  exact ⟨r, List.mem_of_mem_erase hr, hk⟩

theorem missed_hear (h : (t.hear c result).Missed k) : t.Missed k := by
  obtain ⟨r, hr, hk⟩ := h
  exact ⟨r, List.mem_of_mem_erase hr, hk⟩

end Traffic

namespace DisplayStateMachine
variable {s : DisplayStateMachine} {t : Traffic} {last : Option CommandKind} {input : Input}
  {now : ℕ} {c : Command} {result : Except CmdFailure Unit} {r : DisplayStateMachine × List Effect}

/-! ## Every step keeps them -/

theorem openEnded_step (h : ∀ u, s.overlays.paused ≠ some ⟨some u⟩)
    (hin : input.disturbs = false) (now : ℕ) :
    ∀ u, (s.step input now).1.overlays.paused ≠ some ⟨some u⟩ := by
  intro u
  rw [step_overlays]
  cases input with
  | pause untilTick =>
    cases untilTick with
    | none => simp [Setting.after]
    | some deadline => cases hin
  | resume => simp [Setting.after]
  | tick =>
    simp only [Setting.after, Overlays.resumedAt]
    split
    · rename_i deadline hp
      exact absurd hp (h deadline)
    · exact h u
  | _ => exact h u

theorem not_pauseDue (h : ∀ u, s.overlays.paused ≠ some ⟨some u⟩) (now : ℕ) :
    ¬ s.pauseDue now := by
  rintro ⟨deadline, hp, -⟩
  exact h deadline hp

theorem BlankAwaited.mono {t' : Traffic} (h : BlankAwaited s t) (ht : t'.blanks ≤ t.blanks) :
    BlankAwaited s t' :=
  ⟨Nat.le_trans ht h.single, fun hpos => h.blanking (Nat.lt_of_lt_of_le hpos ht), h.openEnded⟩

theorem BlankAwaited.none (h : BlankAwaited s t) (hs : s.stance ≠ .blanking) : t.blanks = 0 :=
  Nat.eq_zero_of_not_pos fun hpos => hs (h.blanking hpos)

/-- While a machine does not wait for a blank, none is in flight and no result of one waits. -/
theorem BlankAwaited.not_flying (h : BlankAwaited s t) (hs : s.stance ≠ .blanking) : ¬ t.Flying .blank := by
  intro hf
  have hpos := Traffic.blanks_pos_of_flying hf
  have hnone := h.none hs
  unfold Traffic.blanks at hnone
  omega

theorem BlankAwaited.not_landed (h : BlankAwaited s t) (hs : s.stance ≠ .blanking) : ¬ t.Landed .blank := by
  rintro ⟨x, hx, hk, -⟩
  have hpos := Traffic.blanks_pos_of_landed hx hk
  have hnone := h.none hs
  unfold Traffic.blanks at hnone
  omega

theorem BlankAwaited.turn (h : BlankAwaited s t) (ht : Turn s input now r)
    (hopen : ∀ u, r.1.overlays.paused ≠ some ⟨some u⟩) : BlankAwaited r.1 (t.send (commands r.2)) := by
  cases ht with
  | stays hs hc =>
    rw [hc, Traffic.send_nil]
    exact ⟨h.single, fun hpos => hs.trans (h.blanking hpos), hopen⟩
  | wakes hs hr gen hc =>
    have hblanks : (t.send (commands r.2)).blanks = 0 := by
      rw [hc, Traffic.blanks_send, h.none (by rcases hs with hs | hs <;> simp [hs])]
      rfl
    exact ⟨by omega, fun hpos => by omega, hopen⟩
  | blanks hs hr gen hc =>
    have hblanks : (t.send (commands r.2)).blanks = 1 := by
      rw [hc, Traffic.blanks_send, h.none (by simp [hs])]
      rfl
    exact ⟨by omega, fun _ => hr, hopen⟩

theorem BlankAwaited.answered (h : BlankAwaited s t) (hmem : (c, result) ∈ t.landed)
    (ht : Answered s c result r) (hopen : ∀ u, r.1.overlays.paused ≠ some ⟨some u⟩) :
    BlankAwaited r.1 ((t.hear c result).send (commands r.2)) := by
  have hheard := Traffic.blanks_hear hmem
  have hwake (gen : UInt64) :
      [Command.wake gen].countP (fun d => decide (d.kind = .blank)) = 0 := rfl
  have hleft : (t.hear c result).blanks = 0 ∧
      (commands r.2).countP (fun d => decide (d.kind = .blank)) = 0 := by
    have hsingle := h.single
    cases ht with
    | blanked hk hs hok hr hc =>
      rw [if_pos hk] at hheard
      exact ⟨by omega, by rw [hc]; rfl⟩
    | recalled hk hs hok hr gen hc =>
      rw [if_pos hk] at hheard
      exact ⟨by omega, by rw [hc, hwake]⟩
    | missed hk hs herr hr hc =>
      rw [if_pos hk] at hheard
      exact ⟨by omega, by rw [hc]; rfl⟩
    | awoken hk hs hok hr hc =>
      have hnone := h.none (by simp [hs])
      exact ⟨by omega, by rw [hc]; rfl⟩
    | again hk hs hr gen hc =>
      have hnone := h.none (by simp [hs])
      exact ⟨by omega, by rw [hc, hwake]⟩
  have hblanks := Traffic.blanks_send (t.hear c result) (commands r.2)
  rw [hleft.1, hleft.2] at hblanks
  exact ⟨by omega, fun hpos => by omega, hopen⟩

theorem fits_congr {s' : DisplayStateMachine} (h : s'.stance = s.stance) :
    Fits s' t last ↔ Fits s t last := by
  unfold Fits
  rw [h]

theorem Fits.turn (h : Fits s t last) (ha : BlankAwaited s t) (ht : Turn s input now r)
    (hdue : s.blankDue input now → ¬ t.UnderWay .wake) :
    Fits r.1 (t.send (commands r.2)) last := by
  cases ht with
  | stays hs hc =>
    rw [hc, Traffic.send_nil]
    exact (fits_congr hs).mpr h
  | wakes hs hr gen hc =>
    unfold Fits at h ⊢
    rw [hr]
    rcases hs with hs | hs
    · rw [hs] at h
      exact fun _ hlanded => h.2 (.inr hlanded)
    · rw [hs] at h
      exact h
  | blanks hs hr gen hc hd =>
    have hquiet := hdue hd
    unfold Fits at h ⊢
    rw [hs] at h
    rw [hr, hc]
    refine ⟨?_, fun hlanded => ?_, fun hlast => absurd hlast h⟩
    · rintro (hf | hl)
      · rcases Traffic.flying_send hf with hf | hk
        · exact hquiet (.inl hf)
        · cases hk
      · exact hquiet (.inr hl)
    · exact absurd hlanded (ha.not_landed (by simp [hs]))

/-- A result that is not waited for changes nothing but the traffic. -/
theorem Fits.hear (h : Fits s t last) (c : Command) (result : Except CmdFailure Unit) :
    Fits s (t.hear c result) last := by
  have hunder : ¬ t.UnderWay .wake → ¬ (t.hear c result).UnderWay .wake := by
    rintro hn (hf | hl)
    · exact hn (.inl hf)
    · exact hn (.inr (Traffic.landed_hear hl))
  unfold Fits at h ⊢
  split
  · rename_i hs
    rw [hs] at h
    exact h
  · rename_i hs
    rw [hs] at h
    exact ⟨hunder h.1, fun hl => h.2.1 (Traffic.landed_hear hl),
      fun hlast => ⟨(h.2.2 hlast).1, fun hm => (h.2.2 hlast).2 (Traffic.missed_hear hm)⟩⟩
  · rename_i hs
    rw [hs] at h
    exact ⟨h.1, hunder h.2⟩
  · rename_i hs
    rw [hs] at h
    exact fun hlast hl => h hlast (Traffic.landed_hear hl)

theorem Fits.answered (h : Fits s t last) (hmem : (c, result) ∈ t.landed)
    (ht : Answered s c result r) : Fits r.1 ((t.hear c result).send (commands r.2)) last := by
  have hheard := h.hear c result
  unfold Fits at h hheard ⊢
  cases ht with
  | blanked hk hs hok hr hc =>
    rw [hs] at h hheard
    rw [hr, hc, Traffic.send_nil]
    exact ⟨h.2.1 ⟨_, hmem, hk, hok⟩, hheard.1⟩
  | recalled hk hs hok hr gen hc =>
    rw [hs] at hheard
    rw [hr]
    exact fun _ hl => hheard.1 (.inr hl)
  | missed hk hs herr hr hc =>
    rw [hs] at h
    rw [hr.1]
    exact fun hlast => (h.2.2 hlast).2 ⟨_, hmem, hk, herr⟩
  | awoken hk hs hok hr hc =>
    rw [hs] at h
    rw [hr.1]
    exact fun hlast => h hlast ⟨_, hmem, hk, hok⟩
  | again hk hs hr gen hc =>
    rw [hs] at hheard
    rw [hr]
    exact hheard

/-- The sink carries a command out, or fails to. -/
theorem Fits.land (h : Fits s t last) (ha : BlankAwaited s t) (hmem : c ∈ t.flying)
    (result : Except CmdFailure Unit) : Fits s (t.land c result) (lastAfter last c result) := by
  have hblank (hs : s.stance ≠ .blanking) : c.kind = .wake := by
    cases hk : c.kind with
    | wake => rfl
    | blank => exact absurd ⟨c, hmem, hk⟩ (ha.not_flying hs)
  unfold Fits at h ⊢
  cases hs : s.stance with
  | lit =>
    rw [hs] at h
    simp only [lastAfter, hblank (by simp [hs])]
    split
    · simp
    · exact h
  | waking =>
    rw [hs] at h
    simp only [lastAfter, hblank (by simp [hs])]
    split
    · simp
    · rename_i herr
      intro hlast hl
      rcases Traffic.landed_land hl with hl | ⟨-, hok⟩
      · exact h hlast hl
      · exact herr hok
  | blanked =>
    rw [hs] at h
    exact absurd (.inl ⟨c, hmem, hblank (by simp [hs])⟩) h.2
  | blanking =>
    rw [hs] at h
    obtain ⟨hquiet, hlanded, hover⟩ := h
    have hk : c.kind = .blank := by
      cases hk : c.kind with
      | blank => rfl
      | wake => exact absurd (.inl ⟨c, hmem, hk⟩) hquiet
    have hlast : last ≠ some .blank := fun hl => (hover hl).1 ⟨c, hmem, hk⟩
    refine ⟨?_, ?_, ?_⟩
    · rintro (hf | hl)
      · exact hquiet (.inl (Traffic.flying_land hf))
      · rcases Traffic.landed_land hl with hl | ⟨hw, -⟩
        · exact hquiet (.inr hl)
        · rw [hk] at hw
          cases hw
    · intro hl
      unfold lastAfter
      split
      · simp [hk]
      · rename_i herr
        rcases Traffic.landed_land hl with hl | ⟨-, hok⟩
        · exact hlanded hl
        · exact absurd hok herr
    · unfold lastAfter
      split
      · -- the one blank under way is the one that has landed
        rename_i hok
        intro _
        have hsingle := ha.single
        have hone := Traffic.blanks_pos_of_flying ⟨c, hmem, hk⟩
        have hperm := (List.perm_cons_erase hmem).countP_eq (·.kind = .blank)
        simp only [List.countP_cons, hk, decide_true, if_true] at hperm
        unfold Traffic.blanks at hsingle
        refine ⟨fun hf => ?_, fun hm => ?_⟩
        · have hpos := Traffic.blanks_pos_of_flying hf
          simp only [Traffic.land] at hpos
          omega
        · rcases Traffic.missed_land hm with ⟨x, hx, hkx, -⟩ | ⟨-, herr⟩
          · have hpos := Traffic.blanks_pos_of_landed hx hkx
            omega
          · rw [hok] at herr
            cases herr
      · exact fun hl => absurd hl hlast

theorem Sheltered.turn (h : Sheltered s) (ht : Turn s input now r)
    (hp : r.1.overlays.paused = some ⟨none⟩) : Sheltered r.1 := by
  have hover : ¬ s.graceOver input now := by
    rintro ⟨-, hheld, -⟩
    simp [held, h.paused] at hheld
  refine ⟨hp, ?_⟩
  cases ht with
  | stays hs hc hrender =>
    rcases h.awake with ⟨hlit, hoff⟩ | hw
    · left
      refine ⟨hs.trans hlit, ?_⟩
      by_contra hr
      rcases hrender (by simpa using hr) with hr | hr
      · simp [hoff] at hr
      · exact hover hr
    · exact .inr (hs.trans hw)
  | wakes hs hr => exact .inr hr
  | blanks hs hr gen hc hdue =>
    rcases hdue with hdue | ⟨idx, g, failure, hphase, -⟩
    · exact absurd hdue hover
    · rcases h.awake with ⟨-, hoff⟩ | hw
      · simp [onRender, hphase] at hoff
      · simp [hs] at hw

theorem Sheltered.answered (h : Sheltered s) (ht : Answered s c result r)
    (hp : r.1.overlays.paused = some ⟨none⟩) : Sheltered r.1 := by
  refine ⟨hp, ?_⟩
  have hblanking : s.stance ≠ .blanking := by
    rcases h.awake with ⟨hlit, -⟩ | hw <;> simp [*]
  cases ht with
  | blanked hk hs => exact absurd hs hblanking
  | recalled hk hs => exact absurd hs hblanking
  | missed hk hs => exact absurd hs hblanking
  | awoken hk hs hok hr => exact .inl hr
  | again hk hs hr => exact .inr hr

/-- A wake fits a sheltered machine, whatever is under way. -/
theorem Sheltered.fits (h : Sheltered s) (t : Traffic) : Fits s t (some .wake) := by
  unfold Fits
  rcases h.awake with ⟨hlit, -⟩ | hw
  · rw [hlit]
    simp
  · rw [hw]
    simp

/-! ## All three -/

/-- The blank is awaited; the machine is sheltered while `S`, and its panel fits once `C`. -/
structure Concord (S C : Prop) (s : DisplayStateMachine) (t : Traffic)
    (last : Option CommandKind) : Prop where
  awaited : BlankAwaited s t
  sheltered : S → Sheltered s
  fits : C → Fits s t last

variable {S C : Prop}

theorem paused_step (h : s.overlays.paused = some ⟨none⟩) (hin : input.disturbs = false)
    (hres : input ≠ .resume) (now : ℕ) :
    (s.step input now).1.overlays.paused = some ⟨none⟩ := by
  rw [step_overlays]
  cases input with
  | pause untilTick =>
    cases untilTick with
    | none => rfl
    | some deadline => cases hin
  | resume => exact absurd rfl hres
  | tick =>
    simp only [Setting.after, Overlays.resumedAt]
    split
    · rename_i deadline hp
      rw [setting, h] at hp
      cases hp
    · exact h
  | _ => exact h

theorem Concord.step (h : Concord S C s t last) (hin : input.disturbs = false)
    (hans : input.answers? = none) (hres : input = .resume → ¬ S)
    (hdue : s.blankDue input now → ¬ t.UnderWay .wake) :
    Concord S C (s.step input now).1 (t.send (commands (s.step input now).2)) last := by
  have hturn : Turn s input now (s.step input now) :=
    step_turn (not_pauseDue h.awaited.openEnded now) hin (by simp [hans])
  refine ⟨h.awaited.turn hturn (openEnded_step h.awaited.openEnded hin now), fun hS => ?_,
    fun hC => (h.fits hC).turn h.awaited hturn hdue⟩
  have hsheltered := h.sheltered hS
  exact hsheltered.turn hturn (paused_step hsheltered.paused hin (fun hr => hres hr hS) now)

theorem Concord.hear (h : Concord S C s t last) (hmem : (c, result) ∈ t.landed) (now : ℕ) :
    Concord S C (s.step (c.answer result) now).1
      ((t.hear c result).send (commands (s.step (c.answer result) now).2)) last := by
  by_cases hspent : s.Spent c
  · have hsame : (t.hear c result).send (commands []) = t.hear c result := Traffic.send_nil _
    have hblanks := Traffic.blanks_hear hmem
    rw [step_spent (answers_answer c result) hspent, hsame]
    exact ⟨h.awaited.mono (by omega), h.sheltered, fun hC => (h.fits hC).hear c result⟩
  · have hans := step_answered hspent result now
    have hin : (c.answer result).disturbs = false := by cases c <;> rfl
    have hres : c.answer result ≠ .resume := by cases c <;> simp [Command.answer]
    refine ⟨h.awaited.answered hmem hans (openEnded_step h.awaited.openEnded hin now),
      fun hS => ?_, fun hC => (h.fits hC).answered hmem hans⟩
    exact (h.sheltered hS).answered hans (paused_step (h.sheltered hS).paused hin hres now)

theorem Concord.land (h : Concord S C s t last) (hmem : c ∈ t.flying)
    (result : Except CmdFailure Unit) :
    Concord S C s (t.land c result) (lastAfter last c result) := by
  have hblanks : (t.land c result).blanks = t.blanks := Traffic.blanks_land hmem
  exact ⟨h.awaited.mono (Nat.le_of_eq hblanks), h.sheltered, fun hC => (h.fits hC).land h.awaited hmem result⟩

theorem Concord.hold (h : Concord S C s t last) (active : Bool) :
    Concord S C (s.setInputWakeHoldActive active) t last := by
  refine ⟨⟨h.awaited.single, h.awaited.blanking, h.awaited.openEnded⟩, fun hS => ?_, h.fits⟩
  exact ⟨(h.sheltered hS).paused, (h.sheltered hS).awake⟩

/-- What every feed of a kind keeps, a run over such feeds keeps. -/
theorem Concord.run {P : Feed → Prop} (hP : ∀ s t f, P f → Concord S C s t last →
      Concord S C (machine.next s f).1 (t.send (commands (machine.next s f).2)) last)
    {feeds : List Feed} (hfeeds : ∀ f ∈ feeds, P f) (h : Concord S C s t last) :
    Concord S C (machine.run s feeds) (t.send (commands (machine.outputs s feeds))) last := by
  induction feeds generalizing s t with
  | nil =>
    rw [Runs.System.outputs, commands, List.filterMap_nil, Traffic.send_nil]
    exact h
  | cons f feeds ih =>
    have hnext := hP s t f (hfeeds f List.mem_cons_self) h
    have hrun := ih (fun g hg => hfeeds g (List.mem_cons_of_mem _ hg)) hnext
    rw [Traffic.send_append, ← commands_append] at hrun
    exact hrun

end DisplayStateMachine
end Dormant
