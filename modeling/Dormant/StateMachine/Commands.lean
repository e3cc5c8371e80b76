import Mathlib.Data.List.Nodup
import Dormant.StateMachine.Facts
import Mathlib.Algebra.Group.Nat.Defs

/-!
# Commands and their results

Blanks and wakes share one generation counter, and the two generation fields remember the
last command of each kind. `step_issued` says what a step can do to the counter: nothing, or
one command under the next generation. From it, the phases that wait for a result wait for
the command issued last, and a result that does not answer it is ignored.
-/

namespace Dormant
set_option autoImplicit false

inductive Command where
  | blank (gen : UInt64)
  | wake (gen : UInt64)
  deriving DecidableEq

def Command.gen : Command → UInt64
  | .blank gen | .wake gen => gen

def Effect.command? : Effect → Option Command
  | .issueBlank gen _ => some (.blank gen)
  | .issueWake gen => some (.wake gen)
  | _ => none

def commands (effects : List Effect) : List Command := effects.filterMap Effect.command?

def Input.answers? : Input → Option Command
  | .blankResult gen _ => some (.blank gen)
  | .wakeResult gen _ => some (.wake gen)
  | _ => none

@[simp] theorem commands_append (a b : List Effect) : commands (a ++ b) = commands a ++ commands b :=
  List.filterMap_append

theorem commands_cons {e : Effect} (he : e.command? = none) (effects : List Effect) :
    commands (e :: effects) = commands effects :=
  List.filterMap_cons_none he

namespace DisplayStateMachine
variable {s t : DisplayStateMachine} {r q : DisplayStateMachine × List Effect}

/-! ## What a step does to the counter -/

/-- The fields that account for commands are unchanged, and no wait for a result begins. -/
structure Idle (s t : DisplayStateMachine) : Prop where
  gen : t.cmdGen = s.cmdGen
  blank : t.lastBlankGen = s.lastBlankGen
  wake : t.lastWakeGen = s.lastWakeGen
  blanking : t.phase = .blanking → s.phase = .blanking
  waking : t.phase = .waking → s.phase = .waking

/-- Nothing is issued, or one command under the next generation. A wake comes with the tick
that retries it. -/
inductive Issued (s : DisplayStateMachine) (r : DisplayStateMachine × List Effect) : Prop
  | nothing (hc : commands r.2 = []) (h : Idle s r.1)
  | blank (hc : commands r.2 = [.blank r.1.cmdGen]) (hgen : r.1.cmdGen = s.cmdGen + 1)
      (hphase : r.1.phase = .blanking) (hlast : r.1.lastBlankGen = some r.1.cmdGen)
  | wake (hc : commands r.2 = [.wake r.1.cmdGen]) (hgen : r.1.cmdGen = s.cmdGen + 1)
      (hphase : r.1.phase = .waking) (hlast : r.1.lastWakeGen = some r.1.cmdGen)
      (hretry : ∃ t, .scheduleTickAt t ∈ r.2)

theorem Idle.trans {u : DisplayStateMachine} (h : Idle s t) (h' : Idle t u) : Idle s u :=
  ⟨h'.gen.trans h.gen, h'.blank.trans h.blank, h'.wake.trans h.wake,
    fun hb => h.blanking (h'.blanking hb), fun hw => h.waking (h'.waking hw)⟩

theorem Idle.note (s : DisplayStateMachine) (input : Input) : Idle s (s.note input) := by
  cases input <;> exact ⟨rfl, rfl, rfl, id, id⟩

theorem Idle.before (h : Idle s t) (hr : Issued t r) : Issued s r := by
  cases hr with
  | nothing hc hi => exact .nothing hc (h.trans hi)
  | blank hc hgen hphase hlast =>
    exact .blank hc (hgen.trans (congrArg (· + 1) h.gen)) hphase hlast
  | wake hc hgen hphase hlast hretry =>
    exact .wake hc (hgen.trans (congrArg (· + 1) h.gen)) hphase hlast hretry

theorem Idle.issued (h : Idle s t) {pre : List Effect} (hpre : commands pre = [])
    (hr : Issued t r) : Issued s (r.1, pre ++ r.2) := by
  have hc : commands (pre ++ r.2) = commands r.2 := by rw [commands_append, hpre, List.nil_append]
  refine h.before ?_
  cases hr with
  | nothing h1 h2 => exact .nothing (hc.trans h1) h2
  | blank h1 h2 h3 h4 => exact .blank (hc.trans h1) h2 h3 h4
  | wake h1 h2 h3 h4 h5 =>
    exact .wake (hc.trans h1) h2 h3 h4 (h5.imp fun t ht => List.mem_append_right _ ht)

theorem Idle.issued_cons (h : Idle s t) {e : Effect} (he : e.command? = none) (hr : Issued t r) :
    Issued s (r.1, e :: r.2) :=
  h.issued (commands_cons he []) hr

theorem idle_enterGrace (s : DisplayStateMachine) (now : ℕ) (cause : String) :
    commands (s.enterGrace now cause).2 = [] ∧ Idle s (s.enterGrace now cause).1 := by
  unfold enterGrace
  dsimp only
  split <;> exact ⟨rfl, rfl, rfl, rfl, nofun, nofun⟩

theorem idle_enterActive (s : DisplayStateMachine) (now : ℕ) (cause : String) :
    commands (s.enterActive now cause).2 = [] ∧ Idle s (s.enterActive now cause).1 := by
  unfold enterActive
  dsimp only
  split
  · obtain ⟨hc, hi⟩ := idle_enterGrace _ now "deferred_zone_clear"
    refine ⟨hc, Idle.trans ?_ hi⟩
    exact ⟨rfl, rfl, rfl, nofun, nofun⟩
  · exact ⟨rfl, rfl, rfl, rfl, nofun, nofun⟩

theorem idle_teardownRender (s : DisplayStateMachine) (now : ℕ) (cause : String) :
    commands (s.teardownRender now cause).2 = [] ∧ Idle s (s.teardownRender now cause).1 :=
  idle_enterActive s now cause

theorem issued_enterGrace (s : DisplayStateMachine) (now : ℕ) (cause : String) :
    Issued s (s.enterGrace now cause) :=
  .nothing (idle_enterGrace s now cause).1 (idle_enterGrace s now cause).2

theorem issued_enterActive (s : DisplayStateMachine) (now : ℕ) (cause : String) :
    Issued s (s.enterActive now cause) :=
  .nothing (idle_enterActive s now cause).1 (idle_enterActive s now cause).2

theorem issued_teardownRender (s : DisplayStateMachine) (now : ℕ) (cause : String) :
    Issued s (s.teardownRender now cause) :=
  .nothing (idle_teardownRender s now cause).1 (idle_teardownRender s now cause).2

theorem issued_issueBlank (s : DisplayStateMachine) (pre : List Effect) (hpre : commands pre = []) :
    Issued s (s.issueBlank pre) :=
  .blank (by simp only [issueBlank, commands_append, hpre]; rfl) rfl rfl rfl

theorem issued_issueWake (s : DisplayStateMachine) (pre : List Effect) (hpre : commands pre = [])
    (now : ℕ) : Issued s (s.issueWake pre now) :=
  .wake (by simp only [issueWake, commands_append, hpre]; rfl) rfl rfl rfl
    ⟨now + s.timings.wakeRetryInterval, by simp [issueWake]⟩

theorem issued_enterLadderStage (s : DisplayStateMachine) (idx : ℕ) (now : ℕ) (cause : String) :
    Issued s (s.enterLadderStage idx now cause) := by
  unfold enterLadderStage
  split
  · exact issued_enterActive _ _ _
  · have hpre (b : Bool) (gen : UInt64) :
        commands (if b then [Effect.teardownRender gen] else []) = [] := by cases b <;> rfl
    dsimp only
    split
    · refine .blank ?_ rfl rfl rfl
      simp only [issueBlankForMode, commands_append, hpre]
      rfl
    · refine .nothing ?_ ⟨rfl, rfl, rfl, nofun, nofun⟩
      simp only [commands_append, hpre]
      rfl

theorem issued_advanceStage (s : DisplayStateMachine) (now : ℕ) (cause : String) :
    Issued s (s.advanceStage now cause) := by
  unfold advanceStage
  split
  · exact issued_enterActive _ _ _
  · exact issued_enterLadderStage _ _ _ _

theorem issued_advanceToNextController (s : DisplayStateMachine) (now : ℕ) (cause : String) :
    Issued s (s.advanceToNextController now cause) := by
  unfold advanceToNextController
  split
  · exact issued_enterLadderStage _ _ _ _
  · exact issued_teardownRender _ _ _

theorem issued_scheduleStageTick (s : DisplayStateMachine) (now : ℕ) :
    Issued s (s.scheduleStageTick now) := by
  unfold scheduleStageTick
  split
  · exact .nothing rfl ⟨rfl, rfl, rfl, id, id⟩
  · split <;> exact .nothing rfl ⟨rfl, rfl, rfl, id, id⟩

theorem issued_rearmStageTick (s : DisplayStateMachine) (now : ℕ) :
    Issued s (s.rearmStageTick now) := by
  unfold rearmStageTick
  dsimp only
  split
  · exact .nothing rfl ⟨rfl, rfl, rfl, id, id⟩
  · split <;> exact .nothing rfl ⟨rfl, rfl, rfl, id, id⟩

theorem idle_maybeAutoResume (s : DisplayStateMachine) (now : ℕ) :
    commands (s.maybeAutoResume now).2 = [] ∧ Idle s (s.maybeAutoResume now).1 := by
  unfold maybeAutoResume unfreezeGrace
  repeat' split
  all_goals first
    | exact ⟨rfl, rfl, rfl, rfl, id, id⟩
    | exact ⟨rfl, rfl, rfl, rfl, nofun, nofun⟩

theorem issued_unfreezeGrace (s : DisplayStateMachine) (now : ℕ) :
    Issued s (s.unfreezeGrace now) := by
  unfold unfreezeGrace
  repeat' split
  · exact .nothing rfl ⟨rfl, rfl, rfl, id, id⟩
  · exact .nothing rfl ⟨rfl, rfl, rfl, id, id⟩
  · exact .nothing rfl ⟨rfl, rfl, rfl, nofun, nofun⟩

theorem idle_freezeGrace (s : DisplayStateMachine) (untilTick now : ℕ) :
    Idle s (s.freezeGrace untilTick now) := by
  unfold freezeGrace
  split <;> exact ⟨rfl, rfl, rfl, id, id⟩

theorem issued_graceTick (s : DisplayStateMachine) (untilTick now : ℕ) :
    Issued s (s.graceTick untilTick now) := by
  have ha := idle_maybeAutoResume s now
  unfold graceTick
  dsimp only
  split_ifs
  · exact .nothing ha.1 ha.2
  · exact .nothing ha.1 ha.2
  · exact .nothing ha.1 (ha.2.trans (idle_freezeGrace _ _ _))
  · exact .nothing ha.1 ha.2
  · exact .nothing (by rw [commands_append, ha.1]; rfl) ha.2
  · exact .nothing ha.1 ha.2
  · exact ha.2.issued ha.1 (issued_enterLadderStage _ _ _ _)

theorem issued_blankAnswered (s : DisplayStateMachine) (result : Except CmdFailure Unit)
    (now : ℕ) : Issued s (s.blankAnswered result now) := by
  unfold blankAnswered
  cases result with
  | ok u =>
    dsimp only
    split
    · refine Idle.before ?_ (issued_issueWake _ _ rfl now)
      exact ⟨rfl, rfl, rfl, id, id⟩
    · refine Idle.issued_cons ?_ rfl (issued_scheduleStageTick _ _)
      exact ⟨rfl, rfl, rfl, nofun, nofun⟩
  | error failure =>
    have hi : Idle s { s with pendingWake := false } := ⟨rfl, rfl, rfl, id, id⟩
    dsimp only
    split
    · exact hi.before (issued_enterGrace _ _ _)
    · exact hi.before (issued_enterActive _ _ _)

theorem commands_noteEffects (input : Input) : commands (noteEffects input) = [] := by
  unfold noteEffects
  split <;> rfl

theorem step_issued (s : DisplayStateMachine) (input : Input) (now : ℕ) :
    Issued s (s.step input now) := by
  have hm := step_move s input now
  generalize s.step input now = r at hm
  have noted {t : DisplayStateMachine} (h : Idle (s.note input) t) : Idle s t :=
    (Idle.note s input).trans h
  have after {r : DisplayStateMachine × List Effect} (h : Issued (s.note input) r) : Issued s r :=
    (Idle.note s input).before h
  have unfrozen : Idle s (if s.inGrace then { s with graceFrozenRemaining := none } else s) := by
    split <;> exact ⟨rfl, rfl, rfl, id, id⟩
  cases hm with
  | quiet => exact .nothing (commands_noteEffects input) (Idle.note s input)
  | ticked => exact .nothing (idle_maybeAutoResume s now).1 (idle_maybeAutoResume s now).2
  | graceTicked untilTick => exact issued_graceTick s untilTick now
  | vacated => exact after (issued_enterGrace _ now _)
  | froze untilTick =>
    exact .nothing (commands_noteEffects input) (noted (idle_freezeGrace _ untilTick now))
  | @repaused u => exact .nothing (commands_noteEffects (.pause u)) (Idle.note s (.pause u))
  | thawed => exact after (issued_unfreezeGrace _ now)
  | regained => exact .nothing rfl (Idle.note s (.ownershipChanged true))
  | activated cause => exact after (issued_enterActive _ now cause)
  | forceBlanked => exact unfrozen.before (issued_issueBlank _ _ rfl)
  | softBlanked => exact unfrozen.before (issued_enterLadderStage _ 0 now _)
  | deferred => exact .nothing rfl (noted ⟨rfl, rfl, rfl, id, id⟩)
  | blankAnswered result => exact issued_blankAnswered s result now
  | woken => exact after (issued_issueWake _ _ rfl now)
  | rewoken pre h hinput =>
    refine issued_issueWake s pre ?_ now
    rcases hinput with ⟨-, rfl⟩ | ⟨-, rfl⟩ | ⟨-, rfl⟩ <;> rfl
  | retried =>
    obtain ⟨hc, hi⟩ := idle_maybeAutoResume s now
    have hw := issued_issueWake (s.maybeAutoResume now).1 [] rfl now
    exact hi.issued hc (Idle.issued_cons ⟨rfl, rfl, rfl, id, id⟩ rfl hw)
  | awoken =>
    refine Idle.before ?_ (issued_enterActive _ now _)
    exact ⟨rfl, rfl, rfl, id, id⟩
  | torn cause => exact after (issued_teardownRender _ now cause)
  | tornAwake source =>
    have ht := idle_teardownRender (s.note (.ownershipChanged true)) now "ownership_acquired"
    exact (noted ht.2).issued ht.1 (issued_issueWake _ _ rfl now)
  | renderForceBlanked source =>
    have h : Idle s { s with currentStage := none } := ⟨rfl, rfl, rfl, id, id⟩
    exact h.issued_cons rfl (Idle.issued_cons ⟨rfl, rfl, rfl, id, id⟩ rfl
      (issued_issueBlank { s with currentStage := none } [] rfl))
  | renderSoftBlanked source =>
    have h : Idle s { s with currentStage := none } := ⟨rfl, rfl, rfl, id, id⟩
    exact h.issued_cons rfl (Idle.issued_cons ⟨rfl, rfl, rfl, id, id⟩ rfl
      (issued_enterLadderStage { s with currentStage := none } 0 now _))
  | rendered idx =>
    refine Idle.issued_cons ?_ rfl (issued_scheduleStageTick _ now)
    exact ⟨rfl, rfl, rfl, nofun, nofun⟩
  | renderFailed => exact issued_advanceToNextController s now _
  | advanced => exact issued_advanceStage s now _
  | captured => exact .nothing (commands_noteEffects input) (noted ⟨rfl, rfl, rfl, id, id⟩)
  | rearmed => exact after (issued_rearmStageTick _ now)

/-! ## Results -/

/-- No wait for the result of this command is on. -/
def Spent (s : DisplayStateMachine) : Command → Prop
  | .blank gen => s.phase = .blanking → s.lastBlankGen ≠ some gen
  | .wake gen => s.phase = .waking → s.lastWakeGen ≠ some gen

/-- The result of a spent command changes nothing and asks for nothing. -/
theorem step_spent {input : Input} {c : Command} (hc : input.answers? = some c) (h : s.Spent c)
    (now : ℕ) : s.step input now = (s, []) := by
  cases input with
  | blankResult gen result =>
    obtain rfl := Option.some.inj hc
    cases hp : s.phase <;>
      simp only [step, hp, stepActive, stepGrace, stepBlanking, stepBlanked, stepWaking,
        stepRenderPending, stepStaged]
    rw [if_pos fun heq => h hp heq.symm]
  | wakeResult gen result =>
    obtain rfl := Option.some.inj hc
    cases hp : s.phase <;>
      simp only [step, hp, stepActive, stepGrace, stepBlanking, stepBlanked, stepWaking,
        stepRenderPending, stepStaged]
    rw [if_pos fun heq => h hp heq.symm]
  | _ => exact absurd hc (by simp [Input.answers?])

theorem blankAnswered_phase (s : DisplayStateMachine) (result : Except CmdFailure Unit)
    (now : ℕ) : (s.blankAnswered result now).1.phase ≠ .blanking := by
  unfold blankAnswered
  cases result with
  | ok u =>
    dsimp only
    split
    · simp [issueWake]
    · simp
  | error failure =>
    dsimp only
    split
    · simp
    · rcases enterActive_phase { s with pendingWake := false } now "blank_failed" with h | h <;>
        simp [h]

theorem spent_delivered (hw : s.phase = .waking → s.lastWakeGen = some s.cmdGen) {input : Input}
    {c : Command} (hc : input.answers? = some c) (now : ℕ) : (s.step input now).1.Spent c := by
  by_cases h : s.Spent c
  · rwa [step_spent hc h now]
  cases input with
  | blankResult gen result =>
    obtain rfl := Option.some.inj hc
    simp only [Spent, Classical.not_imp, not_not] at h
    have hs : s.step (.blankResult gen result) now = s.blankAnswered result now := by
      simp [step, h, stepBlanking]
    rw [hs]
    exact fun hp => absurd hp (blankAnswered_phase s result now)
  | wakeResult gen result =>
    obtain rfl := Option.some.inj hc
    simp only [Spent, Classical.not_imp, not_not] at h
    have hgen : gen = s.cmdGen := Option.some.inj (h.2.symm.trans (hw h.1))
    cases result with
    | ok u =>
      have hs : s.step (.wakeResult gen (.ok u)) now =
          { s with lastWake := some now }.enterActive now "wake_completed" := by
        simp [step, h, stepWaking]
      rw [hs]
      rcases enterActive_phase { s with lastWake := some now } now "wake_completed" with hp | hp <;>
        simp [Spent, hp]
    | error failure =>
      have hs : (s.step (.wakeResult gen (.error failure)) now).1 = (s.issueWake [] now).1 := by
        simp [step, h, stepWaking]
      rw [hs, hgen]
      simp [Spent, issueWake]
  | _ => exact absurd hc (by simp [Input.answers?])

/-- A spent command stays spent while it is not issued again. -/
theorem spent_step {c : Command} (h : s.Spent c) {input : Input} {now : ℕ}
    (hc : c ∉ commands (s.step input now).2) : (s.step input now).1.Spent c := by
  have hi := step_issued s input now
  generalize s.step input now = r at hi hc
  cases hi with
  | nothing _ h' =>
    cases c with
    | blank gen => exact fun hp => h'.blank ▸ h (h'.blanking hp)
    | wake gen => exact fun hp => h'.wake ▸ h (h'.waking hp)
  | blank hcs hgen hphase hlast =>
    cases c with
    | blank gen => simpa [Spent, hlast, hcs, eq_comm] using fun _ => hc
    | wake gen => simp [Spent, hphase]
  | wake hcs hgen hphase hlast =>
    cases c with
    | blank gen => simp [Spent, hphase]
    | wake gen => simpa [Spent, hlast, hcs, eq_comm] using fun _ => hc

/-! ## Runs -/

/-- The machine after a run that put out these effects: the commands carry the generations
from one upward, and a phase that waits for a result waits for the last command. -/
structure Numbered (effects : List Effect) (s : DisplayStateMachine) : Prop where
  count : s.cmdGen = UInt64.ofNat (commands effects).length
  gens : (commands effects).map Command.gen =
    (List.range (commands effects).length).map fun k => UInt64.ofNat (k + 1)
  blanking : s.phase = .blanking →
    s.lastBlankGen = some s.cmdGen ∧ (commands effects).getLast? = some (.blank s.cmdGen)
  waking : s.phase = .waking →
    s.lastWakeGen = some s.cmdGen ∧ (commands effects).getLast? = some (.wake s.cmdGen)

theorem numbered_new (timings : SmTimings) (ladder : List LadderStage) (start : ℕ) :
    Numbered [] (new timings ladder start) :=
  ⟨rfl, rfl, nofun, nofun⟩

theorem Numbered.extend {effects more : List Effect} (h : Numbered effects s) {c : Command}
    (hc : commands more = [c]) (hgen : c.gen = s.cmdGen + 1) :
    c.gen = UInt64.ofNat (commands (effects ++ more)).length ∧
      (commands (effects ++ more)).map Command.gen =
        (List.range (commands (effects ++ more)).length).map fun k => UInt64.ofNat (k + 1) := by
  have hn : c.gen = UInt64.ofNat ((commands effects).length + 1) := by
    rw [hgen, h.count, UInt64.ofNat_add]
    rfl
  have hlen : (commands (effects ++ more)).length = (commands effects).length + 1 := by
    simp [hc]
  refine ⟨hlen ▸ hn, ?_⟩
  rw [hlen, List.range_succ, List.map_append, commands_append, List.map_append, h.gens, hc]
  simp [hn]

theorem numbered_step {effects : List Effect} (h : Numbered effects s) (input : Input)
    (now : ℕ) : Numbered (effects ++ (s.step input now).2) (s.step input now).1 := by
  have hi := step_issued s input now
  generalize s.step input now = r at hi
  cases hi with
  | nothing hc hi =>
    have hsame : commands (effects ++ r.2) = commands effects := by simp [hc]
    refine ⟨?_, ?_, fun hp => ?_, fun hp => ?_⟩
    · rw [hsame, hi.gen, h.count]
    · rw [hsame, h.gens]
    · rw [hsame, hi.gen, hi.blank]
      exact h.blanking (hi.blanking hp)
    · rw [hsame, hi.gen, hi.wake]
      exact h.waking (hi.waking hp)
  | blank hc hgen hphase hlast =>
    obtain ⟨hcount, hgens⟩ := h.extend hc hgen
    exact ⟨hcount, hgens, fun _ => ⟨hlast, by simp [hc]⟩, fun hp => by simp [hphase] at hp⟩
  | wake hc hgen hphase hlast =>
    obtain ⟨hcount, hgens⟩ := h.extend hc hgen
    exact ⟨hcount, hgens, fun hp => by simp [hphase] at hp, fun _ => ⟨hlast, by simp [hc]⟩⟩

theorem numbered_next (effects : List Effect) (s : DisplayStateMachine) (feed : Feed)
    (h : Numbered effects s) :
    Numbered (effects ++ (machine.next s feed).2) (machine.next s feed).1 := by
  cases feed with
  | input input now => exact numbered_step h input now
  | hold active =>
    rw [machine_hold, List.append_nil]
    exact ⟨h.count, h.gens, h.blanking, h.waking⟩

theorem numbered_run (timings : SmTimings) (ladder : List LadderStage) (start : ℕ)
    (feeds : List Feed) :
    Numbered (machine.outputs (new timings ladder start) feeds)
      (machine.run (new timings ladder start) feeds) :=
  Runs.System.outputs_invariant numbered_next (numbered_new timings ladder start) feeds

/-- Below the bound of the counter no generation is used twice. -/
theorem Numbered.nodup {effects : List Effect} (h : Numbered effects s)
    (hlt : (commands effects).length < 2 ^ 64) : (commands effects).Nodup := by
  refine List.Nodup.of_map Command.gen ?_
  rw [h.gens]
  refine List.nodup_range.map_on ?_
  intro a ha b hb hab
  rw [List.mem_range] at ha hb
  have h' := congrArg UInt64.toNat hab
  rw [UInt64.toNat_ofNat', UInt64.toNat_ofNat', Nat.mod_eq_of_lt (by omega),
    Nat.mod_eq_of_lt (by omega)] at h'
  omega

theorem spent_run {c : Command} {feeds : List Feed} (h : s.Spent c)
    (hc : c ∉ commands (machine.outputs s feeds)) : (machine.run s feeds).Spent c := by
  refine Runs.System.run_of_outputs (fun t : DisplayStateMachine => t.Spent c)
    (fun e : Effect => e.command? = some c) ?_ h ?_
  · intro t feed ht hout
    cases feed with
    | input input now =>
      refine spent_step ht fun hm => ?_
      obtain ⟨e, he, hec⟩ := List.mem_filterMap.mp hm
      exact hout e he hec
    | hold active => cases c <;> exact ht
  · exact fun e he hec => hc (List.mem_filterMap.mpr ⟨e, he, hec⟩)

/-- In a run that issues fewer than `2 ^ 64` commands, a waiting phase waits for the newest
command, the result of any other command is ignored, and so is a result that was delivered
before, once its command had been issued. -/
theorem newest_result_counts (timings : SmTimings) (ladder : List LadderStage) (start : ℕ)
    (feeds : List Feed)
    (hbound : (commands (machine.outputs (new timings ladder start) feeds)).length < 2 ^ 64) :
    let s₀ := new timings ladder start
    let s := machine.run s₀ feeds
    (s.phase = .blanking → s.lastBlankGen = some s.cmdGen) ∧
      (s.phase = .waking → s.lastWakeGen = some s.cmdGen) ∧
      (∀ input now c, input.answers? = some c →
        (commands (machine.outputs s₀ feeds)).getLast? ≠ some c → s.step input now = (s, [])) ∧
      (∀ before first later delivered again now c,
        feeds = before ++ .input first delivered :: later →
        first.answers? = some c → again.answers? = some c →
        (c ∈ commands (machine.outputs s₀ feeds) → c ∈ commands (machine.outputs s₀ before)) →
        s.step again now = (s, [])) := by
  intro s₀ s
  have h := numbered_run timings ladder start feeds
  refine ⟨fun hp => (h.blanking hp).1, fun hp => (h.waking hp).1, ?_, ?_⟩
  · intro input now c hc hlast
    refine step_spent hc ?_ now
    cases c with
    | blank gen =>
      intro hp hgen
      have heq := Option.some.inj ((h.blanking hp).1.symm.trans hgen)
      exact hlast (heq ▸ (h.blanking hp).2)
    | wake gen =>
      intro hp hgen
      have heq := Option.some.inj ((h.waking hp).1.symm.trans hgen)
      exact hlast (heq ▸ (h.waking hp).2)
  · intro before first later delivered again now c hfeeds hfirst hagain hissued
    have hrun : s = machine.run ((machine.run s₀ before).step first delivered).1 later := by
      simp only [s, hfeeds, Runs.System.run_append, Runs.System.run_cons, machine_input]
    have hout : commands (machine.outputs s₀ feeds) = commands (machine.outputs s₀ before) ++
        (commands ((machine.run s₀ before).step first delivered).2 ++
          commands (machine.outputs ((machine.run s₀ before).step first delivered).1 later)) := by
      simp only [hfeeds, Runs.System.outputs_append, Runs.System.outputs, machine_input,
        commands_append]
    have hnodup := h.nodup hbound
    -- the command is not issued after the first delivery: it was issued before, or never
    have hlater : c ∉ commands
        (machine.outputs ((machine.run s₀ before).step first delivered).1 later) := by
      intro hc
      rw [hout] at hnodup hissued
      have hb := hissued (by simp [hc])
      exact (List.nodup_append.mp hnodup).2.2 c hb c (by simp [hc]) rfl
    have hspent := spent_delivered (s := machine.run s₀ before)
      (fun hp => ((numbered_run timings ladder start before).waking hp).1) hfirst delivered
    rw [hrun]
    exact step_spent hagain (spent_run hspent hlater) now

/-- A failed wake is issued anew, and the result of the first wake is ignored from then on. -/
theorem newest_result_counts_retry :
    let s₀ := new { gracePeriod := 60, minBlankTime := 0, minWakeTime := 0, startupHoldoff := 0,
                    wakeRetryInterval := 5 } [⟨.controller .powerOff, none⟩] 0
    let feeds : List Feed :=
      [.input .forceBlank 1, .input (.blankResult 1 (.ok ())) 2, .input .forceWake 3,
        .input (.wakeResult 2 (.error ⟨"ddc", "timeout"⟩)) 4]
    (commands (machine.outputs s₀ feeds)).length < 2 ^ 64 ∧
      (machine.run s₀ feeds).phase = .waking ∧
      (machine.run s₀ feeds).step (.wakeResult 2 (.ok ())) 5 = (machine.run s₀ feeds, []) :=
  ⟨by decide, by decide, (newest_result_counts _ _ _ _ (by decide)).2.2.1 _ 5 (.wake 2) rfl
    (by decide)⟩

end DisplayStateMachine
end Dormant
