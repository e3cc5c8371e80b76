import Dormant.Rules.Feeding

/-!
# What the handlers send

The handlers once more as chains, this time by what leaves the engine. A `Link` writes the books,
sends what concerns neither a display nor a sensor or zone, arms a timer that is no tick of a
display, or steps a machine on an input that is no tick. A `Stride` is a link, or a presence event
that reaches the zones. Only the pop of a display's tick is neither.
-/

namespace Dormant
set_option autoImplicit false

/-- An input that no timer delivers. -/
def Input.untimed : Input → Bool
  | .tick | .stageTick _ => false
  | _ => true

/-- The display that a timer is a tick of. -/
def TimerEntry.tickOf? : TimerEntry → Option DisplayId
  | .displayTick display | .displayStageTick display _ => some display
  | _ => none

/-- What subscribers are told of a sensor, a zone or a display. -/
def DaemonEvent.isState : DaemonEvent → Bool
  | .sensorChanged _ _ | .zoneChanged _ _ _ | .displayPhase _ _ _ _ => true
  | _ => false

/-- An output that is no command and no surface of a display, and tells of no state. -/
def Output.plain : Output → Bool
  | .blank _ _ _ | .wake _ _ | .showRender _ _ _ _ | .teardownRender _ _ => false
  | .event ev => !ev.isState
  | _ => true

/-- The event is relayed for another task and tells of no state. -/
def Event.relaysState : Event → Bool
  | .control (.publishDaemonEvent ev) => ev.isState
  | _ => false

namespace RulesEngine

inductive Link : RulesEngine → RulesEngine → Prop
  | book (e : RulesEngine) (lastOwned : DisplayId → Option Bool)
      (pausedScopes : DisplayId → Option (Option RuleId))
      (inhibitorState : RuleId → InhibitorSet) (holds : SensorId → Option HoldState)
      (wakeAttempts : DisplayId → Option UInt64) (lastBlankFailed : DisplayId → Bool)
      (sensorLastSeenVirtual availabilityOnline : SensorId → Option ℕ)
      (claimSuppression inputWakeHolds : DisplayId → Option ℕ) :
      Link e { e with
        lastOwned := lastOwned, pausedScopes := pausedScopes, inhibitorState := inhibitorState,
        holds := holds, wakeAttempts := wakeAttempts, lastBlankFailed := lastBlankFailed,
        sensorLastSeenVirtual := sensorLastSeenVirtual,
        availabilityOnline := availabilityOnline, claimSuppression := claimSuppression,
        inputWakeHolds := inputWakeHolds }
  | send (e : RulesEngine) {o : Output} (h : o.plain = true) : Link e (e.send o)
  | arm (e : RulesEngine) (tick : ℕ) {entry : TimerEntry} (h : entry.tickOf? = none) :
      Link e (e.pushTimer tick entry)
  | step (e : RulesEngine) (display : DisplayId) {input : Input} (now : ℕ)
      (h : input.untimed = true) : Link e (e.stepMachine display input now)
  | flag (e : RulesEngine) (display : DisplayId) (active : Bool) :
      Link e (e.setHoldFlag display active)

def Links : RulesEngine → RulesEngine → Prop := Relation.ReflTransGen Link

inductive Stride (env : Env) : RulesEngine → RulesEngine → Prop
  | link {e e' : RulesEngine} (h : Link e e') : Stride env e e'
  | presence (e : RulesEngine) (ev : PresenceEvent) : Stride env e (e.applyPresence env ev)

def Strides (env : Env) : RulesEngine → RulesEngine → Prop := Relation.ReflTransGen (Stride env)

variable {e e' e'' : RulesEngine}

theorem Link.links (h : Link e e') : Links e e' := .single h

theorem Links.refl (e : RulesEngine) : Links e e := Relation.ReflTransGen.refl

theorem Links.trans (h : Links e e') (h' : Links e' e'') : Links e e'' :=
  Relation.ReflTransGen.trans h h'

theorem Links.foldl {α : Type} {f : RulesEngine → α → RulesEngine} (hf : ∀ e a, Links e (f e a))
    (l : List α) (e : RulesEngine) : Links e (l.foldl f e) := by
  induction l generalizing e with
  | nil => exact .refl e
  | cons a l ih => exact (hf e a).trans (ih (f e a))

/-- A relation that chains on holds of a chain when it holds of its links. -/
theorem Links.lift {R : RulesEngine → RulesEngine → Prop} (hrefl : ∀ e, R e e)
    (htrans : ∀ e e' e'', R e e' → R e' e'' → R e e'') (hlink : ∀ e e', Link e e' → R e e')
    (h : Links e e') : R e e' := by
  induction h with
  | refl => exact hrefl e
  | tail _ hlast ih => exact htrans _ _ _ ih (hlink _ _ hlast)

variable {env : Env}

theorem Stride.strides (h : Stride env e e') : Strides env e e' := .single h

theorem Strides.refl (e : RulesEngine) : Strides env e e := Relation.ReflTransGen.refl

theorem Strides.trans (h : Strides env e e') (h' : Strides env e' e'') : Strides env e e'' :=
  Relation.ReflTransGen.trans h h'

theorem Links.strides (h : Links e e') : Strides env e e' :=
  Relation.ReflTransGen.mono (fun _ _ => .link) _ _ h

theorem Strides.foldl {α : Type} {f : RulesEngine → α → RulesEngine}
    (hf : ∀ e a, Strides env e (f e a)) (l : List α) (e : RulesEngine) :
    Strides env e (l.foldl f e) := by
  induction l generalizing e with
  | nil => exact .refl e
  | cons a l ih => exact (hf e a).trans (ih (f e a))

theorem Strides.lift {R : RulesEngine → RulesEngine → Prop} (hrefl : ∀ e, R e e)
    (htrans : ∀ e e' e'', R e e' → R e' e'' → R e e'') (hlink : ∀ e e', Link e e' → R e e')
    (hpresence : ∀ e ev, R e (e.applyPresence env ev)) (h : Strides env e e') : R e e' := by
  induction h with
  | refl => exact hrefl e
  | tail _ hlast ih =>
    refine htrans _ _ _ ih ?_
    cases hlast with
    | link h => exact hlink _ _ h
    | presence ev => exact hpresence _ ev

/-! ## What one step of a machine sends -/

theorem noteTransition_plain (e : RulesEngine) (display : DisplayId) (oldPhase newPhase : Phase) :
    ∃ notes : List Output, (∀ o ∈ notes, o.plain = true) ∧
      e.noteTransition display oldPhase newPhase = { e with outbox := e.outbox ++ notes } := by
  unfold noteTransition emitPhaseTransition
  split
  · exact ⟨[], by simp, by simp⟩
  · split
    · exact ⟨[], by simp, by simp⟩
    · exact ⟨[_], by simp [Output.plain], rfl⟩

theorem notePause_plain (e : RulesEngine) (display : DisplayId) (wasPaused isPaused : Bool) :
    ∃ (notes : List Output) (scopes : DisplayId → Option (Option RuleId)),
      (∀ o ∈ notes, o.plain = true) ∧ e.notePause display wasPaused isPaused =
        { e with outbox := e.outbox ++ notes, pausedScopes := scopes } := by
  have hnote (scope : Option RuleId) : Output.plain
      (.event (.pauseChanged display isPaused scope)) = true := rfl
  unfold notePause emitPauseChanged
  split
  · exact ⟨[], e.pausedScopes, by simp, by simp⟩
  · dsimp only
    split
    · exact ⟨[_], e.pausedScopes, by simp [hnote], rfl⟩
    · exact ⟨[_], _, by simp [hnote], rfl⟩

theorem stepMachine_plain {display : DisplayId} {m : DisplayStateMachine}
    (h : e.machines display = some m) (input : Input) (now : ℕ) :
    ∃ (notes : List Output) (scopes : DisplayId → Option (Option RuleId)),
      (∀ o ∈ notes, o.plain = true) ∧ e.stepMachine display input now =
        { e with
          machines := Function.update e.machines display (some (m.step input now).1)
          timers := ((m.step input now).2.filterMap (timerOf display)).reverse ++ e.timers
          outbox := e.outbox ++ (notes ++ (m.step input now).2.filterMap (e.outputOf display))
          pausedScopes := scopes } := by
  simp only [stepMachine, h]
  obtain ⟨notes, hnotes, htransition⟩ := noteTransition_plain
    (e.setMachine display (m.step input now).1) display m.phase (m.step input now).1.phase
  rw [htransition]
  obtain ⟨remarks, scopes, hremarks, hpause⟩ := notePause_plain
    { e.setMachine display (m.step input now).1 with
      outbox := (e.setMachine display (m.step input now).1).outbox ++ notes } display
    m.overlays.paused.isSome (m.step input now).1.overlays.paused.isSome
  rw [hpause, processEffects_eq]
  refine ⟨notes ++ remarks, scopes, fun o ho => ?_, ?_⟩
  · rcases List.mem_append.mp ho with ho | ho
    · exact hnotes o ho
    · exact hremarks o ho
  · rw [setMachine, outputOf_with e]
    simp only [List.append_assoc]

/-- A reading of the outputs that passes over the plain ones reads a step's effects. -/
theorem read_stepMachine {α : Type} {read : Output → Option α}
    (hread : ∀ o, o.plain = true → read o = none) {display : DisplayId} {m : DisplayStateMachine}
    (h : e.machines display = some m) (input : Input) (now : ℕ) :
    (e.stepMachine display input now).outbox.filterMap read = e.outbox.filterMap read ++
      ((m.step input now).2.filterMap (e.outputOf display)).filterMap read := by
  obtain ⟨notes, scopes, hnotes, hstep⟩ := stepMachine_plain h input now
  have hnone : notes.filterMap read = [] :=
    List.filterMap_eq_nil_iff.mpr fun o ho => hread o (hnotes o ho)
  rw [hstep]
  dsimp only
  rw [List.filterMap_append, List.filterMap_append, hnone, List.nil_append]

/-! ## Ownership, pauses and inhibitors -/

variable (e) (env : Env) (display : DisplayId)

theorem links_step (now : ℕ) {input : Input} (h : input.untimed = true) :
    Links e (e.stepMachine display input now) :=
  (Link.step e display now h).links

theorem links_send {o : Output} (h : o.plain = true) : Links e (e.send o) :=
  (Link.send e h).links

theorem links_feedOwnership (now : ℕ) : Links e (e.feedOwnership env display now) := by
  unfold feedOwnership
  dsimp only
  split
  · exact .refl e
  · split
    · exact (Link.book e _ _ _ _ _ _ _ _ _ _).links
    · apply Links.trans (Link.book e _ _ _ _ _ _ _ _ _ _).links
      exact links_step _ display now rfl

theorem links_stepOne {input : Input} (h : input.untimed = true) :
    Links e (e.stepOne env display input) :=
  (links_feedOwnership e env display env.now).trans (links_step _ display env.now h)

theorem links_handlePause (rule : Option RuleId) (untilStamp : Option ℕ) :
    Links e (e.handlePause env rule untilStamp) := by
  apply Links.foldl
  intro e d
  have hscope : Links e (if (e.machines d).isSome then
      { e with pausedScopes := Function.update e.pausedScopes d (some rule) } else e) := by
    split
    · exact (Link.book e _ _ _ _ _ _ _ _ _ _).links
    · exact .refl e
  exact hscope.trans (links_stepOne _ env d rfl)

theorem links_handleResume (rule : Option RuleId) : Links e (e.handleResume env rule) :=
  Links.foldl (fun e d => links_stepOne e env d rfl) _ e

theorem links_handleEmergencyWake : Links e (e.handleEmergencyWake env) :=
  (links_handlePause e env none none).trans (Links.foldl (fun e _ => links_send e rfl) _ _)

theorem links_applyInhibitor (r : RuleId) (kind : InhibitorKind) (inhibited : Bool) :
    Links e (e.applyInhibitor env r kind inhibited) := by
  unfold applyInhibitor
  dsimp only
  have hset : Links e (e.setInhibitors r
      { kinds := Function.update (e.inhibitorState r).kinds kind inhibited,
        effective := anyEngaged (Function.update (e.inhibitorState r).kinds kind inhibited) }) :=
    (Link.book e _ _ _ _ _ _ _ _ _ _).links
  split
  · exact hset
  · exact hset.trans (Links.foldl (fun e d => links_stepOne e env d rfl) _ _)

theorem links_handleSetInhibited (rule : Option RuleId) (kind : InhibitorKind)
    (inhibited : Bool) : Links e (e.handleSetInhibited env rule kind inhibited) := by
  cases rule with
  | none => exact Links.foldl (fun e r => links_applyInhibitor e env r kind inhibited) _ e
  | some r => exact links_applyInhibitor e env r kind inhibited

theorem links_handleExercise (target : DisplayId) (accepted : Option AcceptedOperation) :
    Links e (e.handleExercise env target accepted) := by
  unfold handleExercise
  split
  · exact links_send e rfl
  · have hpaused : Links e ((e.rulesOf target).foldl
        (fun e r => e.handlePause env (some r) none) e) :=
      Links.foldl (fun e r => links_handlePause e env (some r) none) _ e
    dsimp only
    split
    · exact hpaused.trans (links_send _ rfl)
    · apply hpaused.trans
      apply Links.trans (Links.foldl (fun e r => links_handleResume e env (some r)) _ _)
      exact links_send _ rfl

/-! ## Presence -/

theorem links_clearInputWakeHold : Links e (e.clearInputWakeHold display) :=
  (Link.book e _ _ _ _ _ _ _ _ _ _).links.trans (Link.flag _ display false).links

theorem links_fanToDisplay : Links e (e.fanToDisplay env display) := by
  have told (e : RulesEngine) (present : Bool) : Links e
      ((e.feedOwnership env display env.now).stepMachine display (.zonePresent present) env.now) :=
    (links_feedOwnership e env display _).trans (links_step _ display _ rfl)
  unfold fanToDisplay
  dsimp only
  split
  · exact (links_clearInputWakeHold e display).trans (told _ _)
  · exact told _ _

theorem links_fanZoneChangeToDisplays (zone : ZoneId) :
    Links e (e.fanZoneChangeToDisplays env zone) :=
  Links.foldl (fun e _ => Links.foldl (fun e d => links_fanToDisplay e env d) _ e) _ e

theorem links_applyHoldFilter (ev : PresenceEvent) : Links e (e.applyHoldFilter env ev).1 := by
  unfold applyHoldFilter
  split
  · exact .refl e
  · split
    · split
      · exact .refl e
      · exact (Link.book e _ _ _ _ _ _ _ _ _ _).links.trans (Link.arm _ _ rfl).links
    · split
      · exact (Link.book e _ _ _ _ _ _ _ _ _ _).links
      · exact .refl e
    · exact (Link.book e _ _ _ _ _ _ _ _ _ _).links

theorem strides_handlePresenceEvent (ev : PresenceEvent) :
    Strides env e (e.handlePresenceEvent env ev) := by
  have hfiltered : Strides env e (e.filtered env ev) := by
    unfold filtered
    refine Links.strides (Links.trans ?_ (links_applyHoldFilter _ env ev))
    exact (Link.book e _ _ _ _ _ _ _ _ _ _).links
  rw [handlePresenceEvent_eq]
  split
  · exact hfiltered.trans (Stride.presence _ _).strides
  · exact hfiltered

theorem strides_handleSensorAvailability (ev : SensorAvailabilityEvent) :
    Strides env e (e.handleSensorAvailability env ev) := by
  unfold handleSensorAvailability
  split
  · exact (Link.book e _ _ _ _ _ _ _ _ _ _).links.strides
  · apply Strides.trans (Link.book e _ _ _ _ _ _ _ _ _ _).links.strides
    exact strides_handlePresenceEvent _ env _

theorem strides_sweepStaleSensors : Strides env e (e.sweepStaleSensors env) := by
  have hexpire (e : RulesEngine) (sensor : SensorId) (staleTimeout : ℕ) :
      Strides env e (e.expireSensor env sensor staleTimeout) := by
    unfold expireSensor
    split
    · exact .refl e
    · split
      · exact strides_handlePresenceEvent e env _
      · exact .refl e
  apply Strides.foldl
  intro e scfg
  unfold sweepSensor
  split
  · exact .refl e
  · exact .refl e
  · split
    · exact hexpire e _ _
    · split
      · exact (Link.book e _ _ _ _ _ _ _ _ _ _).links.strides.trans (hexpire _ _ _)
      · exact .refl e

/-! ## Requests, timers and results -/

theorem links_handleInputWake : Links e (e.handleInputWake env display) := by
  unfold handleInputWake
  dsimp only
  have hasked (e : RulesEngine) : Links e (e.stepOne env display .inputWake) :=
    links_stepOne e env display rfl
  split
  · split
    · refine Links.trans ?_ (hasked _)
      refine Links.trans ?_ (Link.flag _ display true).links
      exact (Link.book e _ _ _ _ _ _ _ _ _ _).links.trans (Link.arm _ _ rfl).links
    · exact hasked e
  · exact hasked e

theorem strides_fireHoldExpiry (sensor : SensorId) (deadline : ℕ) :
    Strides env e (e.fireHoldExpiry env sensor deadline) := by
  have hbook (e : RulesEngine) (hold : HoldState) : Strides env e
      { e with holds := Function.update e.holds sensor (some hold) } :=
    (Link.book e _ _ _ _ _ _ _ _ _ _).links.strides
  unfold fireHoldExpiry
  split
  · exact .refl e
  · dsimp only
    split
    · exact hbook e _
    · split
      · exact .refl e
      · split
        · exact hbook e _
        · exact (hbook e _).trans (strides_handlePresenceEvent _ env _)

theorem links_fireInputWakeHoldExpiry (now : ℕ) :
    Links e (e.fireInputWakeHoldExpiry env display now) := by
  unfold fireInputWakeHoldExpiry
  split
  · exact .refl e
  · split
    · exact .refl e
    · have hfed : Links e ((e.clearInputWakeHold display).feedOwnership env display now) :=
        (links_clearInputWakeHold e display).trans (links_feedOwnership _ env display now)
      dsimp only
      split
      · exact hfed.trans (links_step _ display now rfl)
      · exact hfed

theorem strides_fireTimer {entry : TimerEntry} (h : entry.tickOf? = none) (deadline : ℕ) :
    Strides env e (e.fireTimer env deadline entry) := by
  cases entry with
  | displayTick display => cases h
  | displayStageTick display gen => cases h
  | holdExpiry sensor => exact strides_fireHoldExpiry e env sensor deadline
  | inputWakeHoldExpiry display =>
    exact (links_fireInputWakeHoldExpiry e env display deadline).strides

theorem strides_handleControl {msg : ControlMsg}
    (h : (Event.control msg).relaysState = false) : Strides env e (e.handleControl env msg) := by
  cases msg with
  | pause rule untilStamp => exact (links_handlePause e env rule untilStamp).strides
  | resume rule => exact (links_handleResume e env rule).strides
  | forceBlank display => exact (links_stepOne e env display rfl).strides
  | forceWake display => exact (links_stepOne e env display rfl).strides
  | softBlank display => exact (links_stepOne e env display rfl).strides
  | setInhibited rule kind inhibited =>
    exact (links_handleSetInhibited e env rule kind inhibited).strides
  | setClaimSuppression display deadline =>
    exact (Link.book e _ _ _ _ _ _ _ _ _ _).links.strides
  | inputWake display => exact (links_handleInputWake e env display).strides
  | ownershipPoll display => exact (links_feedOwnership e env display env.now).strides
  | publishDaemonEvent event =>
    have hplain : (Output.event event).plain = true := by
      simpa [Event.relaysState, Output.plain] using h
    exact (links_send e hplain).strides
  | emergencyWake => exact (links_handleEmergencyWake e env).strides
  | emergencyWakeAccepted operation => exact (links_handleEmergencyWake e env).strides
  | exercise display => exact (links_handleExercise e env display none).strides
  | exerciseAccepted operation =>
    simp only [handleControl]
    split
    · exact (links_handleExercise e env _ (some operation)).strides
    · exact (links_send e rfl).strides
  | sensorAvailability event => exact strides_handleSensorAvailability e env event
  | queryPresenceConfirmed display => exact (links_send e rfl).strides
  | passive => exact .refl e

theorem links_handleInternalResult (res : InternalResult) :
    Links e (e.handleInternalResult env res) := by
  have hbook (e : RulesEngine) (wakeAttempts : DisplayId → Option UInt64)
      (lastBlankFailed : DisplayId → Bool) : Links e
      { e with wakeAttempts := wakeAttempts, lastBlankFailed := lastBlankFailed } :=
    (Link.book e _ _ _ _ _ _ _ _ _ _).links
  cases res with
  | blank display gen result =>
    have huntimed : (Input.blankResult gen result).untimed = true := rfl
    simp only [handleInternalResult]
    refine Links.trans (links_step e display env.nowTick huntimed) ?_
    split
    · exact (hbook _ _ _).trans (links_send _ rfl)
    · split
      · exact (hbook _ _ _).trans (links_send _ rfl)
      · exact .refl _
  | wake display gen result =>
    have huntimed : (Input.wakeResult gen result).untimed = true := rfl
    simp only [handleInternalResult]
    refine Links.trans (links_step e display env.nowTick huntimed) ?_
    split
    · split
      · exact .refl _
      · split
        · exact (hbook _ _ _).trans (links_send _ rfl)
        · exact hbook _ _ _
    · exact (hbook _ _ _).trans (links_send _ rfl)
  | render display gen result => exact links_step e display env.nowTick rfl
  | exerciseResume rules operationId generation =>
    simp only [handleInternalResult]
    split
    · exact Links.foldl (fun e r => links_handleResume e env (some r)) _ e
    · exact .refl e

/-- An event that pops no timer, and relays nothing that tells of a state. -/
theorem strides_handle {i : Env × Event} (hrelay : i.2.relaysState = false)
    (hdue : e.dueTimer i = none) : Strides i.1 e (e.handle i.1 i.2) := by
  obtain ⟨env, event⟩ := i
  cases event with
  | presence ev => exact strides_handlePresenceEvent e env ev
  | control msg => exact strides_handleControl e env hrelay
  | result res => exact (links_handleInternalResult e env res).strides
  | sweep => exact strides_sweepStaleSensors e env
  | timer =>
    rw [handle, fireDueTimer_idle hdue]
    exact .refl e

end RulesEngine
end Dormant
