import Dormant.Publish.Publishing

/-!
# The broker settles at the engine's state

Whatever was lost on the way is sent again: a lost session ends in a signal that makes the
publisher flush, and lost events in a snapshot. `Owed` says that such a copy is still to come.
While nothing is owed, what the broker retains, with all that is under way, comes to the state that
the engine has now.
-/

namespace Dormant
set_option autoImplicit false

namespace Publisher
open Mirror (shownAfter Honest Restores Settles)

variable {cfg : Config} {f : Feature}

/-! ## The writes of events -/

def eventWrites (cfg : Config) (events : List DaemonEvent) : List (String × Payload) :=
  writes (events.flatMap fun ev => eventRecords cfg ev cfg.inst)

theorem eventWrites_cons (cfg : Config) (ev : DaemonEvent) (events : List DaemonEvent) :
    eventWrites cfg (ev :: events) =
      writes (eventRecords cfg ev cfg.inst) ++ eventWrites cfg events := by
  rw [eventWrites, List.flatMap_cons, writes_append]
  rfl

theorem eventWrites_append (cfg : Config) (a b : List DaemonEvent) :
    eventWrites cfg (a ++ b) = eventWrites cfg a ++ eventWrites cfg b := by
  rw [eventWrites, List.flatMap_append, writes_append]
  rfl

section Enabled
variable (henabled : cfg.publish.enabled = true)
include henabled

theorem eventWrites_other (events : List DaemonEvent) :
    ∀ w ∈ eventWrites cfg events, w.1 ≠ Feature.topic cfg .availability := by
  induction events with
  | nil => simp [eventWrites, writes]
  | cons ev events ih =>
    intro w hw
    rw [eventWrites_cons, List.mem_append] at hw
    obtain hw | hw := hw
    · exact eventRecords_other henabled ev w hw
    · exact ih w hw

/-- The events that tell of a change, in a row. -/
theorem shownAfter_eventWrites {s : RulesEngine.StateSnapshot} (hlisted : (now s f).isSome = true)
    {events : List DaemonEvent} (halike : ∀ ev ∈ events, Alike cfg f ev) :
    shownAfter (eventWrites cfg events) (f.topic cfg) (now s f) =
      now (events.foldl RulesEngine.StateSnapshot.hear s) f := by
  induction events generalizing s with
  | nil => rfl
  | cons ev events ih =>
    rw [eventWrites_cons, Mirror.shownAfter_append,
      shownAfter_eventRecords henabled hlisted (halike ev List.mem_cons_self), List.foldl_cons]
    refine ih ?_ fun ev' hev' => halike ev' (List.mem_cons_of_mem ev hev')
    rw [now_hear_listed, hlisted]

end Enabled

theorem now_foldl_listed (s : RulesEngine.StateSnapshot) (events : List DaemonEvent) :
    (now (events.foldl RulesEngine.StateSnapshot.hear s) f).isSome = (now s f).isSome := by
  induction events generalizing s with
  | nil => rfl
  | cons ev events ih => rw [List.foldl_cons, ih, now_hear_listed]

/-- A subscriber hears nothing in the other events. -/
theorem hear_broadcasts (outputs : List Output) (s : RulesEngine.StateSnapshot) :
    (broadcasts outputs).foldl RulesEngine.StateSnapshot.hear s =
      (states outputs).foldl RulesEngine.StateSnapshot.hear s := by
  induction outputs generalizing s with
  | nil => rfl
  | cons o outputs ih =>
    cases o with
    | event ev =>
      have hall : broadcasts (.event ev :: outputs) = ev :: broadcasts outputs := rfl
      rw [hall, List.foldl_cons, ih]
      cases hstate : ev.isState with
      | true =>
        have htold : states (.event ev :: outputs) =
            ev :: states outputs := by
          simp [states, Output.state?, hstate]
        rw [htold, List.foldl_cons]
      | false =>
        have htold : states (.event ev :: outputs) = states outputs := by
          simp [states, Output.state?, hstate]
        rw [htold]
        congr 1
        cases ev <;> simp_all [DaemonEvent.isState, RulesEngine.StateSnapshot.hear]
    | _ => exact ih s

/-- The engine's next state is what a subscriber makes of what it broadcasts. -/
theorem snapshot_next {e : RulesEngine} (hknown : e.Inventoried) {i : Env × Event}
    (hrelay : i.2.relaysState = false) (hslip : ¬ e.slips i) :
    (engine.next e i).1.Inventoried ∧
      (broadcasts (engine.next e i).2).foldl RulesEngine.StateSnapshot.hear e.sendSnapshot =
        (engine.next e i).1.sendSnapshot := by
  obtain ⟨hknown', news, hnews, hheard⟩ :=
    RulesEngine.heard_handle { e with outbox := [] } hrelay hslip hknown
  refine ⟨hknown', ?_⟩
  have htold : states (engine.next e i).2 = news := hnews
  rw [hear_broadcasts, htold]
  exact hheard

/-! ## What is under way -/

/-- The records that the publisher is yet to send, as far as it holds them. -/
def Stage.inHand (cfg : Config) (snapshot : RulesEngine.StateSnapshot) : Stage → List PublishRecord
  | .answered .start reply => flushStart cfg ++ snapshotRecords cfg reply cfg.inst
  | .answered _ reply => snapshotRecords cfg reply cfg.inst
  | .first => flushStart cfg ++ snapshotRecords cfg snapshot cfg.inst
  | .flushing true rest => rest
  | .flushing false rest => rest ++ snapshotRecords cfg snapshot cfg.inst
  | .sending rest => rest
  | .asking _ | .idle | .done => []

def Transport.inFlight : Transport → List PublishRecord
  | .waiting r _ _ => [r]
  | _ => []

/-- The first connection is still awaited. -/
def Stage.starting : Stage → Bool
  | .asking .start | .answered .start _ | .first => true
  | _ => false

/-- A snapshot is going to be asked for. -/
def Stage.asksAnew : Stage → Bool
  | .asking .flush | .asking .lag | .flushing true _ => true
  | _ => false

/-- The session is lost. -/
def Transport.gone : Transport → Bool
  | .off | .connecting | .pumping true | .waiting _ _ true => true
  | _ => false

/-- No session that the publisher has been told of. -/
def Transport.down : Transport → Bool
  | .announcing => true
  | transport => transport.gone

theorem gone_waiting (r : PublishRecord) (birth unnoticed : Bool) :
    (Transport.waiting r birth unnoticed).gone = (Transport.pumping unnoticed).gone := by
  cases unnoticed <;> rfl

theorem down_of_gone {transport : Transport} (h : transport.gone = true) :
    transport.down = true := by
  cases transport with
  | announcing => cases h
  | _ => exact h

theorem down_waiting (r : PublishRecord) (birth unnoticed : Bool) :
    (Transport.waiting r birth unnoticed).down = (Transport.pumping unnoticed).down := by
  cases unnoticed <;> rfl

namespace Publishing

/-- What the publisher holds, and what it will hear. -/
def behind (cfg : Config) (x : Publishing) : List (String × Payload) :=
  writes (x.stage.inHand cfg x.snapshot) ++ eventWrites cfg x.events

/-- All the writes that are under way, the next one first. -/
def ahead (cfg : Config) (x : Publishing) : List (String × Payload) :=
  writes (x.transport.inFlight ++ x.records) ++ x.behind cfg

/-- A copy of the feature is still to come, or the publisher has ended. -/
def owed (f : Feature) (x : Publishing) : Bool :=
  x.transport.down || x.lifecycle.any (· ≠ .disconnected) || x.stage.isDone ||
    (decide (f ≠ .availability) && (x.lagged || x.stage.asksAnew))

structure Sound (cfg : Config) (f : Feature) (x : Publishing) : Prop where
  known : x.engine.Inventoried
  listed : (now x.engine.sendSnapshot f).isSome = true
  honest : Honest (eventWrites cfg x.events) (f.topic cfg) (now x.engine.sendSnapshot f)
  held : x.stage = .first ∨ (∃ reply, x.stage = .answered .start reply) →
    (f ≠ .availability → x.lagged = false) →
    Restores (x.behind cfg) (f.topic cfg) (now x.engine.sendSnapshot f)
  settles : x.stage.starting = false → x.owed f = false →
    Settles (x.ahead cfg) (f.topic cfg) (x.retained (f.topic cfg)) (now x.engine.sendSnapshot f)
  will : x.willDue = true → x.transport.gone = true

section Enabled
variable (henabled : cfg.publish.enabled = true)

include henabled in
/-- Nothing but a flush writes to the availability of the daemon. -/
theorem shownAfter_other (snapshot : RulesEngine.StateSnapshot) (events : List DaemonEvent)
    (shown : Option Payload) :
    shownAfter (writes (snapshotRecords cfg snapshot cfg.inst)) (Feature.topic cfg .availability)
      shown =
        shown ∧
      shownAfter (eventWrites cfg events) (Feature.topic cfg .availability) shown = shown :=
  ⟨Mirror.shownAfter_of_notMem (snapshotRecords_other henabled snapshot) shown,
    Mirror.shownAfter_of_notMem (eventWrites_other henabled events) shown⟩

include henabled in
theorem restores_flushStart :
    Restores (writes (flushStart cfg)) (Feature.topic cfg .availability)
      (some (.word "online")) := by
  intro shown
  rw [flushStart, writes_append, Mirror.shownAfter_append, restores_online henabled]
  exact Mirror.shownAfter_of_notMem (discovery_other henabled .availability) _

include henabled in
/-- The first flush restores every feature. -/
theorem restores_start {e : RulesEngine} {events : List DaemonEvent} (hwins : f.wins cfg = true)
    (hlisted : (now e.sendSnapshot f).isSome = true)
    (hhonest : Honest (eventWrites cfg events) (f.topic cfg) (now e.sendSnapshot f)) :
    Restores (writes (flushStart cfg ++ snapshotRecords cfg e.sendSnapshot cfg.inst) ++
      eventWrites cfg events) (f.topic cfg) (now e.sendSnapshot f) := by
  rw [writes_append, List.append_assoc]
  by_cases hf : f = .availability
  · subst hf
    intro shown
    obtain ⟨hsnapshot, hevents⟩ := shownAfter_other henabled e.sendSnapshot events
      (shownAfter (writes (flushStart cfg)) (Feature.topic cfg .availability) shown)
    rw [Mirror.shownAfter_append, Mirror.shownAfter_append, hsnapshot, hevents]
    exact restores_flushStart henabled shown
  · refine Restores.behind ?_ _
    have hcopy := restores_snapshotRecords henabled (single_sendSnapshot e) hf hwins hlisted
    exact hcopy.follow hhonest

variable {x : Publishing}

include henabled in
theorem sound_engine (h : Sound cfg f x) {env : Env} {event : Event}
    (hrelay : event.relaysState = false) (hslip : ¬ x.engine.slips (env, event))
    (halike : ∀ ev ∈ broadcasts (Dormant.engine.next x.engine (env, event)).2, Alike cfg f ev) :
    Sound cfg f (x.next cfg (.engine env event)) := by
  obtain ⟨hknown, hheard⟩ := snapshot_next h.known (i := (env, event)) hrelay hslip
  have hnews := shownAfter_eventWrites henabled h.listed halike
  rw [hheard] at hnews
  have hbehind : (x.next cfg (.engine env event)).behind cfg = x.behind cfg ++
      eventWrites cfg (broadcasts (Dormant.engine.next x.engine (env, event)).2) := by
    simp only [next, behind, eventWrites_append, List.append_assoc]
  constructor
  · exact hknown
  · have hlisted := now_foldl_listed (f := f) x.engine.sendSnapshot
      (broadcasts (Dormant.engine.next x.engine (env, event)).2)
    rw [hheard, h.listed] at hlisted
    exact hlisted
  · simp only [next, eventWrites_append]
    exact h.honest.change hnews
  · intro hstage hlag
    rw [hbehind]
    exact (h.held hstage hlag).change hnews
  · intro hstage howed
    rw [ahead, hbehind, ← List.append_assoc]
    exact (h.settles hstage howed).change hnews
  · exact h.will

include henabled in
theorem sound_lag (h : Sound cfg f x) (skipped : ℕ) :
    Sound cfg f (x.next cfg (.lag skipped)) := by
  simp only [next]
  split
  swap
  · exact h
  have hsplit : eventWrites cfg x.events =
      eventWrites cfg (x.events.take skipped) ++ eventWrites cfg (x.events.drop skipped) := by
    rw [← eventWrites_append, List.take_append_drop]
  have hother (ws : List (String × Payload)) (shown : Option Payload) :
      shownAfter (ws ++ eventWrites cfg (x.events.drop skipped)) (Feature.topic cfg .availability)
        shown =
        shownAfter (ws ++ eventWrites cfg x.events) (Feature.topic cfg .availability) shown := by
    rw [Mirror.shownAfter_append, Mirror.shownAfter_append,
      (shownAfter_other henabled x.snapshot _ _).2,
      (shownAfter_other henabled x.snapshot _ _).2]
  constructor
  · exact h.known
  · exact h.listed
  · have hhonest := h.honest
    rw [hsplit] at hhonest
    exact hhonest.drop
  · intro hstage hlag
    by_cases hf : f = .availability
    · subst hf
      intro shown
      rw [behind]
      dsimp only
      rw [hother]
      exact h.held hstage (fun hne => absurd rfl hne) shown
    · cases hlag hf
  · intro hstage howed
    by_cases hf : f = .availability
    · subst hf
      have hsettles := h.settles hstage (by simpa [owed] using howed)
      rw [Settles, ahead, behind, ← List.append_assoc] at hsettles ⊢
      rw [← hsettles]
      exact hother _ _
    · simp [owed, hf] at howed
  · exact h.will

include henabled in
theorem sound_answer (hwins : f.wins cfg = true) (h : Sound cfg f x) :
    Sound cfg f (x.next cfg .answer) := by
  simp only [next, answer]
  split
  swap
  · exact h
  rename_i why hstage
  refine ⟨h.known, h.listed, h.honest, ?_, ?_, h.will⟩
  · intro hfirst _
    obtain hfirst | ⟨reply, hreply⟩ := hfirst
    · cases hfirst
    · obtain ⟨rfl, rfl⟩ := Stage.answered.inj hreply
      exact restores_start henabled hwins h.listed h.honest
  · intro hstarting howed
    have hcopied : (Stage.answered why x.engine.sendSnapshot).inHand cfg x.snapshot =
        snapshotRecords cfg x.engine.sendSnapshot cfg.inst := by
      cases why with
      | start => cases hstarting
      | flush | lag => rfl
    rw [ahead, behind, hcopied]
    by_cases hf : f = .availability
    · subst hf
      have hsettles := h.settles (by cases why <;> simp_all [Stage.starting])
        (by simpa [owed, hstage, Stage.isDone] using howed)
      rw [ahead, behind, hstage, Stage.inHand] at hsettles
      rw [Settles, Mirror.shownAfter_append, Mirror.shownAfter_append,
        (shownAfter_other henabled _ [] _).1]
      rw [Settles, Mirror.shownAfter_append, Mirror.shownAfter_append] at hsettles
      exact hsettles
    · refine Restores.behind ?_ _ _
      exact (restores_snapshotRecords henabled (single_sendSnapshot _) hf hwins h.listed).follow
        h.honest

/-- The move leaves the engine alone and what was under way as it was. -/
theorem Sound.shift (h : Sound cfg f x) {x' : Publishing} (hengine : x'.engine = x.engine)
    (hevents : ∃ as, x.events = as ++ x'.events) (hstarted : x.stage.starting = false)
    (hstarted' : x'.stage.starting = false)
    (howed : x'.owed f = false → x.owed f = false ∧ x'.ahead cfg = x.ahead cfg)
    (hretained : x'.retained = x.retained)
    (hwill : x'.willDue = true → x'.transport.gone = true) : Sound cfg f x' := by
  refine ⟨hengine ▸ h.known, hengine ▸ h.listed, ?_, ?_, ?_, hwill⟩
  · obtain ⟨as, has⟩ := hevents
    have hhonest := h.honest
    rw [has, eventWrites_append] at hhonest
    rw [hengine]
    exact hhonest.drop
  · rintro (hfirst | ⟨reply, hreply⟩) _
    · rw [hfirst] at hstarted'
      cases hstarted'
    · rw [hreply] at hstarted'
      cases hstarted'
  · intro _ hfalse
    obtain ⟨hold, hahead⟩ := howed hfalse
    rw [hahead, hretained, hengine]
    exact h.settles hstarted hold

theorem sound_publisher (h : Sound cfg f x) : Sound cfg f (x.next cfg .publisher) := by
  have moved {old stage : Stage} {records : List PublishRecord}
      {snapshot : RulesEngine.StateSnapshot}
      (hs : x.stage = old) (hstarted : old.starting = false) (hstarted' : stage.starting = false)
      (hdone : stage.isDone = old.isDone) (hasks : stage.asksAnew = old.asksAnew)
      (hsame : writes records ++ writes (stage.inHand cfg snapshot) =
        writes x.records ++ writes (old.inHand cfg x.snapshot)) :
      Sound cfg f { x with stage := stage, records := records, snapshot := snapshot } := by
    subst hs
    refine h.shift rfl ⟨[], rfl⟩ hstarted hstarted' (fun howed => ⟨?_, ?_⟩) rfl h.will
    · rw [owed] at howed ⊢
      dsimp only at howed
      rw [hdone, hasks] at howed
      exact howed
    · rw [ahead, ahead, behind, behind, writes_append, writes_append, List.append_assoc,
        ← List.append_assoc (writes records), hsame, List.append_assoc, List.append_assoc]
  simp only [next, publisher]
  cases hs : x.stage with
  | asking | first | idle | done => exact h
  | answered why reply =>
    cases why with
    | start =>
      refine ⟨h.known, h.listed, h.honest, fun _ hlag => ?_, fun hstart => ?_, fun _ => rfl⟩
      · have hheld := h.held (.inr ⟨reply, hs⟩) hlag
        rw [behind, hs] at hheld
        exact hheld
      · cases hstart
    | flush | lag => exact moved hs rfl rfl rfl rfl rfl
  | flushing fresh rest =>
    cases rest with
    | nil => cases fresh <;> exact moved hs rfl rfl rfl rfl rfl
    | cons r rest =>
      cases fresh <;> dsimp only <;> refine moved hs rfl rfl rfl rfl ?_ <;>
        simp only [Stage.inHand, ← writes_append, List.append_assoc, List.cons_append,
          List.nil_append]
  | sending rest =>
    cases rest with
    | nil => exact moved hs rfl rfl rfl rfl rfl
    | cons r rest =>
      dsimp only
      refine moved hs rfl rfl rfl rfl ?_
      simp only [Stage.inHand, ← writes_append, List.append_assoc, List.cons_append,
        List.nil_append]

theorem sound_event (h : Sound cfg f x) : Sound cfg f (x.next cfg .event) := by
  simp only [next, onEvent]
  cases hs : x.stage with
  | idle =>
    have hstarted : x.stage.starting = false := by rw [hs]; rfl
    dsimp only
    cases hlag : x.lagged with
    | true =>
      rw [if_pos rfl]
      refine h.shift rfl ⟨[], rfl⟩ hstarted rfl (fun howed => ⟨?_, ?_⟩) rfl h.will
      · by_cases hf : f = .availability
        · simpa [owed, hf, hs, Stage.isDone] using howed
        · simp [owed, hf, Stage.asksAnew] at howed
      · rw [ahead, ahead, behind, behind, hs]
        rfl
    | false =>
      rw [if_neg Bool.false_ne_true]
      cases hevents : x.events with
      | nil => exact h
      | cons ev rest =>
        refine h.shift rfl ⟨[ev], hevents⟩ hstarted rfl (fun howed => ⟨?_, ?_⟩) rfl h.will
        · simpa [owed, hs, hlag, Stage.isDone, Stage.asksAnew] using howed
        · rw [ahead, ahead, behind, behind, hs, hevents, eventWrites_cons]
          rfl
  | _ => exact h

include henabled in
theorem sound_lifecycle (h : Sound cfg f x) : Sound cfg f (x.next cfg .lifecycle) := by
  have told {rest : List TransportLifecycle} (hl : x.lifecycle = .disconnected :: rest) :
      Sound cfg f { x with lifecycle := rest } := by
    refine ⟨h.known, h.listed, h.honest, h.held, fun hstage howed => h.settles hstage ?_, h.will⟩
    simpa [owed, hl] using howed
  -- the first connection takes the snapshot that was asked for at the start
  have joined (hs : x.stage = .first) (rest : List TransportLifecycle) : Sound cfg f
      { x with lifecycle := rest, stage := .flushing false (flushStart cfg) } := by
    refine ⟨h.known, h.listed, h.honest, ?_, fun _ howed => ?_, h.will⟩
    · rintro (hfirst | ⟨reply, hreply⟩)
      · cases hfirst
      · cases hreply
    · have hheld := h.held (.inl hs) fun hf => by
        by_contra hlag
        rw [Bool.not_eq_false] at hlag
        simp [owed, hf, hlag] at howed
      rw [behind, hs] at hheld
      exact hheld.behind _ _
  have reflushed (hs : x.stage = .idle) (rest : List TransportLifecycle) : Sound cfg f
      { x with lifecycle := rest, stage := .flushing true (flushStart cfg) } := by
    refine ⟨h.known, h.listed, h.honest, ?_, fun _ howed => ?_, h.will⟩
    · rintro (hfirst | ⟨reply, hreply⟩)
      · cases hfirst
      · cases hreply
    · by_cases hf : f = .availability
      · subst hf
        refine Restores.behind ?_ _ _
        intro shown
        rw [behind]
        dsimp only [Stage.inHand]
        rw [Mirror.shownAfter_append, (shownAfter_other henabled x.snapshot _ _).2]
        exact restores_flushStart henabled shown
      · simp [owed, hf, Stage.asksAnew] at howed
  simp only [next, onLifecycle]
  cases hs : x.stage with
  | first =>
    cases hl : x.lifecycle with
    | nil => exact h
    | cons signal rest =>
      cases signal with
      | disconnected =>
        have htold := told hl
        rw [hs] at htold
        exact htold
      | connected | birthOnline => exact joined hs rest
  | idle =>
    cases hl : x.lifecycle with
    | nil => exact h
    | cons signal rest =>
      cases signal with
      | disconnected =>
        have htold := told hl
        rw [hs] at htold
        exact htold
      | connected | birthOnline => exact reflushed hs rest
  | _ => exact h

theorem sound_stop (h : Sound cfg f x) : Sound cfg f (x.next cfg .stop) := by
  refine ⟨h.known, h.listed, h.honest, ?_, fun _ howed => ?_, h.will⟩
  · rintro (hfirst | ⟨reply, hreply⟩)
    · cases hfirst
    · cases hreply
  · simp [next, owed, Stage.isDone] at howed

/-! ## The transport -/

/-- A move of the transport or the broker leaves the publisher as it was. -/
theorem Sound.beside (h : Sound cfg f x) {x' : Publishing} (hengine : x'.engine = x.engine)
    (hevents : x'.events = x.events) (hlagged : x'.lagged = x.lagged)
    (hsnapshot : x'.snapshot = x.snapshot) (hstage : x'.stage = x.stage)
    (hsettles : x.stage.starting = false → x'.owed f = false → x.owed f = false ∧
      (Settles (x.ahead cfg) (f.topic cfg) (x.retained (f.topic cfg))
          (now x.engine.sendSnapshot f) →
        Settles (x'.ahead cfg) (f.topic cfg) (x'.retained (f.topic cfg))
          (now x.engine.sendSnapshot f)))
    (hwill : x'.willDue = true → x'.transport.gone = true) : Sound cfg f x' := by
  refine ⟨hengine ▸ h.known, hengine ▸ h.listed, ?_, ?_, ?_, hwill⟩
  · rw [hengine, hevents]
    exact h.honest
  · intro hfirst hlag
    rw [hstage] at hfirst
    rw [hlagged] at hlag
    have hbehind : x'.behind cfg = x.behind cfg := by
      rw [behind, behind, hstage, hsnapshot, hevents]
    rw [hbehind, hengine]
    exact h.held hfirst hlag
  · intro hstarting howed
    rw [hstage] at hstarting
    obtain ⟨hold, hmove⟩ := hsettles hstarting howed
    rw [hengine]
    exact hmove (h.settles hstarting hold)

/-- Without a session a copy is owed. -/
theorem Sound.downed (h : Sound cfg f x) {x' : Publishing} (hengine : x'.engine = x.engine)
    (hevents : x'.events = x.events) (hlagged : x'.lagged = x.lagged)
    (hsnapshot : x'.snapshot = x.snapshot) (hstage : x'.stage = x.stage)
    (hdown : x'.transport.down = true) (hwill : x'.willDue = true → x'.transport.gone = true) :
    Sound cfg f x' := by
  refine h.beside hengine hevents hlagged hsnapshot hstage (fun _ howed => ?_) hwill
  simp [owed, hdown] at howed

theorem sound_connAck (h : Sound cfg f x) : Sound cfg f (x.next cfg .connAck) := by
  simp only [next, connAck]
  split
  · split
    · exact h.downed rfl rfl rfl rfl rfl rfl fun hdue => by cases hdue
    · exact h.downed rfl rfl rfl rfl rfl rfl fun hdue => by cases hdue
  · exact h

theorem sound_announce (h : Sound cfg f x) : Sound cfg f (x.next cfg .announce) := by
  simp only [next, announce]
  split
  · rename_i ht
    have hnone : x.willDue = true → False := by
      intro hdue
      have hgone := h.will hdue
      rw [ht] at hgone
      cases hgone
    split
    · exact h.downed rfl rfl rfl rfl rfl rfl fun hdue => (hnone hdue).elim
    · refine h.beside rfl rfl rfl rfl rfl (fun _ howed => ?_) fun hdue => (hnone hdue).elim
      simp [owed, announced] at howed
  · exact h

theorem sound_take (h : Sound cfg f x) : Sound cfg f (x.next cfg .take) := by
  simp only [next, take]
  split
  · rename_i unnoticed r rest ht hr
    split
    · exact h.downed rfl rfl rfl rfl rfl rfl fun _ => rfl
    · refine h.beside rfl rfl rfl rfl rfl (fun _ howed => ⟨?_, ?_⟩) fun hdue => ?_
      · rw [owed] at howed ⊢
        rw [ht, ← down_waiting r false]
        exact howed
      · rw [ahead, ahead, ht, hr]
        exact id
      · have hgone := h.will hdue
        rw [ht] at hgone
        rw [gone_waiting]
        exact hgone
  · split
    · exact h.downed rfl rfl rfl rfl rfl rfl fun _ => rfl
    · exact h
  · exact h

theorem sound_acked (h : Sound cfg f x) : Sound cfg f (x.next cfg .acked) := by
  simp only [next, acked]
  split
  · rename_i r pendingBirth unnoticed ht
    refine h.beside rfl rfl rfl rfl rfl (fun _ howed => ⟨?_, ?_⟩) fun hdue => ?_
    · simp only [owed, waited, announced, retain, List.any_append, ← down_waiting r pendingBirth,
        Bool.or_eq_false_iff] at howed
      simp only [owed, ht, Bool.or_eq_false_iff]
      exact ⟨⟨⟨howed.1.1.1, howed.1.1.2.1⟩, howed.1.2⟩, howed.2⟩
    · intro hsettles
      rw [ahead, ht] at hsettles
      dsimp only [Transport.inFlight] at hsettles
      rw [writes_append, List.append_assoc, Settles, Mirror.shownAfter_append] at hsettles
      exact hsettles
    · have hgone := h.will hdue
      rw [ht, gone_waiting] at hgone
      exact hgone
  · exact h

theorem sound_ackError (h : Sound cfg f x) (delivered : Bool) :
    Sound cfg f (x.next cfg (.ackError delivered)) := by
  simp only [next, ackError]
  split
  · exact h.downed rfl rfl rfl rfl rfl rfl fun _ => rfl
  · exact h

theorem sound_birth (h : Sound cfg f x) : Sound cfg f (x.next cfg .birth) := by
  simp only [next, birth]
  split
  · refine h.beside rfl rfl rfl rfl rfl (fun _ howed => ?_) h.will
    simp [owed, announced] at howed
  · rename_i r pendingBirth unnoticed ht
    refine h.beside rfl rfl rfl rfl rfl (fun _ howed => ⟨?_, ?_⟩) fun hdue => ?_
    · rw [owed] at howed ⊢
      rw [ht, down_waiting, ← down_waiting r true]
      exact howed
    · rw [ahead, ahead, ht]
      exact id
    · have hgone := h.will hdue
      rw [ht, gone_waiting] at hgone
      rw [gone_waiting]
      exact hgone
  · exact h

theorem sound_lost (h : Sound cfg f x) (delivered : Bool) :
    Sound cfg f (x.next cfg (.lost delivered)) := by
  simp only [next, lose]
  split
  · exact h.downed rfl rfl rfl rfl rfl rfl fun _ => rfl
  · exact h.downed rfl rfl rfl rfl rfl rfl fun _ => rfl
  · exact h

theorem sound_goodbye (h : Sound cfg f x) (delivered : Bool) :
    Sound cfg f (x.next cfg (.goodbye delivered)) := by
  simp only [next, goodbye]
  split
  · exact h.downed rfl rfl rfl rfl rfl rfl fun _ => rfl
  · exact h

theorem sound_will (h : Sound cfg f x) : Sound cfg f (x.next cfg .will) := by
  simp only [next, will, retain]
  split
  · rename_i hdue
    refine h.downed rfl rfl rfl rfl rfl ?_ ?_
    · exact down_of_gone (h.will hdue)
    · intro hfalse
      cases hfalse
  · exact h

end Enabled

/-! ## Runs -/

/-- The broker's side is quiet, and nothing is under way. -/
structure Settled (x : Publishing) : Prop where
  stage : x.stage = .idle
  events : x.events = []
  lagged : x.lagged = false
  records : x.records = []
  lifecycle : x.lifecycle = []
  transport : x.transport = .pumping false

end Publishing

/-- The engine answers, tells of all that it does, and no other key shares the feature's topic. -/
def Move.fair (cfg : Config) (f : Feature) (x : Publishing) : Move → Prop
  | .engine env input => input.relaysState = false ∧ ¬ x.engine.slips (env, input) ∧
      ∀ ev ∈ broadcasts (Dormant.engine.next x.engine (env, input)).2, Alike cfg f ev
  | .unavailable => False
  | _ => True

instance decidableFair (cfg : Config) (f : Feature) (x : Publishing) :
    (move : Move) → Decidable (move.fair cfg f x)
  | .engine env input => inferInstanceAs (Decidable (input.relaysState = false ∧
      ¬ x.engine.slips (env, input) ∧
        ∀ ev ∈ broadcasts (Dormant.engine.next x.engine (env, input)).2, Alike cfg f ev))
  | .unavailable => isFalse id
  | .lag _ | .answer | .publisher | .lifecycle | .event | .stop | .connAck | .announce | .take
  | .acked | .ackError _ | .birth | .lost _ | .goodbye _ | .will => isTrue trivial

theorem sound_next (henabled : cfg.publish.enabled = true) (hwins : f.wins cfg = true)
    {x : Publishing} {move : Move} (hfair : move.fair cfg f x) (h : x.Sound cfg f) :
    (x.next cfg move).Sound cfg f := by
  cases move with
  | engine env event => exact Publishing.sound_engine henabled h hfair.1 hfair.2.1 hfair.2.2
  | lag skipped => exact Publishing.sound_lag henabled h skipped
  | answer => exact Publishing.sound_answer henabled hwins h
  | unavailable => exact hfair.elim
  | publisher => exact Publishing.sound_publisher h
  | lifecycle => exact Publishing.sound_lifecycle henabled h
  | event => exact Publishing.sound_event h
  | stop => exact Publishing.sound_stop h
  | connAck => exact Publishing.sound_connAck h
  | announce => exact Publishing.sound_announce h
  | take => exact Publishing.sound_take h
  | acked => exact Publishing.sound_acked h
  | ackError delivered => exact Publishing.sound_ackError h delivered
  | birth => exact Publishing.sound_birth h
  | lost delivered => exact Publishing.sound_lost h delivered
  | goodbye delivered => exact Publishing.sound_goodbye h delivered
  | will => exact Publishing.sound_will h

theorem sound_start {e : RulesEngine} (hknown : e.Inventoried)
    (hlisted : (now e.sendSnapshot f).isSome = true) (retained : String → Option Payload) :
    (Publishing.start e retained).Sound cfg f := by
  refine ⟨hknown, hlisted, rfl, ?_, fun hstart => ?_, fun hdue => ?_⟩
  · rintro (hfirst | ⟨reply, hreply⟩)
    · cases hfirst
    · cases hreply
  · cases hstart
  · cases hdue

def homeConfig : Config where
  publish := ⟨true, "dormant", "homeassistant", "office"⟩
  sensors := [⟨"mmwave"⟩]
  zones := [⟨"desk"⟩]
  displays := [⟨"monitor"⟩]

def sends (n : ℕ) : List Move := List.replicate (n + 1) .publisher

def delivers (n : ℕ) : List Move := (List.replicate n [Move.take, Move.acked]).flatten

/-- The first flush goes out. Then the display is forced dark and somebody comes in. The first four
events are lost, and so is the session while the records of the new snapshot are under way. -/
def badDay : List Move :=
  [.answer, .publisher, .connAck, .announce, .lifecycle] ++ sends 4 ++ sends 4 ++ delivers 8 ++
    [.engine (Env.plain 1) (.control (.forceBlank ⟨"monitor"⟩)),
      .engine (Env.plain 2) (.result (.blank ⟨"monitor"⟩ 1 (.ok ()))),
      .engine (Env.plain 3) (.presence ⟨⟨"mmwave"⟩, .present, 3⟩), .lag 4, .event, .answer,
      .publisher] ++ sends 4 ++
    [.take, .lost false, .will, .connAck, .announce, .lifecycle, .lifecycle] ++ sends 4 ++
    [.answer, .publisher] ++ sends 4 ++ delivers 8 ++ [.event] ++ sends 1 ++ delivers 1

end Publisher
end Dormant
