import Dormant.Rules.Links
import Dormant.StateMachine.FrozenGrace
import Dormant.StateMachine.Remarks

/-!
# The broadcast keeps a snapshot current

`send_snapshot` of `rules.rs`, as far as the broadcast speaks of what it shows: the sensors, the
zones and the phases of the displays. A subscriber that starts from a snapshot and rewrites its
rows as the events come has the snapshot that the engine would send, after every event. A tick at
a mute machine is the one thing it is not told of.
-/

namespace Dormant
set_option autoImplicit false

/-! ## Tables -/

section Rows
variable {κ α β : Type} [DecidableEq α]

/-- Replace what a table says of a key that it lists. -/
def setRow (rows : List (α × β)) (a : α) (b : β) : List (α × β) :=
  rows.map fun row => if row.1 = a then (a, b) else row

theorem setRow_setRow (rows : List (α × β)) (a : α) (b b' : β) :
    setRow (setRow rows a b) a b' = setRow rows a b' := by
  rw [setRow, setRow, setRow, List.map_map]
  congr 1
  funext row
  by_cases h : row.1 = a <;> simp [h]

theorem setRow_of_notMem {rows : List (α × β)} {a : α} (h : ∀ row ∈ rows, row.1 ≠ a) (b : β) :
    setRow rows a b = rows := by
  rw [setRow]
  conv_rhs => rw [← List.map_id rows]
  apply List.map_congr_left
  intro row hrow
  exact if_neg (h row hrow)

theorem setRow_map (keys : List κ) (key : κ → α) (f : α → β) (a : α) (b : β) :
    setRow (keys.map fun k => (key k, f (key k))) a b =
      keys.map fun k => (key k, Function.update f a b (key k)) := by
  rw [setRow, List.map_map]
  congr 1
  funext k
  by_cases h : key k = a
  · simp [h]
  · simp [h]

theorem setRow_filterMap (keys : List κ) (key : κ → α) {f : α → Option β} {a : α} {b : β}
    (hf : (f a).isSome = true) :
    setRow (keys.filterMap fun k => (f (key k)).map (key k, ·)) a b =
      keys.filterMap fun k => (Function.update f a (some b) (key k)).map (key k, ·) := by
  rw [setRow, List.map_filterMap]
  congr 1
  funext k
  obtain ⟨v, hv⟩ := Option.isSome_iff_exists.mp hf
  by_cases h : key k = a
  · simp [h, hv]
  · rw [Function.update_of_ne h, Option.map_map]
    cases f (key k) <;> simp [h]

end Rows

/-! ## Snapshots -/

structure RulesEngine.StateSnapshot where
  sensors : List (SensorId × SensorState)
  zones : List (ZoneId × Option Bool)
  displays : List (DisplayId × String)
  deriving DecidableEq

/-- What a subscriber makes of an event: it rewrites the row that the event is about. -/
def RulesEngine.StateSnapshot.hear (s : StateSnapshot) : DaemonEvent → StateSnapshot
  | .sensorChanged sensor state => { s with sensors := setRow s.sensors sensor state }
  | .zoneChanged zone present _ => { s with zones := setRow s.zones zone (some present) }
  | .displayPhase display phase _ _ => { s with displays := setRow s.displays display phase }
  | _ => s

def Output.state? : Output → Option DaemonEvent
  | .event ev => if ev.isState then some ev else none
  | _ => none

/-- The events that tell of a state, as they are broadcast. -/
def states (outputs : List Output) : List DaemonEvent := outputs.filterMap Output.state?

namespace RulesEngine

def snapshotState (e : RulesEngine) (sensor : SensorId) : SensorState :=
  ((e.zoneEngine.sensorStates sensor).map Prod.fst).getD .unavailable

def phaseOf (e : RulesEngine) (display : DisplayId) : Option String :=
  (e.machines display).map (·.phaseName)

def sendSnapshot (e : RulesEngine) : StateSnapshot where
  sensors := e.cfg.sensors.map fun scfg => (scfg.sensor, e.snapshotState scfg.sensor)
  zones := e.zoneEngine.evalOrder.map fun spec => (spec.id, e.zoneEngine.isPresent spec.id)
  displays := e.cfg.displays.filterMap fun dcfg =>
    (e.phaseOf dcfg.display).map (dcfg.display, ·)

/-- A tick comes due at a display whose machine says nothing of it. -/
def slips (e : RulesEngine) (i : Env × Event) : Prop :=
  ∃ t d m, e.dueTimer i = some (t, .displayTick d) ∧ e.machines d = some m ∧ m.mute = true

instance decidableSlips (e : RulesEngine) (i : Env × Event) : Decidable (e.slips i) :=
  decidable_of_iff
    ((match e.dueTimer i with
      | some (_, .displayTick d) => (e.machines d).any DisplayStateMachine.mute
      | _ => false) = true) (by
    rw [slips]
    cases hdue : e.dueTimer i with
    | none => simp
    | some t =>
      obtain ⟨deadline, entry⟩ := t
      cases entry <;> simp [Option.any_eq_true])

/-- Every sensor of the configuration is one that the zones know. -/
def Inventoried (e : RulesEngine) : Prop :=
  ∀ scfg ∈ e.cfg.sensors, (e.zoneEngine.sensorStates scfg.sensor).isSome = true

instance decidableInventoried (e : RulesEngine) : Decidable e.Inventoried :=
  inferInstanceAs (Decidable (∀ scfg ∈ e.cfg.sensors,
    (e.zoneEngine.sensorStates scfg.sensor).isSome = true))

/-- The snapshot, with the zones as they are said to be. -/
def snapshotWith (e : RulesEngine) (zones : ZoneId → Option Bool) : StateSnapshot :=
  { e.sendSnapshot with zones := e.zoneEngine.evalOrder.map fun spec => (spec.id, zones spec.id) }

/-! ## What the links tell -/

variable {e e' e'' : RulesEngine}

/-- Whatever the zones are said to be, the broadcast tells of all else that changes. -/
structure Remarked (e e' : RulesEngine) : Prop where
  cfg : e'.cfg = e.cfg
  zoneEngine : e'.zoneEngine = e.zoneEngine
  told : ∃ news, states e'.outbox = states e.outbox ++ news ∧
    ∀ zones, news.foldl StateSnapshot.hear (e.snapshotWith zones) = e'.snapshotWith zones

theorem Remarked.of_frame (hcfg : e'.cfg = e.cfg) (hz : e'.zoneEngine = e.zoneEngine)
    (hp : e'.phaseOf = e.phaseOf) (ho : states e'.outbox = states e.outbox) : Remarked e e' := by
  refine ⟨hcfg, hz, [], by rw [ho, List.append_nil], fun zones => ?_⟩
  simp only [List.foldl_nil, snapshotWith, sendSnapshot, snapshotState, hcfg, hz, hp]

theorem Remarked.refl (e : RulesEngine) : Remarked e e := .of_frame rfl rfl rfl rfl

theorem Remarked.trans (h : Remarked e e') (h' : Remarked e' e'') : Remarked e e'' := by
  obtain ⟨news, hnews, hheard⟩ := h.told
  obtain ⟨more, hmore, hheard'⟩ := h'.told
  refine ⟨h'.cfg.trans h.cfg, h'.zoneEngine.trans h.zoneEngine, news ++ more, ?_, fun zones => ?_⟩
  · rw [hmore, hnews, List.append_assoc]
  · rw [List.foldl_append, hheard, hheard']

theorem state_plain {o : Output} (h : o.plain = true) : o.state? = none := by
  cases o with
  | event ev =>
    have hstate : ev.isState = false := by simpa [Output.plain] using h
    simp [Output.state?, hstate]
  | _ => rfl

/-- The remarks of a machine rewrite its display's row, and the last one stands. -/
theorem hear_remarks (e : RulesEngine) (display : DisplayId) (effects : List Effect)
    (s : StateSnapshot) :
    (states (effects.filterMap (e.outputOf display))).foldl StateSnapshot.hear s =
      match (dests effects).getLast? with
      | some dest => { s with displays := setRow s.displays display dest }
      | none => s := by
  induction effects generalizing s with
  | nil => rfl
  | cons effect effects ih =>
    have other (hdest : effect.dest? = none)
        (hsilent : ((e.outputOf display effect).bind Output.state?) = none) :
        (states ((effect :: effects).filterMap (e.outputOf display))).foldl StateSnapshot.hear s =
          match (dests (effect :: effects)).getLast? with
          | some dest => { s with displays := setRow s.displays display dest }
          | none => s := by
      rw [dests, List.filterMap_cons_none hdest, ← dests, ← ih s]
      congr 1
      rw [List.filterMap_cons]
      cases ho : e.outputOf display effect with
      | none => rfl
      | some o =>
        rw [ho] at hsilent
        exact List.filterMap_cons_none hsilent
    cases effect with
    | logTransition source dest cause =>
      have hsent : states ((Effect.logTransition source dest cause :: effects).filterMap
          (e.outputOf display)) = .displayPhase display dest cause
            (if cause = "presence_detected" then
              some ((e.displayConfirmedPresence display).getD false) else none) ::
                states (effects.filterMap (e.outputOf display)) := rfl
      rw [hsent, List.foldl_cons, ih]
      have hdests : dests (Effect.logTransition source dest cause :: effects) =
        dest :: dests effects := rfl
      rw [hdests, List.getLast?_cons]
      cases (dests effects).getLast? with
      | none => rfl
      | some last => simp only [StateSnapshot.hear, setRow_setRow, Option.getD_some]
    | issueBlank | issueWake | showRender | teardownRender =>
      refine other rfl ?_
      simp only [outputOf]
      split <;> rfl
    | scheduleTickAt | scheduleStageTickAt => exact other rfl rfl

theorem told_stepMachine (e : RulesEngine) (display : DisplayId) (input : Input) (now : ℕ)
    (hmute : ∀ m, e.machines display = some m → input = .tick → m.mute = false) :
    Remarked e (e.stepMachine display input now) := by
  cases hm : e.machines display with
  | none =>
    rw [stepMachine_none e display now hm]
    exact .refl e
  | some m =>
    have hstates := read_stepMachine (fun o => state_plain) hm input now
    have htells := DisplayStateMachine.step_tells m now (hmute m hm)
    obtain ⟨notes, scopes, -, hstep⟩ := stepMachine_plain hm input now
    have hphase : e.phaseOf display = some m.phaseName := by rw [phaseOf, hm]; rfl
    have hphases : (e.stepMachine display input now).phaseOf =
        Function.update e.phaseOf display (some (m.step input now).1.phaseName) := by
      rw [hstep]
      funext d
      by_cases hd : d = display
      · subst hd
        simp [phaseOf]
      · simp [phaseOf, Function.update_of_ne hd]
    refine ⟨by rw [hstep], by rw [hstep], _, hstates, fun zones => ?_⟩
    have hheard := hear_remarks e display (m.step input now).2 (e.snapshotWith zones)
    rw [states] at hheard
    rw [hheard]
    have hsnap : (e.stepMachine display input now).snapshotWith zones =
        { e.snapshotWith zones with displays := e.cfg.displays.filterMap fun dcfg =>
            ((e.stepMachine display input now).phaseOf dcfg.display).map (dcfg.display, ·) } := by
      simp only [snapshotWith, sendSnapshot, snapshotState, hstep]
    rw [hsnap, hphases]
    rw [DisplayStateMachine.Tells] at htells
    cases hlast : (dests (m.step input now).2).getLast? with
    | none =>
      rw [hlast, Option.getD_none] at htells
      rw [← htells, ← hphase, Function.update_eq_self]
      rfl
    | some dest =>
      rw [hlast, Option.getD_some] at htells
      dsimp only
      rw [← htells, ← setRow_filterMap e.cfg.displays (·.display) (by rw [hphase]; rfl)]
      rfl

theorem told_link (h : Link e e') : Remarked e e' := by
  cases h with
  | book => exact .of_frame rfl rfl rfl rfl
  | send h =>
    refine .of_frame rfl rfl rfl ?_
    simp [send, states, state_plain h]
  | arm => exact .of_frame rfl rfl rfl rfl
  | step display now h =>
    refine told_stepMachine e display _ now fun m _ htick => ?_
    rw [htick] at h
    cases h
  | flag display active =>
    unfold setHoldFlag
    split
    · exact .refl e
    · rename_i m hm
      refine .of_frame rfl rfl ?_ rfl
      funext d
      by_cases hd : d = display
      · subst hd
        simp [phaseOf, setMachine, hm]
        rfl
      · simp [phaseOf, setMachine, Function.update_of_ne hd]

theorem told_links (h : Links e e') : Remarked e e' :=
  h.lift .refl (fun _ _ _ => .trans) fun _ _ => told_link

/-! ## A presence event -/

/-- The broadcast tells of all that changes in a snapshot. -/
def Heard (e e' : RulesEngine) : Prop :=
  e.Inventoried → e'.Inventoried ∧ ∃ news, states e'.outbox = states e.outbox ++ news ∧
    news.foldl StateSnapshot.hear e.sendSnapshot = e'.sendSnapshot

theorem Heard.refl (e : RulesEngine) : Heard e e :=
  fun h => ⟨h, [], by rw [List.append_nil], rfl⟩

theorem Heard.trans (h : Heard e e') (h' : Heard e' e'') : Heard e e'' := by
  intro hknown
  obtain ⟨hknown', news, hnews, hheard⟩ := h hknown
  obtain ⟨hknown'', more, hmore, hheard'⟩ := h' hknown'
  refine ⟨hknown'', news ++ more, ?_, ?_⟩
  · rw [hmore, hnews, List.append_assoc]
  · rw [List.foldl_append, hheard, hheard']

theorem Remarked.heard (h : Remarked e e') : Heard e e' := by
  intro hknown
  obtain ⟨news, hnews, hheard⟩ := h.told
  refine ⟨?_, news, hnews, ?_⟩
  · intro scfg hscfg
    rw [h.cfg] at hscfg
    rw [h.zoneEngine]
    exact hknown scfg hscfg
  · have hsnap := hheard e.zoneEngine.isPresent
    rw [snapshotWith, snapshotWith, ← h.zoneEngine] at hsnap
    rw [h.zoneEngine] at hsnap
    rw [show e.sendSnapshot = e.snapshotWith e.zoneEngine.isPresent from rfl]
    refine hsnap.trans ?_
    rw [← h.zoneEngine]
    rfl

/-- The zones as a list of changes leaves them. -/
def noteChanges (zones : ZoneId → Option Bool) (changes : List ZoneChange) : ZoneId → Option Bool :=
  changes.foldl (fun zones change => Function.update zones change.zone (some change.present)) zones

theorem noteChanges_append (zones : ZoneId → Option Bool) (a b : List ZoneChange) :
    noteChanges zones (a ++ b) = noteChanges (noteChanges zones a) b :=
  List.foldl_append

theorem apply_changes (z : ZoneEngine) (ev : PresenceEvent) :
    noteChanges z.zonePresence (z.apply ev).2 = (z.apply ev).1.zonePresence := by
  unfold ZoneEngine.apply
  split
  · rfl
  · have hfold (specs : List ZoneSpec) (sensorStates : SensorId → Option (SensorState × ℕ))
        (acc : (ZoneId → Option Bool) × List ZoneChange)
        (hacc : noteChanges z.zonePresence acc.2 = acc.1) :
        noteChanges z.zonePresence
            (specs.foldl (ZoneEngine.reresolve ev.sensorId sensorStates) acc).2 =
          (specs.foldl (ZoneEngine.reresolve ev.sensorId sensorStates) acc).1 := by
      induction specs generalizing acc with
      | nil => exact hacc
      | cons spec specs ih =>
        refine ih _ ?_
        unfold ZoneEngine.reresolve
        dsimp only
        split
        · exact hacc
        · rw [noteChanges_append, hacc]
          rfl
    exact hfold z.evalOrder _ (z.zonePresence, []) rfl

/-- The changes of a presence event are told one by one, each before the displays hear of it. -/
theorem told_changes (env : Env) (changes : List ZoneChange) (e : RulesEngine) :
    let e' := changes.foldl
      (fun e change => (e.send (.event (.zoneChanged change.zone change.present change.cause)))
        |>.fanZoneChangeToDisplays env change.zone) e
    e'.cfg = e.cfg ∧ e'.zoneEngine = e.zoneEngine ∧
      ∃ news, states e'.outbox = states e.outbox ++ news ∧ ∀ zones,
        news.foldl StateSnapshot.hear (e.snapshotWith zones) =
          e'.snapshotWith (noteChanges zones changes) := by
  induction changes generalizing e with
  | nil => exact ⟨rfl, rfl, [], by simp, fun zones => rfl⟩
  | cons change changes ih =>
    obtain ⟨hcfg, hz, more, hmore, hheard'⟩ := ih
      ((e.send (.event (.zoneChanged change.zone change.present change.cause)))
        |>.fanZoneChangeToDisplays env change.zone)
    have hfan := told_links (links_fanZoneChangeToDisplays
      (e.send (.event (.zoneChanged change.zone change.present change.cause))) env change.zone)
    obtain ⟨news, hnews, hheard⟩ := hfan.told
    refine ⟨hcfg.trans hfan.cfg, hz.trans hfan.zoneEngine,
      .zoneChanged change.zone change.present change.cause :: (news ++ more), ?_, fun zones => ?_⟩
    · have hsent : states (e.send (.event (.zoneChanged change.zone change.present
          change.cause))).outbox =
            states e.outbox ++ [.zoneChanged change.zone change.present change.cause] := by
        rw [send, states, List.filterMap_append]
        rfl
      rw [List.foldl_cons, hmore, hnews, hsent]
      simp
    · have hzone : (e.snapshotWith zones).hear
          (.zoneChanged change.zone change.present change.cause) =
            (e.send (.event (.zoneChanged change.zone change.present change.cause))).snapshotWith
              (Function.update zones change.zone (some change.present)) := by
        simp only [StateSnapshot.hear, snapshotWith]
        rw [setRow_map e.zoneEngine.evalOrder (·.id)]
        rfl
      rw [List.foldl_cons, hzone, List.foldl_append, hheard, hheard']
      rfl

/-- A sensor's event is told, and then its zones are ahead of the broadcast. -/
theorem told_registered (env : Env) (e : RulesEngine) (ev : PresenceEvent) (hknown : e.Inventoried) :
    (e.registered env ev).Inventoried ∧
      ∃ news, states (e.registered env ev).outbox = states e.outbox ++ news ∧
        news.foldl StateSnapshot.hear e.sendSnapshot =
          (e.registered env ev).snapshotWith e.zoneEngine.zonePresence := by
  have hcfg : (e.registered env ev).cfg = e.cfg := by
    unfold registered
    dsimp only
    split <;> rfl
  have hz : (e.registered env ev).zoneEngine = (e.zoneEngine.apply ev).1 := rfl
  have hphase : (e.registered env ev).phaseOf = e.phaseOf := by
    unfold registered phaseOf
    dsimp only
    split <;> rfl
  have horder : (e.zoneEngine.apply ev).1.evalOrder = e.zoneEngine.evalOrder := by
    unfold ZoneEngine.apply
    split <;> rfl
  have hsnap : (e.registered env ev).snapshotWith e.zoneEngine.zonePresence =
      { e.sendSnapshot with sensors := e.cfg.sensors.map fun scfg =>
          (scfg.sensor, (e.registered env ev).snapshotState scfg.sensor) } := by
    simp only [snapshotWith, sendSnapshot, hcfg, hz, hphase, horder]
    rfl
  cases hsensor : e.zoneEngine.sensorStates ev.sensorId with
  | none =>
    have hsame : e.zoneEngine.apply ev = (e.zoneEngine, []) := by
      simp [ZoneEngine.apply, hsensor]
    have hstate : (e.registered env ev).snapshotState = e.snapshotState := by
      funext sensor
      rw [snapshotState, hz, hsame, snapshotState]
    refine ⟨?_, [.sensorChanged ev.sensorId ev.state], ?_, ?_⟩
    · intro scfg hscfg
      rw [hcfg] at hscfg
      rw [hz, hsame]
      exact hknown scfg hscfg
    · simp [registered, hsensor, send, states]
      rfl
    · rw [hsnap, hstate]
      simp only [List.foldl_cons, List.foldl_nil, StateSnapshot.hear]
      rw [setRow_of_notMem]
      · rfl
      · intro row hrow hid
        obtain ⟨scfg, hscfg, rfl⟩ := List.mem_map.mp hrow
        have hin := hknown scfg hscfg
        rw [show scfg.sensor = ev.sensorId from hid, hsensor] at hin
        cases hin
  | some prior =>
    have happlied : (e.zoneEngine.apply ev).1.sensorStates =
        Function.update e.zoneEngine.sensorStates ev.sensorId (some (ev.state, ev.stamp)) := by
      simp [ZoneEngine.apply, hsensor]
    have hstate : (e.registered env ev).snapshotState =
        Function.update e.snapshotState ev.sensorId ev.state := by
      funext sensor
      rw [snapshotState, hz, happlied]
      by_cases h : sensor = ev.sensorId
      · subst h
        simp
      · simp [Function.update_of_ne h, snapshotState]
    have hin : (e.registered env ev).Inventoried := by
      intro scfg hscfg
      rw [hcfg] at hscfg
      rw [hz, happlied]
      by_cases h : scfg.sensor = ev.sensorId
      · simp [h]
      · rw [Function.update_of_ne h]
        exact hknown scfg hscfg
    refine ⟨hin, ?_⟩
    by_cases hprior : prior.1 = ev.state
    · refine ⟨[], ?_, ?_⟩
      · simp [registered, hsensor, hprior]
      · have hkept : Function.update e.snapshotState ev.sensorId ev.state = e.snapshotState := by
          rw [← hprior]
          refine Function.update_eq_self_iff.mpr ?_
          simp [snapshotState, hsensor]
        rw [hsnap, hstate, hkept]
        rfl
    · refine ⟨[.sensorChanged ev.sensorId ev.state], ?_, ?_⟩
      · simp [registered, hsensor, hprior, send, states]
        rfl
      · rw [hsnap, hstate]
        simp only [List.foldl_cons, List.foldl_nil, StateSnapshot.hear, sendSnapshot]
        rw [setRow_map e.cfg.sensors (·.sensor)]

theorem heard_applyPresence (env : Env) (e : RulesEngine) (ev : PresenceEvent) :
    Heard e (e.applyPresence env ev) := by
  intro hknown
  obtain ⟨hknown', news, hnews, hheard⟩ := told_registered env e ev hknown
  obtain ⟨hcfg, hz, more, hmore, hheard'⟩ :=
    told_changes env (e.zoneEngine.apply ev).2 (e.registered env ev)
  rw [applyPresence_eq]
  refine ⟨?_, news ++ more, ?_, ?_⟩
  · intro scfg hscfg
    rw [hcfg] at hscfg
    rw [hz]
    exact hknown' scfg hscfg
  · rw [hmore, hnews, List.append_assoc]
  · rw [List.foldl_append, hheard, hheard', apply_changes]
    rw [snapshotWith, sendSnapshot, hz]
    rfl

theorem heard_strides {env : Env} (h : Strides env e e') : Heard e e' :=
  h.lift .refl (fun _ _ _ => .trans) (fun _ _ h => (told_link h).heard) (heard_applyPresence env)

/-! ## The pop of a tick -/

end RulesEngine

namespace DisplayStateMachine

/-- A change of ownership does not make a machine mute. -/
theorem mute_owned {s : DisplayStateMachine} {owns : Bool} {now : ℕ}
    (h : (s.step (.ownershipChanged owns) now).1.mute = true) : s.mute = true := by
  have hm := step_move s (.ownershipChanged owns) now
  generalize s.step (.ownershipChanged owns) now = r at hm h
  have calm {t : DisplayStateMachine} (ht : t.FrozenOk) (hmute : t.mute = true) : False := by
    simp only [mute, Bool.and_eq_true, Bool.not_eq_true'] at hmute
    exact absurd (ht.mp hmute.1.1).1 (by simp [hmute.1.2])
  have same {t : DisplayStateMachine} (hp : t.phase = s.phase)
      (hf : t.graceFrozenRemaining = s.graceFrozenRemaining) (hmute : t.mute = true) :
      s.mute = true := by
    simpa only [mute, inGrace, phaseName, hp, hf] using hmute
  cases hm with
  | quiet => exact same (note_phase s _) (note_graceFrozenRemaining s _) h
  | regained => exact same rfl rfl h
  | activated cause => exact (calm (frozenOk_enterActive _ now cause) h).elim
  | deferred => exact same (note_phase s (.ownershipChanged owns)) rfl h
  | torn cause => exact (calm (frozenOk_enterActive _ now cause) h).elim
  | woken => simp [mute, issueWake, phaseName] at h
  | tornAwake => simp [mute, issueWake, phaseName] at h
  | froze untilTick hp hinput => simp at hinput
  | thawed hg hinput => simp at hinput
  | rewoken pre hp hinput => simp at hinput
  | captured hp hinput => simp at hinput
  | rearmed hp hinput => simp at hinput

end DisplayStateMachine

namespace RulesEngine
variable {e e' : RulesEngine}

theorem machine_feedOwnership (e : RulesEngine) (env : Env) (d : DisplayId) (now : ℕ)
    {m : DisplayStateMachine} (h : (e.feedOwnership env d now).machines d = some m) :
    e.machines d = some m ∨ ∃ m₀ owns, e.machines d = some m₀ ∧
      m = (m₀.step (.ownershipChanged owns) now).1 := by
  unfold feedOwnership at h
  dsimp only at h
  split at h
  · exact .inl h
  · split at h
    · exact .inl h
    · rw [machines_stepMachine, Function.update_self, Option.map_eq_some_iff] at h
      obtain ⟨m₀, hm₀, rfl⟩ := h
      exact .inr ⟨m₀, _, hm₀, rfl⟩

theorem heard_fireTimer (env : Env) {t : Timer}
    (h : ∀ d m, t.2 = .displayTick d → e.machines d = some m → m.mute = false) :
    Heard e ((e.popTimer t).fireTimer env t.1 t.2) := by
  obtain ⟨deadline, entry⟩ := t
  have hpopped : Remarked e (e.popTimer (deadline, entry)) := .of_frame rfl rfl rfl rfl
  have ticked (d : DisplayId) (input : Input)
      (hmute : ∀ m, (((e.popTimer (deadline, entry)).feedOwnership env d deadline).machines d) =
        some m → input = .tick → m.mute = false) : Heard e
      (((e.popTimer (deadline, entry)).feedOwnership env d deadline).stepMachine d input
        deadline) :=
    ((hpopped.trans (told_links (links_feedOwnership _ env d deadline))).trans
      (told_stepMachine _ d input deadline hmute)).heard
  cases entry with
  | displayTick d =>
    refine ticked d .tick fun m hm _ => ?_
    rcases machine_feedOwnership _ env d deadline hm with hm | ⟨m₀, owns, hm₀, rfl⟩
    · exact h d m rfl hm
    · by_contra hmute
      rw [Bool.not_eq_false] at hmute
      have hcalm := h d m₀ rfl hm₀
      rw [DisplayStateMachine.mute_owned hmute] at hcalm
      cases hcalm
  | displayStageTick d gen =>
    refine ticked d (.stageTick gen) fun m _ hin => ?_
    cases hin
  | holdExpiry sensor => exact hpopped.heard.trans (heard_strides (strides_fireTimer _ env rfl _))
  | inputWakeHoldExpiry d =>
    exact hpopped.heard.trans (heard_strides (strides_fireTimer _ env rfl _))

theorem heard_handle (e : RulesEngine) {i : Env × Event} (hrelay : i.2.relaysState = false)
    (hslip : ¬ e.slips i) : Heard e (e.handle i.1 i.2) := by
  cases hdue : e.dueTimer i with
  | none => exact heard_strides (strides_handle e hrelay hdue)
  | some t =>
    obtain ⟨env, event⟩ := i
    cases event with
    | timer =>
      rw [handle, fireDueTimer_due hdue]
      refine heard_fireTimer env fun d m ht hm => ?_
      by_contra hmute
      refine hslip ⟨t.1, d, m, ?_, hm, by simpa using hmute⟩
      rw [← ht]
      exact hdue
    | _ => cases hdue

/-- Whoever starts from a snapshot and rewrites its rows as the events come has the snapshot that
the engine would send, after every run in which no tick comes due at a mute machine. -/
theorem broadcast_keeps_snapshot (e : RulesEngine) (hknown : e.Inventoried)
    (events : List (Env × Event)) (hrelay : ∀ i ∈ events, i.2.relaysState = false)
    (hslip : engine.Steps (fun e i => ¬ e.slips i) e events) :
    (states (engine.outputs e events)).foldl StateSnapshot.hear e.sendSnapshot =
      (engine.run e events).sendSnapshot := by
  induction events generalizing e with
  | nil => rfl
  | cons i events ih =>
    have hstep := heard_handle { e with outbox := [] } (hrelay i List.mem_cons_self) hslip.1
    obtain ⟨hknown', news, hnews, hheard⟩ := hstep hknown
    have hrest := ih (engine.next e i).1 hknown' (fun j hj => hrelay j (List.mem_cons_of_mem _ hj))
      hslip.2
    have hfirst : states (engine.next e i).2 = news := hnews
    have hsnap : news.foldl StateSnapshot.hear e.sendSnapshot =
        (engine.next e i).1.sendSnapshot := hheard
    rw [Runs.System.outputs, states, List.filterMap_append, List.foldl_append, ← states, hfirst,
      hsnap, ← states, hrest]
    rfl

/-- The display is forced dark, and somebody comes in. -/
def entered : List (Env × Event) :=
  [(Env.plain 1, .control (.forceBlank ⟨"monitor"⟩)),
    (Env.plain 2, .result (.blank ⟨"monitor"⟩ 1 (.ok ()))),
    (Env.plain 3, .presence ⟨⟨"mmwave"⟩, .present, 3⟩)]

theorem broadcast_keeps_snapshot_entered : ∃ e, new emptyRoom (fun _ => true) 0 = .ok e ∧
    (states (engine.outputs e entered)).foldl StateSnapshot.hear e.sendSnapshot =
      { sensors := [(⟨"mmwave"⟩, .present)], zones := [(⟨"desk"⟩, some true)],
        displays := [(⟨"monitor"⟩, "waking")] } := by
  obtain ⟨e, he⟩ : ∃ e, new emptyRoom (fun _ => true) 0 = .ok e := ⟨_, rfl⟩
  have hrun : (engine.run e entered).sendSnapshot =
      { sensors := [(⟨"mmwave"⟩, .present)], zones := [(⟨"desk"⟩, some true)],
        displays := [(⟨"monitor"⟩, "waking")] } := by
    obtain rfl := Except.ok.inj he
    decide
  refine ⟨e, he, ?_⟩
  rw [← hrun]
  refine broadcast_keeps_snapshot e ?_ entered (by decide) ⟨?_, ?_, ?_, trivial⟩
  · obtain rfl := Except.ok.inj he
    intro scfg hscfg
    obtain rfl := List.mem_singleton.mp hscfg
    rfl
  all_goals
    rintro ⟨t, d, m, hdue, -⟩
    cases hdue

end RulesEngine
end Dormant
