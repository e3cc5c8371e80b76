import Dormant.Reload.Rejections
import Dormant.Reload.Restore

/-!
# Panels that a reload leaves dark

From the teardown of the old engine on, a dark panel is woken by a verified or a defensive wake, or
is left to a machine that answers a wake request. The lists of a reload cover the phases Blanked,
Blanking and Waking when the reload is accepted. When it is not, `rebuild_old` wakes nobody, and it
restores what has been woken already.
-/

namespace Dormant.Reload
set_option autoImplicit false

/-- The machine answers a wake request with a wake command. -/
def Answers (machine : DisplayStateMachine) : Prop :=
  (machine.phase = .blanked ∨ machine.phase = .blanking ∨ machine.phase = .waking) ∧
    ∀ now, ∃ gen, .issueWake gen ∈ (machine.step .forceWake now).2

/-- The generation that runs, with the snapshot that it was restored from. -/
def startedBy : List RunnerAction → Option (Generation × Option StateSnapshot)
  | [] => none
  | .spawn generation restore _ :: _ => some (generation, restore)
  | _ :: actions => startedBy actions

def Turn.machine (turn : Turn) (setup : EngineSetup) (id : DisplayId) :
    Option DisplayStateMachine :=
  (startedBy turn.actions).bind fun started =>
    (setup.spawned started.1.cfg started.2).machines id

def Turn.wakes (turn : Turn) (id : DisplayId) : Prop :=
  (∃ error, .wake id error ∈ turn.actions) ∨ .defensiveWake id ∈ turn.actions

/-- Of the panels that a controller has blanked, each is woken or has a machine that answers, and
none that was woken is taken to be blanked. -/
def NoneLeftDark (setup : EngineSetup) (dark : DisplayId → Prop) (snapshot : StateSnapshot)
    (turn : Turn) : Prop :=
  (∀ display ∈ snapshot.displays, dark display.1 →
    (∃ machine, turn.machine setup display.1 = some machine ∧ Answers machine) ∨
      turn.wakes display.1) ∧
  ∀ id, .wake id none ∈ turn.actions → ∀ machine, turn.machine setup id = some machine →
    machine.phase ≠ .blanked

/-- What an engine answers: each of its displays once. -/
structure Answered (r : Runner) (snapshot : StateSnapshot) : Prop where
  nodup : (snapshot.displays.map Prod.fst).Nodup
  known : ∀ display ∈ snapshot.displays, display.1 ∈ r.generation.executors.ids
  executors : r.generation.executors.ids = r.generation.cfg.ids

def dispatchChanged (oldCfg newCfg : Config) (id : DisplayId) : Bool :=
  match oldCfg.display id, newCfg.display id with
  | some o, some n => !dispatchRelevantEq o n
  | _, _ => false

/-- The displays that a reload wakes through their old executors. -/
def verifiedDisplays (oldCfg newCfg : Config) (snapshot : StateSnapshot) : List DisplayId :=
  removedDarkDisplays (some snapshot) newCfg.ids ++
    changedDispatchDarkDisplays (some snapshot) oldCfg newCfg newCfg.ruled

/-- The wakes come to the display before one fails. -/
def Tried (wakeError : DisplayId → Option String) (ids : List DisplayId) (id : DisplayId) : Prop :=
  ∃ before after, ids = before ++ id :: after ∧ ∀ other ∈ before, wakeError other = none

/-- The accepted reload looks after every dark panel. -/
def AcceptedCovers (setup : EngineSetup) (dark : DisplayId → Prop) (oldCfg newCfg : Config)
    (display : DisplayId × DisplaySnapshot) : Prop :=
  (dark display.1 → phaseIsDark display.2.phase = true ∧
    (display.2.phase = .blanked → display.1 ∈ newCfg.ids → display.1 ∉ newCfg.ruled →
      dispatchChanged oldCfg newCfg display.1 = false → setup.owns display.1 = true)) ∧
  (display.2.phase = .blanked → display.1 ∉ newCfg.ruled →
    dispatchChanged oldCfg newCfg display.1 = true → setup.owns display.1 = false)

/-- The rebuilt generation looks after every dark panel. -/
def RebuiltCovers (setup : EngineSetup) (dark : DisplayId → Prop) (oldCfg : Config)
    (wakeError : DisplayId → Option String) (verified : List DisplayId)
    (display : DisplayId × DisplaySnapshot) : Prop :=
  (dark display.1 → Tried wakeError verified display.1 ∨
    display.1 ∉ oldCfg.ruled ∧ (display.2.phase = .waking ∨
      display.2.phase = .blanked ∧ setup.owns display.1 = true)) ∧
  (Tried wakeError verified display.1 → wakeError display.1 = none →
    display.2.phase = .blanked → display.1 ∉ oldCfg.ruled → setup.owns display.1 = false)

def Covers (setup : EngineSetup) (dark : DisplayId → Prop) (oldCfg newCfg : Config)
    (snapshot : StateSnapshot) (a : Attempt) : Prop :=
  let verified := verifiedDisplays oldCfg newCfg snapshot
  ((∀ id ∈ verified, a.wakeError id = none) ∧ a.spawnError = none →
    ∀ display ∈ snapshot.displays, AcceptedCovers setup dark oldCfg newCfg display) ∧
  (¬ ((∀ id ∈ verified, a.wakeError id = none) ∧ a.spawnError = none) →
    ∀ display ∈ snapshot.displays,
      RebuiltCovers setup dark oldCfg a.wakeError verified display)

section Machines
variable (setup : EngineSetup) (cfg : Config)

theorem answers_iff {machine : DisplayStateMachine} (h : machine.phase = .active ∨
    machine.phase = .blanked ∨ machine.phase = .waking) :
    Answers machine ↔ machine.phase ≠ .active := by
  constructor
  · intro hanswers hactive
    rw [Answers, hactive] at hanswers
    simp at hanswers
  · intro hne
    have hdark := h.resolve_left hne
    refine ⟨hdark.imp_right .inr, fun now => ?_⟩
    exact ⟨machine.cmdGen + 1, DisplayStateMachine.forceWake_wakes hdark now⟩

/-- The phase of a display's machine in the engine that is restored. -/
theorem phase_spawned {snapshot : StateSnapshot}
    (hnodup : (snapshot.displays.map Prod.fst).Nodup) {display : DisplayId × DisplaySnapshot}
    (hmem : display ∈ snapshot.displays) :
    ((setup.spawned cfg (some snapshot)).machines display.1).map (·.phase) =
      if display.1 ∈ cfg.ids then
        if display.1 ∉ cfg.ruled ∧ display.2.phase = .waking then some .waking
        else if display.1 ∉ cfg.ruled ∧ display.2.phase = .blanked ∧
            setup.owns display.1 = true then some .blanked
        else some .active
      else none := by
  rw [setup.machine_spawned cfg hnodup hmem]
  by_cases hids : display.1 ∈ cfg.ids
  · rw [if_pos hids, if_pos hids]
    by_cases hruled : display.1 ∈ cfg.ruled
    · rw [if_neg (fun h => h.1 hruled), if_neg (fun h => h.1 hruled)]
      cases display.2.phase <;> simp [restoredPhase, hruled, setup.phase_fresh]
    · cases display.2.phase <;>
        simp [restoredPhase, hruled, setup.phase_fresh, setup.phase_restored_blanked,
          setup.phase_restored_waking]
      split <;> rfl
  · rw [if_neg hids, if_neg hids]
    rfl

theorem spawned_answers_iff {snapshot : StateSnapshot}
    (hnodup : (snapshot.displays.map Prod.fst).Nodup) {display : DisplayId × DisplaySnapshot}
    (hmem : display ∈ snapshot.displays) :
    (∃ machine, (setup.spawned cfg (some snapshot)).machines display.1 = some machine ∧
      Answers machine) ↔
    display.1 ∈ cfg.ids ∧ display.1 ∉ cfg.ruled ∧ (display.2.phase = .waking ∨
      display.2.phase = .blanked ∧ setup.owns display.1 = true) := by
  have hphase := phase_spawned setup cfg hnodup hmem
  cases hmachine : (setup.spawned cfg (some snapshot)).machines display.1 with
  | none =>
    rw [hmachine] at hphase
    by_cases hids : display.1 ∈ cfg.ids
    · rw [if_pos hids] at hphase
      split at hphase
      · cases hphase
      · split at hphase <;> cases hphase
    · simp [hids]
  | some machine =>
    rw [hmachine, Option.map_some] at hphase
    by_cases hids : display.1 ∈ cfg.ids
    · rw [if_pos hids] at hphase
      have hsome : (∃ other, some machine = some other ∧ Answers other) ↔ Answers machine := by
        simp
      rw [hsome]
      split at hphase
      · rename_i hwaking
        have hp := Option.some.inj hphase
        rw [answers_iff (by simp [hp]), hp]
        simp [hids, hwaking.1, hwaking.2]
      · rename_i hwaking
        split at hphase
        · rename_i hblanked
          have hp := Option.some.inj hphase
          rw [answers_iff (by simp [hp]), hp]
          simp [hids, hblanked.1, hblanked.2]
        · rename_i hblanked
          have hp := Option.some.inj hphase
          rw [answers_iff (by simp [hp]), hp]
          refine iff_of_false (by simp) ?_
          intro ⟨_, hruled, hphases⟩
          cases hphases with
          | inl h => exact hwaking ⟨hruled, h⟩
          | inr h => exact hblanked ⟨hruled, h⟩
    · rw [if_neg hids] at hphase
      cases hphase

theorem spawned_blanked_iff {snapshot : StateSnapshot}
    (hnodup : (snapshot.displays.map Prod.fst).Nodup) {display : DisplayId × DisplaySnapshot}
    (hmem : display ∈ snapshot.displays) :
    (∀ machine, (setup.spawned cfg (some snapshot)).machines display.1 = some machine →
      machine.phase ≠ .blanked) ↔
    (display.1 ∈ cfg.ids → display.1 ∉ cfg.ruled → display.2.phase = .blanked →
      setup.owns display.1 = false) := by
  have hphase := phase_spawned setup cfg hnodup hmem
  constructor
  · intro hnever hids hruled hblanked
    by_contra howns
    rw [Bool.not_eq_false] at howns
    rw [if_pos hids, if_neg (by simp [hblanked]), if_pos ⟨hruled, hblanked, howns⟩] at hphase
    obtain ⟨machine, hmachine, hp⟩ := Option.map_eq_some_iff.mp hphase
    exact hnever machine hmachine hp
  · intro hkept machine hmachine hp
    rw [hmachine, Option.map_some, hp] at hphase
    split at hphase
    · rename_i hids
      split at hphase
      · cases hphase
      · split at hphase
        · rename_i hboth
          have hunowned := hkept hids hboth.1 hboth.2.1
          rw [hboth.2.2] at hunowned
          cases hunowned
        · cases hphase
    · cases hphase

end Machines

/-! ## What a reload does -/

theorem verifiedWakes_none {wakeError : DisplayId → Option String} {ids : List DisplayId} :
    (Runner.verifiedWakes wakeError ids).2 = none ↔ ∀ id ∈ ids, wakeError id = none := by
  induction ids with
  | nil => simp [Runner.verifiedWakes]
  | cons id ids ih =>
    unfold Runner.verifiedWakes
    cases herror : wakeError id with
    | none => simp [herror, ih]
    | some error => simp [herror]

theorem mem_verifiedWakes {wakeError : DisplayId → Option String} {ids : List DisplayId}
    {action : RunnerAction} : action ∈ (Runner.verifiedWakes wakeError ids).1 ↔
      ∃ id, action = .wake id (wakeError id) ∧ Tried wakeError ids id := by
  induction ids with
  | nil => simp [Runner.verifiedWakes, Tried]
  | cons first ids ih =>
    have htried : ∀ id, Tried wakeError (first :: ids) id ↔
        id = first ∨ wakeError first = none ∧ Tried wakeError ids id := by
      intro id
      constructor
      · intro ⟨before, after, hids, hok⟩
        cases before with
        | nil =>
          cases hids
          exact .inl rfl
        | cons other before =>
          cases hids
          exact .inr ⟨hok _ List.mem_cons_self, before, after, rfl,
            fun x hx => hok x (List.mem_cons_of_mem _ hx)⟩
      · intro h
        cases h with
        | inl heq =>
          subst heq
          exact ⟨[], ids, rfl, by simp⟩
        | inr h =>
          obtain ⟨hfirst, before, after, hids, hok⟩ := h
          refine ⟨first :: before, after, by rw [hids]; rfl, ?_⟩
          intro other hother
          cases List.mem_cons.mp hother with
          | inl heq => exact heq ▸ hfirst
          | inr hmem => exact hok other hmem
    unfold Runner.verifiedWakes
    cases herror : wakeError first with
    | none =>
      simp only [htried, herror, List.mem_cons, ih, true_and]
      constructor
      · intro h
        cases h with
        | inl heq => exact ⟨first, by rw [heq, herror], .inl rfl⟩
        | inr h =>
          obtain ⟨id, heq, hid⟩ := h
          exact ⟨id, heq, .inr hid⟩
      · intro ⟨id, heq, hid⟩
        cases hid with
        | inl hfirst => exact .inl (by rw [heq, hfirst, herror])
        | inr hid => exact .inr ⟨id, heq, hid⟩
    | some error => simp [htried, herror]

theorem tried_iff_mem {wakeError : DisplayId → Option String} {ids : List DisplayId}
    (hok : ∀ id ∈ ids, wakeError id = none) {id : DisplayId} :
    Tried wakeError ids id ↔ id ∈ ids := by
  constructor
  · intro ⟨before, after, hids, _⟩
    rw [hids]
    exact List.mem_append_right _ List.mem_cons_self
  · intro hmem
    obtain ⟨before, after, hids⟩ := List.append_of_mem hmem
    refine ⟨before, after, hids, ?_⟩
    intro other hother
    refine hok other ?_
    rw [hids]
    exact List.mem_append_left _ hother

theorem startedBy_wakes {actions : List RunnerAction}
    (hwakes : ∀ action ∈ actions, ∃ id error, action = .wake id error)
    (more : List RunnerAction) : startedBy (actions ++ more) = startedBy more := by
  induction actions with
  | nil => rfl
  | cons action actions ih =>
    obtain ⟨id, error, haction⟩ := hwakes action List.mem_cons_self
    subst haction
    exact ih fun other hother => hwakes other (List.mem_cons_of_mem _ hother)

theorem mem_matching {snapshot : StateSnapshot} (hnodup : (snapshot.displays.map Prod.fst).Nodup)
    {display : DisplayId × DisplaySnapshot} (hmem : display ∈ snapshot.displays)
    (p : DisplayId → PhaseName → Bool) :
    display.1 ∈ snapshot.matching p ↔ p display.1 display.2.phase = true := by
  unfold StateSnapshot.matching
  rw [List.mem_map]
  constructor
  · intro ⟨other, hother, hid⟩
    obtain ⟨hmem', hp⟩ := List.mem_filter.mp hother
    have hsame : other = display := List.inj_on_of_nodup_map hnodup hmem' hmem hid
    rw [← hsame]
    exact hp
  · intro hp
    exact ⟨display, List.mem_filter.mpr ⟨hmem, hp⟩, rfl⟩

theorem mem_displays_of_matching {snapshot : StateSnapshot} {p : DisplayId → PhaseName → Bool}
    {id : DisplayId} (h : id ∈ snapshot.matching p) :
    ∃ display ∈ snapshot.displays, display.1 = id := by
  obtain ⟨display, hmem, hid⟩ := List.mem_map.mp h
  exact ⟨display, (List.mem_filter.mp hmem).1, hid⟩

theorem dispatchChanged_mem {oldCfg newCfg : Config} {id : DisplayId}
    (h : dispatchChanged oldCfg newCfg id = true) : id ∈ newCfg.ids := by
  unfold dispatchChanged at h
  split at h
  · rename_i hnew
    obtain ⟨before, after, hsplit, -⟩ := List.lookup_eq_some_iff.mp hnew
    unfold Config.ids
    rw [hsplit]
    simp
  · cases h

/-- Which displays are woken through their old executors. -/
theorem mem_verified {oldCfg newCfg : Config} {snapshot : StateSnapshot}
    (hnodup : (snapshot.displays.map Prod.fst).Nodup) {display : DisplayId × DisplaySnapshot}
    (hmem : display ∈ snapshot.displays) :
    display.1 ∈ verifiedDisplays oldCfg newCfg snapshot ↔
      phaseIsDark display.2.phase = true ∧ (display.1 ∉ newCfg.ids ∨
        display.1 ∉ newCfg.ruled ∧ dispatchChanged oldCfg newCfg display.1 = true) := by
  unfold verifiedDisplays removedDarkDisplays changedDispatchDarkDisplays matchingOf
  rw [List.mem_append, mem_matching hnodup hmem, mem_matching hnodup hmem]
  unfold dispatchChanged
  simp only [Bool.and_eq_true, Bool.not_eq_true', List.contains_eq_mem, decide_eq_false_iff_not]
  tauto

theorem verified_display {oldCfg newCfg : Config} {snapshot : StateSnapshot} {id : DisplayId}
    (h : id ∈ verifiedDisplays oldCfg newCfg snapshot) :
    ∃ display ∈ snapshot.displays, display.1 = id := by
  unfold verifiedDisplays removedDarkDisplays changedDispatchDarkDisplays matchingOf at h
  cases List.mem_append.mp h with
  | inl h => exact mem_displays_of_matching h
  | inr h => exact mem_displays_of_matching h

/-- The displays that are woken when the next generation has started. -/
theorem mem_defensive {newCfg : Config} {snapshot : StateSnapshot}
    (hnodup : (snapshot.displays.map Prod.fst).Nodup) {display : DisplayId × DisplaySnapshot}
    (hmem : display ∈ snapshot.displays) :
    display.1 ∈ (retainedDarkDisplays (some snapshot) newCfg.ids newCfg.ruled ++
        stuckDisplays (some snapshot) newCfg.ruled).filter newCfg.ids.contains ↔
      display.1 ∈ newCfg.ids ∧ (phaseIsDark display.2.phase = true ∧ display.1 ∈ newCfg.ruled ∨
        display.2.phase = .blanking ∧ display.1 ∉ newCfg.ruled) := by
  unfold retainedDarkDisplays stuckDisplays matchingOf
  rw [List.mem_filter, List.mem_append, mem_matching hnodup hmem, mem_matching hnodup hmem]
  simp only [Bool.and_eq_true, Bool.not_eq_true', List.contains_eq_mem, decide_eq_false_iff_not,
    decide_eq_true_eq]
  tauto

section Replaces
variable {r : Runner} {snapshot : StateSnapshot} {oldCfg : Config} {assembly : Generation}
  {requested : RuntimeRevision} {a : Attempt}

/-- The verified wakes of a reload. -/
theorem verified_filter (oldCfg newCfg : Config)
    (hknown : ∀ display ∈ snapshot.displays, display.1 ∈ r.generation.executors.ids) :
    (verifiedDisplays oldCfg newCfg snapshot).filter r.generation.executors.ids.contains =
      verifiedDisplays oldCfg newCfg snapshot := by
  rw [List.filter_eq_self]
  intro id hid
  obtain ⟨display, hmem, heq⟩ := verified_display hid
  rw [← heq]
  simpa using hknown display hmem

theorem replace_accepted (requested : RuntimeRevision)
    (hexecutors : assembly.executors.ids = assembly.cfg.ids)
    (hknown : ∀ display ∈ snapshot.displays, display.1 ∈ r.generation.executors.ids)
    (hwakes : ∀ id ∈ verifiedDisplays oldCfg assembly.cfg snapshot, a.wakeError id = none)
    (hspawn : a.spawnError = none) :
    ∃ generation pend, generation.cfg = assembly.cfg ∧
      (∀ action ∈ pend, action = .setPendingReload none) ∧
      (r.replace oldCfg assembly requested (some snapshot) a).actions =
        (Runner.verifiedWakes a.wakeError
          (verifiedDisplays oldCfg assembly.cfg snapshot)).1 ++
        [.spawn generation (some snapshot) none] ++ pend ++
        ((retainedDarkDisplays (some snapshot) assembly.cfg.ids assembly.cfg.ruled ++
          stuckDisplays (some snapshot) assembly.cfg.ruled).filter
            assembly.cfg.ids.contains).map .defensiveWake := by
  have hlist := verified_filter oldCfg assembly.cfg hknown
  have hnone := verifiedWakes_none.mpr hwakes
  unfold verifiedDisplays at hlist hnone
  refine ⟨{ assembly with
      engine := some ⟨r.teardown.nextSerial + 1, nextGeneration r.teardown.generationId⟩ },
    if r.teardown.rollbackActive then [.setPendingReload none] else [], rfl, ?_, ?_⟩
  · intro action haction
    split at haction
    · exact List.mem_singleton.mp haction
    · cases haction
  · unfold Runner.replace
    dsimp only
    rw [hexecutors, hlist, hnone]
    unfold Runner.swap
    rw [hspawn]
    dsimp only
    rw [hexecutors]
    rfl

/-- A wake that fails, or the spawn, has the old generation rebuilt. -/
theorem replace_rebuilt (requested : RuntimeRevision)
    (hexecutors : assembly.executors.ids = assembly.cfg.ids)
    (hknown : ∀ display ∈ snapshot.displays, display.1 ∈ r.generation.executors.ids)
    (hrebuild : a.rebuildSpawns = true)
    (hfails : ¬ ((∀ id ∈ verifiedDisplays oldCfg assembly.cfg snapshot, a.wakeError id = none) ∧
      a.spawnError = none)) :
    ∃ generation pending, generation.cfg = r.generation.cfg ∧
      (r.replace oldCfg assembly requested (some snapshot) a).actions =
        (Runner.verifiedWakes a.wakeError
          (verifiedDisplays oldCfg assembly.cfg snapshot)).1 ++
        [.spawn generation (some snapshot) pending] := by
  have hlist := verified_filter oldCfg assembly.cfg hknown
  unfold verifiedDisplays at hlist
  unfold Runner.replace
  dsimp only
  rw [hexecutors, hlist]
  cases hwoken : (Runner.verifiedWakes a.wakeError
      (verifiedDisplays oldCfg assembly.cfg snapshot)).2 with
  | some failure =>
    unfold verifiedDisplays at hwoken
    rw [hwoken]
    unfold Runner.rebuildOld
    rw [hrebuild]
    obtain ⟨id, error⟩ := failure
    exact ⟨{ r.generation with engine := some ⟨r.nextSerial, r.generationId⟩ },
      some ("removed display '" ++ id.id ++ "' failed verified wake: " ++ error), rfl, rfl⟩
  | none =>
    have hwakes := verifiedWakes_none.mp hwoken
    unfold verifiedDisplays at hwoken
    rw [hwoken]
    unfold Runner.swap
    cases hspawn : a.spawnError with
    | none => exact absurd ⟨hwakes, hspawn⟩ hfails
    | some error =>
      unfold Runner.rebuildOld
      rw [hrebuild]
      exact ⟨{ r.generation with engine := some ⟨r.nextSerial, r.generationId⟩ },
        some ("rebuild from new config failed: " ++ error), rfl, rfl⟩

/-- A turn that wakes displays, starts a generation and wakes more. -/
theorem turn_machine {setup : EngineSetup} {turn : Turn} {wakeError : DisplayId → Option String}
    {verified : List DisplayId} {generation : Generation} {pending : Option String}
    {rest : List RunnerAction}
    (hactions : turn.actions = (Runner.verifiedWakes wakeError verified).1 ++
      .spawn generation (some snapshot) pending :: rest) (id : DisplayId) :
    turn.machine setup id = (setup.spawned generation.cfg (some snapshot)).machines id := by
  unfold Turn.machine
  rw [hactions, startedBy_wakes]
  · rfl
  · intro action haction
    obtain ⟨id, heq, -⟩ := mem_verifiedWakes.mp haction
    exact ⟨id, _, heq⟩

theorem mem_wake_iff {turn : Turn} {wakeError : DisplayId → Option String}
    {verified : List DisplayId} {generation : Generation} {pending : Option String}
    {rest : List RunnerAction}
    (hactions : turn.actions = (Runner.verifiedWakes wakeError verified).1 ++
      .spawn generation (some snapshot) pending :: rest)
    (hrest : ∀ id error, .wake id error ∉ rest) (id : DisplayId) (error : Option String) :
    .wake id error ∈ turn.actions ↔ Tried wakeError verified id ∧ error = wakeError id := by
  rw [hactions, List.mem_append, List.mem_cons, mem_verifiedWakes]
  constructor
  · intro h
    cases h with
    | inl h =>
      obtain ⟨other, heq, htried⟩ := h
      cases heq
      exact ⟨htried, rfl⟩
    | inr h =>
      cases h with
      | inl heq => cases heq
      | inr hmem => exact absurd hmem (hrest id error)
  · intro ⟨htried, herror⟩
    exact .inl ⟨id, by rw [herror], htried⟩

theorem mem_defensiveWake_iff {turn : Turn} {wakeError : DisplayId → Option String}
    {verified : List DisplayId} {generation : Generation} {pending : Option String}
    {rest : List RunnerAction}
    (hactions : turn.actions = (Runner.verifiedWakes wakeError verified).1 ++
      .spawn generation (some snapshot) pending :: rest) (id : DisplayId) :
    .defensiveWake id ∈ turn.actions ↔ .defensiveWake id ∈ rest := by
  rw [hactions, List.mem_append, List.mem_cons, mem_verifiedWakes]
  simp

/-- What is left dark by a turn of this shape. -/
theorem noneLeftDark_iff {setup : EngineSetup} {dark : DisplayId → Prop} {turn : Turn}
    {wakeError : DisplayId → Option String} {verified : List DisplayId} {generation : Generation}
    {pending : Option String} {rest : List RunnerAction}
    (hnodup : (snapshot.displays.map Prod.fst).Nodup)
    (hverified : ∀ id ∈ verified, ∃ display ∈ snapshot.displays, display.1 = id)
    (hactions : turn.actions = (Runner.verifiedWakes wakeError verified).1 ++
      .spawn generation (some snapshot) pending :: rest)
    (hrest : ∀ id error, .wake id error ∉ rest) :
    NoneLeftDark setup dark snapshot turn ↔ ∀ display ∈ snapshot.displays,
      (dark display.1 → (display.1 ∈ generation.cfg.ids ∧ display.1 ∉ generation.cfg.ruled ∧
          (display.2.phase = .waking ∨ display.2.phase = .blanked ∧ setup.owns display.1 = true)) ∨
        Tried wakeError verified display.1 ∨ .defensiveWake display.1 ∈ rest) ∧
      (Tried wakeError verified display.1 → wakeError display.1 = none →
        display.1 ∈ generation.cfg.ids → display.1 ∉ generation.cfg.ruled →
        display.2.phase = .blanked → setup.owns display.1 = false) := by
  have hwakes : ∀ id, turn.wakes id ↔
      Tried wakeError verified id ∨ .defensiveWake id ∈ rest := by
    intro id
    unfold Turn.wakes
    rw [mem_defensiveWake_iff hactions]
    simp only [mem_wake_iff hactions hrest, exists_and_left, exists_eq, and_true]
  unfold NoneLeftDark
  simp only [turn_machine hactions, mem_wake_iff hactions hrest, hwakes]
  constructor
  · intro ⟨hlit, hnever⟩ display hmem
    refine ⟨fun hdark => ?_, fun htried hok => ?_⟩
    · rw [← spawned_answers_iff setup generation.cfg hnodup hmem]
      exact hlit display hmem hdark
    · rw [← spawned_blanked_iff setup generation.cfg hnodup hmem]
      exact hnever display.1 ⟨htried, hok.symm⟩
  · intro hall
    constructor
    · intro display hmem hdark
      rw [spawned_answers_iff setup generation.cfg hnodup hmem]
      exact (hall display hmem).1 hdark
    · intro id ⟨htried, hok⟩
      have hmem : id ∈ verified := by
        obtain ⟨before, after, hids, -⟩ := htried
        rw [hids]
        exact List.mem_append_right _ List.mem_cons_self
      obtain ⟨display, hdisplay, hid⟩ := hverified id hmem
      subst hid
      rw [spawned_blanked_iff setup generation.cfg hnodup hdisplay]
      exact (hall display hdisplay).2 htried hok.symm

theorem noneLeftDark_accepted {setup : EngineSetup} {dark : DisplayId → Prop}
    (hnodup : (snapshot.displays.map Prod.fst).Nodup)
    (hexecutors : assembly.executors.ids = assembly.cfg.ids)
    (hknown : ∀ display ∈ snapshot.displays, display.1 ∈ r.generation.executors.ids)
    (hwakes : ∀ id ∈ verifiedDisplays oldCfg assembly.cfg snapshot, a.wakeError id = none)
    (hspawn : a.spawnError = none) :
    NoneLeftDark setup dark snapshot
        (r.replace oldCfg assembly requested (some snapshot) a) ↔
      ∀ display ∈ snapshot.displays, AcceptedCovers setup dark oldCfg assembly.cfg display := by
  obtain ⟨generation, pend, hcfg, hpend, hactions⟩ :=
    replace_accepted requested hexecutors hknown hwakes hspawn
  rw [List.append_assoc, List.append_assoc, List.singleton_append] at hactions
  have hrest : ∀ id error, .wake id error ∉ pend ++
      ((retainedDarkDisplays (some snapshot) assembly.cfg.ids assembly.cfg.ruled ++
        stuckDisplays (some snapshot) assembly.cfg.ruled).filter
          assembly.cfg.ids.contains).map .defensiveWake := by
    intro id error hmem
    cases List.mem_append.mp hmem with
    | inl hmem => cases hpend _ hmem
    | inr hmem =>
      obtain ⟨other, -, heq⟩ := List.mem_map.mp hmem
      cases heq
  rw [noneLeftDark_iff hnodup (fun id hid => verified_display hid) hactions hrest, hcfg]
  refine forall₂_congr fun display hmem => ?_
  have hdefensive : .defensiveWake display.1 ∈ pend ++
      ((retainedDarkDisplays (some snapshot) assembly.cfg.ids assembly.cfg.ruled ++
        stuckDisplays (some snapshot) assembly.cfg.ruled).filter
          assembly.cfg.ids.contains).map .defensiveWake ↔
      display.1 ∈ assembly.cfg.ids ∧
        (phaseIsDark display.2.phase = true ∧ display.1 ∈ assembly.cfg.ruled ∨
          display.2.phase = .blanking ∧ display.1 ∉ assembly.cfg.ruled) := by
    rw [← mem_defensive hnodup hmem, List.mem_append, List.mem_map_of_injective]
    · refine or_iff_right ?_
      intro hpending
      cases hpend _ hpending
    · intro x y hxy
      cases hxy
      rfl
  have hkept : dispatchChanged oldCfg assembly.cfg display.1 = true →
      display.1 ∈ assembly.cfg.ids := dispatchChanged_mem
  rw [hdefensive, tried_iff_mem hwakes, mem_verified hnodup hmem]
  unfold AcceptedCovers
  refine and_congr (imp_congr_right fun _ => ?_) ?_
  · cases dispatchChanged oldCfg assembly.cfg display.1 <;> cases display.2.phase <;>
      simp [phaseIsDark] <;> tauto
  · constructor
    · intro h hblanked hruled hchanged
      have hdark : phaseIsDark display.2.phase = true := by rw [hblanked]; rfl
      exact h ⟨hdark, .inr ⟨hruled, hchanged⟩⟩
        (hwakes _ ((mem_verified hnodup hmem).mpr ⟨hdark, .inr ⟨hruled, hchanged⟩⟩))
        (hkept hchanged) hruled hblanked
    · intro h hverified _ hids hruled hblanked
      refine h hblanked hruled ?_
      exact (hverified.2.resolve_left fun hout => hout hids).2

theorem noneLeftDark_rebuilt {setup : EngineSetup} {dark : DisplayId → Prop}
    (hanswered : Answered r snapshot) (hexecutors : assembly.executors.ids = assembly.cfg.ids)
    (hrebuild : a.rebuildSpawns = true)
    (hfails : ¬ ((∀ id ∈ verifiedDisplays oldCfg assembly.cfg snapshot, a.wakeError id = none) ∧
      a.spawnError = none)) :
    NoneLeftDark setup dark snapshot
        (r.replace oldCfg assembly requested (some snapshot) a) ↔
      ∀ display ∈ snapshot.displays, RebuiltCovers setup dark r.generation.cfg a.wakeError
        (verifiedDisplays oldCfg assembly.cfg snapshot) display := by
  obtain ⟨generation, pending, hcfg, hactions⟩ :=
    replace_rebuilt requested hexecutors hanswered.known hrebuild hfails
  rw [noneLeftDark_iff hanswered.nodup (fun id hid => verified_display hid) hactions (by simp),
    hcfg]
  refine forall₂_congr fun display hmem => ?_
  have hids : display.1 ∈ r.generation.cfg.ids := by
    rw [← hanswered.executors]
    exact hanswered.known display hmem
  unfold RebuiltCovers
  simp only [hids, true_and, true_implies, List.not_mem_nil, or_false]
  tauto

end Replaces

/-- A reload that tears the old engine down leaves no panel dark exactly where its lists, or the
rebuilt generation, look after every dark panel. -/
theorem none_left_dark_iff (setup : EngineSetup) (dark : DisplayId → Prop) (r : Runner)
    (cfg : Config) (creds : Credentials) (requested : RuntimeRevision) (a : Attempt)
    (snapshot : StateSnapshot)
    (hgate : (r.coordination.isNone && !cfg.sharedDisplays.isEmpty) = false)
    (hquiesce : a.operationsQuiesce = true) (hbarrier : a.barrier = none)
    (hrebuild : a.rebuildSpawns = true)
    (hsnapshot : settledSnapshot cfg.ruled a.preliminary a.polls = some snapshot)
    (hanswered : Answered r snapshot) :
    NoneLeftDark setup dark snapshot (r.reloadInto cfg creds requested a) ↔
      Covers setup dark r.generation.cfg cfg snapshot a := by
  have hturn : r.reloadInto cfg creds requested a =
      ((r.reconcileShared cfg).quiesced cfg).replace r.generation.cfg
        ⟨cfg, creds, ⟨r.nextSerial, cfg.ids⟩, none⟩ requested (some snapshot) a := by
    unfold Runner.reloadInto
    rw [hgate, hquiesce, hbarrier, hsnapshot]
    rfl
  have hanswered' : Answered ((r.reconcileShared cfg).quiesced cfg) snapshot :=
    ⟨hanswered.nodup, hanswered.known, hanswered.executors⟩
  rw [hturn]
  unfold Covers
  by_cases hcalm : (∀ id ∈ verifiedDisplays r.generation.cfg cfg snapshot,
      a.wakeError id = none) ∧ a.spawnError = none
  · rw [noneLeftDark_accepted hanswered.nodup rfl hanswered'.known hcalm.1 hcalm.2]
    exact ⟨fun h => ⟨fun _ => h, fun hfails => absurd hcalm hfails⟩, fun h => h.1 hcalm⟩
  · rw [noneLeftDark_rebuilt hanswered' rfl hrebuild hcalm]
    exact ⟨fun h => ⟨fun h' => absurd h' hcalm, fun _ => h⟩, fun h => h.2 hcalm⟩

/-! ## A desk and a television -/

def panelConfig (displays : List (DisplayId × DisplayConfig)) : Config where
  displays := displays
  rules := [(⟨"room"⟩, [⟨"desk"⟩])]
  activityFollow := false
  reloadDebounce := 0
  generationBarrierAckTimeout := 5
  lkgEnabled := false
  stabilityWindow := 60

def panelSetup : EngineSetup where
  timings _ _ := ⟨60, 0, 0, 0, 30⟩
  ladder _ _ := []
  owns _ := true
  now := 0

def television (output : String) : DisplayConfig := { deskMonitor with output := some output }

/-- Both panels are blanked; only the desk has a rule. -/
def bothBlanked : StateSnapshot where
  displays := [(⟨"desk"⟩, ⟨.blanked, 1⟩), (⟨"tv"⟩, ⟨.blanked, 1⟩)]

def panelRunner : Runner :=
  firstRunner deskLoader (deskBoot [1])
    (panelConfig [(⟨"desk"⟩, deskMonitor), (⟨"tv"⟩, television "HDMI-1")]) .default

def panelAttempt (tvError : Option String) : Attempt :=
  { deskAttempt [1] true with
    preliminary := some bothBlanked
    wakeError := fun id => if id = ⟨"tv"⟩ then tvError else none }

/-- The reload that takes the television away, with the outcome of its wake. -/
def tvRemoved (tvError : Option String) : Turn :=
  panelRunner.reloadInto (panelConfig [(⟨"desk"⟩, deskMonitor)]) .default
    ⟨.missing, .missing⟩ (panelAttempt tvError)

def tvRewired : Turn :=
  panelRunner.reloadInto
    (panelConfig [(⟨"desk"⟩, deskMonitor), (⟨"tv"⟩, television "HDMI-2")]) .default
    ⟨.missing, .missing⟩ (panelAttempt none)

theorem none_left_dark_iff_removed :
    NoneLeftDark panelSetup (fun _ => True) bothBlanked (tvRemoved none) := by
  refine (none_left_dark_iff panelSetup (fun _ => True) panelRunner
    (panelConfig [(⟨"desk"⟩, deskMonitor)]) .default ⟨.missing, .missing⟩ (panelAttempt none)
    bothBlanked rfl rfl rfl rfl rfl ⟨by decide, by decide, rfl⟩).mpr ?_
  have hverified : verifiedDisplays panelRunner.generation.cfg
      (panelConfig [(⟨"desk"⟩, deskMonitor)]) bothBlanked = [⟨"tv"⟩] := by decide +kernel
  constructor
  · intro _ display hmem
    cases List.mem_cons.mp hmem with
    | inl hdesk =>
      subst hdesk
      exact ⟨fun _ => ⟨rfl, fun _ _ _ _ => rfl⟩, fun _ hruled => absurd (by decide) hruled⟩
    | inr htv =>
      have htv := List.mem_singleton.mp htv
      subst htv
      exact ⟨fun _ => ⟨rfl, fun _ _ _ _ => rfl⟩, fun _ _ hchanged =>
        absurd hchanged (by decide +kernel)⟩
  · intro hfails
    refine absurd ⟨?_, rfl⟩ hfails
    rw [hverified]
    decide

/-- The television's wake fails: the desk, blanked before, is Active in the rebuilt generation,
and nobody wakes it. A television that is rewired is woken, and restored as blanked. -/
theorem desk_left_dark :
    ¬ NoneLeftDark panelSetup (fun _ => True) bothBlanked (tvRemoved (some "no reply")) ∧
      ¬ NoneLeftDark panelSetup (fun _ => True) bothBlanked tvRewired := by
  constructor
  · intro h
    have hphase : ((tvRemoved (some "no reply")).machine panelSetup ⟨"desk"⟩).map (·.phase) =
        some .active := by decide +kernel
    cases h.1 (⟨"desk"⟩, ⟨.blanked, 1⟩) List.mem_cons_self trivial with
    | inl hanswers =>
      obtain ⟨machine, hmachine, hdark, -⟩ := hanswers
      rw [hmachine, Option.map_some] at hphase
      rw [Option.some.inj hphase] at hdark
      simp at hdark
    | inr hwoken =>
      cases hwoken with
      | inl hwake =>
        obtain ⟨error, hmem⟩ := hwake
        have hactions : (tvRemoved (some "no reply")).actions =
            [.wake ⟨"tv"⟩ (some "no reply"),
              .spawn { panelRunner.generation with engine := some ⟨2, ⟨0⟩⟩ } (some bothBlanked)
                (some "removed display 'tv' failed verified wake: no reply")] := by
          decide +kernel
        rw [hactions] at hmem
        simp at hmem
      | inr hdefensive => exact absurd hdefensive (by decide +kernel)
  · intro h
    have hphase : (tvRewired.machine panelSetup ⟨"tv"⟩).map (·.phase) = some .blanked := by
      decide +kernel
    obtain ⟨machine, hmachine, hblanked⟩ := Option.map_eq_some_iff.mp hphase
    exact h.2 ⟨"tv"⟩ (by decide +kernel) machine hmachine hblanked

end Dormant.Reload
