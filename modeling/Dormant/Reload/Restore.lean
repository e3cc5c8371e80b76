import Dormant.Reload.Runner
import Dormant.StateMachine.Step

/-!
# The machines of a rebuilt engine

`DisplayStateMachine::restore`, `install_restored_machine` and `apply_restore`: what becomes of the
machines of a snapshot when the next engine is built from a configuration. A display with a rule
starts anew; one without keeps its phase where that is Blanked or Waking.
-/

namespace Dormant
set_option autoImplicit false

/-- `restore`, with its initial effects. -/
def DisplayStateMachine.restore (timings : SmTimings) (ladder : List LadderStage) (phase : Phase)
    (cmdGen : UInt64) (now : ℕ) : DisplayStateMachine × List Effect :=
  let sm := { DisplayStateMachine.new timings ladder now with cmdGen := cmdGen, phase := phase }
  match phase with
  | .waking => (sm, [.scheduleTickAt (now + timings.wakeRetryInterval)])
  | .grace untilTick => (sm, [.scheduleTickAt untilTick])
  | _ => (sm, [])

/-- A machine in Blanked or Waking answers a wake request with a wake command. -/
theorem DisplayStateMachine.forceWake_wakes {s : DisplayStateMachine}
    (h : s.phase = .blanked ∨ s.phase = .waking) (now : ℕ) :
    .issueWake (s.cmdGen + 1) ∈ (s.step .forceWake now).2 := by
  unfold DisplayStateMachine.step
  cases h with
  | inl h =>
    rw [h]
    simp [DisplayStateMachine.stepBlanked, DisplayStateMachine.issueWake]
  | inr h =>
    rw [h]
    simp [DisplayStateMachine.stepWaking, DisplayStateMachine.issueWake]

namespace Reload

/-- What an engine is built with, besides its configuration. -/
structure EngineSetup where
  timings : Config → DisplayId → SmTimings
  ladder : Config → DisplayId → List LadderStage
  owns : DisplayId → Bool
  now : ℕ

/-- An engine that has not run yet. -/
structure BuiltEngine where
  machines : DisplayId → Option DisplayStateMachine
  pendingRestore : List (DisplayId × List Effect)

/-- The phases that are restored. A naked Blanking is not. -/
def restoredPhase : PhaseName → Option Phase
  | .waking => some .waking
  | .blanked => some .blanked
  | _ => none

namespace EngineSetup
variable (setup : EngineSetup) (cfg : Config)

def fresh (id : DisplayId) : DisplayStateMachine :=
  ((DisplayStateMachine.new (setup.timings cfg id) (setup.ladder cfg id) setup.now).step
    (.ownershipChanged (setup.owns id)) setup.now).1

/-- A machine in a restored phase, with its ownership fed again. -/
def restored (id : DisplayId) (phase : Phase) (cmdGen : UInt64) :
    DisplayStateMachine × List Effect :=
  let machine := DisplayStateMachine.restore (setup.timings cfg id) (setup.ladder cfg id) phase
    cmdGen setup.now
  let fed := machine.1.step (.ownershipChanged (setup.owns id)) setup.now
  (fed.1, machine.2 ++ fed.2)

/-- The machines of `RulesEngine::new`. -/
def build : BuiltEngine where
  machines id := if id ∈ cfg.ids then some (setup.fresh cfg id) else none
  pendingRestore := []

/-- One display of `apply_restore`. -/
def restoreDisplay (engine : BuiltEngine) (display : DisplayId × DisplaySnapshot) : BuiltEngine :=
  if display.1 ∈ cfg.ids then
    match restoredPhase display.2.phase with
    | none => engine
    | some phase =>
      if display.1 ∈ cfg.ruled then
        let effects := (DisplayStateMachine.restore (setup.timings cfg display.1)
          (setup.ladder cfg display.1) phase display.2.cmdGen setup.now).2
        { engine with pendingRestore := engine.pendingRestore ++ [(display.1, effects)] }
      else if (engine.machines display.1).isSome then
        let restored := setup.restored cfg display.1 phase display.2.cmdGen
        { machines := Function.update engine.machines display.1 (some restored.1)
          pendingRestore := engine.pendingRestore ++ [(display.1, restored.2)] }
      else engine
  else engine

/-- The engine of `spawn_generation`. -/
def spawned (restore : Option StateSnapshot) : BuiltEngine :=
  match restore with
  | none => setup.build cfg
  | some snapshot => snapshot.displays.foldl (setup.restoreDisplay cfg) (setup.build cfg)

/-! ## What a display's machine is -/

theorem phase_fresh (id : DisplayId) : (setup.fresh cfg id).phase = .active := by
  unfold fresh
  cases setup.owns id <;> rfl

theorem phase_restored_blanked (id : DisplayId) (cmdGen : UInt64) :
    (setup.restored cfg id .blanked cmdGen).1.phase =
      if setup.owns id then .blanked else .active := by
  unfold restored
  cases setup.owns id <;> rfl

theorem phase_restored_waking (id : DisplayId) (cmdGen : UInt64) :
    (setup.restored cfg id .waking cmdGen).1.phase = .waking := by
  unfold restored
  cases setup.owns id <;> rfl

theorem restoreDisplay_other {engine : BuiltEngine} {display : DisplayId × DisplaySnapshot}
    {id : DisplayId} (hid : id ≠ display.1) :
    (setup.restoreDisplay cfg engine display).machines id = engine.machines id := by
  unfold restoreDisplay
  split
  · split
    · rfl
    · split
      · rfl
      · split
        · exact Function.update_of_ne hid _ _
        · rfl
  · rfl

theorem restoreDisplays_other {displays : List (DisplayId × DisplaySnapshot)} {id : DisplayId}
    (hid : id ∉ displays.map Prod.fst) (engine : BuiltEngine) :
    (displays.foldl (setup.restoreDisplay cfg) engine).machines id = engine.machines id := by
  induction displays generalizing engine with
  | nil => rfl
  | cons display displays ih =>
    rw [List.map_cons, List.mem_cons, not_or] at hid
    exact (ih hid.2 _).trans (setup.restoreDisplay_other cfg hid.1)

/-- The machine of a display of the snapshot. -/
theorem machine_spawned {snapshot : StateSnapshot} (hnodup : (snapshot.displays.map Prod.fst).Nodup)
    {display : DisplayId × DisplaySnapshot} (hmem : display ∈ snapshot.displays) :
    (setup.spawned cfg (some snapshot)).machines display.1 =
      if display.1 ∈ cfg.ids then
        match restoredPhase display.2.phase with
        | some phase =>
          if display.1 ∈ cfg.ruled then some (setup.fresh cfg display.1)
          else some (setup.restored cfg display.1 phase display.2.cmdGen).1
        | none => some (setup.fresh cfg display.1)
      else none := by
  obtain ⟨before, after, hsplit⟩ := List.append_of_mem hmem
  have hkeys : display.1 ∉ before.map Prod.fst ∧ display.1 ∉ after.map Prod.fst := by
    rw [hsplit, List.map_append, List.map_cons, List.nodup_append] at hnodup
    obtain ⟨-, hrest, hapart⟩ := hnodup
    refine ⟨fun h => ?_, (List.nodup_cons.mp hrest).1⟩
    exact hapart _ h _ List.mem_cons_self rfl
  show (snapshot.displays.foldl (setup.restoreDisplay cfg) (setup.build cfg)).machines _ = _
  rw [hsplit, List.foldl_append, List.foldl_cons, setup.restoreDisplays_other cfg hkeys.2]
  have hbefore := setup.restoreDisplays_other cfg hkeys.1 (setup.build cfg)
  generalize before.foldl (setup.restoreDisplay cfg) (setup.build cfg) = engine at hbefore
  by_cases hids : display.1 ∈ cfg.ids
  · have hbuilt : engine.machines display.1 = some (setup.fresh cfg display.1) :=
      hbefore.trans (if_pos hids)
    unfold restoreDisplay
    rw [if_pos hids, if_pos hids]
    cases restoredPhase display.2.phase with
    | none => exact hbuilt
    | some phase =>
      dsimp only
      split
      · exact hbuilt
      · rw [hbuilt]
        exact Function.update_self _ _ _
  · unfold restoreDisplay
    rw [if_neg hids, if_neg hids]
    exact hbefore.trans (if_neg hids)

end EngineSetup
end Reload
end Dormant
