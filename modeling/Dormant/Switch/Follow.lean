import Mathlib.Data.List.Induction
import Dormant.Foundations.Runs
import Dormant.Input.Supervisor

/-!
# Following local activity

`activity_follow.rs`: an edge of local activity pulls the displays, once the latest one is older
than the window.
-/

namespace Dormant
set_option autoImplicit false

namespace Follow

structure IdleObservation where
  lastActivity : Option ℕ
  observedAt : ℕ
  available : Bool
  deriving DecidableEq, Repr

inductive ActivityUpdate where
  | stock
  | filtered
  deriving DecidableEq, Repr

/-- What `detect_activity_edge` keeps between its calls. -/
structure EdgeDetector where
  lastStockActivity : Option ℕ := none
  lastFilteredEdgeSeq : ℕ := 0
  filteredWasAvailable : Bool := false
  deriving DecidableEq, Repr

def detectActivityEdge (update : ActivityUpdate) (stock : IdleObservation)
    (filtered : FilteredActivity) (d : EdgeDetector) : EdgeDetector × Bool :=
  if filtered.available then
    if update = .filtered ∧ d.lastFilteredEdgeSeq < filtered.edgeSeq then
      ({ d with filteredWasAvailable := true, lastFilteredEdgeSeq := filtered.edgeSeq }, true)
    else ({ d with filteredWasAvailable := true }, false)
  else if d.filteredWasAvailable then
    ({ d with filteredWasAvailable := false, lastStockActivity := stock.lastActivity }, false)
  else
    match d.lastStockActivity, stock.lastActivity with
    | none, some activity => ({ d with lastStockActivity := some activity }, true)
    | some previous, some activity =>
      if previous < activity then ({ d with lastStockActivity := some activity }, true)
      else (d, false)
    | _, none => ({ d with lastStockActivity := none }, false)

/-- An update that the loop takes, with what it reads: the two observations, the clock where an
edge is noted and the clock where the window is tested. -/
structure Update where
  update : ActivityUpdate
  observation : IdleObservation
  filtered : FilteredActivity
  noted : ℕ
  tested : ℕ
  deriving DecidableEq, Repr

structure FollowState where
  detector : EdgeDetector := {}
  edgeTime : Option ℕ := none
  deriving DecidableEq, Repr

/-- What the loop makes of an update; `pulled` are the displays of a committed round. -/
structure Processed where
  update : Update
  edge : Bool
  pulled : Option (List DisplayId)
  deriving DecidableEq, Repr

/-- The loop, without cancellation. -/
def activityFollowLoop (armAfter : ℕ) (displayIds : List DisplayId) :
    Runs.System FollowState Update Processed where
  next s u :=
    let detected := detectActivityEdge u.update u.observation u.filtered s.detector
    let edgeTime := if detected.2 then some u.noted else s.edgeTime
    if edgeTime.any (· + armAfter ≤ u.tested) then
      ({ detector := detected.1, edgeTime := none }, [⟨u, detected.2, some displayIds⟩])
    else ({ detector := detected.1, edgeTime := edgeTime }, [⟨u, detected.2, none⟩])

/-- The edge noted at a time is the latest one, and no round has been committed since. -/
def Pending (log : List Processed) (time : ℕ) : Prop :=
  ∃ earlier edge rest, log = earlier ++ edge :: rest ∧
    (edge.edge = true ∧ edge.update.noted = time ∧ edge.pulled = none) ∧
    ∀ later ∈ rest, later.edge = false ∧ later.pulled = none

theorem not_pending_nil (time : ℕ) : ¬ Pending [] time := by
  rintro ⟨earlier, edge, rest, hlog, -⟩
  exact absurd hlog.symm (List.append_ne_nil_of_right_ne_nil _ (List.cons_ne_nil _ _))

/-- One more update brings its own edge or leaves the latest. -/
theorem pending_concat (log : List Processed) (processed : Processed) (time : ℕ) :
    Pending (log ++ [processed]) time ↔ processed.pulled = none ∧
      (processed.edge = true ∧ processed.update.noted = time ∨
        processed.edge = false ∧ Pending log time) := by
  constructor
  · rintro ⟨earlier, edge, rest, hlog, hedge, hrest⟩
    rcases List.eq_nil_or_concat rest with rfl | ⟨rest, last, rfl⟩
    · obtain ⟨-, hlast⟩ := List.append_inj' hlog rfl
      rw [(List.cons.inj hlast).1]
      exact ⟨hedge.2.2, .inl ⟨hedge.1, hedge.2.1⟩⟩
    · rw [List.concat_eq_append, ← List.cons_append, ← List.append_assoc] at hlog
      obtain ⟨hfirst, hlast⟩ := List.append_inj' hlog rfl
      rw [List.concat_eq_append] at hrest
      obtain ⟨hquiet, hnone⟩ := hrest last (List.mem_append_right _ List.mem_cons_self)
      rw [(List.cons.inj hlast).1]
      exact ⟨hnone, .inr ⟨hquiet, earlier, edge, rest, hfirst, hedge,
        fun later hlater => hrest later (List.mem_append_left _ hlater)⟩⟩
  · rintro ⟨hnone, ⟨hedge, htime⟩ | ⟨hquiet, earlier, edge, rest, hlog, hedge, hrest⟩⟩
    · exact ⟨log, processed, [], rfl, ⟨hedge, htime, hnone⟩,
        fun _ hmem => absurd hmem List.not_mem_nil⟩
    · refine ⟨earlier, edge, rest ++ [processed], ?_, hedge, fun later hlater => ?_⟩
      · rw [hlog, List.append_assoc, List.cons_append]
      · rcases List.mem_append.mp hlater with hlater | hlater
        · exact hrest later hlater
        · rw [List.mem_singleton.mp hlater]
          exact ⟨hquiet, hnone⟩

/-- What is pending came after the latest round. -/
theorem exists_edge_of_pending {before between : List Processed} {first : Processed} {time : ℕ}
    (h : Pending (before ++ first :: between) time) (hfirst : first.pulled ≠ none) :
    ∃ processed ∈ between, processed.edge = true := by
  induction between using List.reverseRecOn with
  | nil => exact absurd ((pending_concat before first time).mp h).1 hfirst
  | append_singleton between last ih =>
    rw [← List.cons_append, ← List.append_assoc, pending_concat] at h
    obtain ⟨-, ⟨hedge, -⟩ | ⟨-, hpending⟩⟩ := h
    · exact ⟨last, List.mem_append_right _ List.mem_cons_self, hedge⟩
    · obtain ⟨processed, hmem, hedge⟩ := ih hpending
      exact ⟨processed, List.mem_append_left _ hmem, hedge⟩

/-- The latest edge, the update's own or a pending one, is as old as the window. -/
def Due (armAfter : ℕ) (log : List Processed) (processed : Processed) : Prop :=
  ∃ time, (processed.edge = true ∧ processed.update.noted = time ∨
      processed.edge = false ∧ Pending log time) ∧
    time + armAfter ≤ processed.update.tested

/-- A round is committed just when it is due. -/
structure OnTime (armAfter : ℕ) (displayIds : List DisplayId) (log : List Processed)
    (processed : Processed) : Prop where
  due : Due armAfter log processed → processed.pulled = some displayIds
  notDue : ¬ Due armAfter log processed → processed.pulled = none

variable (armAfter : ℕ) (displayIds : List DisplayId)

theorem next_spec (s : FollowState) (u : Update) {log : List Processed}
    (hs : ∀ time, s.edgeTime = some time ↔ Pending log time) :
    ∃ processed, ((activityFollowLoop armAfter displayIds).next s u).2 = [processed] ∧
      processed.update = u ∧ OnTime armAfter displayIds log processed ∧
      ∀ time, ((activityFollowLoop armAfter displayIds).next s u).1.edgeTime = some time ↔
        Pending (log ++ [processed]) time := by
  unfold activityFollowLoop
  dsimp only
  generalize detectActivityEdge u.update u.observation u.filtered s.detector = detected
  obtain ⟨detector, edge⟩ := detected
  dsimp only
  have hlatest (time : ℕ) : (if edge = true then some u.noted else s.edgeTime) = some time ↔
      (edge = true ∧ u.noted = time ∨ edge = false ∧ Pending log time) := by
    cases edge with
    | true => simp
    | false => simp [hs]
  generalize (if edge = true then some u.noted else s.edgeTime) = edgeTime at hlatest ⊢
  have hdue (pulled : Option (List DisplayId)) : Due armAfter log ⟨u, edge, pulled⟩ ↔
      edgeTime.any (· + armAfter ≤ u.tested) = true := by
    rw [Option.any_eq_true]
    refine exists_congr fun time => and_congr (hlatest time).symm ?_
    rw [decide_eq_true_eq]
  by_cases hold : edgeTime.any (· + armAfter ≤ u.tested) = true
  · rw [if_pos hold]
    refine ⟨_, rfl, rfl, ⟨fun _ => rfl, fun hnot => absurd ((hdue _).mpr hold) hnot⟩,
      fun time => ?_⟩
    rw [pending_concat]
    simp
  · rw [if_neg hold]
    refine ⟨_, rfl, rfl, ⟨fun hyes => absurd ((hdue _).mp hyes) hold, fun _ => rfl⟩,
      fun time => ?_⟩
    rw [pending_concat, hlatest]
    simp

/-- Every update is processed, and the loop keeps the pending edge. -/
theorem run_spec (updates : List Update) :
    let follow := activityFollowLoop armAfter displayIds
    (follow.outputs {} updates).map (·.update) = updates ∧
      (∀ before processed after, follow.outputs {} updates = before ++ processed :: after →
        OnTime armAfter displayIds before processed) ∧
      ∀ time, (follow.run {} updates).edgeTime = some time ↔
        Pending (follow.outputs {} updates) time := by
  intro follow
  induction updates using List.reverseRecOn with
  | nil =>
    refine ⟨rfl, fun before processed after h => ?_, fun time => ?_⟩
    · exact absurd h.symm (List.append_ne_nil_of_right_ne_nil _ (List.cons_ne_nil _ _))
    · exact ⟨fun h => absurd h.symm (Option.some_ne_none time),
        fun h => absurd h (not_pending_nil time)⟩
  | append_singleton updates u ih =>
    obtain ⟨hupdates, hall, hpending⟩ := ih
    obtain ⟨processed, houtput, hupdate, hontime, hnext⟩ :=
      next_spec armAfter displayIds (follow.run {} updates) u hpending
    have houtputs : follow.outputs {} (updates ++ [u]) =
        follow.outputs {} updates ++ [processed] := by
      rw [Runs.System.outputs_append]
      exact congrArg (_ ++ ·) ((List.append_nil _).trans houtput)
    rw [houtputs, Runs.System.run_append]
    refine ⟨?_, fun before other after hlog => ?_, hnext⟩
    · rw [List.map_append, hupdates, List.map_singleton, hupdate]
    · rcases List.eq_nil_or_concat after with rfl | ⟨after, last, rfl⟩
      · obtain ⟨hbefore, hother⟩ := List.append_inj' hlog rfl
        rw [← hbefore, ← (List.cons.inj hother).1]
        exact hontime
      · rw [List.concat_eq_append, ← List.cons_append, ← List.append_assoc] at hlog
        exact hall before other after (List.append_inj' hlog rfl).1

/-- A round is committed at the first update at which the latest edge is as old as the window, and
takes all edges up to it: another edge starts the window again. -/
theorem pulls_after_latest_edge (updates : List Update) :
    let log := (activityFollowLoop armAfter displayIds).outputs {} updates
    log.map (·.update) = updates ∧
      (∀ before processed after, log = before ++ processed :: after →
        OnTime armAfter displayIds before processed) ∧
      ∀ before first between second after,
        log = before ++ first :: (between ++ second :: after) → first.pulled ≠ none →
          second.pulled ≠ none → ∃ processed ∈ between ++ [second], processed.edge = true := by
  intro log
  obtain ⟨hupdates, hall, -⟩ := run_spec armAfter displayIds updates
  refine ⟨hupdates, hall, fun before first between second after hlog hfirst hsecond => ?_⟩
  have hsplit : log = (before ++ first :: between) ++ second :: after := by
    rw [hlog, List.append_assoc, List.cons_append]
  have hontime := hall _ second after hsplit
  have hdue := not_not.mp (mt hontime.notDue hsecond)
  obtain ⟨time, ⟨hedge, -⟩ | ⟨-, hpending⟩, -⟩ := hdue
  · exact ⟨second, List.mem_append_right _ List.mem_cons_self, hedge⟩
  · obtain ⟨processed, hmem, hedge⟩ := exists_edge_of_pending hpending hfirst
    exact ⟨processed, List.mem_append_left _ hmem, hedge⟩

/-- Somebody who goes on typing has pulled nothing when the window after the first edge is over. -/
theorem typing_postpones_pull :
    ¬ ∀ (armAfter : ℕ) (displayIds : List DisplayId) (updates : List Update),
      updates.Pairwise (fun u v => u.tested ≤ v.noted) → (∀ u ∈ updates, u.noted ≤ u.tested) →
      ∀ before first between processed after,
        (activityFollowLoop armAfter displayIds).outputs {} updates =
          before ++ first :: (between ++ processed :: after) →
        (∀ earlier ∈ before, earlier.edge = false) → first.edge = true →
        (∀ earlier ∈ between, earlier.update.tested < first.update.noted + armAfter) →
        first.update.noted + armAfter ≤ processed.update.tested →
          processed.pulled = some displayIds := by
  intro h
  let typed (time : ℕ) : Update :=
    ⟨.stock, ⟨some time, time, true⟩, FilteredActivity.unavailable 0, time, time⟩
  have hpulled := h 100 [{ id := "tv" }] [typed 1, typed 61, typed 121] (by decide) (by decide) []
    ⟨typed 1, true, none⟩ [⟨typed 61, true, none⟩] ⟨typed 121, true, none⟩ [] (by decide)
    (by decide) rfl (by decide) (by decide)
  cases hpulled

end Follow
end Dormant
