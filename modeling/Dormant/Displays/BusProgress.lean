import Dormant.Displays.BusOrder
import Dormant.Foundations.Rounds
import Mathlib.Algebra.Order.Ring.Nat

/-!
# The DDC bus never locks up

The lock of a panel is taken before the gate, and the gate before a cache, so some worker can
always go on. Whatever the hardware answers, workers that get their turns come to their ends.
-/

namespace Dormant
set_option autoImplicit false

namespace DdcBus

variable {b : Bus} {n : ℕ} {w w' : Worker}

/-- The steps that a transaction has before it, at most. -/
def Stage.rank : Stage → ℕ
  | .called => 9
  | .announced | .checked => 8
  | .locked | .tried => 7
  | .entered => 6
  | .gated => 5
  | .missed => 4
  | .operating _ _ => 3
  | .leaving => 2
  | .left => 1
  | .done => 0

def GateStage.rank : GateStage → ℕ
  | .awaiting => 2
  | .inside => 1
  | .done => 0

def Worker.rank : Worker → ℕ
  | .vcp _ stage => stage.rank
  | .scan stage | .teardown _ stage => stage.rank

def Bus.rank (b : Bus) : ℕ := (b.workers.map Worker.rank).sum

/-- Nothing that the worker needs is in the hands of another. -/
def Bus.ready (b : Bus) : Worker → Prop
  | .vcp r .announced => b.holder r.panel = none
  | .vcp _ .entered => b.gate = none
  | .scan .awaiting | .teardown _ .awaiting => b.gate = none
  | .vcp _ .done | .scan .done | .teardown _ .done => False
  | _ => True

/-- The worker's next move, if the hardware answers so. -/
def Worker.move (found : Option String) (result : OpResult) (n : ℕ) : Worker → Move
  | .vcp _ .missed => .resolve n found
  | .vcp _ (.operating _ _) => .finish n result
  | _ => .go n

variable (found : ℕ → Option String) (result : ℕ → OpResult)

/-- The workers at hand, in the order of their turns. -/
def shift : Runs.System Bus ℕ Empty where
  next b n :=
    match b.workers[n]? with
    | some w => (b.next (w.move (found n) (result n) n), [])
    | none => (b, [])

theorem rank_set {workers : List Worker} (hw : workers[n]? = some w) (w' : Worker) :
    ((workers.set n w').map Worker.rank).sum + w.rank =
      (workers.map Worker.rank).sum + w'.rank := by
  induction workers generalizing n with
  | nil => cases hw
  | cons v workers ih =>
    cases n with
    | zero =>
      cases hw
      simp only [List.set_cons_zero, List.map_cons, List.sum_cons]
      omega
    | succ n =>
      have := ih (n := n) hw
      simp only [List.set_cons_succ, List.map_cons, List.sum_cons]
      omega

theorem rank_after (hready : b.ready w) (hgo : ∀ f o, w.move f o n = .go n) :
    (b.after w).rank < w.rank := by
  cases w with
  | vcp r stage =>
    cases stage with
    | called =>
      simp only [Bus.after, Bus.advance, Worker.rank]
      split
      · exact Nat.lt_succ_self _
      · split <;> simp [Stage.rank]
    | announced | entered =>
      simp only [Bus.ready] at hready
      simp [Bus.after, Bus.advance, Worker.rank, hready, Stage.rank]
    | checked | tried =>
      simp only [Bus.after, Bus.advance, Worker.rank]
      split <;> simp [Stage.rank]
    | gated =>
      simp only [Bus.after, Bus.advance, Worker.rank]
      split
      · split <;> simp [Stage.rank]
      · simp [Stage.rank]
    | missed => cases hgo none .panicked
    | operating => cases hgo none .panicked
    | done => cases hready
    | _ => exact Nat.lt_succ_self _
  | scan stage | teardown _ stage =>
    cases stage with
    | awaiting =>
      simp only [Bus.ready] at hready
      simp [Bus.after, Bus.passGate, Worker.rank, hready, GateStage.rank]
    | inside => exact Nat.lt_succ_self _
    | done => cases hready

theorem go_blocked (hw : b.workers[n]? = some w) (hready : ¬ b.ready w) : b.go n = b := by
  rw [Bus.go, hw]
  cases w with
  | vcp r stage =>
    cases stage with
    | announced =>
      simp only [Bus.ready] at hready
      simp only [Bus.transact, hready, if_false]
    | entered =>
      simp only [Bus.ready] at hready
      simp only [Bus.transact, hready, if_false]
    | done => rfl
    | _ => exact absurd trivial hready
  | scan stage =>
    cases stage with
    | awaiting =>
      simp only [Bus.ready] at hready
      simp only [Bus.listDisplays, hready, if_false]
    | inside => exact absurd trivial hready
    | done => rfl
  | teardown cache stage =>
    cases stage with
    | awaiting =>
      simp only [Bus.ready] at hready
      simp only [Bus.drainForTeardown, hready, if_false]
    | inside => exact absurd trivial hready
    | done => rfl

theorem shift_some (hw : b.workers[n]? = some w) :
    ((shift found result).next b n).1 = b.next (w.move (found n) (result n) n) := by
  simp only [shift, hw]

theorem workers_resolve {r : Request} (hw : b.workers[n]? = some (.vcp r .missed))
    (answer : Option String) : ∃ stage, stage.rank < 4 ∧
      (b.resolve n answer).workers = b.workers.set n (.vcp r stage) := by
  simp only [Bus.resolve, hw]
  cases answer with
  | none => exact ⟨.leaving, by decide, rfl⟩
  | some canonical =>
    dsimp only
    split
    · exact ⟨.operating _ _, by simp [Stage.rank], rfl⟩
    · exact ⟨.leaving, by decide, rfl⟩

theorem workers_finish {r : Request} {handle resolvedAt : ℕ}
    (hw : b.workers[n]? = some (.vcp r (.operating handle resolvedAt))) (outcome : OpResult) :
    (b.finish n outcome).workers = b.workers.set n (.vcp r .leaving) := by
  simp only [Bus.finish, hw]
  split <;> rfl

theorem move_workers (hw : b.workers[n]? = some w) (answer : Option String)
    (outcome : OpResult) : ∃ w', (b.next (w.move answer outcome n)).workers = b.workers.set n w' ∧
      (b.ready w → w'.rank < w.rank) := by
  by_cases hgo : ∀ f o, w.move f o n = .go n
  · refine ⟨b.after w, ?_, fun hready => rank_after hready hgo⟩
    rw [hgo]
    exact go_workers hw
  · cases w with
    | vcp r stage =>
      cases stage with
      | missed =>
        obtain ⟨stage, hlt, hset⟩ := workers_resolve hw answer
        exact ⟨_, hset, fun _ => hlt⟩
      | operating => exact ⟨_, workers_finish hw outcome, fun _ => Nat.lt_succ_self _⟩
      | _ => exact absurd (fun _ _ => rfl) hgo
    | scan => exact absurd (fun _ _ => rfl) hgo
    | teardown => exact absurd (fun _ _ => rfl) hgo

/-- A worker that can go on comes nearer to its end. -/
theorem shift_lower (hw : b.workers[n]? = some w) (hready : b.ready w) :
    ((shift found result).next b n).1.rank < b.rank := by
  obtain ⟨w', hset, hlt⟩ := move_workers hw (found n) (result n)
  have hsum := rank_set hw w'
  have hless := hlt hready
  rw [shift_some found result hw, Bus.rank, hset, Bus.rank]
  omega

theorem shift_idle_or_lower (b : Bus) (n : ℕ) : ((shift found result).next b n).1 = b ∨
    ((shift found result).next b n).1.rank < b.rank := by
  cases hw : b.workers[n]? with
  | none => exact .inl (by simp only [shift, hw])
  | some w =>
    by_cases hready : b.ready w
    · exact .inr (shift_lower found result hw hready)
    · refine .inl ?_
      have hgo : w.move (found n) (result n) n = .go n := by
        cases w with
        | vcp r stage =>
          cases stage with
          | missed => exact absurd trivial hready
          | operating => exact absurd trivial hready
          | _ => rfl
        | _ => rfl
      rw [shift_some found result hw, hgo]
      exact go_blocked hw hready

/-- The holder of the gate can go on, and if nobody has it, the holder of a panel's lock can. -/
theorem ready_of_holdsGate (hgate : w.holdsGate = true) : b.ready w := by
  cases w with
  | vcp r stage =>
    cases stage with
    | announced | entered | done => cases hgate
    | _ => trivial
  | scan stage | teardown _ stage =>
    cases stage with
    | awaiting | done => cases hgate
    | inside => trivial

theorem ready_of_holds {panel : String} (hgate : b.gate = none) (hholds : w.holds panel = true) :
    b.ready w := by
  cases w with
  | vcp r stage =>
    cases stage with
    | announced | done => simp [Worker.holds, Stage.holdsPanel, Stage.inside] at hholds
    | entered => exact hgate
    | _ => trivial
  | scan => cases hholds
  | teardown => cases hholds

theorem exists_ready (h : Locks b) (hrank : b.rank ≠ 0) :
    ∃ (n : ℕ) (w : Worker), b.workers[n]? = some w ∧ b.ready w := by
  cases hgate : b.gate with
  | some n =>
    obtain ⟨w, hw, hholds⟩ := (h.gates n).mp hgate
    exact ⟨n, w, hw, ready_of_holdsGate hholds⟩
  | none =>
    obtain ⟨w, hmem, hw⟩ : ∃ w ∈ b.workers, w.rank ≠ 0 := by
      obtain ⟨k, hk, hpos⟩ := List.sum_pos_iff_exists_pos_nat.mp (Nat.pos_of_ne_zero hrank)
      obtain ⟨w, hw, rfl⟩ := List.mem_map.mp hk
      exact ⟨w, hw, hpos.ne'⟩
    obtain ⟨n, hn⟩ := List.mem_iff_getElem?.mp hmem
    by_cases hready : b.ready w
    · exact ⟨n, w, hn, hready⟩
    · -- Only the lock of a panel can keep it waiting, and whoever has that can go on.
      cases w with
      | vcp r stage =>
        cases stage with
        | announced =>
          cases hholder : b.holder r.panel with
          | none => exact absurd hholder hready
          | some m =>
            obtain ⟨w', hm, hholds⟩ := (h.panels r.panel m).mp hholder
            exact ⟨m, w', hm, ready_of_holds hgate hholds⟩
        | entered => exact absurd hgate hready
        | done => exact absurd rfl hw
        | _ => exact absurd trivial hready
      | scan stage | teardown _ stage =>
        cases stage with
        | awaiting => exact absurd hgate hready
        | inside => exact absurd trivial hready
        | done => exact absurd rfl hw

theorem shift_length (b : Bus) (n : ℕ) :
    ((shift found result).next b n).1.workers.length = b.workers.length := by
  cases hw : b.workers[n]? with
  | none => simp only [shift, hw]
  | some w =>
    obtain ⟨w', hset, -⟩ := move_workers hw (found n) (result n)
    rw [shift_some found result hw, hset, List.length_set]

theorem locks_shift (h : Locks b) (n : ℕ) : Locks ((shift found result).next b n).1 := by
  cases hw : b.workers[n]? with
  | none => simpa only [shift, hw] using h
  | some w =>
    rw [shift_some found result hw]
    exact locks_next h _

/-- Whatever has happened, and whatever the hardware answers: once there are no new workers, turns
in any order, one or more for each worker in every round, bring all of them to their ends. -/
theorem bus_drains (now : ℕ) (moves : List Move) (rounds : List (List ℕ))
    (hfair : ∀ round ∈ rounds, ∀ n < (ddcBus.run (.idle now) moves).workers.length, n ∈ round)
    (hlong : (ddcBus.run (.idle now) moves).rank ≤ rounds.length) :
    ∀ w ∈ ((shift found result).run (ddcBus.run (.idle now) moves) rounds.flatten).workers,
      w.rank = 0 := by
  let size := (ddcBus.run (.idle now) moves).workers.length
  have hinv (b : Bus) (n : ℕ) (h : Locks b ∧ b.workers.length = size) :
      Locks ((shift found result).next b n).1 ∧
        ((shift found result).next b n).1.workers.length = size :=
    ⟨locks_shift found result h.1 n, (shift_length found result b n).trans h.2⟩
  have hready (b : Bus) (h : Locks b ∧ b.workers.length = size) (hrank : b.rank ≠ 0) :
      ∃ n, n < size ∧ ((shift found result).next b n).1.rank < b.rank := by
    obtain ⟨n, w, hw, hready⟩ := exists_ready h.1 hrank
    exact ⟨n, h.2 ▸ (List.getElem?_eq_some_iff.mp hw).1, shift_lower found result hw hready⟩
  have hrest := Runs.System.rounds_rest hinv
    (fun b n _ => shift_idle_or_lower found result b n) (· < size) hready
    ⟨locks_run now moves, rfl⟩ hfair hlong
  intro w hw
  exact List.sum_eq_zero_iff_forall_eq_nat.mp hrest _ (List.mem_map_of_mem hw)

/-- A poll and a scan of the bus, in rounds that give the scan its turn first. -/
theorem bus_drains_scanned :
    (ddcBus.run (.idle 0) [.call ⟨"ddc:aoc:1", 0, "AOC", .sampler⟩, .scan]).rank = 11 ∧
    ∀ w ∈ ((shift (fun _ => none) (fun _ => .value)).run
      (ddcBus.run (.idle 0) [.call ⟨"ddc:aoc:1", 0, "AOC", .sampler⟩, .scan])
      (List.replicate 11 [1, 0]).flatten).workers, w.rank = 0 :=
  ⟨rfl, bus_drains _ _ 0 _ _ (fun round hround n hn => by
    rw [List.eq_of_mem_replicate hround]
    have hlt : n < 2 := hn
    simp only [List.mem_cons]
    omega) (by decide)⟩

end DdcBus
end Dormant
