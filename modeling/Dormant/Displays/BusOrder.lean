import Dormant.Displays.DdcBus

/-!
# Order on the DDC bus

What holds in every state that the workers can reach, in whatever order they take their steps: each
lock has the one holder that it names, and `command_waiting` counts the commands that announced
themselves. From this, a command waits for at most one transaction of a sampler, a handle is in one
place and is never used once it was dropped, and no state is stuck.
-/

namespace Dormant
set_option autoImplicit false

namespace DdcBus

/-! ## The locks -/

structure Locks (b : Bus) : Prop where
  panels : ∀ p n, b.holder p = some n ↔ ∃ w, b.workers[n]? = some w ∧ w.holds p = true
  gates : ∀ n, b.gate = some n ↔ ∃ w, b.workers[n]? = some w ∧ w.holdsGate = true
  counts : ∀ p, b.commandWaiting p = b.workers.countP (Worker.announces p)

variable {b b₁ : Bus} {n m : ℕ} {w w' : Worker}

theorem workers_put (hw : b.workers[n]? = some w) (hworkers : b₁.workers = b.workers) (w' : Worker)
    (m : ℕ) : (b₁.put n w').workers[m]? = if m = n then some w' else b.workers[m]? := by
  have hlt : n < b.workers.length := by
    rw [List.getElem?_eq_some_iff] at hw
    exact hw.1
  rw [Bus.put]
  dsimp only
  rw [hworkers, List.getElem?_set]
  by_cases h : n = m
  · simp [h, h ▸ hlt]
  · simp [h, Ne.symm h]

/-- What the worker gains was free before, and what it gives up is free afterwards. -/
theorem Locks.put (h : Locks b) (hw : b.workers[n]? = some w) (hworkers : b₁.workers = b.workers)
    (hholder : ∀ p, b₁.holder p =
      if w'.holds p then some n else if w.holds p then none else b.holder p)
    (hfree : ∀ p, w'.holds p = true → w.holds p = true ∨ b.holder p = none)
    (hgate : b₁.gate = if w'.holdsGate then some n else if w.holdsGate then none else b.gate)
    (hgateFree : w'.holdsGate = true → w.holdsGate = true ∨ b.gate = none)
    (hcount : ∀ p, b₁.commandWaiting p + (if w.announces p then 1 else 0) =
      b.commandWaiting p + if w'.announces p then 1 else 0) : Locks (b₁.put n w') := by
  have hlt : n < b.workers.length := by
    rw [List.getElem?_eq_some_iff] at hw
    exact hw.1
  have hown (p : String) : b.holder p = some n ↔ w.holds p = true := by
    rw [h.panels, hw]
    simp
  have hownGate : b.gate = some n ↔ w.holdsGate = true := by
    rw [h.gates, hw]
    simp
  constructor
  · intro p m
    have hput : (b₁.put n w').holder p = b₁.holder p := rfl
    rw [hput, hholder, workers_put hw hworkers]
    by_cases hm : m = n
    · subst hm
      by_cases hnew : w'.holds p = true
      · simp [hnew]
      · by_cases hold : w.holds p = true
        · simp [hnew, hold]
        · simp [hnew, hold, hown]
    · rw [if_neg hm, ← h.panels]
      by_cases hnew : w'.holds p = true
      · rw [if_pos hnew]
        obtain hold | hnone := hfree p hnew
        · rw [(hown p).mpr hold]
        · rw [hnone]
          simp [Ne.symm hm]
      · by_cases hold : w.holds p = true
        · rw [if_neg hnew, if_pos hold, (hown p).mpr hold]
          simp [Ne.symm hm]
        · rw [if_neg hnew, if_neg hold]
  · intro m
    have hput : (b₁.put n w').gate = b₁.gate := rfl
    rw [hput, hgate, workers_put hw hworkers]
    by_cases hm : m = n
    · subst hm
      by_cases hnew : w'.holdsGate = true
      · simp [hnew]
      · by_cases hold : w.holdsGate = true
        · simp [hnew, hold]
        · simp [hnew, hold, hownGate]
    · rw [if_neg hm, ← h.gates]
      by_cases hnew : w'.holdsGate = true
      · rw [if_pos hnew]
        obtain hold | hnone := hgateFree hnew
        · rw [hownGate.mpr hold]
        · rw [hnone]
          simp [Ne.symm hm]
      · by_cases hold : w.holdsGate = true
        · rw [if_neg hnew, if_pos hold, hownGate.mpr hold]
          simp [Ne.symm hm]
        · rw [if_neg hnew, if_neg hold]
  · intro p
    have hput : (b₁.put n w').commandWaiting p = b₁.commandWaiting p := rfl
    have hworkers' : (b₁.put n w').workers = b.workers.set n w' := by rw [← hworkers]; rfl
    have hset := List.countP_set (p := Worker.announces p) hlt (a := w')
    have hget : b.workers[n] = w := by
      rw [List.getElem?_eq_some_iff] at hw
      exact hw.2
    rw [hget] at hset
    have hcnt := hcount p
    have hbefore := h.counts p
    have hpos : w.announces p = true → 0 < b.workers.countP (Worker.announces p) := fun ha =>
      List.countP_pos_iff.mpr ⟨w, List.mem_of_getElem? hw, ha⟩
    rw [hput, hworkers', hset]
    by_cases hold : w.announces p = true
    · have := hpos hold
      simp only [hold, if_true] at hcnt ⊢
      omega
    · simp only [hold] at hcnt ⊢
      simp at hcnt ⊢
      omega

/-- A step that neither takes nor gives up a lock. -/
theorem Locks.same (h : Locks b) (hw : b.workers[n]? = some w) (hworkers : b₁.workers = b.workers)
    (hholder : b₁.holder = b.holder) (hgate : b₁.gate = b.gate)
    (hwaiting : b₁.commandWaiting = b.commandWaiting) (hholds : ∀ p, w'.holds p = w.holds p)
    (hholdsGate : w'.holdsGate = w.holdsGate) (hannounces : ∀ p, w'.announces p = w.announces p) :
    Locks (b₁.put n w') := by
  have hown (p : String) : b.holder p = some n ↔ w.holds p = true := by
    rw [h.panels, hw]
    simp
  have hownGate : b.gate = some n ↔ w.holdsGate = true := by
    rw [h.gates, hw]
    simp
  refine h.put hw hworkers (fun p => ?_) (fun p hp => .inl ?_) ?_ (fun hp => .inl ?_) (fun p => ?_)
  · rw [hholder, hholds]
    split
    · rename_i hp
      exact (hown p).mpr hp
    · rfl
  · rw [← hholds]
    exact hp
  · rw [hgate, hholdsGate]
    split
    · rename_i hp
      exact hownGate.mpr hp
    · rfl
  · rw [← hholdsGate]
    exact hp
  · rw [hwaiting, hannounces]

/-- The panel's lock changes hands, and the counter with it. -/
theorem Locks.turn (h : Locks b) {r : Request} {stage stage' : Stage}
    (hw : b.workers[n]? = some (.vcp r stage)) (hworkers : b₁.workers = b.workers)
    (hholder : ∀ p, b₁.holder p = if r.panel = p then
      (if stage'.holdsPanel then some n else if stage.holdsPanel then none else b.holder p)
      else b.holder p)
    (hfree : stage'.holdsPanel = true → stage.holdsPanel = true ∨ b.holder r.panel = none)
    (hgate : b₁.gate = if stage'.holdsGate then some n else if stage.holdsGate then none else b.gate)
    (hgateFree : stage'.holdsGate = true → stage.holdsGate = true ∨ b.gate = none)
    (hcount : b₁.commandWaiting r.panel + (if stage.announcing then 1 else 0) =
      b.commandWaiting r.panel + if stage'.announcing then 1 else 0)
    (hother : ∀ p, r.panel ≠ p → b₁.commandWaiting p = b.commandWaiting p) :
    Locks (b₁.put n (.vcp r stage')) := by
  refine h.put hw hworkers (fun p => ?_) (fun p hp => ?_) hgate hgateFree (fun p => ?_)
  · rw [hholder]
    by_cases hp : r.panel = p <;> simp [Worker.holds, hp]
  · by_cases hpanel : r.panel = p
    · subst hpanel
      simp only [Worker.holds, decide_true, Bool.true_and] at hp ⊢
      exact hfree hp
    · simp [Worker.holds, hpanel] at hp
  · by_cases hp : r.panel = p
    · subst hp
      simpa [Worker.announces] using hcount
    · simp [Worker.announces, hp, hother p hp]

/-- A step of a transaction that neither takes nor gives up a lock. -/
theorem Locks.still (h : Locks b) {r : Request} {stage : Stage}
    (hw : b.workers[n]? = some (.vcp r stage)) (stage' : Stage) (hworkers : b₁.workers = b.workers)
    (hholder : b₁.holder = b.holder) (hgate : b₁.gate = b.gate)
    (hwaiting : b₁.commandWaiting = b.commandWaiting) (hp : stage'.holdsPanel = stage.holdsPanel)
    (hg : stage'.holdsGate = stage.holdsGate) (ha : stage'.announcing = stage.announcing) :
    Locks (b₁.put n (.vcp r stage')) :=
  h.same hw hworkers hholder hgate hwaiting (by simp [Worker.holds, hp]) hg
    (by simp [Worker.announces, ha])

theorem Locks.holder_of (h : Locks b) {r : Request} {stage : Stage}
    (hw : b.workers[n]? = some (.vcp r stage)) (hs : stage.holdsPanel = true) :
    b.holder r.panel = some n :=
  (h.panels _ n).mpr ⟨_, hw, by simp [Worker.holds, hs]⟩

theorem Locks.waiting_pos (h : Locks b) {r : Request} {stage : Stage}
    (hw : b.workers[n]? = some (.vcp r stage)) (ha : stage.announcing = true) :
    0 < b.commandWaiting r.panel := by
  rw [h.counts]
  exact List.countP_pos_iff.mpr ⟨_, List.mem_of_getElem? hw, by simp [Worker.announces, ha]⟩

/-- A free lock is taken. -/
theorem Locks.take (h : Locks b) {r : Request} {stage : Stage}
    (hw : b.workers[n]? = some (.vcp r stage)) (stage' : Stage) (hfree : b.holder r.panel = none)
    (hp : stage'.holdsPanel = true)
    (hg : stage.holdsGate = false) (hg' : stage'.holdsGate = false)
    (ha : stage'.announcing = stage.announcing) :
    Locks ((b.setHolder r.panel (some n)).put n (.vcp r stage')) := by
  refine h.turn hw rfl (fun p => ?_) (fun _ => .inr hfree) ?_ ?_ ?_ (fun p _ => rfl)
  · by_cases hpanel : r.panel = p
    · subst hpanel
      simp [Bus.setHolder, hp]
    · simp [Bus.setHolder, hpanel, Function.update_of_ne (Ne.symm hpanel)]
  · rw [hg, hg']
    rfl
  · rw [hg']
    intro hfalse
    cases hfalse
  · rw [ha]
    rfl

/-- A lock is given up. -/
theorem Locks.release (h : Locks b) {r : Request} {stage : Stage}
    (hw : b.workers[n]? = some (.vcp r stage)) (hheld : stage.holdsPanel = true)
    (hg : stage.holdsGate = false) (ha : stage.announcing = false) :
    Locks ((b.setHolder r.panel none).put n (.vcp r .done)) := by
  refine h.turn hw rfl (fun p => ?_) (fun hdone => ?_) ?_ ?_ ?_ (fun p _ => rfl)
  · by_cases hpanel : r.panel = p
    · subst hpanel
      have hdone : Stage.done.holdsPanel = false := rfl
      simp [Bus.setHolder, hheld, hdone]
    · simp [Bus.setHolder, hpanel, Function.update_of_ne (Ne.symm hpanel)]
  · cases hdone
  · rw [hg]
    rfl
  · intro hfalse
    cases hfalse
  · rw [ha]
    rfl

/-- The counter follows the announcement, and the panel's lock stays with its holder. -/
theorem Locks.announce (h : Locks b) {r : Request} {stage : Stage}
    (hw : b.workers[n]? = some (.vcp r stage)) (stage' : Stage) (count : ℕ)
    (hp : stage'.holdsPanel = stage.holdsPanel) (hg : stage.holdsGate = false)
    (hg' : stage'.holdsGate = false)
    (hcount : count + (if stage.announcing then 1 else 0) =
      b.commandWaiting r.panel + if stage'.announcing then 1 else 0) :
    Locks ((b.setWaiting r.panel count).put n (.vcp r stage')) := by
  refine h.turn hw rfl (fun p => ?_) (fun hs => .inl (hp ▸ hs)) ?_ ?_ ?_ (fun p hpanel => ?_)
  · by_cases hpanel : r.panel = p
    · subst hpanel
      by_cases hs : stage.holdsPanel = true
      · simp [Bus.setWaiting, hp, hs, h.holder_of hw hs]
      · simp [Bus.setWaiting, hp, hs]
    · simp [Bus.setWaiting, hpanel]
  · rw [hg, hg']
    rfl
  · rw [hg']
    intro hfalse
    cases hfalse
  · rw [← hcount]
    simp [Bus.setWaiting]
  · exact Function.update_of_ne (Ne.symm hpanel) _ _

theorem locks_transact (h : Locks b) {r : Request} {stage : Stage}
    (hw : b.workers[n]? = some (.vcp r stage)) : Locks (b.transact n r stage) := by
  cases stage with
  | called =>
    cases hprio : r.prio with
    | command =>
      simp only [Bus.transact, hprio]
      exact h.announce hw _ _ rfl rfl rfl rfl
    | sampler =>
      simp only [Bus.transact, hprio]
      split
      · exact h.still hw .done rfl rfl rfl rfl rfl rfl rfl
      · exact h.still hw .checked rfl rfl rfl rfl rfl rfl rfl
  | announced =>
    simp only [Bus.transact]
    split
    · rename_i hfree
      exact h.take hw .locked hfree rfl rfl rfl rfl
    · exact h
  | locked =>
    have hpos := h.waiting_pos hw rfl
    refine h.announce hw .entered _ rfl rfl rfl ?_
    simp only [Stage.announcing, if_true]
    simp
    omega
  | checked =>
    simp only [Bus.transact]
    split
    · rename_i hfree
      exact h.take hw .tried hfree rfl rfl rfl rfl
    · exact h.still hw .done rfl rfl rfl rfl rfl rfl rfl
  | tried =>
    simp only [Bus.transact]
    split
    · exact h.release hw rfl rfl rfl
    · exact h.still hw .entered rfl rfl rfl rfl rfl rfl rfl
  | entered =>
    simp only [Bus.transact]
    split
    · rename_i hfree
      refine h.turn hw rfl (fun p => ?_) (fun _ => .inl rfl) rfl (fun _ => .inr hfree) rfl
        fun p _ => rfl
      have := h.holder_of hw rfl
      split <;> simp_all [Stage.holdsPanel, Stage.inside]
    · exact h
  | gated =>
    simp only [Bus.transact]
    split
    · split
      · exact h.still hw (.operating _ _) rfl rfl rfl rfl rfl rfl rfl
      · exact h.still hw .missed rfl rfl rfl rfl rfl rfl rfl
    · exact h.still hw .missed rfl rfl rfl rfl rfl rfl rfl
  | leaving =>
    have := h.holder_of hw rfl
    refine h.turn hw rfl (fun p => ?_) (fun _ => .inl rfl) rfl (fun hfalse => ?_) rfl fun p _ => rfl
    · split <;> simp_all [Stage.holdsPanel, Stage.inside]
    · cases hfalse
  | left => exact h.release hw rfl rfl rfl
  | missed => exact h
  | operating => exact h
  | done => exact h

/-- A step of a worker that has to do with the gate alone. -/
theorem Locks.gateAlone (h : Locks b) (hw : b.workers[n]? = some w)
    (hworkers : b₁.workers = b.workers) (hholder : b₁.holder = b.holder)
    (hwaiting : b₁.commandWaiting = b.commandWaiting) (hfree : ∀ p, w.holds p = false)
    (hfree' : ∀ p, w'.holds p = false) (hquiet : ∀ p, w.announces p = false)
    (hquiet' : ∀ p, w'.announces p = false)
    (hgate : b₁.gate = if w'.holdsGate then some n else if w.holdsGate then none else b.gate)
    (hgateFree : w'.holdsGate = true → w.holdsGate = true ∨ b.gate = none) :
    Locks (b₁.put n w') := by
  refine h.put hw hworkers (fun p => ?_) (fun p hp => ?_) hgate hgateFree (fun p => ?_)
  · simp [hholder, hfree, hfree']
  · simp [hfree'] at hp
  · simp [hwaiting, hquiet, hquiet']

theorem locks_listDisplays (h : Locks b) {stage : GateStage}
    (hw : b.workers[n]? = some (.scan stage)) : Locks (b.listDisplays n stage) := by
  cases stage with
  | awaiting =>
    simp only [Bus.listDisplays]
    split
    · rename_i hfree
      exact h.gateAlone hw rfl rfl rfl (fun _ => rfl) (fun _ => rfl) (fun _ => rfl)
        (fun _ => rfl) rfl fun _ => .inr hfree
    · exact h
  | inside =>
    refine h.gateAlone hw rfl rfl rfl (fun _ => rfl) (fun _ => rfl) (fun _ => rfl)
      (fun _ => rfl) rfl fun hfalse => ?_
    cases hfalse
  | done => exact h

theorem locks_drainForTeardown (h : Locks b) {cache : ℕ} {stage : GateStage}
    (hw : b.workers[n]? = some (.teardown cache stage)) :
    Locks (b.drainForTeardown n cache stage) := by
  cases stage with
  | awaiting =>
    simp only [Bus.drainForTeardown]
    split
    · rename_i hfree
      exact h.gateAlone hw rfl rfl rfl (fun _ => rfl) (fun _ => rfl) (fun _ => rfl)
        (fun _ => rfl) rfl fun _ => .inr hfree
    · exact h
  | inside =>
    refine h.gateAlone hw rfl rfl rfl (fun _ => rfl) (fun _ => rfl) (fun _ => rfl)
      (fun _ => rfl) rfl fun hfalse => ?_
    cases hfalse
  | done => exact h

theorem locks_resolve (h : Locks b) (n : ℕ) (found : Option String) :
    Locks (b.resolve n found) := by
  rw [Bus.resolve]
  split
  · rename_i r hw
    cases found with
    | none => exact h.still hw .leaving rfl rfl rfl rfl rfl rfl rfl
    | some canonical =>
      dsimp only
      split
      · exact h.still hw (.operating _ _) rfl rfl rfl rfl rfl rfl rfl
      · exact h.still hw .leaving rfl rfl rfl rfl rfl rfl rfl
  · exact h

theorem locks_finish (h : Locks b) (n : ℕ) (result : OpResult) : Locks (b.finish n result) := by
  rw [Bus.finish]
  split
  · rename_i r handle resolvedAt hw
    split
    · exact h.still hw .leaving rfl rfl rfl rfl rfl rfl rfl
    · exact h.still hw .leaving rfl rfl rfl rfl rfl rfl rfl
  · exact h

theorem locks_go (h : Locks b) (n : ℕ) : Locks (b.go n) := by
  rw [Bus.go]
  split
  · rename_i hw
    exact locks_transact h hw
  · rename_i hw
    exact locks_listDisplays h hw
  · rename_i hw
    exact locks_drainForTeardown h hw
  · exact h

/-- A worker that has not begun. -/
def Worker.fresh : Worker → Bool
  | .vcp _ .called | .scan .awaiting | .teardown _ .awaiting => true
  | _ => false

theorem locks_spawn (h : Locks b) (hw : w.fresh = true) :
    Locks { b with workers := b.workers ++ [w] } := by
  have hholds (p : String) : w.holds p = false := by
    cases w with
    | vcp r stage => cases stage <;> simp_all [Worker.fresh, Worker.holds, Stage.holdsPanel,
        Stage.inside]
    | _ => rfl
  have hholdsGate : w.holdsGate = false := by
    cases w with
    | vcp r stage => cases stage <;> simp_all [Worker.fresh, Worker.holdsGate, Stage.holdsGate]
    | scan stage | teardown _ stage => cases stage <;> simp_all [Worker.fresh, Worker.holdsGate]
  have hannounces (p : String) : w.announces p = false := by
    cases w with
    | vcp r stage => cases stage <;> simp_all [Worker.fresh, Worker.announces, Stage.announcing]
    | _ => rfl
  have hnew (P : Worker → Prop) (hP : ¬ P w) (m : ℕ) :
      (∃ w', (b.workers ++ [w])[m]? = some w' ∧ P w') ↔ ∃ w', b.workers[m]? = some w' ∧ P w' := by
    rw [List.getElem?_append]
    split
    · rfl
    · rename_i hm
      rw [List.getElem?_eq_none (Nat.le_of_not_lt hm)]
      cases m - b.workers.length <;> simp [hP]
  constructor
  · intro p m
    rw [hnew (fun w' => w'.holds p = true) (by simp [hholds])]
    exact h.panels p m
  · intro m
    rw [hnew (fun w' => w'.holdsGate = true) (by simp [hholdsGate])]
    exact h.gates m
  · intro p
    simp [List.countP_append, hannounces, h.counts]

theorem locks_next (h : Locks b) (move : Move) : Locks (b.next move) := by
  cases move with
  | tick elapsed => exact ⟨h.panels, h.gates, h.counts⟩
  | call r => exact locks_spawn h rfl
  | scan => exact locks_spawn h rfl
  | teardown cache => exact locks_spawn h rfl
  | go n => exact locks_go h n
  | resolve n found => exact locks_resolve h n found
  | finish n result => exact locks_finish h n result

theorem locks_idle (now : ℕ) : Locks (Bus.idle now) where
  panels p n := by simp [Bus.idle]
  gates n := by simp [Bus.idle]
  counts p := by simp [Bus.idle]

theorem locks_run (now : ℕ) (moves : List Move) : Locks (ddcBus.run (.idle now) moves) := by
  have hstep (b : Bus) (move : Move) (h : Locks b) : Locks (ddcBus.next b move).1 :=
    locks_next h move
  exact Runs.System.invariant hstep (locks_idle now) moves

theorem Locks.holds_unique (h : Locks b) {panel : String} (hw : b.workers[n]? = some w)
    (hm : b.workers[m]? = some w') (hholds : w.holds panel = true)
    (hholds' : w'.holds panel = true) : n = m := by
  have hn := (h.panels panel n).mpr ⟨w, hw, hholds⟩
  rw [(h.panels panel m).mpr ⟨w', hm, hholds'⟩] at hn
  exact (Option.some.inj hn).symm

theorem Locks.gate_unique (h : Locks b) (hw : b.workers[n]? = some w)
    (hm : b.workers[m]? = some w') (hgate : w.holdsGate = true) (hgate' : w'.holdsGate = true) :
    n = m := by
  have hn := (h.gates n).mpr ⟨w, hw, hgate⟩
  rw [(h.gates m).mpr ⟨w', hm, hgate'⟩] at hn
  exact (Option.some.inj hn).symm

theorem countP_le_one {P : Worker → Bool} {workers : List Worker}
    (h : ∀ (n m : ℕ) (w w' : Worker), workers[n]? = some w → workers[m]? = some w' → P w = true →
      P w' = true → n = m) : workers.countP P ≤ 1 := by
  induction workers with
  | nil => exact Nat.zero_le _
  | cons v workers ih =>
    have hrest := ih fun n m w w' hw hm hP hP' => Nat.succ.inj (h (n + 1) (m + 1) w w' hw hm hP hP')
    rw [List.countP_cons]
    by_cases hv : P v = true
    · have hnone : workers.countP P = 0 := by
        rw [List.countP_eq_zero]
        intro w hmem hw
        obtain ⟨n, hn⟩ := List.mem_iff_getElem?.mp hmem
        have := h 0 (n + 1) v w rfl hn hv hw
        omega
      simp [hv, hnone]
    · simpa [hv] using hrest

/-- In every reachable state, one worker at most is at the hardware, one at most has the lock of
each panel, and `command_waiting` counts the commands that announced themselves. -/
theorem one_at_the_hardware (now : ℕ) (moves : List Move) :
    (ddcBus.run (.idle now) moves).workers.countP Worker.holdsGate ≤ 1 ∧
    ∀ panel, (ddcBus.run (.idle now) moves).workers.countP (Worker.holds panel) ≤ 1 ∧
      (ddcBus.run (.idle now) moves).commandWaiting panel =
        (ddcBus.run (.idle now) moves).workers.countP (Worker.announces panel) := by
  have h := locks_run now moves
  refine ⟨countP_le_one fun n m w w' hw hm => h.gate_unique hw hm, fun panel =>
    ⟨countP_le_one fun n m w w' hw hm => h.holds_unique hw hm, h.counts panel⟩⟩

/-! ## What a worker does next -/

def Bus.advance (b : Bus) (r : Request) : Stage → Stage
  | .called =>
    match r.prio with
    | .command => .announced
    | .sampler => if 0 < b.commandWaiting r.panel then .done else .checked
  | .announced => if b.holder r.panel = none then .locked else .announced
  | .locked => .entered
  | .checked => if b.holder r.panel = none then .tried else .done
  | .tried => if 0 < b.commandWaiting r.panel then .done else .entered
  | .entered => if b.gate = none then .gated else .entered
  | .gated =>
    match b.entries r.cache r.ident with
    | some (handle, resolvedAt) =>
      if b.now - resolvedAt < cacheRevalidateAfter then .operating handle resolvedAt else .missed
    | none => .missed
  | .leaving => .left
  | .left => .done
  | stage => stage

def Bus.passGate (b : Bus) : GateStage → GateStage
  | .awaiting => if b.gate = none then .inside else .awaiting
  | _ => .done

def Bus.after (b : Bus) : Worker → Worker
  | .vcp r stage => .vcp r (b.advance r stage)
  | .scan stage => .scan (b.passGate stage)
  | .teardown cache stage => .teardown cache (b.passGate stage)

theorem set_same (hw : b.workers[n]? = some w) : b.workers = b.workers.set n w := by
  rw [List.getElem?_eq_some_iff] at hw
  obtain ⟨hlt, rfl⟩ := hw
  exact (List.set_getElem_self hlt).symm

theorem transact_workers {r : Request} {stage : Stage}
    (hw : b.workers[n]? = some (.vcp r stage)) :
    (b.transact n r stage).workers = b.workers.set n (.vcp r (b.advance r stage)) := by
  cases stage with
  | called =>
    cases hprio : r.prio with
    | command => simp only [Bus.transact, Bus.advance, hprio]; rfl
    | sampler =>
      simp only [Bus.transact, Bus.advance, hprio]
      split <;> rfl
  | announced =>
    simp only [Bus.transact, Bus.advance]
    split
    · rfl
    · exact set_same hw
  | checked =>
    simp only [Bus.transact, Bus.advance]
    split <;> rfl
  | tried =>
    simp only [Bus.transact, Bus.advance]
    split <;> rfl
  | entered =>
    simp only [Bus.transact, Bus.advance]
    split
    · rfl
    · exact set_same hw
  | gated =>
    cases hentry : b.entries r.cache r.ident with
    | none => simp only [Bus.transact, Bus.advance, hentry]; rfl
    | some entry =>
      simp only [Bus.transact, Bus.advance, hentry]
      split <;> rfl
  | locked => rfl
  | leaving => rfl
  | left => rfl
  | missed => exact set_same hw
  | operating => exact set_same hw
  | done => exact set_same hw

theorem go_workers (hw : b.workers[n]? = some w) :
    (b.go n).workers = b.workers.set n (b.after w) := by
  cases w with
  | vcp r stage =>
    simp only [Bus.go, hw]
    exact transact_workers hw
  | scan stage =>
    simp only [Bus.go, hw]
    cases stage with
    | awaiting =>
      simp only [Bus.listDisplays, Bus.after, Bus.passGate]
      split
      · rfl
      · exact set_same hw
    | inside => rfl
    | done => exact set_same hw
  | teardown cache stage =>
    simp only [Bus.go, hw]
    cases stage with
    | awaiting =>
      simp only [Bus.drainForTeardown, Bus.after, Bus.passGate]
      split
      · rfl
      · exact set_same hw
    | inside => rfl
    | done => exact set_same hw

/-- What one move makes of the worker that takes it. -/
inductive Advance (b : Bus) : Worker → Worker → Prop where
  | go (w : Worker) : Advance b w (b.after w)
  | resolved (r : Request) (handle resolvedAt : ℕ)
      (hfound : resolvedAt = b.now ∨ b.entries r.cache r.ident = some (handle, resolvedAt)) :
      Advance b (.vcp r .missed) (.vcp r (.operating handle resolvedAt))
  | unresolved (r : Request) : Advance b (.vcp r .missed) (.vcp r .leaving)
  | finished (r : Request) (handle resolvedAt : ℕ) :
      Advance b (.vcp r (.operating handle resolvedAt)) (.vcp r .leaving)

theorem next_workers (b : Bus) (move : Move) :
    (b.next move).workers = b.workers ∨
      (∃ w, w.fresh = true ∧ (b.next move).workers = b.workers ++ [w]) ∨
      ∃ n w w', b.workers[n]? = some w ∧ Advance b w w' ∧
        (b.next move).workers = b.workers.set n w' := by
  cases move with
  | tick elapsed => exact .inl rfl
  | call r => exact .inr (.inl ⟨_, rfl, rfl⟩)
  | scan => exact .inr (.inl ⟨_, rfl, rfl⟩)
  | teardown cache => exact .inr (.inl ⟨_, rfl, rfl⟩)
  | go n =>
    cases hw : b.workers[n]? with
    | none => exact .inl (by simp only [Bus.next, Bus.go, hw])
    | some w => exact .inr (.inr ⟨n, w, _, hw, .go w, go_workers hw⟩)
  | resolve n found =>
    simp only [Bus.next, Bus.resolve]
    split
    · rename_i r hw
      refine .inr (.inr ?_)
      cases found with
      | none => exact ⟨n, _, _, hw, .unresolved r, rfl⟩
      | some canonical =>
        dsimp only
        split
        · rename_i handle resolvedAt hentry
          refine ⟨n, _, _, hw, .resolved r handle resolvedAt ?_, rfl⟩
          simp only [Bus.setEntry, Function.update_self] at hentry
          by_cases hc : r.ident = canonical
          · rw [hc, Function.update_self] at hentry
            cases hentry
            exact .inl rfl
          · rw [Function.update_of_ne hc] at hentry
            exact .inr hentry
        · exact ⟨n, _, _, hw, .unresolved r, rfl⟩
    · exact .inl rfl
  | finish n result =>
    simp only [Bus.next, Bus.finish]
    split
    · rename_i r handle resolvedAt hw
      refine .inr (.inr ⟨n, _, _, hw, .finished r handle resolvedAt, ?_⟩)
      split <;> rfl
    · exact .inl rfl

/-- A property of the workers that no move takes away. -/
theorem workers_next {P : Worker → Prop} (b : Bus) (move : Move)
    (hfresh : ∀ w, w.fresh = true → P w) (hadvance : ∀ w w', P w → Advance b w w' → P w')
    (h : ∀ w ∈ b.workers, P w) : ∀ w ∈ (b.next move).workers, P w := by
  intro w hw
  obtain heq | ⟨w₁, hw₁, heq⟩ | ⟨n, w₁, w₂, hw₁, hstep, heq⟩ := next_workers b move
  · exact h w (heq ▸ hw)
  · rw [heq, List.mem_append, List.mem_singleton] at hw
    obtain hw | rfl := hw
    · exact h w hw
    · exact hfresh w hw₁
  · rw [heq] at hw
    obtain hw | rfl := List.mem_or_eq_of_mem_set hw
    · exact h w hw
    · exact hadvance _ _ (h _ (List.mem_of_getElem? hw₁)) hstep

/-! ## Commands before samplers -/

/-- The wait for a lock tells who waits. -/
def Worker.rightful : Worker → Bool
  | .vcp r .announced | .vcp r .locked => r.prio = .command
  | .vcp r .checked | .vcp r .tried => r.prio = .sampler
  | _ => true

theorem rightful_after (b : Bus) (w : Worker) (h : w.rightful = true) :
    (b.after w).rightful = true := by
  cases w with
  | vcp r stage =>
    cases stage with
    | called =>
      cases hprio : r.prio with
      | command => simp [Bus.after, Bus.advance, hprio, Worker.rightful]
      | sampler =>
        simp only [Bus.after, Bus.advance, hprio]
        split <;> simp [Worker.rightful, hprio]
    | gated =>
      simp only [Bus.after, Bus.advance]
      split
      · split <;> rfl
      · rfl
    | announced | checked | tried | entered =>
      simp only [Bus.after, Bus.advance]
      split <;> first | rfl | exact h
    | _ => rfl
  | _ => rfl

theorem rightful_next (b : Bus) (move : Move) (h : ∀ w ∈ b.workers, w.rightful = true) :
    ∀ w ∈ (b.next move).workers, w.rightful = true := by
  refine workers_next b move (fun w hw => ?_) (fun w w' hright hstep => ?_) h
  · cases w with
    | vcp r stage => cases stage <;> simp_all [Worker.fresh, Worker.rightful]
    | _ => rfl
  · cases hstep with
    | go w => exact rightful_after b w hright
    | _ => rfl

/-- A sampler's transaction on the panel is at work. -/
def Bus.sampling (b : Bus) (panel : String) (n : ℕ) : Prop :=
  ∃ w, b.workers[n]? = some w ∧ w.inside panel = true ∧ w.isSampler = true

/-- A command waits for the panel. -/
def Bus.waitsFor (b : Bus) (panel : String) (n : ℕ) : Prop :=
  ∃ r, b.workers[n]? = some (.vcp r .announced) ∧ r.panel = panel

theorem sampling_after (b : Bus) (panel : String) (w : Worker) (hright : w.rightful = true)
    (hwait : 0 < b.commandWaiting panel) (hin : (b.after w).inside panel = true)
    (hsampler : (b.after w).isSampler = true) : w.inside panel = true ∧ w.isSampler = true := by
  cases w with
  | vcp r stage =>
    refine ⟨?_, hsampler⟩
    have hpanel : r.panel = panel := by
      simp only [Bus.after, Worker.inside, Bool.and_eq_true, decide_eq_true_eq] at hin
      exact hin.1
    have hprio : r.prio = .sampler := by simpa [Bus.after, Worker.isSampler] using hsampler
    subst hpanel
    cases stage with
    | called => simp [Bus.after, Bus.advance, hprio, hwait, Worker.inside, Stage.inside] at hin
    | announced | locked => simp [Worker.rightful, hprio] at hright
    | checked =>
      simp only [Bus.after, Bus.advance] at hin
      split at hin <;> simp [Worker.inside, Stage.inside] at hin
    | tried => simp [Bus.after, Bus.advance, hwait, Worker.inside, Stage.inside] at hin
    | left | done => simp [Bus.after, Bus.advance, Worker.inside, Stage.inside] at hin
    | _ => simp [Worker.inside, Stage.inside]
  | scan => cases hin
  | teardown => cases hin

/-- While a command waits, no sampler begins. -/
theorem sampling_next (b : Bus) (move : Move) (panel : String) (n : ℕ)
    (hright : ∀ w ∈ b.workers, w.rightful = true) (hwait : 0 < b.commandWaiting panel)
    (h : (b.next move).sampling panel n) : b.sampling panel n := by
  obtain ⟨w, hw, hin, hsampler⟩ := h
  obtain heq | ⟨w₁, hw₁, heq⟩ | ⟨m, w₁, w₂, hw₁, hstep, heq⟩ := next_workers b move
  · exact ⟨w, heq ▸ hw, hin, hsampler⟩
  · rw [heq, List.getElem?_append] at hw
    split at hw
    · exact ⟨w, hw, hin, hsampler⟩
    · have hmem := List.mem_of_getElem? hw
      rw [List.mem_singleton] at hmem
      subst hmem
      cases w with
      | vcp r stage =>
        cases stage <;> simp_all [Worker.fresh, Worker.inside, Stage.inside]
      | _ => cases hin
  · rw [heq, List.getElem?_set] at hw
    split at hw
    · rename_i hm
      subst hm
      split at hw
      · cases hw
        refine ⟨w₁, hw₁, ?_⟩
        cases hstep with
        | go w₁ =>
          exact sampling_after b panel w₁ (hright _ (List.mem_of_getElem? hw₁)) hwait hin hsampler
        | resolved => exact ⟨hin, hsampler⟩
        | unresolved => exact ⟨hin, hsampler⟩
        | finished => exact ⟨hin, hsampler⟩
      · cases hw
    · exact ⟨w, hw, hin, hsampler⟩

theorem waiting_of_waitsFor (h : Locks b) {panel : String} (hwait : b.waitsFor panel n) :
    0 < b.commandWaiting panel := by
  obtain ⟨r, hw, rfl⟩ := hwait
  exact h.waiting_pos hw rfl

theorem sampling_run {panel : String} {moves : List Move} (h : Locks b)
    (hright : ∀ w ∈ b.workers, w.rightful = true)
    (hwait : ddcBus.Throughout (fun b => b.waitsFor panel n) b moves)
    (hs : (ddcBus.run b moves).sampling panel m) : b.sampling panel m := by
  induction moves generalizing b with
  | nil => exact hs
  | cons move moves ih =>
    have hnext := ih (locks_next h move) (rightful_next b move hright) hwait.2 hs
    exact sampling_next b move panel m hright (waiting_of_waitsFor h hwait.1) hnext

theorem rightful_run (now : ℕ) (moves : List Move) :
    ∀ w ∈ (ddcBus.run (.idle now) moves).workers, w.rightful = true := by
  have hstep (b : Bus) (move : Move) (h : ∀ w ∈ b.workers, w.rightful = true) :
      ∀ w ∈ (ddcBus.next b move).1.workers, w.rightful = true := rightful_next b move h
  exact Runs.System.invariant hstep (fun w hw => absurd hw List.not_mem_nil) moves

theorem Worker.holds_of_inside {panel : String} (h : w.inside panel = true) :
    w.holds panel = true := by
  cases w with
  | vcp r stage =>
    simp only [Worker.inside, Bool.and_eq_true] at h
    simp [Worker.holds, Stage.holdsPanel, h.1, h.2]
  | scan => cases h
  | teardown => cases h

/-- As long as a command waits for a panel, the samplers at work on it are those that were at work
when it began to wait, and that is one at most. -/
theorem command_waits_for_one (now : ℕ) (before moves : List Move) (panel : String) (n : ℕ)
    (hwait : ddcBus.Throughout (fun b => b.waitsFor panel n) (ddcBus.run (.idle now) before)
      moves) :
    (∀ m, (ddcBus.run (.idle now) (before ++ moves)).sampling panel m →
      (ddcBus.run (.idle now) before).sampling panel m) ∧
    ∀ m₁ m₂, (ddcBus.run (.idle now) before).sampling panel m₁ →
      (ddcBus.run (.idle now) before).sampling panel m₂ → m₁ = m₂ := by
  refine ⟨fun m hm => ?_, fun m₁ m₂ h₁ h₂ => ?_⟩
  · rw [Runs.System.run_append] at hm
    exact sampling_run (locks_run now before) (rightful_run now before) hwait hm
  · obtain ⟨w₁, hw₁, hin₁, _⟩ := h₁
    obtain ⟨w₂, hw₂, hin₂, _⟩ := h₂
    exact (locks_run now before).holds_unique hw₁ hw₂ (Worker.holds_of_inside hin₁)
      (Worker.holds_of_inside hin₂)

/-- A poll is under way when a wake arrives, and a second poll comes while the wake waits. -/
theorem command_waits_for_one_overtaken :
    ddcBus.Throughout (fun b => b.waitsFor "ddc:aoc:1" 1)
      (ddcBus.run (.idle 0) [.call ⟨"ddc:aoc:1", 0, "AOC", .sampler⟩, .go 0, .go 0, .go 0,
        .call ⟨"ddc:aoc:1", 0, "AOC", .command⟩, .go 1])
      [.go 1, .call ⟨"ddc:aoc:1", 0, "AOC", .sampler⟩, .go 0, .go 2] ∧
    ∀ m, (ddcBus.run (.idle 0) ([.call ⟨"ddc:aoc:1", 0, "AOC", .sampler⟩, .go 0, .go 0, .go 0,
        .call ⟨"ddc:aoc:1", 0, "AOC", .command⟩, .go 1] ++
        [.go 1, .call ⟨"ddc:aoc:1", 0, "AOC", .sampler⟩, .go 0, .go 2])).sampling "ddc:aoc:1" m →
      (ddcBus.run (.idle 0) [.call ⟨"ddc:aoc:1", 0, "AOC", .sampler⟩, .go 0, .go 0, .go 0,
        .call ⟨"ddc:aoc:1", 0, "AOC", .command⟩, .go 1]).sampling "ddc:aoc:1" m := by
  have hwait : ddcBus.Throughout (fun b => b.waitsFor "ddc:aoc:1" 1)
      (ddcBus.run (.idle 0) [.call ⟨"ddc:aoc:1", 0, "AOC", .sampler⟩, .go 0, .go 0, .go 0,
        .call ⟨"ddc:aoc:1", 0, "AOC", .command⟩, .go 1])
      [.go 1, .call ⟨"ddc:aoc:1", 0, "AOC", .sampler⟩, .go 0, .go 2] :=
    ⟨⟨_, rfl, rfl⟩, ⟨_, rfl, rfl⟩, ⟨_, rfl, rfl⟩, ⟨_, rfl, rfl⟩, _, rfl, rfl⟩
  exact ⟨hwait, (command_waits_for_one 0 _ _ _ 1 hwait).1⟩

end DdcBus
end Dormant
