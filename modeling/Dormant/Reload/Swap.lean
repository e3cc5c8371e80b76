import Dormant.Foundations.Progress
import Dormant.Reload.Lane

/-!
# What becomes of routed messages in a swap

`InTime` says that what was offered was received, or is on its way to an engine before its barrier.
A lane that sends under the router's lock keeps it. One that does not keeps it as long as no send is
in hand when an engine acknowledges its barrier.
-/

namespace Dormant.Reload
set_option autoImplicit false

variable {T : Type}

/-- What is on its way, the first one first. -/
def LaneState.pending (s : LaneState T) : List T :=
  s.inbox ++ s.hand.toList.map (·.2) ++ s.carried.toList ++ s.router.queued

structure InTime (plain : T → T) (s : LaneState T) : Prop where
  accounted : (s.received.map (·.2) ++ s.pending).map plain = s.offered.map plain
  /-- What is in hand reaches its engine before its barrier. -/
  reaches : ∀ sent ∈ s.hand, sent.1 = s.engine ∧ s.alive = true ∧ s.stage ≠ .acknowledged
  drained : s.stage = .acknowledged → s.inbox = []

/-- No root cancellation, and no engine that stops by itself. -/
def LaneInput.orderly : LaneInput T → Bool
  | .cancel | .die => false
  | _ => true

/-- No offer and no further swap. -/
def LaneInput.settles : LaneInput T → Bool
  | .offer _ | .cancel | .die | .pause => false
  | _ => true

/-- No send is in hand when the barrier is acknowledged. -/
def HandEmpty (s : LaneState T) (input : LaneInput T) : Prop :=
  input = .acknowledge → s.stage = .paused → s.hand = none

/-- What was offered is received once the lane has settled. -/
def AllArrive (lane : Lane T) (plain : T → T) (s : LaneState T) : Prop :=
  ∃ more : List (LaneInput T), (∀ input ∈ more, input.settles = true) ∧
    ((lane.system.run s more).received.map (·.2)).map plain = s.offered.map plain

structure Lined (lane : Lane T) (s : LaneState T) : Prop where
  opened : s.router.paused = false → s.router.target = some s.engine ∧ s.router.queued = []
  running : s.router.paused = false ↔ s.stage = .running
  carrying : s.carried.isSome = true → s.stage = .installing
  installing : s.stage = .installing → s.router.target = some s.engine
  blocked : s.hand.isSome = true → s.router.queued = [] ∧ s.carried = none
  alive : s.alive = true ↔ s.stage ≠ .stopped
  stopped : s.stage = .stopped → s.inbox = []
  stranded : s.stage ≠ .stranded
  held : lane.locked = true → s.stage ≠ .running → s.hand = none

section Lines
variable {lane : Lane T} {s : LaneState T}

theorem lined_next (h : Lined lane s) {input : LaneInput T} (horderly : input.orderly = true) :
    Lined lane (lane.next s input) := by
  obtain ⟨h1, h2, h3, h4, h5, h6, h7, h8, h9⟩ := h
  cases input with
  | offer message =>
    dsimp only [Lane.next, Lane.offer]
    split
    · split
      · constructor <;> simp_all
      · split
        · constructor <;> simp_all
        · simp_all
    · constructor <;> assumption
  | send =>
    dsimp only [Lane.next, Lane.send]
    split
    · split
      · split
        · constructor <;> simp_all
        · constructor <;> assumption
      · constructor <;> simp_all
    · constructor <;> assumption
  | cancel => cases horderly
  | pause =>
    dsimp only [Lane.next, Lane.pause]
    split
    · constructor <;> simp_all [GenerationRouter.pause, Lane.Free]
    · constructor <;> assumption
  | reopen id =>
    dsimp only [Lane.next, Lane.reopen]
    split
    · constructor <;> simp_all
    · constructor <;> assumption
  | acknowledge =>
    dsimp only [Lane.next, Lane.acknowledge]
    split
    · constructor <;> simp_all
    · constructor <;> assumption
  | teardown =>
    dsimp only [Lane.next]
    split
    · constructor <;> simp_all
    · constructor <;> assumption
  | install generation id =>
    dsimp only [Lane.next, Lane.install]
    split
    · constructor <;> simp_all
    · constructor <;> assumption
  | release =>
    dsimp only [Lane.next, Lane.release]
    split
    · split
      · split
        · split
          · constructor <;> simp_all
          · constructor <;> assumption
        · simp_all
      · constructor <;> simp_all
      · constructor <;> simp_all
    · constructor <;> assumption
  | read =>
    dsimp only [Lane.next, Lane.read]
    split
    · constructor <;> simp_all
    · constructor <;> assumption
  | die => cases horderly
  | finish task => exact ⟨h1, h2, h3, h4, h5, h6, h7, h8, h9⟩
  | beginQuiesce generation => exact ⟨h1, h2, h3, h4, h5, h6, h7, h8, h9⟩
  | endQuiesce generation => exact ⟨h1, h2, h3, h4, h5, h6, h7, h8, h9⟩

theorem lined_first (lane : Lane T) (id : Option GenerationId) : Lined lane (Lane.first id) := by
  constructor <;> simp [Lane.first]

theorem Lined.released (h : Lined lane s)
    (hmore : s.carried.isSome = true ∨ s.router.queued ≠ []) : s.hand = none := by
  by_contra hhand
  obtain ⟨hqueued, hcarried⟩ := h.blocked (Option.isSome_iff_ne_none.mpr hhand)
  cases hmore with
  | inl hsome =>
    rw [hcarried] at hsome
    cases hsome
  | inr hqueue => exact hqueue hqueued

/-- Past the barrier no send is in hand. -/
theorem InTime.past {plain : T → T} (hs : InTime plain s) (h : Lined lane s)
    (hstage : s.stage = .acknowledged ∨ s.stage = .stopped) : s.hand = none := by
  by_contra hhand
  obtain ⟨sent, hsent⟩ := Option.ne_none_iff_exists'.mp hhand
  obtain ⟨-, halive, hacknowledged⟩ := hs.reaches sent hsent
  cases hstage with
  | inl hstage => exact hacknowledged hstage
  | inr hstage => exact h.alive.mp halive hstage

/-- A step after which the same messages are on their way. -/
theorem InTime.kept {plain : T → T} (hs : InTime plain s) {t : LaneState T}
    (hwords : t.received.map (·.2) ++ t.pending = s.received.map (·.2) ++ s.pending)
    (hoffered : t.offered = s.offered)
    (hreaches : ∀ sent ∈ t.hand, sent.1 = t.engine ∧ t.alive = true ∧ t.stage ≠ .acknowledged)
    (hdrained : t.stage = .acknowledged → t.inbox = []) : InTime plain t :=
  ⟨by rw [hwords, hoffered]; exact hs.accounted, hreaches, hdrained⟩

theorem inTime_offer {plain : T → T}
    (hplain : ∀ message registry id, plain (lane.stamp message registry id).2 = plain message)
    (h : Lined lane s) (hs : InTime plain s) (message : T) :
    InTime plain (lane.offer s message) := by
  have hmore := congrArg (· ++ [plain message]) hs.accounted
  unfold Lane.offer
  split
  · rename_i hfree
    have hhand : s.hand = none := Option.isNone_iff_eq_none.mp hfree.2.1
    split
    · constructor
      · simpa [LaneState.pending, hhand] using hmore
      · exact hs.reaches
      · exact hs.drained
    · rename_i hopen
      rw [Bool.not_eq_true] at hopen
      obtain ⟨htarget, hqueued⟩ := h.opened hopen
      have hrunning := h.running.mp hopen
      have hcarried : s.carried = none := by
        by_contra hcarried
        have hinstalling := h.carrying (Option.isSome_iff_ne_none.mpr hcarried)
        rw [hrunning] at hinstalling
        cases hinstalling
      rw [htarget]
      constructor
      · simpa [LaneState.pending, hhand, hcarried, hqueued, hplain] using hmore
      · intro sent hsent
        cases hsent
        exact ⟨rfl, h.alive.mpr (by simp [hrunning]), by simp [hrunning]⟩
      · exact hs.drained
  · exact hs

theorem inTime_send {plain : T → T} (h : Lined lane s) (hs : InTime plain s) :
    InTime plain (lane.send s) := by
  unfold Lane.send
  split
  · rename_i target message hhand
    obtain ⟨hengine, halive, hstage⟩ := hs.reaches (target, message) hhand
    obtain ⟨hqueued, hcarried⟩ := h.blocked (by rw [hhand]; rfl)
    rw [if_pos ⟨hengine, halive⟩]
    split
    · refine hs.kept ?_ rfl ?_ ?_
      · simp [LaneState.pending, hhand, hqueued, hcarried]
      · intro sent hsent
        cases hsent
      · exact fun hacknowledged => absurd hacknowledged hstage
    · exact hs
  · exact hs

theorem inTime_release {plain : T → T}
    (hplain : ∀ message registry id, plain (lane.stamp message registry id).2 = plain message)
    (h : Lined lane s) (hs : InTime plain s) : InTime plain (lane.release s) := by
  unfold Lane.release
  split
  · rename_i hinstalling
    have halive := h.alive.mpr (by simp [hinstalling])
    split
    · rename_i message hcarried
      have hhand := h.released (.inl (by rw [hcarried]; rfl))
      rw [if_pos halive]
      split
      · refine hs.kept ?_ rfl hs.reaches ?_
        · simp [LaneState.pending, hhand, hcarried]
        · intro hacknowledged
          rw [hinstalling] at hacknowledged
          cases hacknowledged
      · exact hs
    · rename_i message queued hcarried hqueued
      have hhand := h.released (.inr (by rw [hqueued]; simp))
      constructor
      · simpa [LaneState.pending, hhand, hcarried, hqueued, hplain] using hs.accounted
      · exact hs.reaches
      · exact hs.drained
    · rename_i hcarried hqueued
      refine hs.kept ?_ rfl ?_ ?_
      · simp [LaneState.pending, hqueued]
      · exact fun sent hsent => ⟨(hs.reaches sent hsent).1, halive, by simp⟩
      · intro hacknowledged
        cases hacknowledged
  · exact hs

theorem inTime_acknowledge {plain : T → T} (h : Lined lane s) (hs : InTime plain s) :
    InTime plain (lane.acknowledge s) ↔ (s.stage = .paused → s.hand = none) := by
  unfold Lane.acknowledge
  by_cases hstage : s.stage = .paused
  · rw [if_pos ⟨hstage, h.alive.mpr (by simp [hstage])⟩]
    constructor
    · intro hnext _
      by_contra hhand
      obtain ⟨sent, hsent⟩ := Option.ne_none_iff_exists'.mp hhand
      exact (hnext.reaches sent hsent).2.2 rfl
    · intro hempty
      have hhand := hempty hstage
      refine hs.kept ?_ rfl ?_ ?_
      · simp [LaneState.pending, List.map_map, Function.comp_def]
      · intro sent hsent
        rw [hhand] at hsent
        cases hsent
      · exact fun _ => rfl
  · rw [if_neg (fun hboth => hstage hboth.1)]
    exact iff_of_true hs fun hpaused => absurd hpaused hstage

theorem inTime_read {plain : T → T} (hs : InTime plain s) : InTime plain (lane.read s) := by
  unfold Lane.read
  split
  · rename_i message inbox hinbox
    refine hs.kept ?_ rfl hs.reaches ?_
    · simp [LaneState.pending, hinbox]
    · intro hacknowledged
      have := hs.drained hacknowledged
      rw [hinbox] at this
      cases this
  · exact hs

/-- A stage of a swap that moves no message. -/
theorem inTime_staged {plain : T → T} (hs : InTime plain s) {t : LaneState T}
    (hpending : t.pending = s.pending) (hreceived : t.received = s.received)
    (hoffered : t.offered = s.offered)
    (hhand : t.hand = none ∨ t.hand = s.hand ∧ t.engine = s.engine ∧ t.alive = s.alive)
    (hstage : t.stage ≠ .acknowledged) : InTime plain t := by
  refine hs.kept (by rw [hreceived, hpending]) hoffered ?_ fun h => absurd h hstage
  intro sent hsent
  rcases hhand with hnone | ⟨hhand, hengine, halive⟩
  · rw [hnone] at hsent
    cases hsent
  · rw [hhand] at hsent
    rw [hengine, halive]
    exact ⟨(hs.reaches sent hsent).1, (hs.reaches sent hsent).2.1, hstage⟩

/-- Only an acknowledgement with a send in hand makes a message late. -/
theorem inTime_iff {plain : T → T}
    (hplain : ∀ message registry id, plain (lane.stamp message registry id).2 = plain message)
    (h : Lined lane s) {input : LaneInput T} (horderly : input.orderly = true)
    (hs : InTime plain s) : InTime plain (lane.next s input) ↔ HandEmpty s input := by
  have hother : InTime plain (lane.next s input) → input ≠ .acknowledge →
      (InTime plain (lane.next s input) ↔ HandEmpty s input) :=
    fun hnext hne => iff_of_true hnext fun heq => absurd heq hne
  cases input with
  | offer message => exact hother (inTime_offer hplain h hs message) (by simp)
  | send => exact hother (inTime_send h hs) (by simp)
  | cancel => cases horderly
  | pause =>
    refine hother ?_ (by simp)
    dsimp only [Lane.next, Lane.pause]
    split
    · exact inTime_staged hs rfl rfl rfl (.inr ⟨rfl, rfl, rfl⟩) (by simp)
    · exact hs
  | reopen id =>
    refine hother ?_ (by simp)
    dsimp only [Lane.next, Lane.reopen]
    split
    · exact inTime_staged hs rfl rfl rfl (.inr ⟨rfl, rfl, rfl⟩) (by simp)
    · exact hs
  | acknowledge =>
    refine (inTime_acknowledge h hs).trans ?_
    exact ⟨fun hempty _ => hempty, fun hempty => hempty rfl⟩
  | teardown =>
    refine hother ?_ (by simp)
    dsimp only [Lane.next]
    split
    · rename_i hstage
      refine inTime_staged hs ?_ rfl rfl (.inl (hs.past h (.inl hstage))) (by simp)
      simp [LaneState.pending, hs.drained hstage]
    · exact hs
  | install generation id =>
    refine hother ?_ (by simp)
    dsimp only [Lane.next, Lane.install]
    split
    · rename_i hstage
      refine inTime_staged hs ?_ rfl rfl (.inl (hs.past h (.inr hstage))) (by simp)
      simp [LaneState.pending, h.stopped hstage]
    · exact hs
  | release => exact hother (inTime_release hplain h hs) (by simp)
  | read => exact hother (inTime_read hs) (by simp)
  | die => cases horderly
  | finish task => exact hother ⟨hs.accounted, hs.reaches, hs.drained⟩ (by simp)
  | beginQuiesce generation => exact hother ⟨hs.accounted, hs.reaches, hs.drained⟩ (by simp)
  | endQuiesce generation => exact hother ⟨hs.accounted, hs.reaches, hs.drained⟩ (by simp)

/-! ## What is left arrives -/

def LaneStage.left : LaneStage → ℕ
  | .paused => 4
  | .acknowledged => 3
  | .stopped => 2
  | .installing => 1
  | .running | .stranded => 0

def LaneState.left (s : LaneState T) : ℕ :=
  4 * s.router.queued.length + 3 * s.carried.toList.length + 2 * s.hand.toList.length +
    s.inbox.length + s.stage.left

theorem left_zero (hleft : s.left = 0) : s.pending = [] := by
  unfold LaneState.left at hleft
  have hqueued : s.router.queued = [] := List.eq_nil_of_length_eq_zero (by omega)
  have hcarried : s.carried.toList = [] := List.eq_nil_of_length_eq_zero (by omega)
  have hhand : s.hand.toList = [] := List.eq_nil_of_length_eq_zero (by omega)
  have hinbox : s.inbox = [] := List.eq_nil_of_length_eq_zero (by omega)
  unfold LaneState.pending
  rw [hqueued, hcarried, hhand, hinbox]
  rfl

/-- Where something is left, the lane can do a step that leaves less. -/
theorem left_less {plain : T → T} (h : Lined lane s) (hs : InTime plain s) (hleft : s.left ≠ 0) :
    ∃ input : LaneInput T, (input.settles = true ∧ HandEmpty s input) ∧
      (lane.next s input).left < s.left := by
  cases hinbox : s.inbox with
  | cons message inbox =>
    refine ⟨.read, ⟨rfl, fun h => by cases h⟩, ?_⟩
    simp only [Lane.next, Lane.read, hinbox, LaneState.left, List.length_cons]
    omega
  | nil =>
    have hroom : s.inbox.length < lane.capacity := by
      rw [hinbox]
      exact lane.positive
    cases hhand : s.hand with
    | some sent =>
      obtain ⟨hengine, halive, -⟩ := hs.reaches sent hhand
      refine ⟨.send, ⟨rfl, fun h => by cases h⟩, ?_⟩
      simp only [Lane.next, Lane.send, hhand]
      rw [if_pos ⟨hengine, halive⟩, if_pos hroom]
      simp [LaneState.left, hhand, hinbox]
    | none =>
      cases hstage : s.stage with
      | running =>
        obtain ⟨-, hqueued⟩ := h.opened (h.running.mpr hstage)
        have hcarried : s.carried = none := by
          by_contra hcarried
          have hinstalling := h.carrying (Option.isSome_iff_ne_none.mpr hcarried)
          rw [hstage] at hinstalling
          cases hinstalling
        simp [LaneState.left, LaneStage.left, hinbox, hhand, hqueued, hcarried, hstage] at hleft
      | paused =>
        refine ⟨.acknowledge, ⟨rfl, fun _ _ => hhand⟩, ?_⟩
        simp only [Lane.next, Lane.acknowledge]
        rw [if_pos ⟨hstage, h.alive.mpr (by simp [hstage])⟩]
        simp [LaneState.left, LaneStage.left, hinbox, hstage]
      | acknowledged =>
        refine ⟨.teardown, ⟨rfl, fun h => by cases h⟩, ?_⟩
        simp only [Lane.next]
        rw [if_pos hstage]
        simp [LaneState.left, LaneStage.left, hinbox, hstage]
      | stopped =>
        refine ⟨.install s.engine.generation s.router.generationId,
          ⟨rfl, fun h => by cases h⟩, ?_⟩
        simp only [Lane.next, Lane.install]
        rw [if_pos hstage]
        simp [LaneState.left, LaneStage.left, hinbox, hstage]
      | installing =>
        refine ⟨.release, ⟨rfl, fun h => by cases h⟩, ?_⟩
        simp only [Lane.next, Lane.release]
        rw [if_pos hstage]
        cases hcarried : s.carried with
        | some message =>
          dsimp only
          rw [if_pos (h.alive.mpr (by simp [hstage])), if_pos hroom]
          simp [LaneState.left, hhand, hinbox, hcarried]
        | none =>
          cases hqueued : s.router.queued with
          | cons message queued =>
            simp only [LaneState.left, hhand, hinbox, hcarried, hqueued, List.length_cons,
              Option.toList_some, Option.toList_none, List.length_nil]
            omega
          | nil => simp [LaneState.left, LaneStage.left, hhand, hinbox, hcarried, hqueued, hstage]
      | stranded => exact absurd hstage h.stranded

theorem offered_settles {input : LaneInput T} (hsettles : input.settles = true) :
    (lane.next s input).offered = s.offered := by
  cases input with
  | offer message => cases hsettles
  | send =>
    dsimp only [Lane.next, Lane.send]
    split
    · split
      · split <;> rfl
      · rfl
    · rfl
  | cancel => rfl
  | pause => cases hsettles
  | reopen id =>
    dsimp only [Lane.next, Lane.reopen]
    split <;> rfl
  | acknowledge =>
    dsimp only [Lane.next, Lane.acknowledge]
    split <;> rfl
  | teardown =>
    dsimp only [Lane.next]
    split <;> rfl
  | install generation id =>
    dsimp only [Lane.next, Lane.install]
    split <;> rfl
  | release =>
    dsimp only [Lane.next, Lane.release]
    split
    · split
      · split
        · split <;> rfl
        · rfl
      · rfl
      · rfl
    · rfl
  | read =>
    dsimp only [Lane.next, Lane.read]
    split <;> rfl
  | die => rfl
  | finish task => rfl
  | beginQuiesce generation => rfl
  | endQuiesce generation => rfl

theorem LaneInput.settles_orderly {input : LaneInput T} (h : input.settles = true) :
    input.orderly = true := by
  cases input <;> first | rfl | cases h

theorem all_arrive {plain : T → T}
    (hplain : ∀ message registry id, plain (lane.stamp message registry id).2 = plain message)
    (h : Lined lane s) (hs : InTime plain s) : AllArrive lane plain s := by
  have hstep : ∀ t : LaneState T, Lined lane t ∧ InTime plain t ∧ t.offered = s.offered →
      t.left ≠ 0 → ∃ input : LaneInput T, input.settles = true ∧
        (Lined lane (lane.next t input) ∧ InTime plain (lane.next t input) ∧
          (lane.next t input).offered = s.offered) ∧ (lane.next t input).left < t.left := by
    intro t ⟨hlined, hin, hoffered⟩ hleft
    obtain ⟨input, ⟨hsettles, hempty⟩, hless⟩ := left_less hlined hin hleft
    have horderly := LaneInput.settles_orderly hsettles
    exact ⟨input, hsettles, ⟨lined_next hlined horderly,
      (inTime_iff hplain hlined horderly hin).mpr hempty,
      (offered_settles hsettles).trans hoffered⟩, hless⟩
  obtain ⟨more, hmore, ⟨-, hin, hoffered⟩, hleft⟩ :=
    Runs.System.settle (M := lane.system) LaneState.left hstep ⟨h, hs, rfl⟩
  refine ⟨more, hmore.forall_mem, ?_⟩
  have haccounted := hin.accounted
  rw [left_zero hleft, List.append_nil, hoffered] at haccounted
  exact haccounted

theorem inTime_first (plain : T → T) (id : Option GenerationId) :
    InTime plain (Lane.first id) := by
  constructor
  · rfl
  · intro sent hsent
    cases hsent
  · intro hstage
    cases hstage

theorem inTime_throughout_iff {plain : T → T}
    (hplain : ∀ message registry id, plain (lane.stamp message registry id).2 = plain message)
    (id : Option GenerationId) {inputs : List (LaneInput T)}
    (horderly : ∀ input ∈ inputs, input.orderly = true) :
    lane.system.Throughout (InTime plain) (Lane.first id) inputs ↔
      lane.system.Steps HandEmpty (Lane.first id) inputs := by
  have hsteps : lane.system.Steps (fun _ input => LaneInput.orderly input = true)
      (Lane.first id) inputs :=
    Runs.System.Steps.of_mem (fun input => LaneInput.orderly input = true) horderly _
  refine Runs.System.throughout_iff_steps (Lined lane) (fun _ input => input.orderly = true)
    (fun s input h ho => lined_next h ho) (fun s input h ho hs => inTime_iff hplain h ho hs)
    hsteps (lined_first lane id) (inTime_first plain id)

theorem arrives_after {plain : T → T}
    (hplain : ∀ message registry id, plain (lane.stamp message registry id).2 = plain message)
    (id : Option GenerationId) {inputs : List (LaneInput T)}
    (horderly : ∀ input ∈ inputs, input.orderly = true)
    (hempty : lane.system.Steps HandEmpty (Lane.first id) inputs) :
    AllArrive lane plain (lane.system.run (Lane.first id) inputs) := by
  have hsteps := hempty.and
    (Runs.System.Steps.of_mem (fun input => input.orderly = true) horderly (Lane.first id))
  have hstep : ∀ (s : LaneState T) (input : LaneInput T), Lined lane s ∧ InTime plain s →
      HandEmpty s input ∧ input.orderly = true →
      Lined lane (lane.system.next s input).1 ∧ InTime plain (lane.system.next s input).1 :=
    fun s input hs hc => ⟨lined_next hs.1 hc.2, (inTime_iff hplain hs.1 hc.2 hs.2).mpr hc.1⟩
  have hfirst := inTime_first plain id
  obtain ⟨hlined, hin⟩ := hsteps.invariant hstep ⟨lined_first lane id, hfirst⟩
  exact all_arrive hplain hlined hin

/-- Under the lock a pause waits for the send in hand. -/
theorem handEmpty_of_locked (hlocked : lane.locked = true) (id : Option GenerationId)
    {inputs : List (LaneInput T)} (horderly : ∀ input ∈ inputs, input.orderly = true) :
    lane.system.Steps HandEmpty (Lane.first id) inputs := by
  have hsteps : lane.system.Steps (fun _ input => LaneInput.orderly input = true)
      (Lane.first id) inputs :=
    Runs.System.Steps.of_mem (fun input => LaneInput.orderly input = true) horderly _
  refine hsteps.derive (Lined lane) (fun s input h ho => lined_next h ho) ?_ (lined_first lane id)
  intro s input h _ _ hstage
  exact h.held hlocked (by simp [hstage])

end Lines

/-! ## The two lanes -/

/-- What a stamp leaves of a message. -/
def plainMsg : ControlMsg → ControlMsg
  | .exerciseAccepted operation =>
    match operation.kind with
    | .exercise display => .exercise display
    | .emergencyWake => .exerciseAccepted operation
  | .emergencyWakeAccepted _ => .emergencyWake
  | other => other

theorem plain_stamp (message : ControlMsg) (registry : OperationState)
    (id : Option GenerationId) :
    plainMsg (controlLane.stamp message registry id).2 = plainMsg message := by
  cases id with
  | none => rfl
  | some generation =>
    show plainMsg (stampControlOperation message registry generation).2 = plainMsg message
    unfold stampControlOperation
    split
    · rfl
    · rename_i kind hkind
      split
      · rename_i registry' operation lease hacquire
        obtain ⟨hoperation, -, -⟩ := tryAcquire_ok hacquire
        subst hoperation
        cases message with
        | exercise display =>
          cases hkind
          rfl
        | emergencyWake => rfl
        | _ => cases hkind
      · rfl

/-- Routed control messages survive every swap whose barrier finds no send in hand, and routed
events survive every swap. -/
theorem routed_inputs_survive (inputs : List (LaneInput ControlMsg))
    (events : List (LaneInput PresenceEvent)) (horderly : ∀ input ∈ inputs, input.orderly = true)
    (hevents : ∀ input ∈ events, input.orderly = true) :
    (controlLane.system.Throughout (InTime plainMsg) (Lane.first (some ⟨0⟩)) inputs ↔
        controlLane.system.Steps HandEmpty (Lane.first (some ⟨0⟩)) inputs) ∧
      (controlLane.system.Steps HandEmpty (Lane.first (some ⟨0⟩)) inputs →
        AllArrive controlLane plainMsg
          (controlLane.system.run (Lane.first (some ⟨0⟩)) inputs)) ∧
      eventLane.system.Throughout (InTime id) (Lane.first none) events ∧
      AllArrive eventLane id (eventLane.system.run (Lane.first none) events) := by
  have hempty : eventLane.system.Steps HandEmpty (Lane.first none) events :=
    handEmpty_of_locked rfl none hevents
  exact ⟨inTime_throughout_iff plain_stamp (some ⟨0⟩) horderly,
    arrives_after plain_stamp (some ⟨0⟩) horderly,
    (inTime_throughout_iff (fun _ _ _ => rfl) none hevents).mpr hempty,
    arrives_after (fun _ _ _ => rfl) none hevents hempty⟩

/-- A wake offered before a pause, sent at once, and an event in each generation. -/
theorem routed_inputs_survive_desk :
    controlLane.system.Throughout (InTime plainMsg) (Lane.first (some ⟨0⟩))
        [.offer (.forceWake ⟨"desk"⟩), .send, .pause, .acknowledge, .teardown] ∧
      AllArrive eventLane id (eventLane.system.run (Lane.first none)
        [.offer ⟨⟨"desk"⟩, .present, 0⟩, .send, .pause, .offer ⟨⟨"desk"⟩, .absent, 1⟩]) := by
  have h := routed_inputs_survive
    [.offer (.forceWake ⟨"desk"⟩), .send, .pause, .acknowledge, .teardown]
    [.offer ⟨⟨"desk"⟩, .present, 0⟩, .send, .pause, .offer ⟨⟨"desk"⟩, .absent, 1⟩]
    (by decide) (by decide)
  refine ⟨h.1.mpr ?_, h.2.2.2⟩
  exact ⟨by simp [HandEmpty], by simp [HandEmpty], by simp [HandEmpty], fun _ _ => rfl,
    by simp [HandEmpty], trivial⟩

/-- A wake whose send is in hand at the barrier is gone after the teardown, and so is the
forwarder. -/
theorem parked_wake_lost :
    let inputs : List (LaneInput ControlMsg) :=
      [.offer (.forceWake ⟨"desk"⟩), .pause, .acknowledge, .teardown, .send]
    let s := controlLane.system.run (Lane.first (some ⟨0⟩)) inputs
    (∀ input ∈ inputs, input.orderly = true) ∧
      ¬ controlLane.system.Throughout (InTime plainMsg) (Lane.first (some ⟨0⟩)) inputs ∧
      s.offered = [.forceWake ⟨"desk"⟩] ∧ s.received = [] ∧ s.pending = [] ∧
      s.forwarding = false := by
  refine ⟨by decide, ?_, rfl, rfl, rfl, rfl⟩
  intro h
  have hlost := h.2.2.2.2.2.accounted
  cases hlost

end Dormant.Reload
