import Dormant.Foundations.Channels
import Dormant.Reload.Requests

/-!
# The notices that the run loop sends to itself

`run_loop` and the debounce window of `execute_reload_batch` pass a watcher tick or a signal on by
`notify`, which waits for a place in the channel that only the loop empties. Other producers hold
its places as long as they like.
-/

namespace Dormant.Reload
set_option autoImplicit false

open Channels

namespace OwnNotice

/-- A message, and whether it is the loop that sends it. -/
abbrev Notice := ReloadRequest × Bool

inductive Place where
  | select
  | window (batch : ReloadBatch)
  | executing (batch : ReloadBatch)
  | finished
  deriving DecidableEq, Repr

/-- The loop, and its notice while it waits for a place for it. -/
structure RunLoop (capacity : ℕ) where
  requests : Channel Notice capacity
  place : Place
  sending : Option ReloadRequest
  cancelled : Bool
  nextRequestId : UInt64

/-- What the other tasks do, and what the loop does next. A task that has been handed a place
delivers its request, and one that waits may give up. -/
inductive LoopOp where
  | request (source : ReloadSource) (waiter : Option ℕ)
  | deliver (request : ReloadRequest)
  | abandon (request : ReloadRequest)
  | cancel
  | notice (source : ReloadSource)
  | resume
  | receive (reloadDebounce : ℕ)
  | closeWindow
  | executed
  | watchdogTick
  | terminate
  | observeCancelled

/-- What the loop serves. -/
inductive Served where
  | request (request : ReloadRequest)
  | batch (batch : ReloadBatch)
  | watchdog
  | shutdown
  deriving DecidableEq, Repr

namespace RunLoop
variable {capacity : ℕ} (s : RunLoop capacity)

def newRequest (source : ReloadSource) (waiter : Option ℕ) : ReloadRequest where
  requestId := s.nextRequestId
  source := source
  waiter := waiter

/-- The loop is in a select that has an arm for the source. -/
def picks (source : ReloadSource) : Prop :=
  s.sending = none ∧
    match s.place with
    | .select => source = .watcher ∨ source = .signal
    | .window _ => source = .watcher
    | _ => False

instance (source : ReloadSource) : Decidable (s.picks source) := by
  unfold picks
  cases s.place <;> infer_instance

def request (source : ReloadSource) (waiter : Option ℕ) : RunLoop capacity :=
  { s with
    requests := s.requests.send (s.newRequest source waiter, false)
    nextRequestId := s.nextRequestId + 1 }

/-- `notify`, awaited by the loop. -/
def notify (source : ReloadSource) : RunLoop capacity :=
  { s with
    requests := s.requests.send (s.newRequest source none, true)
    sending := if s.requests.used < capacity then none else some (s.newRequest source none)
    nextRequestId := s.nextRequestId + 1 }

def resume : RunLoop capacity :=
  match s.sending with
  | none => s
  | some request =>
    if (request, true) ∈ s.requests.granted then
      { s with requests := s.requests.deliver (request, true), sending := none }
    else s

/-- The arm of the channel, in the select of the loop or of the window. -/
def receive (reloadDebounce : ℕ) : RunLoop capacity × List Served :=
  match s.place, s.requests.recv with
  | .select, some (notice, requests) =>
    let batch := ReloadBatch.new notice.1
    ({ s with
        requests := requests
        place := if reloadDebounce = 0 then .executing batch else .window batch },
      [.request notice.1])
  | .window batch, some (notice, requests) =>
    ({ s with requests := requests, place := .window (batch.push notice.1) },
      [.request notice.1])
  | _, _ => (s, [])

/-- A step that the loop takes when it does not wait for a place. -/
def step : LoopOp → RunLoop capacity × List Served
  | .receive reloadDebounce => s.receive reloadDebounce
  | .closeWindow =>
    match s.place with
    | .window batch => ({ s with place := .executing batch }, [])
    | _ => (s, [])
  | .executed =>
    match s.place with
    | .executing batch => ({ s with place := .select }, [.batch batch])
    | _ => (s, [])
  | .watchdogTick => if s.place = .select then (s, [.watchdog]) else (s, [])
  | .terminate =>
    if s.place = .select then ({ s with place := .finished, cancelled := true }, [.shutdown])
    else (s, [])
  | .observeCancelled =>
    if s.place = .select ∧ s.cancelled = true then ({ s with place := .finished }, [.shutdown])
    else (s, [])
  | _ => (s, [])

end RunLoop

def runLoop (capacity : ℕ) : Runs.System (RunLoop capacity) LoopOp Served where
  next s op :=
    match op with
    | .request source waiter => (s.request source waiter, [])
    | .deliver request => ({ s with requests := s.requests.deliver (request, false) }, [])
    | .abandon request => ({ s with requests := s.requests.abandon (request, false) }, [])
    | .cancel => ({ s with cancelled := true }, [])
    | .notice source => if s.picks source then (s.notify source, []) else (s, [])
    | .resume => (s.resume, [])
    | op => if s.sending = none then s.step op else (s, [])

def firstLoop (capacity : ℕ) : RunLoop capacity where
  requests := .empty
  place := .select
  sending := none
  cancelled := false
  nextRequestId := 1

/-- The loop does not wait for a place. -/
def Unblocked {capacity : ℕ} (s : RunLoop capacity) : Prop := s.sending = none

/-- A notice that the loop picks finds a free place. -/
def RoomForOwn {capacity : ℕ} (s : RunLoop capacity) : LoopOp → Prop
  | .notice source => s.picks source → s.requests.used < capacity
  | _ => True

/-- The loop is over, or comes back to its select by its own steps. -/
def Returns {capacity : ℕ} (s : RunLoop capacity) : Prop :=
  s.place = .finished ∨
    Unblocked ((runLoop capacity).run s [.closeWindow, .executed]) ∧
      ((runLoop capacity).run s [.closeWindow, .executed]).place = .select

/-! ## Steps -/

section
variable {capacity : ℕ} {s : RunLoop capacity}

theorem receive_sending (reloadDebounce : ℕ) :
    (s.receive reloadDebounce).1.sending = s.sending := by
  unfold RunLoop.receive
  split <;> rfl

theorem step_sending (op : LoopOp) : (s.step op).1.sending = s.sending := by
  cases op with
  | receive reloadDebounce => exact receive_sending reloadDebounce
  | closeWindow | executed | watchdogTick | terminate | observeCancelled =>
    unfold RunLoop.step
    dsimp only
    split <;> rfl
  | request _ _ | deliver _ | abandon _ | cancel | notice _ | resume => rfl

/-- A step blocks the loop just when a notice that it picks finds no place. -/
theorem unblocked_next (h : Unblocked s) (op : LoopOp) :
    Unblocked ((runLoop capacity).next s op).1 ↔ RoomForOwn s op := by
  have hown (op : LoopOp) : Unblocked (if s.sending = none then s.step op else (s, [])).1 := by
    have hfree : s.sending = none := h
    rw [if_pos hfree]
    exact (step_sending op).trans h
  cases op with
  | notice source =>
    show Unblocked (if s.picks source then (s.notify source, []) else (s, [])).1 ↔
      (s.picks source → s.requests.used < capacity)
    by_cases hpicks : s.picks source
    · rw [if_pos hpicks]
      by_cases hroom : s.requests.used < capacity
      · exact iff_of_true (if_pos hroom) fun _ => hroom
      · refine iff_of_false ?_ fun hroom' => hroom (hroom' hpicks)
        intro hnone
        have hnone : (if s.requests.used < capacity then none
          else some (s.newRequest source none)) = none := hnone
        rw [if_neg hroom] at hnone
        cases hnone
    · rw [if_neg hpicks]
      exact iff_of_true h fun hpicks' => absurd hpicks' hpicks
  | request _ _ | deliver _ | abandon _ | cancel => exact iff_of_true h trivial
  | resume =>
    refine iff_of_true ?_ trivial
    show s.resume.sending = none
    unfold RunLoop.resume
    rw [h]
    exact h
  | receive reloadDebounce => exact iff_of_true (hown (.receive reloadDebounce)) trivial
  | closeWindow => exact iff_of_true (hown .closeWindow) trivial
  | executed => exact iff_of_true (hown .executed) trivial
  | watchdogTick => exact iff_of_true (hown .watchdogTick) trivial
  | terminate => exact iff_of_true (hown .terminate) trivial
  | observeCancelled => exact iff_of_true (hown .observeCancelled) trivial

theorem returns_of_unblocked (h : Unblocked s) : Returns s := by
  have hrun : (runLoop capacity).run s [.closeWindow, .executed] =
      ((s.step .closeWindow).1.step .executed).1 := by
    have hclosed : (s.step .closeWindow).1.sending = none := (step_sending _).trans h
    show (if (if s.sending = none then s.step .closeWindow else (s, [])).1.sending = none then
      (if s.sending = none then s.step .closeWindow else (s, [])).1.step .executed
      else ((if s.sending = none then s.step .closeWindow else (s, [])).1, [])).1 = _
    have hfree : s.sending = none := h
    rw [if_pos hfree, if_pos hclosed]
  unfold Returns
  rw [hrun]
  have hunblocked : Unblocked ((s.step .closeWindow).1.step .executed).1 :=
    (step_sending _).trans ((step_sending _).trans h)
  cases hplace : s.place with
  | finished => exact .inl rfl
  | select =>
    refine .inr ⟨hunblocked, ?_⟩
    simp [RunLoop.step, hplace]
  | window batch =>
    refine .inr ⟨hunblocked, ?_⟩
    simp [RunLoop.step, hplace]
  | executing batch =>
    refine .inr ⟨hunblocked, ?_⟩
    simp [RunLoop.step, hplace]

/-! ## A loop that waits for itself -/

/-- The loop waits for a place, and no task holds one that it could give back. -/
def WaitsForItself (request : ReloadRequest) (s : RunLoop capacity) : Prop :=
  s.sending = some request ∧ s.requests.Stuck (request, true)

theorem waits_next {request : ReloadRequest} (h : WaitsForItself request s) (op : LoopOp) :
    WaitsForItself request ((runLoop capacity).next s op).1 ∧
      ((runLoop capacity).next s op).2 = [] := by
  obtain ⟨hsending, hstuck⟩ := h
  have hblocked : ¬ s.sending = none := by
    rw [hsending]
    simp
  have hown (op : LoopOp) :
      WaitsForItself request (if s.sending = none then s.step op else (s, [])).1 ∧
        (if s.sending = none then s.step op else (s, [])).2 = [] := by
    rw [if_neg hblocked]
    exact ⟨⟨hsending, hstuck⟩, rfl⟩
  cases op with
  | request source waiter =>
    refine ⟨⟨hsending, ?_⟩, rfl⟩
    show (s.requests.send (s.newRequest source waiter, false)).Stuck (request, true)
    exact hstuck.send _
  | deliver other =>
    refine ⟨⟨hsending, ?_⟩, rfl⟩
    show (s.requests.deliver (other, false)).Stuck (request, true)
    rw [hstuck.deliver]
    exact hstuck
  | abandon other =>
    refine ⟨⟨hsending, ?_⟩, rfl⟩
    show (s.requests.abandon (other, false)).Stuck (request, true)
    exact hstuck.abandon (by simp)
  | cancel => exact ⟨⟨hsending, hstuck⟩, rfl⟩
  | notice source =>
    show WaitsForItself request (if s.picks source then (s.notify source, []) else (s, [])).1 ∧
      (if s.picks source then (s.notify source, []) else (s, [])).2 = []
    rw [if_neg fun hpicks : s.picks source => hblocked hpicks.1]
    exact ⟨⟨hsending, hstuck⟩, rfl⟩
  | resume =>
    show WaitsForItself request s.resume ∧ ([] : List Served) = []
    have hnone : ¬ (request, true) ∈ s.requests.granted := by
      rw [hstuck.none]
      exact List.not_mem_nil
    have hresume : s.resume = s := by
      unfold RunLoop.resume
      rw [hsending]
      exact if_neg hnone
    rw [hresume]
    exact ⟨⟨hsending, hstuck⟩, rfl⟩
  | receive reloadDebounce => exact hown (.receive reloadDebounce)
  | closeWindow => exact hown .closeWindow
  | executed => exact hown .executed
  | watchdogTick => exact hown .watchdogTick
  | terminate => exact hown .terminate
  | observeCancelled => exact hown .observeCancelled

/-- Such a loop serves nothing ever again, not even its shutdown. -/
theorem waits_forever {request : ReloadRequest} (h : WaitsForItself request s)
    (ops : List LoopOp) :
    WaitsForItself request ((runLoop capacity).run s ops) ∧
      (runLoop capacity).outputs s ops = [] := by
  induction ops generalizing s with
  | nil => exact ⟨h, rfl⟩
  | cons op ops ih =>
    obtain ⟨hnext, hserved⟩ := waits_next h op
    obtain ⟨hrun, houtputs⟩ := ih hnext
    refine ⟨hrun, ?_⟩
    show ((runLoop capacity).next s op).2 ++ _ = []
    rw [hserved, houtputs]
    rfl

end

/-! ## The law -/

/-- The loop never waits for a place in its own channel just when every notice that it picks finds
one, and as long as it does not it comes back to its select. -/
theorem unblocked_iff_room (capacity : ℕ) (ops : List LoopOp) :
    ((runLoop capacity).Throughout Unblocked (firstLoop capacity) ops ↔
        (runLoop capacity).Steps RoomForOwn (firstLoop capacity) ops) ∧
      ((runLoop capacity).Throughout Unblocked (firstLoop capacity) ops →
        Returns ((runLoop capacity).run (firstLoop capacity) ops)) := by
  refine ⟨?_, ?_⟩
  · apply Runs.System.throughout_iff_steps (fun _ => True) (fun _ _ => True)
    · intro _ _ _ _
      trivial
    · intro s op _ _ h
      exact unblocked_next h op
    · exact Runs.System.Steps.of_forall (fun _ _ => trivial) _ _
    · trivial
    · rfl
  · intro h
    apply returns_of_unblocked
    rw [← List.append_nil ops, Runs.System.throughout_append] at h
    exact h.2

/-- The queue is full of requests when the watcher ticks. -/
def fullQueue : List LoopOp :=
  List.replicate channelCapacity (.request .control none) ++ [.notice .watcher]

theorem full_queue_blocks :
    (¬ ∀ (capacity : ℕ) (ops : List LoopOp), 1 ≤ capacity →
      (runLoop capacity).Throughout Unblocked (firstLoop capacity) ops) ∧
    ∀ ops, (runLoop channelCapacity).outputs
      ((runLoop channelCapacity).run (firstLoop channelCapacity) fullQueue) ops = [] := by
  have hwaits : WaitsForItself ⟨33, .watcher, none⟩
      ((runLoop channelCapacity).run (firstLoop channelCapacity) fullQueue) :=
    ⟨by decide +kernel, ⟨by decide +kernel, by decide +kernel⟩⟩
  refine ⟨?_, fun ops => (waits_forever hwaits ops).2⟩
  intro h
  have hall := h channelCapacity fullQueue (by decide)
  rw [← List.append_nil fullQueue, Runs.System.throughout_append] at hall
  have hnone := hall.2
  have hsome := hwaits.1
  rw [show _ = none from hnone] at hsome
  cases hsome

end OwnNotice
end Dormant.Reload
