import Dormant.Reload.Router

/-!
# Whom the front door speaks for

The statements of `reload` that touch the control router, the registry and the generation id, each
at its own time, with control messages in between. A router that is opened again stamps with an id
that is still closed: the accepted arm installs with the id of before, `rebuild_old` never opens
its id, and the busy arm does so after its install.
-/

namespace Dormant.Reload
set_option autoImplicit false

inductive SwapStage where
  | running
  | paused
  | quiesced
  | reopened
  | advancing
  deriving DecidableEq, Repr

structure FrontDoor where
  router : GenerationRouter ControlMsg
  registry : OperationState
  generationId : GenerationId
  engine : Engine
  stage : SwapStage
  nextSerial : ℕ

/-- The sends of an install are those that the engine takes. Engines acquire operations of their own,
and a lease is dropped when its operation is finished. -/
inductive FrontInput where
  | control (message : ControlMsg)
  | acquired (generation : GenerationId) (kind : OperationKind)
  | finished (lease : OperationLease)
  | pause
  | beginQuiesce
  | reopen (sends : ℕ)
  | endQuiesce
  | swap (sends : ℕ)
  | advance
  | rebuild (sends : ℕ)

/-- What is sent to an engine. -/
structure Delivery where
  engine : Engine
  message : ControlMsg
  deriving DecidableEq

namespace FrontDoor
variable (s : FrontDoor)

def install (engine : Engine) (stage : SwapStage) (sends : ℕ) : FrontDoor × List Delivery :=
  let installed := s.router.installGeneration engine s.generationId s.registry sends
  ({ s with
      router := installed.1
      registry := installed.2.1
      engine := engine
      stage := stage
      nextSerial := s.nextSerial + 1 },
    installed.2.2.map fun message => ⟨engine, message⟩)

def control (message : ControlMsg) : FrontDoor × List Delivery :=
  let routed := s.router.routeControl message s.registry
  ({ s with router := routed.1, registry := routed.2.1 },
    routed.2.2.toList.map fun sent => ⟨sent.1, sent.2⟩)

/-- A reload starts where there is a target. -/
def next : FrontInput → FrontDoor × List Delivery
  | .control message => s.control message
  | .acquired generation kind =>
    ({ s with registry := (s.registry.tryAcquire generation kind s.registry.nextId.toNat).1 }, [])
  | .finished lease => ({ s with registry := s.registry.remove lease }, [])
  | .pause =>
    if s.stage = .running ∧ s.router.target.isSome then
      ({ s with router := s.router.pause, stage := .paused }, [])
    else (s, [])
  | .beginQuiesce =>
    if s.stage = .paused then
      ({ s with registry := s.registry.beginQuiesce s.generationId, stage := .quiesced }, [])
    else (s, [])
  | .reopen sends => if s.stage = .quiesced then s.install s.engine .reopened sends else (s, [])
  | .endQuiesce =>
    if s.stage = .reopened then
      ({ s with registry := s.registry.endQuiesce s.generationId, stage := .running }, [])
    else (s, [])
  | .swap sends =>
    if s.stage = .quiesced then
      s.install ⟨s.nextSerial, nextGeneration s.generationId⟩ .advancing sends
    else (s, [])
  | .advance =>
    if s.stage = .advancing then
      ({ s with generationId := nextGeneration s.generationId, stage := .running }, [])
    else (s, [])
  | .rebuild sends =>
    if s.stage = .quiesced then s.install ⟨s.nextSerial, s.generationId⟩ .running sends
    else (s, [])

end FrontDoor

def frontDoor : Runs.System FrontDoor FrontInput Delivery where
  next s input := s.next input

def firstFront : FrontDoor where
  router := ⟨false, some ⟨1, ⟨0⟩⟩, [], some ⟨0⟩⟩
  registry := .default
  generationId := ⟨0⟩
  engine := ⟨1, ⟨0⟩⟩
  stage := .running
  nextSerial := 2

/-- A router that is open stamps for the engine that it sends to, whose generation takes
operations. -/
def SpeaksFor (s : FrontDoor) : Prop :=
  s.router.paused = false → ∃ engine, s.router.target = some engine ∧
    s.router.generationId = some engine.generation ∧ engine.generation ∉ s.registry.quiescing

/-- The sends of an install. -/
def FrontInput.sends : FrontInput → Option ℕ
  | .reopen sends | .swap sends | .rebuild sends => some sends
  | _ => none

/-- No reload opens the router again. -/
def StaysShut (s : FrontDoor) (input : FrontInput) : Prop :=
  s.stage = .quiesced → ∀ sends ∈ input.sends, sends < s.router.queued.length

/-- An operation that conflicts with nothing is delivered as one of its engine's generation, for
which the next reload waits. -/
def AcceptsOperations (s : FrontDoor) (input : FrontInput) : Prop :=
  ∀ message kind, input = .control message → operationKind message = some kind →
    s.router.paused = false → ∀ engine ∈ s.router.target,
      (s.registry.values.any fun active =>
        decide (active.generation = engine.generation) && kind.conflicts active.kind) = false →
      ∃ operation, operation.generation = engine.generation ∧ operation.kind = kind ∧
        (s.next input).2 = [⟨engine, acceptedMsg operation message⟩] ∧
        (s.next input).1.registry.generationEmpty engine.generation = false

/-- The id of a reload under way is closed, and a router that is open has it. -/
structure Fenced (s : FrontDoor) : Prop where
  paused : s.stage = .paused → s.router.paused = true
  quiesced : s.stage = .quiesced → s.router.paused = true ∧
    s.generationId ∈ s.registry.quiescing
  reopened : s.stage = .reopened ∨ s.stage = .advancing → s.router.paused = false →
    s.router.generationId = some s.generationId ∧ s.generationId ∈ s.registry.quiescing

section Steps
variable {s : FrontDoor}

theorem control_keeps (s : FrontDoor) (message : ControlMsg) :
    (s.control message).1.router.paused = s.router.paused ∧
      (s.control message).1.router.target = s.router.target ∧
      (s.control message).1.router.generationId = s.router.generationId ∧
      (s.control message).1.registry.quiescing = s.registry.quiescing ∧
      (s.control message).1.stage = s.stage ∧
      (s.control message).1.generationId = s.generationId := by
  unfold FrontDoor.control GenerationRouter.routeControl
  split
  · exact ⟨rfl, rfl, rfl, rfl, rfl, rfl⟩
  · dsimp only
    refine ⟨rfl, rfl, rfl, ?_, rfl, rfl⟩
    split
    · exact quiescing_stamp message s.registry _
    · rfl

/-- An install that opens the router does so with an id that is closed. -/
theorem install_opens (engine : Engine) (stage : SwapStage) (sends : ℕ)
    (hpaused : s.router.paused = true) (hquiescing : s.generationId ∈ s.registry.quiescing) :
    ((s.install engine stage sends).1.router.paused = false ↔ s.router.queued.length ≤ sends) ∧
      (s.install engine stage sends).1.router.generationId = some s.generationId ∧
      s.generationId ∈ (s.install engine stage sends).1.registry.quiescing := by
  have hleft := release_left s.registry s.generationId sends s.router.queued
  have hkept := quiescing_release s.registry s.generationId sends s.router.queued
  unfold FrontDoor.install GenerationRouter.installGeneration
  dsimp only
  by_cases hempty : (releaseQueued s.generationId s.registry sends s.router.queued).2.2 = []
  · rw [if_pos (List.isEmpty_iff.mpr hempty)]
    exact ⟨iff_of_true rfl (hleft.mp hempty), rfl, by rw [hkept]; exact hquiescing⟩
  · rw [if_neg (fun h => hempty (List.isEmpty_iff.mp h))]
    refine ⟨iff_of_false ?_ fun h => hempty (hleft.mpr h), rfl, by rw [hkept]; exact hquiescing⟩
    dsimp only
    rw [hpaused]
    simp

theorem speaks_install {engine : Engine} {stage : SwapStage} {sends : ℕ}
    (hpaused : s.router.paused = true) (hquiescing : s.generationId ∈ s.registry.quiescing) :
    SpeaksFor (s.install engine stage sends).1 ↔ sends < s.router.queued.length := by
  obtain ⟨hopens, hid, hclosed⟩ := install_opens engine stage sends hpaused hquiescing
  constructor
  · intro hspeaks
    by_contra hsends
    obtain ⟨target, -, htarget, hfree⟩ := hspeaks (hopens.mpr (Nat.le_of_not_lt hsends))
    rw [hid] at htarget
    rw [← Option.some.inj htarget] at hfree
    exact hfree hclosed
  · intro hsends hopen
    exact absurd (hopens.mp hopen) (Nat.not_le_of_lt hsends)

theorem fenced_install {engine : Engine} {stage : SwapStage} {sends : ℕ}
    (hstage : stage ≠ .paused ∧ stage ≠ .quiesced) (hpaused : s.router.paused = true)
    (hquiescing : s.generationId ∈ s.registry.quiescing) :
    Fenced (s.install engine stage sends).1 := by
  obtain ⟨-, hid, hclosed⟩ := install_opens engine stage sends hpaused hquiescing
  exact ⟨fun h => absurd h hstage.1, fun h => absurd h hstage.2, fun _ _ => ⟨hid, hclosed⟩⟩

/-- No reload is under way. -/
theorem fenced_running (hstage : s.stage = .running) : Fenced s := by
  constructor
  · intro h
    rw [hstage] at h
    cases h
  · intro h
    rw [hstage] at h
    cases h
  · rw [hstage]
    intro h
    cases h <;> contradiction

theorem fenced_next (h : Fenced s) (input : FrontInput) : Fenced (s.next input).1 := by
  cases input with
  | control message =>
    obtain ⟨hpaused, -, hid, hquiescing, hstage, hgeneration⟩ := control_keeps s message
    show Fenced (s.control message).1
    constructor
    · rw [hstage, hpaused]
      exact h.paused
    · rw [hstage, hpaused, hgeneration, hquiescing]
      exact h.quiesced
    · rw [hstage, hpaused, hid, hgeneration, hquiescing]
      exact h.reopened
  | acquired generation kind =>
    constructor
    · exact h.paused
    · intro hstage
      refine ⟨(h.quiesced hstage).1, ?_⟩
      show s.generationId ∈ (s.registry.tryAcquire generation kind _).1.quiescing
      rw [quiescing_tryAcquire]
      exact (h.quiesced hstage).2
    · intro hstage hopen
      refine ⟨(h.reopened hstage hopen).1, ?_⟩
      show s.generationId ∈ (s.registry.tryAcquire generation kind _).1.quiescing
      rw [quiescing_tryAcquire]
      exact (h.reopened hstage hopen).2
  | finished lease => exact ⟨h.paused, h.quiesced, h.reopened⟩
  | pause =>
    dsimp only [FrontDoor.next]
    split
    · constructor
      · intro _
        rfl
      · intro hstage
        cases hstage
      · intro hstage
        cases hstage <;> contradiction
    · exact h
  | beginQuiesce =>
    dsimp only [FrontDoor.next]
    split
    · rename_i hpaused
      constructor
      · intro hstage
        cases hstage
      · intro _
        exact ⟨h.paused hpaused, Finset.mem_insert_self _ _⟩
      · intro hstage
        cases hstage <;> contradiction
    · exact h
  | reopen sends =>
    dsimp only [FrontDoor.next]
    split
    · rename_i hstage
      exact fenced_install ⟨by decide, by decide⟩ (h.quiesced hstage).1 (h.quiesced hstage).2
    · exact h
  | swap sends =>
    dsimp only [FrontDoor.next]
    split
    · rename_i hstage
      exact fenced_install ⟨by decide, by decide⟩ (h.quiesced hstage).1 (h.quiesced hstage).2
    · exact h
  | rebuild sends =>
    dsimp only [FrontDoor.next]
    split
    · rename_i hstage
      exact fenced_install ⟨by decide, by decide⟩ (h.quiesced hstage).1 (h.quiesced hstage).2
    · exact h
  | endQuiesce =>
    dsimp only [FrontDoor.next]
    split
    · exact fenced_running rfl
    · exact h
  | advance =>
    dsimp only [FrontDoor.next]
    split
    · exact fenced_running rfl
    · exact h

/-- Where it speaks for its engine, only a reload that opens the router again ends that. -/
theorem speaks_iff_shut (h : Fenced s) (hspeaks : SpeaksFor s) (input : FrontInput) :
    SpeaksFor (s.next input).1 ↔ StaysShut s input := by
  have hsame : ∀ t : FrontDoor, t.router.paused = s.router.paused →
      t.router.target = s.router.target → t.router.generationId = s.router.generationId →
      (∀ generation ∈ t.registry.quiescing, generation ∈ s.registry.quiescing) →
      input.sends = none → (SpeaksFor t ↔ StaysShut s input) := by
    intro t hpaused htarget hid hquiescing hsends
    refine iff_of_true ?_ ?_
    · intro hopen
      obtain ⟨engine, h1, h2, h3⟩ := hspeaks (hpaused ▸ hopen)
      exact ⟨engine, htarget ▸ h1, hid ▸ h2, fun hmem => h3 (hquiescing _ hmem)⟩
    · intro _ sends hmem
      rw [hsends] at hmem
      cases hmem
  have hinstall : ∀ (engine : Engine) (stage : SwapStage) (sends : ℕ), input.sends = some sends →
      (SpeaksFor (if s.stage = .quiesced then s.install engine stage sends else (s, [])).1 ↔
        StaysShut s input) := by
    intro engine stage sends hsends
    by_cases hstage : s.stage = .quiesced
    · rw [if_pos hstage, speaks_install (h.quiesced hstage).1 (h.quiesced hstage).2]
      constructor
      · intro hshut _ sends' hmem
        rw [hsends] at hmem
        cases hmem
        exact hshut
      · intro hshut
        exact hshut hstage sends hsends
    · rw [if_neg hstage]
      exact iff_of_true hspeaks fun hquiesced => absurd hquiesced hstage
  cases input with
  | control message =>
    obtain ⟨hpaused, htarget, hid, hquiescing, -, -⟩ := control_keeps s message
    exact hsame _ hpaused htarget hid (fun _ hmem => hquiescing ▸ hmem) rfl
  | acquired generation kind =>
    exact hsame _ rfl rfl rfl
      (fun _ hmem => quiescing_tryAcquire s.registry generation kind _ ▸ hmem) rfl
  | finished lease => exact hsame _ rfl rfl rfl (fun _ hmem => hmem) rfl
  | pause =>
    dsimp only [FrontDoor.next]
    split
    · refine iff_of_true ?_ ?_
      · intro hopen
        cases hopen
      · intro _ sends hmem
        cases hmem
    · exact hsame s rfl rfl rfl (fun _ hmem => hmem) rfl
  | beginQuiesce =>
    dsimp only [FrontDoor.next]
    split
    · rename_i hstage
      refine iff_of_true ?_ ?_
      · intro hopen
        exact absurd ((h.paused hstage).symm.trans hopen) (by decide)
      · intro _ sends hmem
        cases hmem
    · exact hsame s rfl rfl rfl (fun _ hmem => hmem) rfl
  | reopen sends => exact hinstall s.engine .reopened sends rfl
  | swap sends => exact hinstall _ .advancing sends rfl
  | rebuild sends => exact hinstall _ .running sends rfl
  | endQuiesce =>
    dsimp only [FrontDoor.next]
    split
    · exact hsame _ rfl rfl rfl (fun _ hmem => Finset.mem_of_mem_erase hmem) rfl
    · exact hsame s rfl rfl rfl (fun _ hmem => hmem) rfl
  | advance =>
    dsimp only [FrontDoor.next]
    split
    · exact hsame _ rfl rfl rfl (fun _ hmem => hmem) rfl
    · exact hsame s rfl rfl rfl (fun _ hmem => hmem) rfl

/-- A front door that speaks for its engine accepts for it what conflicts with nothing. -/
theorem accepts_of_speaks (hspeaks : SpeaksFor s) (input : FrontInput) :
    AcceptsOperations s input := by
  intro message kind hinput hkind hopen target htarget hfree
  subst hinput
  obtain ⟨engine, htarget', hid, hgeneration⟩ := hspeaks hopen
  rw [htarget'] at htarget
  have hsame : engine = target := Option.some.inj htarget
  subst hsame
  obtain ⟨operation, h1, h2, h3, h4⟩ :=
    stamp_accepts message s.registry engine.generation hkind hgeneration hfree
  refine ⟨operation, h1, h2, ?_⟩
  have hrouted : s.router.routeControl message s.registry =
      (s.router, (stampControlOperation message s.registry engine.generation).1,
        some (engine, (stampControlOperation message s.registry engine.generation).2)) := by
    unfold GenerationRouter.routeControl
    rw [if_neg (by rw [hopen]; decide), hid, htarget']
    rfl
  show (s.control message).2 = _ ∧ (s.control message).1.registry.generationEmpty _ = _
  unfold FrontDoor.control
  rw [hrouted, h3]
  exact ⟨rfl, h4⟩

end Steps

theorem fenced_firstFront : Fenced firstFront :=
  fenced_running rfl

theorem speaks_firstFront : SpeaksFor firstFront := by
  intro _
  exact ⟨firstFront.engine, rfl, rfl, by decide⟩

/-- The front door speaks for the generation that runs just as long as no reload has opened it
again. -/
theorem door_speaks_until_reopened (inputs : List FrontInput) :
    (frontDoor.Throughout SpeaksFor firstFront inputs ↔
      frontDoor.Steps StaysShut firstFront inputs) ∧
    (frontDoor.Steps StaysShut firstFront inputs →
      frontDoor.Steps AcceptsOperations firstFront inputs) := by
  constructor
  · exact Runs.System.throughout_iff_steps Fenced (fun _ _ => True)
      (fun s input h _ => fenced_next h input) (fun s input h _ hspeaks =>
        speaks_iff_shut h hspeaks input) (Runs.System.Steps.of_forall (fun _ _ => trivial) _ _)
      fenced_firstFront speaks_firstFront
  · intro h
    have hstep : ∀ s input, Fenced s ∧ SpeaksFor s → StaysShut s input →
        Fenced (frontDoor.next s input).1 ∧ SpeaksFor (frontDoor.next s input).1 := by
      intro s input hs hshut
      exact ⟨fenced_next hs.1 input, (speaks_iff_shut hs.1 hs.2 input).mpr hshut⟩
    exact h.derive (fun s => Fenced s ∧ SpeaksFor s) hstep
      (fun s input hs _ => accepts_of_speaks hs.2 input) ⟨fenced_firstFront, speaks_firstFront⟩

/-- An accepted reload, and an exercise after it: the router stamps with the old id, which is closed
for good, and the exercise is sent as it came. -/
theorem reload_silences_door :
    ¬ frontDoor.Throughout SpeaksFor firstFront [.pause, .beginQuiesce, .swap 0, .advance] ∧
    ¬ frontDoor.Steps AcceptsOperations firstFront
      [.pause, .beginQuiesce, .swap 0, .advance, .control (.exercise ⟨"desk"⟩)] := by
  constructor
  · intro h
    obtain ⟨engine, htarget, hid, -⟩ := h.2.2.2.2 rfl
    revert hid
    rw [← Option.some.inj htarget]
    decide
  · intro h
    obtain ⟨operation, -, -, hsent, -⟩ :=
      h.2.2.2.2.1 (.exercise ⟨"desk"⟩) (.exercise ⟨"desk"⟩) rfl rfl rfl ⟨2, ⟨1⟩⟩ rfl (by decide)
    have hplain : (frontDoor.next (frontDoor.run firstFront
        [.pause, .beginQuiesce, .swap 0, .advance]) (.control (.exercise ⟨"desk"⟩))).2 =
        [⟨⟨2, ⟨1⟩⟩, .exercise ⟨"desk"⟩⟩] := rfl
    exact absurd (hplain.symm.trans hsent) (by simp [acceptedMsg])

end Dormant.Reload
