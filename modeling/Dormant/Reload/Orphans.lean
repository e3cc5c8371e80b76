import Dormant.Foundations.Progress
import Dormant.Reload.Lane

/-!
# Accepted operations that nobody holds

An entry of the registry is covered by a task that holds its lease, or by an accepted message on its
way to an engine that reads. Every step keeps that which drops no accepted message: the front door
forgets the lease when it stamps, and nothing takes the entry out when the message is lost.
-/

namespace Dormant.Reload
set_option autoImplicit false

/-- The operation that an engine adopts when it reads the message. -/
def accepted : ControlMsg → Option AcceptedOperation
  | .exerciseAccepted operation =>
    match operation.kind with
    | .exercise _ => some operation
    | .emergencyWake => none
  | .emergencyWakeAccepted operation => some operation
  | _ => none

/-! ## The desk -/

/-- Every entry has a task with its lease, or is one of `held`. -/
def OperationDesk.Covered (desk : OperationDesk) (held : AcceptedOperation → Prop) : Prop :=
  ∀ id active, desk.registry.active.lookup id = some active →
    (∃ lease ∈ desk.running, lease.id = id) ∨ held ⟨id, active.generation, active.kind⟩

namespace OperationDesk
variable {desk : OperationDesk} {held : AcceptedOperation → Prop}

theorem Covered.mono {held' : AcceptedOperation → Prop} (h : desk.Covered held)
    (hmore : ∀ operation, held operation → held' operation) : desk.Covered held' := by
  intro id active hlookup
  exact (h id active hlookup).imp_right (hmore _)

theorem Covered.insert {generation : GenerationId} {kind : OperationKind} {token : ℕ} {id : UInt64}
    {desk' : OperationDesk} (h : desk.Covered held)
    (hactive : desk'.registry.active =
      desk.registry.active.insert id ⟨generation, kind, token⟩)
    (hrunning : ∀ lease ∈ desk.running, lease ∈ desk'.running)
    (hnew : (∃ lease ∈ desk'.running, lease.id = id) ∨ held ⟨id, generation, kind⟩) :
    desk'.Covered held := by
  intro other active hlookup
  rw [hactive] at hlookup
  by_cases hid : other = id
  · subst hid
    rw [AList.lookup_insert] at hlookup
    cases hlookup
    exact hnew
  · rw [AList.lookup_insert_ne hid] at hlookup
    refine (h other active hlookup).imp_left ?_
    intro ⟨lease, hmem, hlease⟩
    exact ⟨lease, hrunning lease hmem, hlease⟩

theorem Covered.acquire (h : desk.Covered held) (generation : GenerationId)
    (kind : OperationKind) : (desk.acquire generation kind).Covered held := by
  unfold OperationDesk.acquire
  split
  · rename_i registry operation lease hacquire
    obtain ⟨-, hlease, hactive⟩ := tryAcquire_ok hacquire
    refine h.insert hactive (fun _ hmem => List.mem_append_left _ hmem) (.inl ?_)
    exact ⟨lease, List.mem_append_right _ List.mem_cons_self, by rw [hlease]⟩
  · rename_i registry kind' hacquire
    cases tryAcquire_cases desk.registry generation kind desk.registry.nextId.toNat with
    | inl herror =>
      rw [herror] at hacquire
      cases hacquire
      exact h
    | inr hok =>
      rw [hok] at hacquire
      cases hacquire

/-- An engine takes over what it adopts. -/
theorem Covered.adopt {operation : AcceptedOperation}
    (h : desk.Covered fun other => other = operation ∨ held other) (fallback : OperationDesk)
    (hfallback : desk.Covered held → fallback.Covered held) :
    ((desk.adopt operation).getD fallback).Covered held := by
  cases hlookup : desk.registry.active.lookup operation.id with
  | none =>
    have hnone : desk.adopt operation = none := by
      unfold OperationDesk.adopt OperationState.leaseAccepted
      rw [hlookup]
      rfl
    rw [hnone]
    apply hfallback
    intro id active hactive
    refine (h id active hactive).imp_right ?_
    intro hheld
    refine hheld.resolve_left ?_
    intro heq
    rw [← heq] at hlookup
    exact absurd (hlookup.symm.trans hactive) (by simp)
  | some found =>
    by_cases hmatch : operation.generation ≠ found.generation ∨ found.kind ≠ operation.kind
    · have hnone : desk.adopt operation = none := by
        unfold OperationDesk.adopt OperationState.leaseAccepted
        rw [hlookup]
        exact congrArg (Option.map _) (if_pos hmatch)
      rw [hnone]
      apply hfallback
      intro id active hactive
      refine (h id active hactive).imp_right ?_
      intro hheld
      refine hheld.resolve_left ?_
      intro heq
      rw [← heq] at hlookup hmatch
      have hsame : found = active := Option.some.inj (hlookup.symm.trans hactive)
      rw [hsame] at hmatch
      exact hmatch.elim (fun hne => hne rfl) (fun hne => hne rfl)
    · have hsome : desk.adopt operation =
          some { desk with running := desk.running ++ [⟨operation.id, found.token⟩] } := by
        unfold OperationDesk.adopt OperationState.leaseAccepted
        rw [hlookup]
        exact congrArg (Option.map _) (if_neg hmatch)
      rw [hsome]
      intro id active hactive
      cases h id active hactive with
      | inl hlease =>
        obtain ⟨lease, hmem, hid⟩ := hlease
        exact .inl ⟨lease, List.mem_append_left _ hmem, hid⟩
      | inr hheld =>
        cases hheld with
        | inl heq =>
          exact .inl ⟨⟨operation.id, found.token⟩,
            List.mem_append_right _ List.mem_cons_self, by rw [← heq]⟩
        | inr hheld => exact .inr hheld

/-- What a message brings is taken over by the engine that reads it. -/
theorem Covered.receive (message : ControlMsg) (engine : Engine)
    (h : desk.Covered fun operation => accepted message = some operation ∨ held operation) :
    (desk.receive engine message).Covered held := by
  have hplain : accepted message = none → desk.Covered held := by
    intro hnone
    refine h.mono ?_
    intro operation hheld
    refine hheld.resolve_left ?_
    rw [hnone]
    simp
  have hadopts : ∀ operation, accepted message = some operation →
      desk.Covered fun other => other = operation ∨ held other := by
    intro operation hsome
    refine h.mono ?_
    intro other hheld
    refine hheld.imp_left ?_
    intro heq
    exact Option.some.inj (heq.symm.trans hsome)
  cases message with
  | exercise display => exact (hplain rfl).acquire _ _
  | exerciseAccepted operation =>
    obtain ⟨id, generation, kind⟩ := operation
    cases kind with
    | exercise display =>
      exact (hadopts _ rfl).adopt _ fun hcovered => hcovered.acquire _ _
    | emergencyWake => exact hplain rfl
  | emergencyWakeAccepted operation => exact (hadopts _ rfl).adopt _ id
  | _ => exact hplain rfl

theorem Covered.receiveAll (messages : List ControlMsg) (engine : Engine)
    (h : desk.Covered fun operation =>
      (∃ message ∈ messages, accepted message = some operation) ∨ held operation) :
    (messages.foldl (fun desk message => desk.receive engine message) desk).Covered held := by
  induction messages generalizing desk with
  | nil =>
    refine h.mono ?_
    simp
  | cons message messages ih =>
    apply ih
    refine Covered.receive message engine (h.mono ?_)
    intro operation hheld
    cases hheld with
    | inl hmessage =>
      obtain ⟨sent, hmem, hsent⟩ := hmessage
      cases List.mem_cons.mp hmem with
      | inl heq =>
        rw [heq] at hsent
        exact .inl hsent
      | inr hmem => exact .inr (.inl ⟨sent, hmem, hsent⟩)
    | inr hheld => exact .inr (.inr hheld)

theorem Covered.finish (h : desk.Covered held) (task : ℕ) : (desk.finish task).Covered held := by
  unfold OperationDesk.finish
  split
  · rename_i lease hlease
    intro id active hlookup
    have hne : id ≠ lease.id := by
      rintro rfl
      exact absurd (hlookup.symm.trans (AList.lookup_erase _ _)) (by simp)
    have hbefore : desk.registry.active.lookup id = some active :=
      (AList.lookup_erase_ne hne).symm.trans hlookup
    refine (h id active hbefore).imp_left ?_
    intro ⟨other, hmem, hid⟩
    refine ⟨other, ?_, hid⟩
    obtain ⟨index, hindex⟩ := List.mem_iff_getElem?.mp hmem
    have hother : index ≠ task := by
      rintro rfl
      rw [hlease] at hindex
      cases hindex
      exact hne hid.symm
    exact List.mem_eraseIdx_iff_getElem?.mpr ⟨index, hother, hindex⟩
  · exact h

/-- An entry that a stamp adds is held by the message. -/
theorem Covered.stamp (h : desk.Covered held) (message : ControlMsg) (id : Option GenerationId) :
    ({ desk with registry := (controlLane.stamp message desk.registry id).1 } :
        OperationDesk).Covered fun operation =>
      accepted (controlLane.stamp message desk.registry id).2 = some operation ∨
        held operation := by
  have hkept : desk.Covered fun operation => accepted message = some operation ∨ held operation :=
    h.mono fun operation hheld => .inr hheld
  cases id with
  | none => exact hkept
  | some generation =>
    show ({ desk with registry :=
      (stampControlOperation message desk.registry generation).1 } : OperationDesk).Covered
        fun operation =>
          accepted (stampControlOperation message desk.registry generation).2 = some operation ∨
            held operation
    unfold stampControlOperation
    split
    · exact hkept
    · rename_i kind hkind
      split
      · rename_i registry operation lease hacquire
        obtain ⟨hoperation, -, hactive⟩ := tryAcquire_ok hacquire
        subst hoperation
        refine (h.mono fun operation hheld => .inr hheld).insert hactive (fun _ hmem => hmem)
          (.inr (.inl ?_))
        cases message with
        | exercise display =>
          cases hkind
          rfl
        | emergencyWake => rfl
        | _ => cases hkind
      · exact hkept

end OperationDesk

/-! ## The lane -/

/-- The messages on their way to an engine that reads. -/
def LaneState.bound (s : LaneState ControlMsg) : List ControlMsg :=
  if s.alive then
    s.inbox ++ (s.hand.filter fun sent => sent.1 = s.engine).toList.map (·.2) ++ s.carried.toList
  else []

def NoOrphans (s : LaneState ControlMsg) : Prop :=
  s.desk.Covered fun operation => ∃ message ∈ s.bound, accepted message = some operation

/-- The generation takes the operation that the message asks for. -/
def Takes (registry : OperationState) (id : Option GenerationId) (message : ControlMsg) : Prop :=
  ∃ kind generation, operationKind message = some kind ∧ id = some generation ∧
    generation ∉ registry.quiescing ∧
    (registry.values.any fun active =>
      decide (active.generation = generation) && kind.conflicts active.kind) = false

/-- No accepted message is dropped, and none is made for an engine that is gone. -/
def Delivers (s : LaneState ControlMsg) : LaneInput ControlMsg → Prop
  | .offer message => s.forwarding = true → s.hand = none → s.stage ≠ .installing →
      s.router.paused = false → Takes s.desk.registry s.router.generationId message →
      s.alive = true
  | .release => s.stage = .installing → s.carried = none → ∀ message ∈ s.router.queued.head?,
      Takes s.desk.registry s.router.generationId message → s.alive = true
  | .cancel => ∀ sent ∈ s.hand, accepted sent.2 = none
  | .die => ∀ message ∈ s.bound, accepted message = none
  | .teardown => s.stage = .acknowledged → ∀ message ∈ s.bound, accepted message = none
  | _ => True

/-- Sends, reads and ends of operations. -/
def LaneInput.works : LaneInput ControlMsg → Bool
  | .send | .release | .read | .finish _ => true
  | _ => false

/-- Every entry is removed in the end: no generation is waited for. -/
def AllRemoved (s : LaneState ControlMsg) : Prop :=
  ∃ more : List (LaneInput ControlMsg), (∀ input ∈ more, input.works = true) ∧
    ∀ generation,
      (controlLane.system.run s more).desk.registry.generationEmpty generation = true

structure Wired (s : LaneState ControlMsg) : Prop where
  opened : s.router.paused = false → s.router.target = some s.engine
  running : s.router.paused = false ↔ s.stage = .running
  installing : s.stage = .installing → s.router.target = some s.engine
  stopped : s.stage = .stopped → s.alive = false
  carrying : s.carried.isSome = true → s.stage = .installing

section Wires
variable {s : LaneState ControlMsg}

theorem mem_bound {message : ControlMsg} : message ∈ s.bound ↔ s.alive = true ∧
    (message ∈ s.inbox ∨ s.hand = some (s.engine, message) ∨ s.carried = some message) := by
  unfold LaneState.bound
  split
  · rename_i halive
    cases s.hand with
    | none => simp [halive]
    | some sent =>
      obtain ⟨target, other⟩ := sent
      simp [Option.filter, halive]
  · rename_i hdead
    simp [hdead]

theorem bound_dead (h : s.alive = false) : s.bound = [] := by
  unfold LaneState.bound
  rw [if_neg (by rw [h]; decide)]

theorem wired_next (h : Wired s) (input : LaneInput ControlMsg) :
    Wired (controlLane.next s input) := by
  obtain ⟨h1, h2, h3, h4, h5⟩ := h
  cases input with
  | offer message =>
    dsimp only [Lane.next, Lane.offer]
    split
    · split
      · constructor <;> simp_all
      · split
        · constructor <;> simp_all
        · constructor <;> simp_all
    · constructor <;> assumption
  | send =>
    dsimp only [Lane.next, Lane.send]
    split
    · split
      · split
        · constructor <;> simp_all
        · constructor <;> assumption
      · constructor <;> simp_all
    · constructor <;> assumption
  | cancel => constructor <;> assumption
  | pause =>
    dsimp only [Lane.next, Lane.pause]
    split
    · constructor <;> simp_all [GenerationRouter.pause]
    · constructor <;> assumption
  | reopen id =>
    dsimp only [Lane.next, Lane.reopen]
    split
    · constructor <;> simp_all
    · constructor <;> assumption
  | acknowledge =>
    dsimp only [Lane.next, Lane.acknowledge]
    split
    · constructor <;> simp_all
    · constructor <;> assumption
  | teardown =>
    dsimp only [Lane.next]
    split
    · constructor <;> simp_all
    · constructor <;> assumption
  | install generation id =>
    dsimp only [Lane.next, Lane.install]
    split
    · constructor <;> simp_all
    · constructor <;> assumption
  | release =>
    dsimp only [Lane.next, Lane.release]
    split
    · split
      · split
        · split
          · constructor <;> simp_all
          · constructor <;> assumption
        · constructor <;> simp_all
      · constructor <;> simp_all
      · constructor <;> simp_all
    · constructor <;> assumption
  | read =>
    dsimp only [Lane.next, Lane.read]
    split
    · constructor <;> simp_all
    · constructor <;> assumption
  | die => exact ⟨h1, h2, h3, fun _ => rfl, h5⟩
  | finish task => exact ⟨h1, h2, h3, h4, h5⟩
  | beginQuiesce generation => exact ⟨h1, h2, h3, h4, h5⟩
  | endQuiesce generation => exact ⟨h1, h2, h3, h4, h5⟩

/-- The registry and the tasks stay, and nothing that is bound is dropped. -/
theorem NoOrphans.kept (hs : NoOrphans s) {t : LaneState ControlMsg}
    (hactive : t.desk.registry.active = s.desk.registry.active)
    (hrunning : t.desk.running = s.desk.running)
    (hbound : ∀ message ∈ s.bound, ∀ operation, accepted message = some operation →
      message ∈ t.bound) : NoOrphans t := by
  intro id active hlookup
  rw [hactive] at hlookup
  rw [hrunning]
  refine (hs id active hlookup).imp_right ?_
  intro ⟨message, hmem, hsome⟩
  exact ⟨message, hbound message hmem _ hsome, hsome⟩

theorem NoOrphans.dropped (hs : NoOrphans s) {t : LaneState ControlMsg} (hdesk : t.desk = s.desk)
    (hnone : ∀ message ∈ s.bound, accepted message = none) : NoOrphans t := by
  refine hs.kept (by rw [hdesk]) (by rw [hdesk]) ?_
  intro message hmem operation hsome
  rw [hnone message hmem] at hsome
  cases hsome

theorem stamp_refused {message : ControlMsg} {registry : OperationState}
    {id : Option GenerationId} (h : ¬ Takes registry id message) :
    controlLane.stamp message registry id = (registry, message) := by
  cases id with
  | none => rfl
  | some generation =>
    show stampControlOperation message registry generation = (registry, message)
    unfold stampControlOperation
    cases hkind : operationKind message with
    | none => rfl
    | some kind =>
      cases tryAcquire_cases registry generation kind registry.nextId.toNat with
      | inl herror =>
        dsimp only
        rw [herror]
      | inr hok =>
        exfalso
        apply h
        refine ⟨kind, generation, hkind, rfl, ?_, ?_⟩
        · intro hquiescing
          have hreply := congrArg Prod.snd hok
          unfold OperationState.tryAcquire at hreply
          rw [if_pos hquiescing] at hreply
          cases hreply
        · by_contra hconflicts
          have hreply := congrArg Prod.snd hok
          unfold OperationState.tryAcquire at hreply
          rw [Bool.not_eq_false] at hconflicts
          dsimp only at hreply
          rw [hconflicts] at hreply
          split at hreply <;> cases hreply

/-- A stamp for an engine that reads is held by the message, and any other changes nothing. -/
theorem NoOrphans.stamped (hs : NoOrphans s) {t : LaneState ControlMsg} {message : ControlMsg}
    (hdesk : t.desk = { s.desk with registry :=
      (controlLane.stamp message s.desk.registry s.router.generationId).1 })
    (halive : Takes s.desk.registry s.router.generationId message → s.alive = true)
    (hkept : ∀ other ∈ s.bound, other ∈ t.bound)
    (hnew : s.alive = true →
      (controlLane.stamp message s.desk.registry s.router.generationId).2 ∈ t.bound) :
    NoOrphans t := by
  unfold NoOrphans
  rw [hdesk]
  by_cases hlives : s.alive = true
  · refine (OperationDesk.Covered.stamp hs message s.router.generationId).mono ?_
    intro operation hheld
    cases hheld with
    | inl hsome => exact ⟨_, hnew hlives, hsome⟩
    | inr hheld =>
      obtain ⟨other, hmem, hsome⟩ := hheld
      exact ⟨other, hkept other hmem, hsome⟩
  · have hrefused : ¬ Takes s.desk.registry s.router.generationId message :=
      fun htakes => hlives (halive htakes)
    rw [stamp_refused hrefused]
    refine hs.mono ?_
    intro operation ⟨other, hmem, hsome⟩
    exact ⟨other, hkept other hmem, hsome⟩

theorem noOrphans_offer (h : Wired s) (hs : NoOrphans s) {message : ControlMsg}
    (hdelivers : Delivers s (.offer message)) : NoOrphans (controlLane.offer s message) := by
  unfold Lane.offer
  split
  · rename_i hfree
    have hhand : s.hand = none := Option.isNone_iff_eq_none.mp hfree.2.1
    split
    · exact hs.kept rfl rfl fun _ hmem _ _ => hmem
    · rename_i hopen
      rw [Bool.not_eq_true] at hopen
      rw [h.opened hopen]
      refine hs.stamped rfl (hdelivers hfree.1 hhand hfree.2.2 hopen) ?_ ?_
      · intro other hmem
        rw [mem_bound, hhand] at hmem
        refine mem_bound.mpr ⟨hmem.1, hmem.2.imp_right ?_⟩
        exact fun hrest => .inr (hrest.resolve_left (by simp))
      · exact fun halive => mem_bound.mpr ⟨halive, .inr (.inl rfl)⟩
  · exact hs

theorem noOrphans_send (hs : NoOrphans s) : NoOrphans (controlLane.send s) := by
  unfold Lane.send
  split
  · rename_i target message hhand
    split
    · split
      · refine hs.kept rfl rfl ?_
        intro other hmem _ _
        obtain ⟨halive, hmem⟩ := mem_bound.mp hmem
        refine mem_bound.mpr ⟨halive, ?_⟩
        rw [hhand] at hmem
        obtain hinbox | hsent | hcarried := hmem
        · exact .inl (List.mem_append_left _ hinbox)
        · cases hsent
          exact .inl (List.mem_append_right _ List.mem_cons_self)
        · exact .inr (.inr hcarried)
      · exact hs
    · rename_i hgone
      refine hs.kept rfl rfl ?_
      intro other hmem _ _
      obtain ⟨halive, hmem⟩ := mem_bound.mp hmem
      refine mem_bound.mpr ⟨halive, ?_⟩
      rw [hhand] at hmem
      obtain hinbox | hsent | hcarried := hmem
      · exact .inl hinbox
      · cases hsent
        exact absurd ⟨rfl, halive⟩ hgone
      · exact .inr (.inr hcarried)
  · exact hs

theorem noOrphans_release (hs : NoOrphans s) (hdelivers : Delivers s .release) :
    NoOrphans (controlLane.release s) := by
  unfold Lane.release
  split
  · rename_i hinstalling
    split
    · rename_i message hcarried
      split
      · split
        · refine hs.kept rfl rfl ?_
          intro other hmem _ _
          obtain ⟨halive, hmem⟩ := mem_bound.mp hmem
          refine mem_bound.mpr ⟨halive, ?_⟩
          rw [hcarried] at hmem
          obtain hinbox | hsent | hother := hmem
          · exact .inl (List.mem_append_left _ hinbox)
          · exact .inr (.inl hsent)
          · cases hother
            exact .inl (List.mem_append_right _ List.mem_cons_self)
        · exact hs
      · rename_i hdead
        refine hs.dropped rfl ?_
        intro other hmem
        exact absurd (mem_bound.mp hmem).1 hdead
    · rename_i message queued hcarried hqueued
      refine hs.stamped rfl (hdelivers hinstalling hcarried message (by rw [hqueued]; rfl)) ?_ ?_
      · intro other hmem
        rw [mem_bound, hcarried] at hmem
        refine mem_bound.mpr ⟨hmem.1, hmem.2.imp_right ?_⟩
        exact fun hrest => .inl (hrest.resolve_right (by simp))
      · exact fun halive => mem_bound.mpr ⟨halive, .inr (.inr rfl)⟩
    · exact hs.kept rfl rfl fun _ hmem _ _ => hmem
  · exact hs

theorem noOrphans_read (hs : NoOrphans s) : NoOrphans (controlLane.read s) := by
  unfold Lane.read
  split
  · rename_i message inbox hinbox
    refine OperationDesk.Covered.receive message s.engine (hs.mono ?_)
    intro operation ⟨other, hmem, hsome⟩
    obtain ⟨halive, hmem⟩ := mem_bound.mp hmem
    rw [hinbox, List.mem_cons] at hmem
    obtain (heq | hinbox) | hrest := hmem
    · exact .inl (heq ▸ hsome)
    · exact .inr ⟨other, mem_bound.mpr ⟨halive, .inl hinbox⟩, hsome⟩
    · exact .inr ⟨other, mem_bound.mpr ⟨halive, .inr hrest⟩, hsome⟩
  · exact hs

theorem noOrphans_acknowledge (hs : NoOrphans s) : NoOrphans (controlLane.acknowledge s) := by
  unfold Lane.acknowledge
  split
  · refine OperationDesk.Covered.receiveAll s.inbox s.engine (hs.mono ?_)
    intro operation ⟨other, hmem, hsome⟩
    obtain ⟨halive, hmem⟩ := mem_bound.mp hmem
    cases hmem with
    | inl hinbox => exact .inl ⟨other, hinbox, hsome⟩
    | inr hrest => exact .inr ⟨other, mem_bound.mpr ⟨halive, .inr hrest⟩, hsome⟩
  · exact hs

theorem noOrphans_next (h : Wired s) (hs : NoOrphans s) {input : LaneInput ControlMsg}
    (hdelivers : Delivers s input) : NoOrphans (controlLane.next s input) := by
  cases input with
  | offer message => exact noOrphans_offer h hs hdelivers
  | send => exact noOrphans_send hs
  | cancel =>
    refine hs.kept rfl rfl ?_
    intro message hmem operation hsome
    obtain ⟨halive, hmem⟩ := mem_bound.mp hmem
    refine mem_bound.mpr ⟨halive, hmem.imp_right ?_⟩
    intro hrest
    refine .inr (hrest.resolve_left ?_)
    intro hhand
    have hnone : accepted message = none := hdelivers _ hhand
    rw [hsome] at hnone
    cases hnone
  | pause =>
    dsimp only [Lane.next, Lane.pause]
    split
    · exact hs.kept rfl rfl fun _ hmem _ _ => hmem
    · exact hs
  | reopen id =>
    dsimp only [Lane.next, Lane.reopen]
    split
    · exact hs.kept rfl rfl fun _ hmem _ _ => hmem
    · exact hs
  | acknowledge => exact noOrphans_acknowledge hs
  | teardown =>
    dsimp only [Lane.next]
    split
    · rename_i hstage
      exact hs.dropped rfl (hdelivers hstage)
    · exact hs
  | install generation id =>
    dsimp only [Lane.next, Lane.install]
    split
    · rename_i hstage
      refine hs.dropped rfl ?_
      rw [bound_dead (h.stopped hstage)]
      simp
    · exact hs
  | release => exact noOrphans_release hs hdelivers
  | read => exact noOrphans_read hs
  | die => exact hs.dropped rfl hdelivers
  | finish task => exact OperationDesk.Covered.finish hs task
  | beginQuiesce generation => exact hs.kept rfl rfl fun _ hmem _ _ => hmem
  | endQuiesce generation => exact hs.kept rfl rfl fun _ hmem _ _ => hmem

/-! ## Every entry goes -/

/-- What is bound, with the tasks. -/
def LaneState.burden (s : LaneState ControlMsg) : ℕ :=
  s.desk.running.length +
    if s.alive then
      3 * s.inbox.length + 4 * (s.hand.filter fun sent => sent.1 = s.engine).toList.length +
        4 * s.carried.toList.length
    else 0

theorem running_receive (desk : OperationDesk) (engine : Engine) (message : ControlMsg) :
    (desk.receive engine message).running.length ≤ desk.running.length + 1 := by
  have hacquire : ∀ kind,
      (desk.acquire engine.generation kind).running.length ≤ desk.running.length + 1 := by
    intro kind
    unfold OperationDesk.acquire
    split <;> simp
  have hadopt : ∀ operation (fallback : OperationDesk),
      fallback.running.length ≤ desk.running.length + 1 →
      ((desk.adopt operation).getD fallback).running.length ≤ desk.running.length + 1 := by
    intro operation fallback hfallback
    unfold OperationDesk.adopt
    cases desk.registry.leaseAccepted operation with
    | none => exact hfallback
    | some lease => simp
  cases message with
  | exercise display => exact hacquire _
  | exerciseAccepted operation =>
    obtain ⟨id, generation, kind⟩ := operation
    cases kind with
    | exercise display => exact hadopt _ _ (hacquire _)
    | emergencyWake => exact Nat.le_succ _
  | emergencyWakeAccepted operation => exact hadopt _ _ (Nat.le_succ _)
  | _ => exact Nat.le_succ _

/-- Where something is bound or a task runs, the lane can do a step that leaves less. -/
theorem burden_less (h : Wired s) (hburden : s.burden ≠ 0) :
    ∃ input : LaneInput ControlMsg, (input.works = true ∧ Delivers s input) ∧
      (controlLane.next s input).burden < s.burden := by
  cases hrunning : s.desk.running with
  | cons lease running =>
    refine ⟨.finish 0, ⟨rfl, trivial⟩, ?_⟩
    simp [Lane.next, OperationDesk.finish, hrunning, LaneState.burden]
  | nil =>
    have halive : s.alive = true := by
      by_contra hdead
      apply hburden
      unfold LaneState.burden
      rw [hrunning, if_neg hdead]
      rfl
    cases hinbox : s.inbox with
    | cons message inbox =>
      refine ⟨.read, ⟨rfl, trivial⟩, ?_⟩
      have hmore := running_receive s.desk s.engine message
      rw [hrunning] at hmore
      simp only [Lane.next, Lane.read, hinbox, LaneState.burden, halive, hrunning, if_pos,
        List.length_cons, List.length_nil] at hmore ⊢
      show (s.desk.receive s.engine message).running.length + _ < _
      omega
    | nil =>
      have hroom : s.inbox.length < controlLane.capacity := by
        rw [hinbox]
        exact controlLane.positive
      cases hhand : s.hand.filter fun sent => sent.1 = s.engine with
      | some sent =>
        obtain ⟨target, message⟩ := sent
        obtain ⟨hsent, hengine⟩ := Option.filter_eq_some_iff.mp hhand
        refine ⟨.send, ⟨rfl, trivial⟩, ?_⟩
        simp only [Lane.next, Lane.send, hsent]
        rw [if_pos ⟨by simpa using hengine, halive⟩, if_pos hroom]
        simp [LaneState.burden, halive, hinbox, hhand]
      | none =>
        cases hcarried : s.carried with
        | some message =>
          have hinstalling := h.carrying (by rw [hcarried]; rfl)
          refine ⟨.release, ⟨rfl, fun _ hnone => ?_⟩, ?_⟩
          · rw [hcarried] at hnone
            cases hnone
          · simp only [Lane.next, Lane.release, hcarried]
            rw [if_pos hinstalling, if_pos halive, if_pos hroom]
            simp [LaneState.burden, halive, hinbox, hhand, hcarried]
        | none =>
          exfalso
          apply hburden
          simp [LaneState.burden, halive, hinbox, hhand, hcarried, hrunning]

theorem empty_of_unburdened (hs : NoOrphans s) (hburden : s.burden = 0)
    (generation : GenerationId) : s.desk.registry.generationEmpty generation = true := by
  have hrunning : s.desk.running = [] := by
    apply List.eq_nil_of_length_eq_zero
    unfold LaneState.burden at hburden
    omega
  have hbound : ∀ message, message ∉ s.bound := by
    intro message hmem
    obtain ⟨halive, hmem⟩ := mem_bound.mp hmem
    unfold LaneState.burden at hburden
    rw [if_pos halive] at hburden
    obtain hinbox | hhand | hcarried := hmem
    · have := List.length_pos_of_mem hinbox
      omega
    · rw [hhand] at hburden
      simp at hburden
    · rw [hcarried] at hburden
      simp at hburden
  have hnone : ∀ id, s.desk.registry.active.lookup id = none := by
    intro id
    by_contra hsome
    obtain ⟨active, hactive⟩ := Option.ne_none_iff_exists'.mp hsome
    cases hs id active hactive with
    | inl hlease =>
      obtain ⟨lease, hmem, -⟩ := hlease
      rw [hrunning] at hmem
      cases hmem
    | inr hheld =>
      obtain ⟨message, hmem, -⟩ := hheld
      exact hbound message hmem
  unfold OperationState.generationEmpty OperationState.values
  rw [Bool.not_eq_true', List.any_eq_false]
  intro active hmem
  obtain ⟨entry, hentry, -⟩ := List.mem_map.mp hmem
  have hfound := AList.mem_lookup_iff.mpr hentry
  rw [Option.mem_def, hnone entry.1] at hfound
  cases hfound

theorem all_removed (h : Wired s) (hs : NoOrphans s) : AllRemoved s := by
  have hstep : ∀ t : LaneState ControlMsg, Wired t ∧ NoOrphans t → t.burden ≠ 0 →
      ∃ input : LaneInput ControlMsg, input.works = true ∧
        (Wired (controlLane.next t input) ∧ NoOrphans (controlLane.next t input)) ∧
          (controlLane.next t input).burden < t.burden := by
    intro t ⟨hwired, hcovered⟩ hburden
    obtain ⟨input, ⟨hworks, hdelivers⟩, hless⟩ := burden_less hwired hburden
    exact ⟨input, hworks, ⟨wired_next hwired input, noOrphans_next hwired hcovered hdelivers⟩,
      hless⟩
  obtain ⟨more, hmore, ⟨-, hcovered⟩, hburden⟩ :=
    Runs.System.settle (M := controlLane.system) LaneState.burden hstep ⟨h, hs⟩
  exact ⟨more, hmore.forall_mem, empty_of_unburdened hcovered hburden⟩

end Wires

theorem wired_first : Wired (Lane.first (some ⟨0⟩)) := by
  constructor <;> simp [Lane.first]

theorem noOrphans_first : NoOrphans (Lane.first (some ⟨0⟩)) := by
  intro id active hlookup
  rw [show (Lane.first (some ⟨0⟩)).desk.registry.active.lookup id = none from
    AList.lookup_empty id] at hlookup
  cases hlookup

/-- No entry is orphaned as long as no accepted message is dropped, and every entry can then be
removed. -/
theorem accepted_operations_end (inputs : List (LaneInput ControlMsg))
    (hdelivers : controlLane.system.Steps Delivers (Lane.first (some ⟨0⟩)) inputs) :
    controlLane.system.Throughout NoOrphans (Lane.first (some ⟨0⟩)) inputs ∧
      AllRemoved (controlLane.system.run (Lane.first (some ⟨0⟩)) inputs) := by
  have hstep : ∀ (s : LaneState ControlMsg) (input : LaneInput ControlMsg),
      Wired s ∧ NoOrphans s → Delivers s input →
      Wired (controlLane.system.next s input).1 ∧ NoOrphans (controlLane.system.next s input).1 :=
    fun s input hs hd => ⟨wired_next hs.1 input, noOrphans_next hs.1 hs.2 hd⟩
  refine ⟨hdelivers.throughout (fun s => Wired s ∧ NoOrphans s) hstep (fun s hs => hs.2)
    ⟨wired_first, noOrphans_first⟩, ?_⟩
  obtain ⟨hwired, hcovered⟩ := hdelivers.invariant hstep ⟨wired_first, noOrphans_first⟩
  exact all_removed hwired hcovered

/-- An exercise that is sent, read and finished. -/
theorem accepted_operations_end_exercise :
    AllRemoved (controlLane.system.run (Lane.first (some ⟨0⟩))
      [.offer (.exercise ⟨"desk"⟩), .send, .read, .finish 0]) := by
  refine (accepted_operations_end [.offer (.exercise ⟨"desk"⟩), .send, .read, .finish 0] ?_).2
  exact ⟨fun _ _ _ _ _ => rfl, trivial, trivial, trivial, trivial⟩

/-- What is idle stays as it is. -/
theorem run_idle {s : LaneState ControlMsg} (hhand : s.hand = none) (hinbox : s.inbox = [])
    (hrunning : s.desk.running = []) (hstage : s.stage ≠ .installing)
    {more : List (LaneInput ControlMsg)} (hmore : ∀ input ∈ more, input.works = true) :
    controlLane.system.run s more = s := by
  have hnext : ∀ input : LaneInput ControlMsg, input.works = true →
      controlLane.next s input = s := by
    intro input hworks
    cases input with
    | send => simp only [Lane.next, Lane.send, hhand]
    | release => simp only [Lane.next, Lane.release, if_neg hstage]
    | read => simp only [Lane.next, Lane.read, hinbox]
    | finish task => simp [Lane.next, OperationDesk.finish, hrunning]
    | _ => cases hworks
  induction more with
  | nil => rfl
  | cons input more ih =>
    show controlLane.system.run (controlLane.next s input) more = s
    rw [hnext input (hmore input List.mem_cons_self)]
    exact ih fun other hmem => hmore other (List.mem_cons_of_mem _ hmem)

/-- An exercise for an engine that is gone: its entry stays, so the next exercise is refused and
its generation never gets empty. A root cancellation while the send is in hand leaves the same. -/
theorem undelivered_exercise_leaks :
    let gone := controlLane.system.run (Lane.first (some ⟨0⟩))
      [.die, .offer (.exercise ⟨"desk"⟩), .send]
    let cancelled := controlLane.system.run (Lane.first (some ⟨0⟩))
      [.offer (.exercise ⟨"desk"⟩), .cancel]
    ¬ NoOrphans gone ∧ ¬ AllRemoved gone ∧
      (stampControlOperation (.exercise ⟨"desk"⟩) gone.desk.registry ⟨0⟩).2 =
        .exercise ⟨"desk"⟩ ∧
      ¬ NoOrphans cancelled ∧ ¬ AllRemoved cancelled := by
  refine ⟨?_, ?_, by decide, ?_, ?_⟩
  · intro h
    cases h 0 ⟨⟨0⟩, .exercise ⟨"desk"⟩, 0⟩ (by decide) with
    | inl hlease =>
      obtain ⟨lease, hmem, -⟩ := hlease
      cases hmem
    | inr hheld =>
      obtain ⟨message, hmem, -⟩ := hheld
      cases hmem
  · intro ⟨more, hmore, hempty⟩
    rw [run_idle rfl rfl rfl (by decide) hmore] at hempty
    exact absurd (hempty ⟨0⟩) (by decide)
  · intro h
    cases h 0 ⟨⟨0⟩, .exercise ⟨"desk"⟩, 0⟩ (by decide) with
    | inl hlease =>
      obtain ⟨lease, hmem, -⟩ := hlease
      cases hmem
    | inr hheld =>
      obtain ⟨message, hmem, -⟩ := hheld
      cases hmem
  · intro ⟨more, hmore, hempty⟩
    rw [run_idle rfl rfl rfl (by decide) hmore] at hempty
    exact absurd (hempty ⟨0⟩) (by decide)

end Dormant.Reload
