import Dormant.Operations.Registry
import Dormant.Rules.Engine
import Mathlib.Algebra.Group.Nat.Defs
import Mathlib.Data.List.Range

/-!
# How long an operation is held

An operation holds its generation from its acquisition to the first drop of one of its leases.
`OperationLaw` says so of acquisitions, adoptions, waits and cancellations, over every order of
the parties' calls, as long as the ids do not wrap around.
-/

namespace Dormant
set_option autoImplicit false

/-- The operations that were acquired, each with its token, the first one first, and the ids
whose lease was dropped. -/
structure OperationLedger where
  accepted : List (AcceptedOperation × ℕ)
  dropped : Finset UInt64

def OperationLedger.empty : OperationLedger := { accepted := [], dropped := ∅ }

namespace OperationRegistry

def acquisition : RegistryReply → Option (AcceptedOperation × ℕ)
  | .acquired operation lease => some (operation, lease.token)
  | _ => none

/-- The lease that a call drops. -/
def dropped (r : OperationRegistry) : RegistryCall → Option OperationLease
  | .drop lease => if lease ∈ r.leases then some lease else none
  | _ => none

def noteCall (l : OperationLedger) (r : OperationRegistry) (call : RegistryCall)
    (result : OperationRegistry × List RegistryReply) : OperationLedger where
  accepted := l.accepted ++ result.2.filterMap acquisition
  dropped :=
    match r.dropped call with
    | some lease => insert lease.id l.dropped
    | none => l.dropped

def ledgered : Runs.System (OperationLedger × OperationRegistry) RegistryCall RegistryReply :=
  registry.observed noteCall

end OperationRegistry

/-- An operation that was acquired, with no lease dropped yet. -/
def OperationLedger.holds (l : OperationLedger) (operation : AcceptedOperation) (token : ℕ) : Prop :=
  (operation, token) ∈ l.accepted ∧ operation.id ∉ l.dropped

structure OperationLaw (l : OperationLedger) (r : OperationRegistry) : Prop where
  acquire : ∀ generation kind, (r.state.tryAcquire generation kind r.nextToken).2.isOk = true ↔
    generation ∉ r.state.quiescing ∧ ∀ operation token, l.holds operation token →
      operation.generation = generation → kind.conflicts operation.kind = false
  adopt : ∀ operation lease, r.state.leaseAccepted operation = some lease ↔
    l.holds operation lease.token ∧ lease.id = operation.id
  wait : ∀ generation, r.state.generationEmpty generation = true ↔
    ∀ operation token, l.holds operation token → operation.generation ≠ generation
  /-- A waiter that could return is on its way. -/
  woken : ∀ w ∈ r.waiters, r.state.generationEmpty w.generation = true → w.parked = true →
    w.notified = true ∨ 0 < r.dropping
  cancel : ∀ generation operation token, (operation, token) ∈ l.accepted →
    (token ∈ r.state.cancelGeneration generation r.cancelled ↔
      token ∈ r.cancelled ∨ l.holds operation token ∧ operation.generation = generation)
  /-- A lease that is alive is the lease of one operation. -/
  lease : ∀ lease ∈ r.leases, ∃ operation, (operation, lease.token) ∈ l.accepted ∧
    operation.id = lease.id

/-! ## The table and the ledger -/

/-- The operations in the order of their acquisition are numbered, and so are their tokens. -/
structure Numbered (l : OperationLedger) (r : OperationRegistry) : Prop where
  ids : l.accepted.map (·.1.id) = (List.range l.accepted.length).map UInt64.ofNat
  tokens : l.accepted.map (·.2) = List.range l.accepted.length
  nextId : r.state.nextId = UInt64.ofNat l.accepted.length
  nextToken : r.nextToken = l.accepted.length

structure Ledgered (l : OperationLedger) (r : OperationRegistry) : Prop where
  numbered : Numbered l r
  active : ∀ id active, r.state.active.lookup id = some active ↔
    ∃ operation, l.holds operation active.token ∧ operation.id = id ∧
      operation.generation = active.generation ∧ operation.kind = active.kind
  dropped : ∀ id ∈ l.dropped, ∃ operation ∈ l.accepted, operation.1.id = id
  leases : ∀ lease ∈ r.leases, ∃ operation, (operation, lease.token) ∈ l.accepted ∧
    operation.id = lease.id
  woken : ∀ w ∈ r.waiters, r.state.generationEmpty w.generation = true → w.parked = true →
    w.notified = true ∨ 0 < r.dropping

section Ledger
variable {l l' : OperationLedger} {r r' : OperationRegistry}

theorem Numbered.fresh (h : Numbered l r) (hlength : l.accepted.length < 2 ^ 64) :
    ∀ a ∈ l.accepted, a.1.id ≠ r.state.nextId := by
  intro a ha heq
  have hmem : a.1.id ∈ (List.range l.accepted.length).map UInt64.ofNat := by
    rw [← h.ids]
    exact List.mem_map_of_mem ha
  obtain ⟨k, hk, hid⟩ := List.mem_map.mp hmem
  rw [List.mem_range] at hk
  rw [heq, h.nextId] at hid
  have hnat := congrArg UInt64.toNat hid
  rw [UInt64.toNat_ofNat', UInt64.toNat_ofNat', Nat.mod_eq_of_lt (hk.trans hlength),
    Nat.mod_eq_of_lt hlength] at hnat
  omega

theorem Numbered.unique (h : Numbered l r) {operation operation' : AcceptedOperation} {token : ℕ}
    (ha : (operation, token) ∈ l.accepted) (hb : (operation', token) ∈ l.accepted) :
    operation = operation' := by
  have hnodup : (l.accepted.map (·.2)).Nodup := by
    rw [h.tokens]
    exact List.nodup_range
  exact congrArg Prod.fst (List.inj_on_of_nodup_map hnodup ha hb rfl)

/-- The table stays, and so do the ids and tokens that were given out. -/
theorem Ledgered.kept (h : Ledgered l r) (hactive : r'.state.active = r.state.active)
    (hid : r'.state.nextId = r.state.nextId) (htoken : r'.nextToken = r.nextToken)
    (hleases : ∀ lease ∈ r'.leases, ∃ operation, (operation, lease.token) ∈ l.accepted ∧
      operation.id = lease.id)
    (hwoken : ∀ w ∈ r'.waiters, r'.state.generationEmpty w.generation = true → w.parked = true →
      w.notified = true ∨ 0 < r'.dropping) : Ledgered l r' := by
  obtain ⟨hids, htokens, hnextId, hnextToken⟩ := h.numbered
  refine ⟨⟨hids, htokens, hid.trans hnextId, htoken.trans hnextToken⟩, ?_, h.dropped, hleases,
    hwoken⟩
  rw [hactive]
  exact h.active

/-- An operation is acquired under an id that no other has. -/
theorem Ledgered.acquired (h : Ledgered l r) (hlength : l.accepted.length < 2 ^ 64)
    (generation : GenerationId) (kind : OperationKind) :
    Ledgered
      { l with accepted := l.accepted ++
          [({ id := r.state.nextId, generation := generation, kind := kind }, r.nextToken)] }
      { r with
          state := { r.state with
            nextId := r.state.nextId + 1
            active := r.state.active.insert r.state.nextId
              { generation := generation, kind := kind, token := r.nextToken } }
          leases := { id := r.state.nextId, token := r.nextToken } :: r.leases
          nextToken := r.nextToken + 1 } := by
  have hfresh := h.numbered.fresh hlength
  obtain ⟨hids, htokens, hnextId, hnextToken⟩ := h.numbered
  have hnew : r.state.nextId ∉ l.dropped := by
    intro hmem
    obtain ⟨a, ha, hid⟩ := h.dropped _ hmem
    exact hfresh a ha hid
  refine ⟨⟨?_, ?_, ?_, ?_⟩, ?_, ?_, ?_, ?_⟩
  · dsimp only
    rw [List.map_append, hids, List.length_append, List.length_singleton, List.range_succ,
      List.map_append, List.map_singleton, List.map_singleton, hnextId]
  · dsimp only
    rw [List.map_append, htokens, List.length_append, List.length_singleton, List.range_succ,
      List.map_singleton, hnextToken]
  · dsimp only
    rw [List.length_append, List.length_singleton, hnextId, UInt64.ofNat_add]
    rfl
  · dsimp only
    rw [List.length_append, List.length_singleton, hnextToken]
  · intro id active
    dsimp only
    unfold OperationLedger.holds
    dsimp only
    by_cases hid : id = r.state.nextId
    · subst hid
      rw [AList.lookup_insert]
      constructor
      · intro hactive
        obtain rfl := Option.some.inj hactive
        exact ⟨_, ⟨List.mem_append_right _ List.mem_cons_self, hnew⟩, rfl, rfl, rfl⟩
      · rintro ⟨operation, ⟨hmem, -⟩, hid, hg, hk⟩
        rcases List.mem_append.mp hmem with hold | hlast
        · exact absurd hid (hfresh _ hold)
        · rw [List.mem_singleton, Prod.mk.injEq] at hlast
          obtain ⟨rfl, htoken⟩ := hlast
          obtain ⟨generation', kind', token⟩ := active
          dsimp only at hg hk htoken
          rw [hg, hk, htoken]
    · rw [AList.lookup_insert_ne hid, h.active]
      unfold OperationLedger.holds
      constructor
      · rintro ⟨operation, ⟨hmem, hdropped⟩, hrest⟩
        exact ⟨operation, ⟨List.mem_append_left _ hmem, hdropped⟩, hrest⟩
      · rintro ⟨operation, ⟨hmem, hdropped⟩, hrest⟩
        rcases List.mem_append.mp hmem with hold | hlast
        · exact ⟨operation, ⟨hold, hdropped⟩, hrest⟩
        · rw [List.mem_singleton, Prod.mk.injEq] at hlast
          obtain ⟨rfl, -⟩ := hlast
          exact absurd hrest.1.symm hid
  · intro id hid
    obtain ⟨a, ha, hid⟩ := h.dropped id hid
    exact ⟨a, List.mem_append_left _ ha, hid⟩
  · intro lease hlease
    rcases List.mem_cons.mp hlease with rfl | hlease
    · exact ⟨_, List.mem_append_right _ List.mem_cons_self, rfl⟩
    · obtain ⟨operation, hmem, hid⟩ := h.leases lease hlease
      exact ⟨operation, List.mem_append_left _ hmem, hid⟩
  · intro w hw hempty hparked
    refine h.woken w hw ?_ hparked
    -- what was empty with the new entry was empty without it
    rw [OperationState.generationEmpty_iff] at hempty ⊢
    intro id active hlookup
    apply hempty id active
    dsimp only
    rw [AList.lookup_insert_ne]
    · exact hlookup
    · rintro rfl
      obtain ⟨operation, hholds, hid, -⟩ := (h.active _ _).mp hlookup
      exact hfresh _ hholds.1 hid

/-- The first drop of a lease takes its operation out of the table, and so does any other. -/
theorem Ledgered.removed (h : Ledgered l r) {lease : OperationLease} (hlease : lease ∈ r.leases) :
    Ledgered { l with dropped := insert lease.id l.dropped }
      { r with state := r.state.remove lease, leases := r.leases.erase lease,
               dropping := r.dropping + 1 } := by
  obtain ⟨hids, htokens, hnextId, hnextToken⟩ := h.numbered
  refine ⟨⟨hids, htokens, hnextId, hnextToken⟩, ?_, ?_, ?_, ?_⟩
  · intro id active
    unfold OperationLedger.holds OperationState.remove
    dsimp only
    simp only [Finset.mem_insert, not_or]
    by_cases hid : id = lease.id
    · rw [hid, AList.lookup_erase]
      constructor
      · intro hnone
        cases hnone
      · rintro ⟨operation, ⟨-, hne, -⟩, heq, -⟩
        exact absurd heq hne
    · rw [AList.lookup_erase_ne hid, h.active]
      unfold OperationLedger.holds
      constructor
      · rintro ⟨operation, ⟨hmem, hdropped⟩, rfl, hrest⟩
        exact ⟨operation, ⟨hmem, hid, hdropped⟩, rfl, hrest⟩
      · rintro ⟨operation, ⟨hmem, -, hdropped⟩, hrest⟩
        exact ⟨operation, ⟨hmem, hdropped⟩, hrest⟩
  · intro id hid
    rcases Finset.mem_insert.mp hid with rfl | hid
    · obtain ⟨operation, hmem, hid⟩ := h.leases lease hlease
      exact ⟨_, hmem, hid⟩
    · exact h.dropped id hid
  · intro lease' hlease'
    exact h.leases lease' (List.mem_of_mem_erase hlease')
  · intro w hw hempty hparked
    exact .inr (Nat.succ_pos _)

/-! ## A call -/

open OperationRegistry

theorem tryAcquire_cases (s : OperationState) (generation : GenerationId) (kind : OperationKind)
    (token : ℕ) :
    s.tryAcquire generation kind token = (s, .error kind) ∨
      s.tryAcquire generation kind token =
        ({ s with
            nextId := s.nextId + 1
            active := s.active.insert s.nextId
              { generation := generation, kind := kind, token := token } },
          .ok ({ id := s.nextId, generation := generation, kind := kind },
            { id := s.nextId, token := token })) := by
  unfold OperationState.tryAcquire
  split
  · exact .inl rfl
  · dsimp only
    split
    · exact .inl rfl
    · exact .inr rfl

theorem woken_look (h : Ledgered l r) (waiter : ℕ) : ∀ w ∈ (r.look waiter).1.waiters,
    r.state.generationEmpty w.generation = true → w.parked = true →
      w.notified = true ∨ 0 < r.dropping := by
  unfold OperationRegistry.look
  split
  · split
    · intro w hw
      exact h.woken w (List.mem_of_mem_eraseIdx hw)
    · rename_i hbusy
      intro w hw hempty
      -- the waiter parks over a generation that is not empty
      rcases List.mem_or_eq_of_mem_set hw with hw | rfl
      · exact h.woken w hw hempty
      · exact absurd hempty hbusy
  · exact h.woken

theorem woken_wakeUp (h : Ledgered l r) (waiter : ℕ) : ∀ w ∈ (r.wakeUp waiter).waiters,
    r.state.generationEmpty w.generation = true → w.parked = true →
      w.notified = true ∨ 0 < r.dropping := by
  unfold OperationRegistry.wakeUp
  split
  · intro w hw hempty hparked
    rcases List.mem_or_eq_of_mem_set hw with hw | rfl
    · exact h.woken w hw hempty hparked
    · cases hparked
  · exact h.woken

theorem look_frame (r : OperationRegistry) (waiter : ℕ) :
    (r.look waiter).1 = { r with waiters := (r.look waiter).1.waiters } ∧
      (r.look waiter).2.filterMap acquisition = [] := by
  unfold OperationRegistry.look
  split
  · split <;> exact ⟨rfl, rfl⟩
  · exact ⟨rfl, rfl⟩

theorem wakeUp_frame (r : OperationRegistry) (waiter : ℕ) :
    r.wakeUp waiter = { r with waiters := (r.wakeUp waiter).waiters } := by
  unfold OperationRegistry.wakeUp
  split <;> rfl

theorem ledgered_next_eq (l : OperationLedger) (r : OperationRegistry) (call : RegistryCall) :
    ledgered.next (l, r) call = ((noteCall l r call (registry.next r call),
      (registry.next r call).1), (registry.next r call).2) := rfl

theorem ledgered_next {x : OperationLedger × OperationRegistry} (h : Ledgered x.1 x.2)
    (call : RegistryCall) (hlength : (ledgered.next x call).1.1.accepted.length ≤ 2 ^ 64) :
    Ledgered (ledgered.next x call).1.1 (ledgered.next x call).1.2 := by
  obtain ⟨l, r⟩ := x
  dsimp only at h
  -- a call that acquires nothing and drops nothing leaves the ledger as it was
  have kept (r' : OperationRegistry) (replies : List RegistryReply)
      (hnext : registry.next r call = (r', replies)) (hreplies : replies.filterMap acquisition = [])
      (hdropped : r.dropped call = none) (hr' : Ledgered l r') :
      Ledgered (ledgered.next (l, r) call).1.1 (ledgered.next (l, r) call).1.2 := by
    rw [ledgered_next_eq, hnext, noteCall, hreplies, List.append_nil, hdropped]
    exact hr'
  cases call with
  | tryAcquire generation kind =>
    have hcall : registry.next r (.tryAcquire generation kind) = r.tryAcquire generation kind := rfl
    unfold OperationRegistry.tryAcquire at hcall
    rcases tryAcquire_cases r.state generation kind r.nextToken with herr | hok
    · rw [herr] at hcall
      exact kept r _ hcall rfl rfl h
    · rw [hok] at hcall
      rw [ledgered_next_eq, hcall] at hlength ⊢
      refine h.acquired ?_ generation kind
      simp only [noteCall, List.length_append, List.filterMap_cons, acquisition,
        List.filterMap_nil, List.length_singleton] at hlength
      omega
  | leaseAccepted operation =>
    have hcall : registry.next r (.leaseAccepted operation) = r.leaseAccepted operation := rfl
    unfold OperationRegistry.leaseAccepted at hcall
    cases haccepted : r.state.leaseAccepted operation with
    | none =>
      rw [haccepted] at hcall
      exact kept r _ hcall rfl rfl h
    | some lease =>
      rw [haccepted] at hcall
      refine kept _ _ hcall rfl rfl (h.kept rfl rfl rfl ?_ h.woken)
      intro lease' hlease
      rcases List.mem_cons.mp hlease with rfl | hlease
      · obtain ⟨hlookup, hid⟩ := OperationState.leaseAccepted_eq_some.mp haccepted
        obtain ⟨operation', hholds, hid', -⟩ := (h.active _ _).mp hlookup
        exact ⟨operation', hholds.1, hid'.trans hid.symm⟩
      · exact h.leases lease' hlease
  | drop lease =>
    show Ledgered (noteCall l r (.drop lease) (r.drop lease, [])) (r.drop lease)
    unfold OperationRegistry.drop noteCall OperationRegistry.dropped
    by_cases hlease : lease ∈ r.leases
    · simp only [if_pos hlease, List.filterMap_nil, List.append_nil]
      exact h.removed hlease
    · simp only [if_neg hlease, List.filterMap_nil, List.append_nil]
      exact h
  | notifyWaiters =>
    refine kept r.notifyWaiters [] rfl rfl rfl ?_
    unfold OperationRegistry.notifyWaiters
    split
    · refine h.kept rfl rfl rfl h.leases fun w hw _ _ => ?_
      obtain ⟨w', -, rfl⟩ := List.mem_map.mp hw
      exact .inl rfl
    · exact h
  | beginQuiesce generation => exact kept _ [] rfl rfl rfl (h.kept rfl rfl rfl h.leases h.woken)
  | endQuiesce generation => exact kept _ [] rfl rfl rfl (h.kept rfl rfl rfl h.leases h.woken)
  | cancelGeneration generation =>
    exact kept _ [] rfl rfl rfl (h.kept rfl rfl rfl h.leases h.woken)
  | waitGenerationEmpty generation =>
    refine kept _ [] rfl rfl rfl (h.kept rfl rfl rfl h.leases fun w hw hempty hparked => ?_)
    rcases List.mem_cons.mp hw with rfl | hw
    · cases hparked
    · exact h.woken w hw hempty hparked
  | look waiter =>
    obtain ⟨hframe, hreplies⟩ := look_frame r waiter
    refine kept (r.look waiter).1 (r.look waiter).2 rfl hreplies rfl ?_
    rw [hframe]
    exact h.kept rfl rfl rfl h.leases (woken_look h waiter)
  | wakeUp waiter =>
    refine kept (r.wakeUp waiter) [] rfl rfl rfl ?_
    rw [wakeUp_frame]
    exact h.kept rfl rfl rfl h.leases (woken_wakeUp h waiter)

/-! ## The law -/

theorem Ledgered.law (h : Ledgered l r) : OperationLaw l r := by
  have hactive (operation : AcceptedOperation) (token : ℕ) (hholds : l.holds operation token) :
      r.state.active.lookup operation.id = some
        { generation := operation.generation, kind := operation.kind, token := token } :=
    (h.active _ _).mpr ⟨operation, hholds, rfl, rfl, rfl⟩
  refine ⟨fun generation kind => ?_, fun operation lease => ?_, fun generation => ?_, h.woken,
    fun generation operation token hmem => ?_, h.leases⟩
  · constructor
    · intro hok
      by_contra hno
      rw [OperationState.tryAcquire_refused] at hok
      · cases hok
      · by_contra hfree
        push Not at hfree
        refine hno ⟨hfree.1, fun operation token hholds hg => ?_⟩
        simpa using hfree.2 operation.id _ (hactive operation token hholds) hg
    · rintro ⟨hquiescing, hfree⟩
      rw [OperationState.tryAcquire_ok hquiescing]
      · rfl
      · intro id active hlookup hg
        obtain ⟨operation, hholds, -, hg', hk⟩ := (h.active id active).mp hlookup
        rw [← hk]
        exact hfree operation _ hholds (hg'.trans hg)
  · rw [OperationState.leaseAccepted_eq_some]
    apply and_congr_left'
    constructor
    · intro hlookup
      obtain ⟨operation', hholds, hid, hg, hk⟩ := (h.active _ _).mp hlookup
      obtain ⟨id, generation, kind⟩ := operation
      obtain ⟨id', generation', kind'⟩ := operation'
      dsimp only at hid hg hk
      rw [← hid, ← hg, ← hk]
      exact hholds
    · exact hactive operation lease.token
  · rw [OperationState.generationEmpty_iff]
    constructor
    · intro hempty operation token hholds
      exact hempty operation.id _ (hactive operation token hholds)
    · intro hempty id active hlookup
      obtain ⟨operation, hholds, -, hg, -⟩ := (h.active id active).mp hlookup
      rw [← hg]
      exact hempty operation _ hholds
  · rw [OperationState.mem_cancelGeneration]
    apply or_congr_right
    constructor
    · rintro ⟨id, active, hlookup, hg, rfl⟩
      obtain ⟨operation', hholds, -, hg', -⟩ := (h.active id active).mp hlookup
      obtain rfl := h.numbered.unique hmem hholds.1
      exact ⟨hholds, hg'.trans hg⟩
    · rintro ⟨hholds, hg⟩
      exact ⟨operation.id, _, hactive operation token hholds, hg, rfl⟩

/-! ## Which leases are alive -/

/-- A lease that is alive is the lease of an operation that is held. -/
def AliveHeld (x : OperationLedger × OperationRegistry) : Prop :=
  ∀ lease ∈ x.2.leases, lease.id ∉ x.1.dropped

/-- A lease is dropped when no other of its operation is alive. -/
def dropsLast (x : OperationLedger × OperationRegistry) (call : RegistryCall) : Prop :=
  ∀ lease, x.2.dropped call = some lease →
    ∀ other ∈ x.2.leases.erase lease, other.id ≠ lease.id

/-- Leases that are there after a call were there before it, or are those of an operation that
is held. -/
theorem leases_next (h : Ledgered l r) (hlength : l.accepted.length < 2 ^ 64) (call : RegistryCall) :
    ∀ lease ∈ (registry.next r call).1.leases, lease ∈ r.leases ∨ lease.id ∉ l.dropped := by
  intro lease hlease
  have hcall : registry.next r call = r.call call := rfl
  rw [hcall] at hlease
  unfold OperationRegistry.call at hlease
  split at hlease
  · rename_i generation kind
    unfold OperationRegistry.tryAcquire at hlease
    rcases tryAcquire_cases r.state generation kind r.nextToken with herr | hok
    · rw [herr] at hlease
      exact .inl hlease
    · rw [hok] at hlease
      rcases List.mem_cons.mp hlease with rfl | hlease
      · right
        intro hmem
        obtain ⟨a, ha, hid⟩ := h.dropped _ hmem
        exact h.numbered.fresh hlength a ha hid
      · exact .inl hlease
  · rename_i operation
    unfold OperationRegistry.leaseAccepted at hlease
    cases haccepted : r.state.leaseAccepted operation with
    | none =>
      rw [haccepted] at hlease
      exact .inl hlease
    | some adopted =>
      rw [haccepted] at hlease
      rcases List.mem_cons.mp hlease with rfl | hlease
      · right
        obtain ⟨hlookup, hid⟩ := OperationState.leaseAccepted_eq_some.mp haccepted
        obtain ⟨operation', hholds, hid', -⟩ := (h.active _ _).mp hlookup
        rw [hid, ← hid']
        exact hholds.2
      · exact .inl hlease
  · rename_i lease'
    unfold OperationRegistry.drop at hlease
    split at hlease
    · exact .inl (List.mem_of_mem_erase hlease)
    · exact .inl hlease
  · unfold OperationRegistry.notifyWaiters at hlease
    split at hlease <;> exact .inl hlease
  · exact .inl hlease
  · exact .inl hlease
  · exact .inl hlease
  · exact .inl hlease
  · rename_i waiter
    rw [(look_frame r waiter).1] at hlease
    exact .inl hlease
  · rename_i waiter
    rw [wakeUp_frame] at hlease
    exact .inl hlease

theorem replies_le_one (r : OperationRegistry) (call : RegistryCall) :
    (registry.next r call).2.length ≤ 1 := by
  show (r.call call).2.length ≤ 1
  cases call with
  | tryAcquire generation kind =>
    unfold OperationRegistry.call OperationRegistry.tryAcquire
    dsimp only
    split <;> exact le_rfl
  | leaseAccepted operation =>
    unfold OperationRegistry.call OperationRegistry.leaseAccepted
    dsimp only
    split <;> exact le_rfl
  | look waiter =>
    unfold OperationRegistry.call OperationRegistry.look
    dsimp only
    split
    · split <;> simp
    · exact Nat.zero_le 1
  | _ => exact Nat.zero_le 1

theorem aliveHeld_next_iff (h : Ledgered l r) (hlength : l.accepted.length < 2 ^ 64)
    (call : RegistryCall) (halive : AliveHeld (l, r)) :
    AliveHeld (ledgered.next (l, r) call).1 ↔ dropsLast (l, r) call := by
  rw [ledgered_next_eq]
  unfold AliveHeld dropsLast noteCall
  dsimp only
  cases hdrop : r.dropped call with
  | none =>
    refine iff_of_true (fun lease hlease => ?_) (by simp)
    rcases leases_next h hlength call lease hlease with hold | hheld
    · exact halive lease hold
    · exact hheld
  | some lease =>
    cases call with
    | drop lease' =>
      unfold OperationRegistry.dropped at hdrop
      dsimp only at hdrop
      split at hdrop
      · rename_i hmem
        obtain rfl := Option.some.inj hdrop
        have hnext : (registry.next r (.drop lease')).1.leases = r.leases.erase lease' := by
          show (r.drop lease').leases = _
          unfold OperationRegistry.drop
          rw [if_pos hmem]
        rw [hnext]
        simp only [Finset.mem_insert, not_or, Option.some.injEq, forall_eq']
        exact forall₂_congr fun other hother =>
          and_iff_left (halive other (List.mem_of_mem_erase hother))
      · cases hdrop
    | _ => cases hdrop

end Ledger

theorem ledgered_default : Ledgered .empty .default := by
  refine ⟨⟨rfl, rfl, rfl, rfl⟩, fun id active => ?_, ?_, ?_, ?_⟩
  · simp [OperationRegistry.default, OperationState.default, OperationLedger.holds,
      OperationLedger.empty]
  · simp [OperationLedger.empty]
  · simp [OperationRegistry.default]
  · simp [OperationRegistry.default]

/-- Over every order of calls with at most as many acquisitions as there are ids, an operation is
held from its acquisition to the first drop of one of its leases. -/
theorem operations_held (calls : List RegistryCall)
    (hids : (OperationRegistry.ledgered.run (.empty, .default) calls).1.accepted.length ≤ 2 ^ 64) :
    OperationLaw (OperationRegistry.ledgered.run (.empty, .default) calls).1
      (OperationRegistry.ledgered.run (.empty, .default) calls).2 := by
  have hgrows (x : OperationLedger × OperationRegistry) (call : RegistryCall) :
      x.1.accepted.length ≤ (OperationRegistry.ledgered.next x call).1.1.accepted.length := by
    show _ ≤ (x.1.accepted ++ _).length
    rw [List.length_append]
    exact Nat.le_add_right _ _
  have hstep (x : OperationLedger × OperationRegistry) (call : RegistryCall)
      (hx : x.1.accepted.length ≤ 2 ^ 64 → Ledgered x.1 x.2)
      (hlength : (OperationRegistry.ledgered.next x call).1.1.accepted.length ≤ 2 ^ 64) :
      Ledgered (OperationRegistry.ledgered.next x call).1.1
        (OperationRegistry.ledgered.next x call).1.2 :=
    ledgered_next (hx ((hgrows x call).trans hlength)) call hlength
  exact (Runs.System.invariant hstep (fun _ => ledgered_default) calls hids).law

/-- With fewer acquisitions than there are ids, every lease that is alive belongs to an operation
that is held just when each drop is the last of its operation's. -/
theorem alive_leases_held_iff (calls : List RegistryCall)
    (hids : OperationRegistry.ledgered.Steps (fun x _ => x.1.accepted.length < 2 ^ 64)
      (.empty, .default) calls) :
    OperationRegistry.ledgered.Throughout AliveHeld (.empty, .default) calls ↔
      OperationRegistry.ledgered.Steps dropsLast (.empty, .default) calls := by
  have hnext (x : OperationLedger × OperationRegistry) (call : RegistryCall)
      (hx : Ledgered x.1 x.2) (hlength : x.1.accepted.length < 2 ^ 64) :
      Ledgered (OperationRegistry.ledgered.next x call).1.1
        (OperationRegistry.ledgered.next x call).1.2 := by
    refine ledgered_next hx call ?_
    have hone := replies_le_one x.2 call
    have hacquired := List.length_filterMap_le OperationRegistry.acquisition
      (registry.next x.2 call).2
    show (x.1.accepted ++ _).length ≤ _
    rw [List.length_append]
    omega
  have hexact (x : OperationLedger × OperationRegistry) (call : RegistryCall)
      (hx : Ledgered x.1 x.2) (hlength : x.1.accepted.length < 2 ^ 64) (halive : AliveHeld x) :
      AliveHeld (OperationRegistry.ledgered.next x call).1 ↔ dropsLast x call :=
    aliveHeld_next_iff hx hlength call halive
  refine Runs.System.throughout_iff_steps _ _ hnext hexact hids ledgered_default ?_
  simp [AliveHeld, OperationRegistry.default]

/-- An exercise that the front door accepts, and the engine adopts. -/
def adoption : List RegistryCall :=
  [.tryAcquire ⟨7⟩ (.exercise ⟨"oled"⟩),
    .leaseAccepted { id := 0, generation := ⟨7⟩, kind := .exercise ⟨"oled"⟩ }]

theorem operations_held_adoption :
    OperationLaw (OperationRegistry.ledgered.run (.empty, .default) adoption).1
      (OperationRegistry.ledgered.run (.empty, .default) adoption).2 :=
  operations_held adoption (by decide)

/-- The front door's lease is dropped while the engine's is alive: the display can be exercised
again, the generation counts as empty, and its cancellation does not reach the engine. -/
theorem adopted_lease_outlived :
    let x := OperationRegistry.ledgered.run (.empty, .default)
      (adoption ++ [.drop { id := 0, token := 0 }])
    { id := 0, token := 0 } ∈ x.2.leases ∧
      (x.2.state.tryAcquire ⟨7⟩ (.exercise ⟨"oled"⟩) x.2.nextToken).2.isOk = true ∧
      x.2.state.generationEmpty ⟨7⟩ = true ∧
      0 ∉ x.2.state.cancelGeneration ⟨7⟩ x.2.cancelled := by
  decide

/-! ## An engine that adopts -/

/-- What an engine reads of the registry while it handles one event. -/
structure Env.Reads (env : Env) (r : OperationRegistry) : Prop where
  leaseAccepted : ∀ operation,
    env.leaseAccepted operation = (r.state.leaseAccepted operation).isSome
  tryAcquire : ∀ generation kind, env.tryAcquire generation kind =
    (r.state.tryAcquire generation kind r.nextToken).2.toOption.map (·.1)

namespace RulesEngine
variable {e : RulesEngine} {env : Env} {l : OperationLedger} {r : OperationRegistry}

def currentGeneration (e : RulesEngine) (accepted : Option AcceptedOperation) : GenerationId :=
  e.generation.getD ((accepted.map (·.generation)).getD (e.generation.getD ⟨0⟩))

/-- The calls of an exercise before it is spawned. -/
def exerciseCalls (e : RulesEngine) (r : OperationRegistry) (target : DisplayId)
    (accepted : Option AcceptedOperation) : List RegistryCall :=
  let acquire := RegistryCall.tryAcquire (e.currentGeneration accepted) (.exercise target)
  match accepted with
  | none => [acquire]
  | some operation =>
    if (r.state.leaseAccepted operation).isSome then [.leaseAccepted operation]
    else [.leaseAccepted operation, acquire]

/-- An operation that the engine acquires itself is held, with a lease alive. -/
theorem acquired_held (hreads : env.Reads r) (h : Ledgered l r)
    (hlength : l.accepted.length < 2 ^ 64) {generation : GenerationId} {kind : OperationKind}
    {operation : AcceptedOperation} (hacquired : env.tryAcquire generation kind = some operation) :
    ∃ token, (OperationRegistry.ledgered.run (l, r) [.tryAcquire generation kind]).1.holds
        operation token ∧ { id := operation.id, token := token } ∈
          (OperationRegistry.ledgered.run (l, r) [.tryAcquire generation kind]).2.leases := by
  rw [hreads.tryAcquire] at hacquired
  have hcall : registry.next r (.tryAcquire generation kind) = r.tryAcquire generation kind := rfl
  unfold OperationRegistry.tryAcquire at hcall
  rw [Runs.System.run_cons, Runs.System.run_nil, ledgered_next_eq]
  rcases tryAcquire_cases r.state generation kind r.nextToken with herr | hok
  · rw [herr] at hacquired
    cases hacquired
  · rw [hok] at hacquired hcall
    obtain rfl := Option.some.inj hacquired
    rw [hcall]
    refine ⟨r.nextToken, ⟨List.mem_append_right _ List.mem_cons_self, fun hmem => ?_⟩,
      List.mem_cons_self⟩
    obtain ⟨a, ha, hid⟩ := h.dropped _ hmem
    exact h.numbered.fresh hlength a ha hid

/-- An exercise that the engine spawns holds its operation, with a lease alive. -/
theorem exercise_held (hreads : env.Reads r) (h : Ledgered l r)
    (hlength : l.accepted.length < 2 ^ 64) {target : DisplayId}
    {accepted : Option AcceptedOperation} {operation : AcceptedOperation}
    (hacquired : e.acquireExercise env target accepted = some operation) :
    ∃ token, (OperationRegistry.ledgered.run (l, r) (e.exerciseCalls r target accepted)).1.holds
        operation token ∧ { id := operation.id, token := token } ∈
          (OperationRegistry.ledgered.run (l, r) (e.exerciseCalls r target accepted)).2.leases := by
  have htry (hnone : accepted.filter env.leaseAccepted = none) :
      env.tryAcquire (e.currentGeneration accepted) (.exercise target) = some operation := by
    unfold acquireExercise at hacquired
    rw [hnone, Option.none_or] at hacquired
    exact hacquired
  cases accepted with
  | none => exact acquired_held hreads h hlength (htry rfl)
  | some front =>
    unfold exerciseCalls
    dsimp only
    cases hlease : r.state.leaseAccepted front with
    | some lease =>
      have hsome : env.leaseAccepted front = true := by
        rw [hreads.leaseAccepted, hlease]
        rfl
      unfold acquireExercise at hacquired
      rw [Option.filter_some, if_pos hsome, Option.some_or] at hacquired
      obtain rfl := Option.some.inj hacquired
      obtain ⟨hholds, hid⟩ := (h.law.adopt _ _).mp hlease
      have hcall : registry.next r (.leaseAccepted front) =
          ({ r with leases := lease :: r.leases }, [.adopted lease]) := by
        show r.leaseAccepted front = _
        unfold OperationRegistry.leaseAccepted
        rw [hlease]
      rw [Option.isSome_some, if_pos rfl, Runs.System.run_cons, Runs.System.run_nil,
        ledgered_next_eq, hcall]
      refine ⟨lease.token, ⟨List.mem_append_left _ hholds.1, hholds.2⟩, ?_⟩
      rw [← hid]
      exact List.mem_cons_self
    | none =>
      have hnone : env.leaseAccepted front = false := by
        rw [hreads.leaseAccepted, hlease]
        rfl
      have hcall : registry.next r (.leaseAccepted front) = (r, [.unknown]) := by
        show r.leaseAccepted front = _
        unfold OperationRegistry.leaseAccepted
        rw [hlease]
      have hquiet : (OperationRegistry.ledgered.next (l, r) (.leaseAccepted front)).1 = (l, r) := by
        rw [ledgered_next_eq, hcall, OperationRegistry.noteCall]
        exact Prod.ext (congrArg (OperationLedger.mk · l.dropped) (List.append_nil _)) rfl
      rw [Option.isSome_none, if_neg Bool.false_ne_true, Runs.System.run_cons, hquiet]
      exact acquired_held hreads h hlength (htry (by simp [Option.filter, hnone]))

end RulesEngine
end Dormant
