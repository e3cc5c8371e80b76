import Dormant.Foundations.Solo
import Dormant.Displays.Tokens

/-!
# Whoever blanked the panel is asked first to wake it

Commands on one display that do not overlap, and rebuilds of its executor. The registry holds
exactly the controller that blanked the panel last, from then to its own successful wake, or to a
lookup under another fingerprint. Every round of a wake begins with that controller.
-/

namespace Dormant
set_option autoImplicit false

open Tasks

/-- A call to a controller, and its answer. -/
abbrev Asked := Answered ExecutorCall ExecutorCall.Reply

def wokeAt : Asked → Option ℕ
  | ⟨.wake i, .ok ()⟩ => some i
  | _ => none

def blankedAt : Asked → Option ℕ
  | ⟨.blank i _, .ok ()⟩ => some i
  | _ => none

def attemptAt : Asked → Option ℕ
  | ⟨.wake i, _⟩ => some i
  | _ => none

def availableAt : Asked → Option (ℕ × Bool)
  | ⟨.isAvailable i, available⟩ => some (i, available)
  | _ => none

/-! ## One round -/

/-- The rounds of a wake: its calls before the on-demand re-probe, cut at the pauses. -/
def regularRounds : List Asked → List (List Asked)
  | [] => [[]]
  | ⟨.reprobe _, _⟩ :: _ => [[]]
  | ⟨.backoff _, _⟩ :: calls => [] :: regularRounds calls
  | call :: calls => (regularRounds calls).modifyHead (call :: ·)

/-- The on-demand re-probe begins with a re-probe. -/
def ReprobesFirst (calls : List Asked) : Prop :=
  calls = [] ∨ ∃ i reply rest, calls = ⟨.reprobe i, reply⟩ :: rest

/-- A round begins with the owner, asked for nothing before. It stops at the first success, and
without one it has asked every other controller once, in the order of the chain, and attempted the
owner and those that are available. -/
structure RegularRound (owner : Option ℕ) (len : ℕ) (round : List Asked) : Prop where
  ownerFirst (i : ℕ) (howner : owner = some i) (hlen : i < len) :
    ∃ result rest, round = ⟨.wake i, result⟩ :: rest
  stops : ∀ call ∈ round.dropLast, wokeAt call = none
  asked (hfailed : ∀ call ∈ round, wokeAt call = none) :
    (round.filterMap availableAt).map Prod.fst =
      (List.range len).filter fun i => some i ≠ owner
  attempted (hfailed : ∀ call ∈ round, wokeAt call = none) :
    round.filterMap attemptAt = (owner.filter (· < len)).toList ++
      ((round.filterMap availableAt).filter Prod.snd).map Prod.fst

/-- What comes before an attempt. -/
def gate (owner : Option ℕ) (i : ℕ) : List Asked :=
  if owner = some i then [] else [⟨.isAvailable i, true⟩]

/-- What a round does along its order, and who wakes the panel. -/
inductive Tried (owner : Option ℕ) : List ℕ → List Asked → Option ℕ → Prop
  | finished : Tried owner [] [] none
  | skipped {i : ℕ} {rest : List ℕ} {calls : List Asked} {out : Option ℕ} (hi : owner ≠ some i)
      (h : Tried owner rest calls out) :
      Tried owner (i :: rest) (⟨.isAvailable i, false⟩ :: calls) out
  | failed {i : ℕ} {rest : List ℕ} {calls : List Asked} {out : Option ℕ} (e : String)
      (h : Tried owner rest calls out) :
      Tried owner (i :: rest) (gate owner i ++ ⟨.wake i, .error e⟩ :: calls) out
  | woke {i : ℕ} {rest : List ℕ} :
      Tried owner (i :: rest) (gate owner i ++ [⟨.wake i, .ok ()⟩]) (some i)

section
variable {owner : Option ℕ} {order : List ℕ} {calls : List Asked} {out : Option ℕ}

theorem findSome?_gate (i : ℕ) (calls : List Asked) :
    (gate owner i ++ calls).findSome? wokeAt = calls.findSome? wokeAt := by
  unfold gate
  split
  · rfl
  · rfl

theorem Tried.woken (h : Tried owner order calls out) : calls.findSome? wokeAt = out := by
  induction h with
  | finished => rfl
  | skipped hi h ih => exact ih
  | failed e h ih => exact (findSome?_gate _ _).trans ih
  | woke => exact findSome?_gate _ _

theorem Tried.stops (h : Tried owner order calls out) :
    ∀ call ∈ calls.dropLast, wokeAt call = none := by
  have hcons {first : Asked} {calls : List Asked} (hfirst : wokeAt first = none)
      (hcalls : ∀ call ∈ calls.dropLast, wokeAt call = none) :
      ∀ call ∈ (first :: calls).dropLast, wokeAt call = none := by
    cases calls with
    | nil => simp
    | cons second calls =>
      intro call hcall
      rw [List.dropLast_cons_cons] at hcall
      rcases List.mem_cons.mp hcall with rfl | hcall
      · exact hfirst
      · exact hcalls call hcall
  have hgate {i : ℕ} {calls : List Asked} (hcalls : ∀ call ∈ calls.dropLast, wokeAt call = none) :
      ∀ call ∈ (gate owner i ++ calls).dropLast, wokeAt call = none := by
    unfold gate
    split
    · exact hcalls
    · exact hcons rfl hcalls
  induction h with
  | finished => simp
  | skipped hi h ih => exact hcons rfl ih
  | failed e h ih => exact hgate (hcons rfl ih)
  | woke => exact hgate (by simp)

theorem Tried.asked (h : Tried owner order calls out) (hout : out = none) :
    (calls.filterMap availableAt).map Prod.fst = order.filter fun i => some i ≠ owner := by
  have hgate (i : ℕ) (rest : List ℕ) : ((gate owner i).filterMap availableAt).map Prod.fst ++
      rest.filter (fun i => decide (some i ≠ owner)) =
        (i :: rest).filter fun i => decide (some i ≠ owner) := by
    unfold gate
    by_cases hi : owner = some i
    · simp [hi]
    · have hne : some i ≠ owner := fun h => hi h.symm
      simp [hi, hne, availableAt]
  induction h with
  | finished => rfl
  | @skipped i rest calls out hi h ih =>
    have hne : some i ≠ owner := fun h => hi h.symm
    rw [List.filter_cons_of_pos (by simpa using hne), ← ih hout]
    rfl
  | failed e h ih =>
    rw [List.filterMap_append, List.map_append, ← hgate, ← ih hout]
    rfl
  | woke => cases hout

/-- Along an order without the owner. -/
theorem Tried.attempted (h : Tried owner order calls out) (hout : out = none)
    (horder : ∀ i ∈ order, owner ≠ some i) :
    calls.filterMap attemptAt = ((calls.filterMap availableAt).filter Prod.snd).map Prod.fst := by
  induction h with
  | finished => rfl
  | skipped hi h ih => exact ih hout fun j hj => horder j (List.mem_cons_of_mem _ hj)
  | @failed i rest calls out e h ih =>
    have hi : gate owner i = [⟨.isAvailable i, true⟩] := if_neg (horder i List.mem_cons_self)
    have hrest := ih hout fun j hj => horder j (List.mem_cons_of_mem _ hj)
    rw [hi]
    exact congrArg (i :: ·) hrest
  | woke => cases hout

end

/-- The order begins with an owner of the chain. Any other owner is dropped. -/
theorem ownerFirstOrder_cases (owner : Option ℕ) (len : ℕ) :
    (∃ i, owner = some i ∧ i < len ∧ owner.filter (· < len) = some i ∧
        ownerFirstOrder owner len = i :: (List.range len).filter fun j => some j ≠ owner) ∨
      (∀ i, i < len → owner ≠ some i) ∧ owner.filter (· < len) = none ∧
        ownerFirstOrder owner len = List.range len := by
  cases owner with
  | none => exact .inr ⟨fun _ _ h => (by cases h), rfl, by simp [ownerFirstOrder]⟩
  | some i =>
    by_cases hi : i < len
    · have hfilter : (some i).filter (fun j => decide (j < len)) = some i := by
        simp [Option.filter, hi]
      exact .inl ⟨i, rfl, hi, hfilter, by simp [ownerFirstOrder, hfilter]⟩
    · have hfilter : (some i).filter (fun j => decide (j < len)) = none := by
        simp [Option.filter, hi]
      refine .inr ⟨fun j hj h => ?_, hfilter, by simp [ownerFirstOrder, hfilter]⟩
      obtain rfl := Option.some.inj h
      exact hi hj

/-- A round along the order of the owner. -/
theorem Tried.regular {owner : Option ℕ} {len : ℕ} {round : List Asked} {out : Option ℕ}
    (h : Tried owner (ownerFirstOrder owner len) round out) : RegularRound owner len round := by
  have hout (hfailed : ∀ call ∈ round, wokeAt call = none) : out = none :=
    h.woken.symm.trans (List.findSome?_eq_none_iff.mpr hfailed)
  rcases ownerFirstOrder_cases owner len with
    ⟨i, rfl, hlen, hfilter, horder⟩ | ⟨hnot, hfilter, horder⟩
  · have hothers : ∀ j ∈ (List.range len).filter fun j => decide (some j ≠ some i),
        some i ≠ some j := by
      intro j hj hij
      have hne := (List.mem_filter.mp hj).2
      simp [hij] at hne
    have hgate : gate (some i) i = [] := if_pos rfl
    refine ⟨fun j hj _ => ?_, h.stops, fun hfailed => ?_, fun hfailed => ?_⟩
    · obtain rfl := Option.some.inj hj
      rw [horder] at h
      cases h with
      | skipped hi h => exact absurd rfl hi
      | failed e h =>
        rw [hgate]
        exact ⟨_, _, rfl⟩
      | woke =>
        rw [hgate]
        exact ⟨_, _, rfl⟩
    · rw [h.asked (hout hfailed), horder]
      simp
    · have hnone := hout hfailed
      rw [hfilter]
      rw [horder] at h
      cases h with
      | skipped hi h => exact absurd rfl hi
      | failed e h =>
        rw [hgate]
        exact congrArg (i :: ·) (h.attempted hnone hothers)
      | woke => cases hnone
  · refine ⟨fun i hi hlen => absurd hi (hnot i hlen), h.stops, fun hfailed => ?_, fun hfailed => ?_⟩
    · rw [h.asked (hout hfailed), horder]
    · rw [hfilter]
      refine h.attempted (hout hfailed) fun i hi => ?_
      rw [horder] at hi
      exact hnot i (List.mem_range.mp hi)

/-! ## The registry -/

/-- The entry of the display. -/
def DisplayExecutor.entry (ex : DisplayExecutor) (s : ExecutorState) : Option OwnerEntry :=
  s.blankOwners.owners ex.display

/-- The owner that a lookup of this chain yields. -/
def DisplayExecutor.holder (ex : DisplayExecutor) (entry : Option OwnerEntry) : Option ℕ :=
  (entry.filter (·.fingerprint = ex.chainFingerprint)).map OwnerEntry.controllerIndex

/-- While a command waits, nobody else is on the display. -/
structure DisplayExecutor.Around (ex : DisplayExecutor) (s s' : ExecutorState) : Prop where
  supersede : s'.supersede = s.supersede
  entry : ex.entry s' = ex.entry s

theorem DisplayExecutor.Around.refl (ex : DisplayExecutor) (s : ExecutorState) : ex.Around s s :=
  ⟨rfl, rfl⟩

theorem DisplayExecutor.Around.trans {ex : DisplayExecutor} {s s' s'' : ExecutorState}
    (h : ex.Around s s') (h' : ex.Around s' s'') : ex.Around s s'' :=
  ⟨h'.supersede.trans h.supersede, h'.entry.trans h.entry⟩

/-- What is left of an entry when a controller has woken the panel. -/
def released (fingerprint : String) (owner woke : Option ℕ) (entry : Option OwnerEntry) :
    Option OwnerEntry :=
  match woke with
  | some i =>
    if owner = some i ∧ entry = some { fingerprint, controllerIndex := i } then none else entry
  | none => entry

/-- What a wake leaves of an entry. It looks the owner up unless the chain is empty. -/
def DisplayExecutor.entryAfterWake (ex : DisplayExecutor) (calls : List Asked)
    (entry : Option OwnerEntry) : Option OwnerEntry :=
  if ex.chain = [] then entry
  else released ex.chainFingerprint (ex.holder entry) (calls.findSome? wokeAt)
    (entry.filter (·.fingerprint = ex.chainFingerprint))

/-- A loop of a wake comes to its end, or returns success when a controller has woken the panel. -/
inductive FlowsTo {α : Type} : Option ℕ → Flow α → Prop
  | next (a : α) : FlowsTo none (.next a)
  | woke (i : ℕ) : FlowsTo (some i) (.returned (.ok ()))

namespace DisplayExecutor
variable {ex : DisplayExecutor} {s s' : ExecutorState} {calls : List Asked} {owner : Option ℕ}
  {token : ℕ}

theorem entry_update (registry : BlankOwnerRegistry) (display : DisplayId)
    (entry : Option OwnerEntry) :
    (BlankOwnerRegistry.mk (Function.update registry.owners display entry)).owners display =
      entry :=
  Function.update_self display entry registry.owners

theorem owner_eq (ex : DisplayExecutor) (registry : BlankOwnerRegistry) :
    (registry.owner ex.display ex.chainFingerprint).1.owners ex.display =
        (registry.owners ex.display).filter (·.fingerprint = ex.chainFingerprint) ∧
      (registry.owner ex.display ex.chainFingerprint).2 =
        ex.holder (registry.owners ex.display) := by
  unfold BlankOwnerRegistry.owner DisplayExecutor.holder
  cases hentry : registry.owners ex.display with
  | none => exact ⟨hentry, rfl⟩
  | some entry =>
    by_cases hchain : entry.fingerprint = ex.chainFingerprint
    · simp [hchain, hentry, Option.filter]
    · simp [hchain, Option.filter]

theorem solo_storeRows {rows : Option (List ControllerHealth)} {done : Unit}
    (h : (executions ex).Solo ex.Around (storeRows rows) s calls s' done) :
    calls = [] ∧ ex.Around s s' := by
  cases rows with
  | none =>
    obtain ⟨rfl, rfl, -⟩ := Scheme.solo_pure h
    exact ⟨rfl, .refl ex s'⟩
  | some rows =>
    have hact : (executions ex).act (.storeHealth rows) =
        some fun s => ({ s with health := rows }, ()) := rfl
    obtain ⟨rfl, rfl, -⟩ := Scheme.solo_pure (Scheme.solo_acted (f := Task.done) hact h)
    exact ⟨rfl, rfl, rfl⟩

theorem solo_clearOwner {i : ℕ} {done : Unit}
    (h : (executions ex).Solo ex.Around (clearOwner owner i) s calls s' done) :
    calls = [] ∧ s'.supersede = s.supersede ∧
      ex.entry s' = released ex.chainFingerprint owner (some i) (ex.entry s) := by
  unfold clearOwner at h
  split at h
  · rename_i howner
    have hact : (executions ex).act (.clearIfOwner i) = some fun s =>
        ({ s with
            blankOwners := s.blankOwners.clearIfOwner ex.display ex.chainFingerprint i }, ()) :=
      rfl
    obtain ⟨rfl, rfl, -⟩ := Scheme.solo_pure (Scheme.solo_acted (f := Task.done) hact h)
    refine ⟨rfl, rfl, ?_⟩
    show (s.blankOwners.clearIfOwner ex.display ex.chainFingerprint i).owners ex.display = _
    unfold BlankOwnerRegistry.clearIfOwner
    split
    · rename_i hentry
      exact (entry_update _ _ _).trans (if_pos ⟨howner, hentry⟩).symm
    · rename_i hentry
      exact (if_neg fun h => hentry h.2).symm
  · rename_i howner
    obtain ⟨rfl, rfl, -⟩ := Scheme.solo_pure h
    exact ⟨rfl, rfl, (if_neg fun h => howner h.1).symm⟩

/-- The token of a command that nothing supersedes is never cancelled. -/
theorem solo_isCancelled {β : Type} {f : Bool → Execution β} {a : β} (htoken : s.supersede = token)
    (h : (executions ex).Solo ex.Around (Task.request (ExecutorCall.isCancelled token) >>= f) s
      calls s' a) : (executions ex).Solo ex.Around (f false) s calls s' a := by
  have hact : (executions ex).act (.isCancelled token) =
      some fun s => (s, decide (token ≠ s.supersede)) := rfl
  have h := Scheme.solo_acted hact h
  rwa [htoken, decide_eq_false (fun hne => hne rfl)] at h

theorem solo_woken {α : Type} {rows : Option (List ControllerHealth)} {i : ℕ} {flow : Flow α}
    (htoken : s.supersede = token)
    (h : (executions ex).Solo ex.Around (woken owner token rows i) s calls s' flow) :
    calls = [] ∧ FlowsTo (some i) flow ∧ s'.supersede = s.supersede ∧
      ex.entry s' = released ex.chainFingerprint owner (some i) (ex.entry s) := by
  have hlooked := solo_isCancelled htoken h
  obtain ⟨before, after, s₁, done, hcalls, hrows, hrest⟩ := Scheme.solo_bind hlooked
  obtain ⟨rfl, haround⟩ := solo_storeRows hrows
  obtain ⟨before', after', s₂, done', hcalls', howner, hend⟩ := Scheme.solo_bind hrest
  obtain ⟨rfl, hsupersede, hentry⟩ := solo_clearOwner howner
  obtain ⟨rfl, rfl, rfl⟩ := Scheme.solo_pure hend
  subst hcalls' hcalls
  refine ⟨rfl, .woke i, hsupersede.trans haround.supersede, ?_⟩
  rw [hentry, haround.entry]

theorem solo_attempts {i : ℕ} {attempt : Bool}
    (h : (executions ex).Solo ex.Around (attempts owner i) s calls s' attempt) :
    ex.Around s s' ∧ (attempt = true ∧ calls = gate owner i ∨
      attempt = false ∧ owner ≠ some i ∧ calls = [⟨.isAvailable i, false⟩]) := by
  unfold attempts at h
  split at h
  · rename_i howner
    obtain ⟨rfl, rfl, rfl⟩ := Scheme.solo_pure h
    exact ⟨.refl ex s', .inl ⟨rfl, (if_pos howner).symm⟩⟩
  · rename_i howner
    have hwait : (executions ex).act (.isAvailable i) = none := rfl
    obtain ⟨available, s₁, rest, haround, hcalls, hend⟩ :=
      Scheme.solo_waited (f := Task.done) hwait h
    obtain ⟨rfl, rfl, rfl⟩ := Scheme.solo_pure hend
    subst hcalls
    refine ⟨haround, ?_⟩
    cases attempt with
    | true => exact .inl ⟨rfl, (if_neg howner).symm⟩
    | false => exact .inr ⟨rfl, howner, rfl⟩

/-- An attempt, and what follows when the controller has woken the panel or has not. -/
theorem solo_wake {β : Type} {i : ℕ} {f : Except String Unit → Execution β} {a : β}
    (h : (executions ex).Solo ex.Around (Task.request (ExecutorCall.wake i) >>= f) s calls s' a) :
    ∃ result s₁ rest, ex.Around s s₁ ∧ calls = ⟨.wake i, result⟩ :: rest ∧
      (executions ex).Solo ex.Around (f result) s₁ rest s' a :=
  Scheme.solo_waited rfl h

theorem solo_attemptRound {α : Type} {rows : α → ℕ → Option (List ControllerHealth)}
    {fail : α → ℕ → String → α} {order : List ℕ} {a : α} {flow : Flow α}
    (htoken : s.supersede = token)
    (h : (executions ex).Solo ex.Around (attemptRound owner token rows fail order a) s calls s'
      flow) :
    ∃ out, Tried owner order calls out ∧ FlowsTo out flow ∧ s'.supersede = s.supersede ∧
      ex.entry s' = released ex.chainFingerprint owner out (ex.entry s) := by
  induction order generalizing s calls a with
  | nil =>
    obtain ⟨rfl, rfl, rfl⟩ := Scheme.solo_pure h
    exact ⟨none, .finished, .next a, rfl, rfl⟩
  | cons i rest ih =>
    have hlooked := solo_isCancelled htoken h
    obtain ⟨before, after, s₁, attempt, hcalls, hattempt, hthen⟩ := Scheme.solo_bind hlooked
    subst hcalls
    obtain ⟨haround, ⟨rfl, rfl⟩ | ⟨rfl, hi, rfl⟩⟩ := solo_attempts hattempt
    · obtain ⟨result, s₂, after', haround', hcalls, hrest⟩ := solo_wake hthen
      subst hcalls
      have haround := haround.trans haround'
      have htoken : s₂.supersede = token := haround.supersede.trans htoken
      cases result with
      | ok done =>
        obtain ⟨rfl, hflow, hsupersede, hentry⟩ := solo_woken htoken hrest
        refine ⟨some i, .woke, hflow, hsupersede.trans haround.supersede, ?_⟩
        rw [hentry, haround.entry]
      | error e =>
        obtain ⟨out, htried, hflow, hsupersede, hentry⟩ := ih htoken hrest
        refine ⟨out, .failed e htried, hflow, hsupersede.trans haround.supersede, ?_⟩
        rw [hentry, haround.entry]
    · have htoken : s₁.supersede = token := haround.supersede.trans htoken
      obtain ⟨out, htried, hflow, hsupersede, hentry⟩ := ih htoken hthen
      refine ⟨out, .skipped hi htried, hflow, hsupersede.trans haround.supersede, ?_⟩
      rw [hentry, haround.entry]

theorem solo_reprobeWakePass {order : List ℕ} {flow : Flow Unit} (htoken : s.supersede = token)
    (h : (executions ex).Solo ex.Around (reprobeWakePass owner token order) s calls s' flow) :
    ReprobesFirst calls ∧ FlowsTo (calls.findSome? wokeAt) flow ∧
      ex.entry s' =
        released ex.chainFingerprint owner (calls.findSome? wokeAt) (ex.entry s) := by
  induction order generalizing s calls with
  | nil =>
    obtain ⟨rfl, rfl, rfl⟩ := Scheme.solo_pure h
    exact ⟨.inl rfl, .next (), rfl⟩
  | cons i rest ih =>
    have hwait : (executions ex).act (.reprobe i) = none := rfl
    obtain ⟨reply, s₁, after, haround, hcalls, hprobed⟩ := Scheme.solo_waited hwait h
    subst hcalls
    refine ⟨.inr ⟨i, reply, after, rfl⟩, ?_⟩
    show FlowsTo (after.findSome? wokeAt) flow ∧
      ex.entry s' = released ex.chainFingerprint owner (after.findSome? wokeAt) (ex.entry s)
    rw [← haround.entry]
    have htoken : s₁.supersede = token := haround.supersede.trans htoken
    obtain ⟨before, after', s₂, attempt, hcalls, hattempt, hthen⟩ := Scheme.solo_bind hprobed
    subst hcalls
    obtain ⟨haround, ⟨rfl, rfl⟩ | ⟨rfl, hi, rfl⟩⟩ := solo_attempts hattempt
    · rw [findSome?_gate, ← haround.entry]
      have htoken : s₂.supersede = token := haround.supersede.trans htoken
      have hlooked := solo_isCancelled htoken hthen
      obtain ⟨result, s₃, after, haround, hcalls, hrest⟩ := solo_wake hlooked
      subst hcalls
      rw [← haround.entry]
      have htoken : s₃.supersede = token := haround.supersede.trans htoken
      cases result with
      | ok done =>
        obtain ⟨rfl, hflow, -, hentry⟩ := solo_woken htoken hrest
        exact ⟨hflow, hentry⟩
      | error e => exact (ih htoken hrest).2
    · rw [← haround.entry]
      exact (ih (haround.supersede.trans htoken) hthen).2

end DisplayExecutor

/-! ## The rounds of a wake -/

/-- The round has no pause and no re-probe in it. -/
def Unbroken (round : List Asked) : Prop :=
  ∀ call ∈ round, (attemptAt call).isSome ∨ (availableAt call).isSome

theorem Tried.unbroken {owner : Option ℕ} {order : List ℕ} {calls : List Asked}
    {out : Option ℕ} (h : Tried owner order calls out) : Unbroken calls := by
  have hgate {i : ℕ} {calls : List Asked} (hcalls : Unbroken calls) :
      Unbroken (gate owner i ++ calls) := by
    intro call hcall
    rcases List.mem_append.mp hcall with hcall | hcall
    · unfold gate at hcall
      split at hcall
      · cases hcall
      · obtain rfl := List.mem_singleton.mp hcall
        exact .inr rfl
    · exact hcalls call hcall
  induction h with
  | finished => exact fun _ hcall => by cases hcall
  | skipped hi h ih =>
    intro call hcall
    rcases List.mem_cons.mp hcall with rfl | hcall
    · exact .inr rfl
    · exact ih call hcall
  | failed e h ih =>
    refine hgate fun call hcall => ?_
    rcases List.mem_cons.mp hcall with rfl | hcall
    · exact .inl rfl
    · exact ih call hcall
  | woke =>
    refine hgate fun call hcall => ?_
    obtain rfl := List.mem_singleton.mp hcall
    exact .inl rfl

theorem regularRounds_cons {call : Asked}
    (hcall : (attemptAt call).isSome ∨ (availableAt call).isSome) (calls : List Asked) :
    regularRounds (call :: calls) = (regularRounds calls).modifyHead (call :: ·) := by
  obtain ⟨i, reply⟩ := call
  cases i with
  | reprobe i => rcases hcall with h | h <;> cases h
  | backoff duration => rcases hcall with h | h <;> cases h
  | _ => rfl

theorem regularRounds_append {round : List Asked} (h : Unbroken round) (calls : List Asked) :
    regularRounds (round ++ calls) = (regularRounds calls).modifyHead (round ++ ·) := by
  induction round with
  | nil => exact (congrFun List.modifyHead_id (regularRounds calls)).symm
  | cons call round ih =>
    rw [List.cons_append, regularRounds_cons (h call List.mem_cons_self),
      ih fun call hcall => h call (List.mem_cons_of_mem _ hcall), List.modifyHead_modifyHead]
    rfl

/-- The rounds of the calls are rounds along the order. -/
def RoundsAlong (owner : Option ℕ) (order : List ℕ) (calls : List Asked) : Prop :=
  ∀ round ∈ regularRounds calls, ∃ out, Tried owner order round out

theorem tried_append_nil {owner : Option ℕ} {order : List ℕ} {round : List Asked}
    {out : Option ℕ} (h : Tried owner order round out) : Tried owner order (round ++ []) out := by
  rw [List.append_nil]
  exact h

theorem roundsAlong_last {owner : Option ℕ} {order : List ℕ} {round tail : List Asked}
    {out : Option ℕ} (h : Tried owner order round out) (htail : ReprobesFirst tail) :
    RoundsAlong owner order (round ++ tail) := by
  have hrounds : regularRounds tail = [[]] := by
    obtain rfl | ⟨i, reply, rest, rfl⟩ := htail
    · rfl
    · rfl
  unfold RoundsAlong
  rw [regularRounds_append h.unbroken, hrounds]
  intro round' hround
  obtain rfl := List.mem_singleton.mp hround
  exact ⟨out, tried_append_nil h⟩

theorem roundsAlong_pause {owner : Option ℕ} {order : List ℕ} {round calls : List Asked}
    {out : Option ℕ} {duration : ℕ} {reply : Unit} (h : Tried owner order round out)
    (hcalls : RoundsAlong owner order calls) :
    RoundsAlong owner order (round ++ ⟨.backoff duration, reply⟩ :: calls) := by
  unfold RoundsAlong
  rw [regularRounds_append h.unbroken]
  intro round' hround
  rcases List.mem_cons.mp hround with rfl | hround
  · exact ⟨out, tried_append_nil h⟩
  · exact hcalls round' hround

namespace DisplayExecutor
variable {ex : DisplayExecutor} {s s' : ExecutorState} {calls : List Asked} {owner : Option ℕ}
  {token : ℕ}

theorem findSome?_wokeAt_of_failed {order : List ℕ} {round : List Asked}
    (h : Tried owner order round none) (calls : List Asked) :
    (round ++ calls).findSome? wokeAt = calls.findSome? wokeAt := by
  rw [List.findSome?_append, h.woken]
  rfl

theorem solo_wakeRounds {order : List ℕ} {left round : ℕ} {health : List ControllerHealth}
    {flow : Flow (List ControllerHealth)} (htoken : s.supersede = token)
    (h : (executions ex).Solo ex.Around (ex.wakeRounds owner token order (left + 1) round health)
      s calls s' flow) :
    (∀ tail, ReprobesFirst tail → RoundsAlong owner order (calls ++ tail)) ∧
      FlowsTo (calls.findSome? wokeAt) flow ∧ s'.supersede = s.supersede ∧
      ex.entry s' =
        released ex.chainFingerprint owner (calls.findSome? wokeAt) (ex.entry s) := by
  induction left generalizing s calls round health with
  | zero =>
    obtain ⟨before, after, s₁, flow₁, hcalls, hround, hrest⟩ := Scheme.solo_bind h
    obtain ⟨out, htried, hflow, hsupersede, hentry⟩ := solo_attemptRound htoken hround
    have hend : after = [] ∧ s' = s₁ ∧ flow = flow₁ := by
      cases flow₁ with
      | next a => exact Scheme.solo_pure hrest
      | returned result => exact Scheme.solo_pure hrest
    obtain ⟨rfl, rfl, rfl⟩ := hend
    rw [List.append_nil] at hcalls
    subst hcalls
    rw [htried.woken]
    exact ⟨fun tail htail => roundsAlong_last htried htail, hflow, hsupersede, hentry⟩
  | succ left ih =>
    obtain ⟨before, after, s₁, flow₁, hcalls, hround, hrest⟩ := Scheme.solo_bind h
    subst hcalls
    obtain ⟨out, htried, hflow, hsupersede, hentry⟩ := solo_attemptRound htoken hround
    cases hflow with
    | woke i =>
      obtain ⟨rfl, rfl, rfl⟩ := Scheme.solo_pure hrest
      rw [List.append_nil, htried.woken]
      exact ⟨fun tail htail => roundsAlong_last htried htail, .woke i, hsupersede, hentry⟩
    | next health =>
      have hwait : (executions ex).act (.backoff (ex.backoffAfter round)) = none := rfl
      obtain ⟨reply, s₂, after', haround, hcalls, hpaused⟩ := Scheme.solo_waited hwait hrest
      subst hcalls
      have hsupersede := haround.supersede.trans hsupersede
      have hlooked := solo_isCancelled (hsupersede.trans htoken) hpaused
      obtain ⟨hrounds, hflow, hsupersede', hentry'⟩ := ih (hsupersede.trans htoken) hlooked
      rw [findSome?_wokeAt_of_failed htried]
      refine ⟨fun tail htail => ?_, hflow, hsupersede'.trans hsupersede, ?_⟩
      · rw [List.append_assoc]
        exact roundsAlong_pause htried (hrounds tail htail)
      · show ex.entry s' =
          released ex.chainFingerprint owner (after'.findSome? wokeAt) (ex.entry s)
        rw [hentry', haround.entry, hentry]
        rfl

/-- The lookup keeps the entry of this chain and removes any other. -/
theorem solo_owner {β : Type} {f : Option ℕ → Execution β} {a : β}
    (h : (executions ex).Solo ex.Around (Task.request ExecutorCall.owner >>= f) s calls s' a) :
    ∃ s₁, s₁.supersede = s.supersede ∧
      ex.entry s₁ = (ex.entry s).filter (·.fingerprint = ex.chainFingerprint) ∧
      (executions ex).Solo ex.Around (f (ex.holder (ex.entry s))) s₁ calls s' a := by
  have hact : (executions ex).act .owner = some fun s =>
      ({ s with blankOwners := (s.blankOwners.owner ex.display ex.chainFingerprint).1 },
        (s.blankOwners.owner ex.display ex.chainFingerprint).2) := rfl
  have hlooked := Scheme.solo_acted hact h
  obtain ⟨hentry, hreply⟩ := ex.owner_eq s.blankOwners
  refine ⟨{ s with
    blankOwners := (s.blankOwners.owner ex.display ex.chainFingerprint).1 }, rfl, hentry, ?_⟩
  have hholder : ex.holder (ex.entry s) =
      (s.blankOwners.owner ex.display ex.chainFingerprint).2 := hreply.symm
  rw [hholder]
  exact hlooked

/-- What a wake does with the entry that it finds. -/
structure Woke (ex : DisplayExecutor) (calls : List Asked) (entry entry' : Option OwnerEntry) :
    Prop where
  rounds : RoundsAlong (ex.holder entry) (ownerFirstOrder (ex.holder entry) ex.chain.length) calls
  entry : entry' = ex.entryAfterWake calls entry

theorem woke_emptyChain {entry : Option OwnerEntry} (hchain : ex.chain = []) :
    ex.Woke [] entry entry := by
  refine ⟨fun round hround => ?_, (if_pos hchain).symm⟩
  have hempty : ownerFirstOrder (ex.holder entry) ex.chain.length = [] := by
    rw [hchain]
    rcases ownerFirstOrder_cases (ex.holder entry) 0 with ⟨i, -, hi, -⟩ | ⟨-, -, horder⟩
    · exact absurd hi (Nat.not_lt_zero i)
    · exact horder
  obtain rfl := List.mem_singleton.mp hround
  rw [hempty]
  exact ⟨none, .finished⟩

/-- The end of a wake whose rounds have all failed. -/
theorem solo_afterRounds {out : CommandResult} {exhaustion : String}
    (htoken : s.supersede = token)
    (h : (executions ex).Solo ex.Around
      (reprobeWakePass owner token (List.range ex.chain.length) >>= fun flow =>
        match flow with
        | .returned result => pure result
        | .next () => pure (exhausted exhaustion)) s calls s' out) :
    ReprobesFirst calls ∧
      ex.entry s' =
        released ex.chainFingerprint owner (calls.findSome? wokeAt) (ex.entry s) := by
  obtain ⟨before, after, s₁, flow, hcalls, hpass, hend⟩ := Scheme.solo_bind h
  obtain ⟨hfirst, hflow, hentry⟩ := solo_reprobeWakePass htoken hpass
  have hafter : after = [] ∧ s' = s₁ := by
    cases flow with
    | returned result => exact ⟨(Scheme.solo_pure hend).1, (Scheme.solo_pure hend).2.1⟩
    | next done => exact ⟨(Scheme.solo_pure hend).1, (Scheme.solo_pure hend).2.1⟩
  obtain ⟨rfl, rfl⟩ := hafter
  rw [List.append_nil] at hcalls
  subst hcalls
  exact ⟨hfirst, hentry⟩

theorem solo_rotate {β : Type} {f : ℕ → Execution β} {a : β}
    (h : (executions ex).Solo ex.Around (Task.request ExecutorCall.rotateSupersede >>= f) s calls
      s' a) :
    ∃ s₁, ex.entry s₁ = ex.entry s ∧
      (executions ex).Solo ex.Around (f s₁.supersede) s₁ calls s' a := by
  have hact : (executions ex).act .rotateSupersede =
      some fun s => ({ s with supersede := s.supersede + 1 }, s.supersede + 1) := rfl
  exact ⟨{ s with supersede := s.supersede + 1 }, rfl, Scheme.solo_acted hact h⟩

theorem solo_wakeOnce {out : CommandResult}
    (h : (executions ex).Solo ex.Around ex.wakeOnce s calls s' out) :
    ex.Woke calls (ex.entry s) (ex.entry s') := by
  obtain ⟨s₁, hrotated, h⟩ := solo_rotate h
  rw [← hrotated]
  split at h
  · rename_i hchain
    obtain ⟨rfl, rfl, -⟩ := Scheme.solo_pure h
    exact woke_emptyChain (List.isEmpty_iff.mp hchain)
  · rename_i hchain
    have hchain : ex.chain ≠ [] := fun hnil => hchain (List.isEmpty_iff.mpr hnil)
    obtain ⟨s₂, hsupersede, hlooked, h⟩ := solo_owner h
    obtain ⟨round, after, s₃, flow, hcalls, hround, hrest⟩ := Scheme.solo_bind h
    subst hcalls
    obtain ⟨out, htried, hflow, hsupersede', hentry⟩ := solo_attemptRound hsupersede hround
    rw [hlooked] at hentry
    cases hflow with
    | woke i =>
      obtain ⟨rfl, rfl, rfl⟩ := Scheme.solo_pure hrest
      refine ⟨roundsAlong_last htried (.inl rfl), ?_⟩
      rw [entryAfterWake, if_neg hchain, List.append_nil, htried.woken]
      exact hentry
    | next done =>
      obtain ⟨hfirst, hentry'⟩ := solo_afterRounds (hsupersede'.trans hsupersede) hrest
      refine ⟨roundsAlong_last htried hfirst, ?_⟩
      rw [entryAfterWake, if_neg hchain, findSome?_wokeAt_of_failed htried, hentry', hentry]
      rfl

theorem solo_wakeBurst {out : CommandResult}
    (h : (executions ex).Solo ex.Around ex.wake s calls s' out) :
    ex.Woke calls (ex.entry s) (ex.entry s') := by
  obtain ⟨s₁, hrotated, h⟩ := solo_rotate h
  rw [← hrotated]
  split at h
  · rename_i hchain
    obtain ⟨rfl, rfl, -⟩ := Scheme.solo_pure h
    exact woke_emptyChain (List.isEmpty_iff.mp hchain)
  · rename_i hchain
    have hchain : ex.chain ≠ [] := fun hnil => hchain (List.isEmpty_iff.mpr hnil)
    split at h
    · cases h with
      | acted hact h => cases hact
      | waited r hwait haround h => cases r
    · obtain ⟨s₂, hsupersede, hlooked, h⟩ := solo_owner h
      obtain ⟨rounds, after, s₃, flow, hcalls, hrounds, hrest⟩ := Scheme.solo_bind h
      subst hcalls
      obtain ⟨halong, hflow, hsupersede', hentry⟩ := solo_wakeRounds hsupersede hrounds
      rw [hlooked] at hentry
      generalize hwoken : rounds.findSome? wokeAt = found at hflow hentry
      cases hflow with
      | woke i =>
        obtain ⟨rfl, rfl, rfl⟩ := Scheme.solo_pure hrest
        refine ⟨halong [] (.inl rfl), ?_⟩
        rw [entryAfterWake, if_neg hchain, List.append_nil, hwoken]
        exact hentry
      | next health =>
        have hact : (executions ex).act (.storeHealth health) =
            some fun s => ({ s with health := health }, ()) := rfl
        have hstored := Scheme.solo_acted (S := executions ex) hact hrest
        have htoken : ({ s₃ with health := health } : ExecutorState).supersede = s₁.supersede :=
          hsupersede'.trans hsupersede
        obtain ⟨hfirst, hentry'⟩ := solo_afterRounds htoken hstored
        refine ⟨halong after hfirst, ?_⟩
        have hwoke : (rounds ++ after).findSome? wokeAt = after.findSome? wokeAt := by
          rw [List.findSome?_append, hwoken]
          rfl
        have hkept : ex.entry s₃ =
            (ex.entry s₁).filter (·.fingerprint = ex.chainFingerprint) := hentry
        rw [entryAfterWake, if_neg hchain, hwoke, ← hkept]
        exact hentry'

end DisplayExecutor

/-! ## A blank -/

namespace DisplayExecutor
variable {ex : DisplayExecutor} {s s' : ExecutorState} {calls : List Asked}

/-- What a blank leaves of an entry. -/
def entryAfterBlank (ex : DisplayExecutor) (calls : List Asked) (entry : Option OwnerEntry) :
    Option OwnerEntry :=
  ((calls.findSome? blankedAt).map (OwnerEntry.mk ex.chainFingerprint)).or entry

theorem entryAfterBlank_append {before : List Asked} (h : before.findSome? blankedAt = none)
    (after : List Asked) (entry : Option OwnerEntry) :
    ex.entryAfterBlank (before ++ after) entry = ex.entryAfterBlank after entry := by
  unfold entryAfterBlank
  rw [List.findSome?_append, h]
  rfl

theorem solo_blanked {tally : BlankTally} {i : ℕ} {done : Unit}
    (h : (executions ex).Solo ex.Around (blanked tally i) s calls s' done) :
    calls = [] ∧
      ex.entry s' = some { fingerprint := ex.chainFingerprint, controllerIndex := i } := by
  have hact : (executions ex).act (.storeHealth (healthy tally.health i)) =
      some fun s => ({ s with health := healthy tally.health i }, ()) := rfl
  have hrecord : (executions ex).act (.recordOwner i) = some fun s =>
      ({ s with blankOwners := s.blankOwners.record ex.display ex.chainFingerprint i }, ()) := rfl
  have hstored := Scheme.solo_acted (S := executions ex) hact h
  obtain ⟨rfl, rfl, -⟩ := Scheme.solo_pure (Scheme.solo_acted (f := Task.done) hrecord hstored)
  exact ⟨rfl, entry_update _ _ _⟩

/-- A probe that blanks nothing. -/
def Probes (ex : DisplayExecutor) (probe : ℕ → Execution Unit) : Prop :=
  ∀ i s calls s' done, (executions ex).Solo ex.Around (probe i) s calls s' done →
    calls.findSome? blankedAt = none ∧ ex.entry s' = ex.entry s

theorem solo_blankPass {mode : BlankMode} {probe : ℕ → Execution Unit}
    {skip : BlankTally → ℕ → String → BlankTally} {fail : BlankTally → BlankTally}
    {rest : List (String × ℕ)} {tally : BlankTally} {out : Option BlankTally}
    (hprobe : ex.Probes probe)
    (h : (executions ex).Solo ex.Around (blankPass mode probe skip fail rest tally) s calls s'
      out) :
    out.isNone = (calls.findSome? blankedAt).isSome ∧
      ex.entry s' = ex.entryAfterBlank calls (ex.entry s) := by
  induction rest generalizing s calls tally with
  | nil =>
    obtain ⟨rfl, rfl, rfl⟩ := Scheme.solo_pure h
    exact ⟨rfl, rfl⟩
  | cons controller rest ih =>
    obtain ⟨name, i⟩ := controller
    obtain ⟨before, after, s₁, done, hcalls, hprobed, hasked⟩ := Scheme.solo_bind h
    subst hcalls
    obtain ⟨hnothing, hentry⟩ := hprobe i s before s₁ done hprobed
    have hwait : (executions ex).act (.isAvailable i) = none := rfl
    obtain ⟨available, s₂, after', haround, hcalls, hanswered⟩ := Scheme.solo_waited hwait hasked
    subst hcalls
    rw [List.findSome?_append, hnothing, entryAfterBlank_append hnothing, ← hentry,
      ← haround.entry]
    show out.isNone = (after'.findSome? blankedAt).isSome ∧
      ex.entry s' = ex.entryAfterBlank after' (ex.entry s₂)
    cases available with
    | false => exact ih hanswered
    | true =>
      have hact : (executions ex).act (.supportedModes i) =
          some fun s => (s, s.supportedModes i) := rfl
      have hmodes := Scheme.solo_acted (S := executions ex) hact hanswered
      split at hmodes
      · have hwait : (executions ex).act (.blank i mode) = none := rfl
        obtain ⟨result, s₃, after, haround, hcalls, hrest⟩ := Scheme.solo_waited hwait hmodes
        subst hcalls
        cases result with
        | ok done =>
          obtain ⟨before, after', s₄, done, hcalls, hblanked, hend⟩ := Scheme.solo_bind hrest
          obtain ⟨rfl, hrecorded⟩ := solo_blanked hblanked
          obtain ⟨rfl, rfl, rfl⟩ := Scheme.solo_pure hend
          subst hcalls
          exact ⟨rfl, hrecorded⟩
        | error e =>
          obtain ⟨hout, hentry⟩ := ih hrest
          exact ⟨hout, haround.entry ▸ hentry⟩
      · exact ih hmodes

theorem solo_blankFailed {mode : BlankMode} {tally : BlankTally} {out : CommandResult}
    (h : (executions ex).Solo ex.Around (blankFailed mode tally) s calls s' out) :
    calls = [] ∧ ex.entry s' = ex.entry s := by
  have hact : (executions ex).act (.storeHealth tally.health) =
      some fun s => ({ s with health := tally.health }, ()) := rfl
  have hstored := Scheme.solo_acted (S := executions ex) (f := fun _ => pure _) hact h
  obtain ⟨rfl, rfl, -⟩ := Scheme.solo_pure hstored
  exact ⟨rfl, rfl⟩

theorem solo_blank {mode : BlankMode} {out : CommandResult}
    (h : (executions ex).Solo ex.Around (ex.blank mode) s calls s' out) :
    ex.entry s' = ex.entryAfterBlank calls (ex.entry s) := by
  have hstill : ex.Probes fun _ => pure () := by
    intro i s calls s' done h
    obtain ⟨rfl, rfl, -⟩ := Scheme.solo_pure h
    exact ⟨rfl, rfl⟩
  have hreprobe : ex.Probes fun i => Task.request (ExecutorCall.reprobe i) := by
    intro i s calls s' done h
    have hwait : (executions ex).act (.reprobe i) = none := rfl
    obtain ⟨reply, s₁, rest, haround, hcalls, hend⟩ :=
      Scheme.solo_waited (f := Task.done) hwait h
    obtain ⟨rfl, rfl, -⟩ := Scheme.solo_pure hend
    subst hcalls
    exact ⟨rfl, haround.entry⟩
  obtain ⟨s₁, hrotated, hmain⟩ := solo_rotate h
  rw [← hrotated]
  obtain ⟨round, after, s₂, left, hcalls, hround, hrest⟩ := Scheme.solo_bind hmain
  subst hcalls
  obtain ⟨hleft, hentry⟩ := solo_blankPass hstill hround
  cases left with
  | none =>
    obtain ⟨rfl, rfl, -⟩ := Scheme.solo_pure hrest
    rw [List.append_nil]
    exact hentry
  | some tally =>
    have hfailed : round.findSome? blankedAt = none := by
      cases hfound : round.findSome? blankedAt with
      | none => rfl
      | some i =>
        rw [hfound] at hleft
        cases hleft
    have hkept : ex.entry s₂ = ex.entry s₁ := by
      rw [hentry, entryAfterBlank, hfailed]
      rfl
    rw [entryAfterBlank_append hfailed, ← hkept]
    dsimp only at hrest
    split at hrest
    · obtain ⟨pass, after', s₃, left, hcalls, hpass, hend⟩ := Scheme.solo_bind hrest
      subst hcalls
      obtain ⟨hleft, hentry⟩ := solo_blankPass hreprobe hpass
      cases left with
      | none =>
        obtain ⟨rfl, rfl, -⟩ := Scheme.solo_pure hend
        rw [List.append_nil]
        exact hentry
      | some tally =>
        obtain ⟨rfl, hkept⟩ := solo_blankFailed hend
        rw [List.append_nil, hkept]
        exact hentry
    · obtain ⟨rfl, hend⟩ := solo_blankFailed hrest
      exact hend

end DisplayExecutor

/-! ## Commands that do not overlap -/

/-- A command on the display, by the executor that is built at the time. -/
structure OwnerCall where
  executor : DisplayExecutor
  command : ExecutorCommand
  calls : List Asked

namespace OwnerCall

/-- The command blanks the panel through the controller. -/
def Blanks (c : OwnerCall) (i : ℕ) : Prop :=
  match c.command with
  | .blank _ => c.calls.findSome? blankedAt = some i
  | _ => False

/-- A blank that fails keeps the owner. A wake keeps it under its own fingerprint, unless the owner
wakes the panel, and when its chain is empty it keeps any. -/
def Spares (c : OwnerCall) (fingerprint : String) (i : ℕ) : Prop :=
  match c.command with
  | .blank _ => c.calls.findSome? blankedAt = none
  | _ => c.executor.chain = [] ∨
      c.executor.chainFingerprint = fingerprint ∧ c.calls.findSome? wokeAt ≠ some i

end OwnerCall

/-- A command blanked the panel through the controller, and all after it spare the owner. -/
def Owns (history : List OwnerCall) (fingerprint : String) (i : ℕ) : Prop :=
  ∃ before c after, history = before ++ c :: after ∧ c.executor.chainFingerprint = fingerprint ∧
    c.Blanks i ∧ ∀ d ∈ after, d.Spares fingerprint i

/-- A command on its own. Other displays have their entries in the registry, and may change them. -/
structure OwnerCall.Runs (c : OwnerCall) (display : DisplayId)
    (registry registry' : BlankOwnerRegistry) : Prop where
  onDisplay : c.executor.display = display
  solo : ∃ s s' out, s.blankOwners.owners display = registry.owners display ∧
    s'.blankOwners = registry' ∧
    (executions c.executor).Solo c.executor.Around (c.executor.program c.command) s c.calls s' out

/-- Commands one after the other, by executors that share the registry. -/
inductive OwnerRun (display : DisplayId) (start : BlankOwnerRegistry) :
    List OwnerCall → BlankOwnerRegistry → Prop
  | nil : OwnerRun display start [] start
  | snoc {history : List OwnerCall} {registry registry' : BlankOwnerRegistry} {c : OwnerCall}
      (h : OwnerRun display start history registry) (hcall : c.Runs display registry registry') :
      OwnerRun display start (history ++ [c]) registry'

theorem owns_snoc {history : List OwnerCall} {c : OwnerCall} {fingerprint : String} {i : ℕ} :
    Owns (history ++ [c]) fingerprint i ↔
      c.executor.chainFingerprint = fingerprint ∧ c.Blanks i ∨
        Owns history fingerprint i ∧ c.Spares fingerprint i := by
  constructor
  · rintro ⟨before, d, after, hsplit, hchain, hblanks, hspares⟩
    rcases List.eq_nil_or_concat after with rfl | ⟨after, e, rfl⟩
    · obtain ⟨-, hlast⟩ := List.append_inj' hsplit rfl
      obtain rfl := List.singleton_inj.mp hlast
      exact .inl ⟨hchain, hblanks⟩
    · rw [List.concat_eq_append] at hsplit hspares
      rw [← List.cons_append, ← List.append_assoc] at hsplit
      obtain ⟨rfl, hlast⟩ := List.append_inj' hsplit rfl
      obtain rfl := List.singleton_inj.mp hlast
      refine .inr ⟨⟨before, d, after, rfl, hchain, hblanks, fun e he => ?_⟩, ?_⟩
      · exact hspares e (List.mem_append_left _ he)
      · exact hspares c (List.mem_append_right _ List.mem_cons_self)
  · rintro (⟨hchain, hblanks⟩ | ⟨⟨before, d, after, rfl, hchain, hblanks, hspares⟩, hc⟩)
    · exact ⟨history, c, [], rfl, hchain, hblanks, fun _ hd => by cases hd⟩
    · refine ⟨before, d, after ++ [c], by simp, hchain, hblanks, fun e he => ?_⟩
      rcases List.mem_append.mp he with he | he
      · exact hspares e he
      · exact List.mem_singleton.mp he ▸ hc

namespace DisplayExecutor
variable {ex : DisplayExecutor} {calls : List Asked} {entry : Option OwnerEntry} {i : ℕ}
  {fingerprint : String}

theorem entryAfterBlank_eq_some :
    ex.entryAfterBlank calls entry = some { fingerprint, controllerIndex := i } ↔
      ex.chainFingerprint = fingerprint ∧ calls.findSome? blankedAt = some i ∨
        entry = some { fingerprint, controllerIndex := i } ∧
          calls.findSome? blankedAt = none := by
  unfold entryAfterBlank
  cases calls.findSome? blankedAt with
  | none => simp
  | some j => simp

theorem holder_eq_some :
    ex.holder entry = some i ↔
      entry = some { fingerprint := ex.chainFingerprint, controllerIndex := i } := by
  unfold holder
  cases entry with
  | none => simp
  | some recorded =>
    obtain ⟨recorded, j⟩ := recorded
    simp [Option.filter_some]

theorem released_eq_some {owner woke : Option ℕ} {kept : OwnerEntry} :
    released fingerprint owner woke entry = some kept ↔
      entry = some kept ∧
        ∀ i, woke = some i → owner = some i → kept ≠ { fingerprint, controllerIndex := i } := by
  cases woke with
  | none => simp [released]
  | some i =>
    by_cases h : owner = some i ∧ entry = some { fingerprint, controllerIndex := i }
    · have hreleased : released fingerprint owner (some i) entry = none := if_pos h
      rw [hreleased, h.2]
      constructor
      · rintro ⟨⟩
      · rintro ⟨hkept, hne⟩
        exact absurd (Option.some.inj hkept).symm (hne i rfl h.1)
    · have hreleased : released fingerprint owner (some i) entry = entry := if_neg h
      rw [hreleased]
      refine ⟨fun hentry => ⟨hentry, fun j hj howner hkept => ?_⟩, And.left⟩
      obtain rfl := Option.some.inj hj
      subst hkept
      exact h ⟨howner, hentry⟩

theorem entryAfterWake_eq_some :
    ex.entryAfterWake calls entry = some { fingerprint, controllerIndex := i } ↔
      entry = some { fingerprint, controllerIndex := i } ∧
        (ex.chain = [] ∨
          ex.chainFingerprint = fingerprint ∧ calls.findSome? wokeAt ≠ some i) := by
  unfold entryAfterWake
  split
  · rename_i hchain
    exact ⟨fun hentry => ⟨hentry, .inl hchain⟩, And.left⟩
  · rename_i hchain
    rw [released_eq_some, Option.filter_eq_some_iff]
    constructor
    · rintro ⟨⟨hentry, hrecorded⟩, hwoke⟩
      have hrecorded := (of_decide_eq_true hrecorded).symm
      subst hrecorded
      exact ⟨hentry, .inr ⟨rfl, fun hi => hwoke i hi (holder_eq_some.mpr hentry) rfl⟩⟩
    · rintro ⟨hentry, hnil | ⟨rfl, hwoke⟩⟩
      · exact absurd hnil hchain
      · refine ⟨⟨hentry, decide_eq_true rfl⟩, fun j hj howner hne => ?_⟩
        obtain ⟨-, rfl⟩ := OwnerEntry.mk.inj hne
        exact hwoke hj

end DisplayExecutor

/-- What a command does to the entry of the display. -/
theorem OwnerCall.Runs.entry {c : OwnerCall} {display : DisplayId}
    {registry registry' : BlankOwnerRegistry} (h : c.Runs display registry registry')
    (fingerprint : String) (i : ℕ) :
    registry'.owners display = some { fingerprint, controllerIndex := i } ↔
      c.executor.chainFingerprint = fingerprint ∧ c.Blanks i ∨
        registry.owners display = some { fingerprint, controllerIndex := i } ∧
          c.Spares fingerprint i := by
  obtain ⟨rfl, s, s', out, hshared, rfl, h⟩ := h
  rw [← hshared]
  obtain ⟨ex, command, calls⟩ := c
  show ex.entry s' = _ ↔ _ ∨ ex.entry s = _ ∧ _
  cases command with
  | blank mode =>
    rw [DisplayExecutor.solo_blank h]
    exact DisplayExecutor.entryAfterBlank_eq_some
  | wakeOnce =>
    rw [(DisplayExecutor.solo_wakeOnce h).entry, DisplayExecutor.entryAfterWake_eq_some]
    exact ⟨.inr, fun h => h.resolve_left And.right⟩
  | wake =>
    rw [(DisplayExecutor.solo_wakeBurst h).entry, DisplayExecutor.entryAfterWake_eq_some]
    exact ⟨.inr, fun h => h.resolve_left And.right⟩

/-- The rounds of a wake. -/
theorem OwnerCall.Runs.rounds {c : OwnerCall} {display : DisplayId}
    {registry registry' : BlankOwnerRegistry} (h : c.Runs display registry registry')
    (hwake : c.command = .wakeOnce ∨ c.command = .wake) :
    ∀ round ∈ regularRounds c.calls,
      RegularRound (registry.owner display c.executor.chainFingerprint).2
        c.executor.chain.length round := by
  obtain ⟨rfl, s, s', out, hshared, rfl, h⟩ := h
  obtain ⟨ex, command, calls⟩ := c
  have hholder : (registry.owner ex.display ex.chainFingerprint).2 = ex.holder (ex.entry s) :=
    (ex.owner_eq registry).2.trans (congrArg ex.holder hshared.symm)
  have hwoke : ex.Woke calls (ex.entry s) (ex.entry s') := by
    rcases hwake with hcommand | hcommand
    · cases hcommand
      exact DisplayExecutor.solo_wakeOnce h
    · cases hcommand
      exact DisplayExecutor.solo_wakeBurst h
  intro round hround
  obtain ⟨out, htried⟩ := hwoke.rounds round hround
  rw [hholder]
  exact htried.regular

theorem owner_eq_some {registry : BlankOwnerRegistry} {display : DisplayId} {fingerprint : String}
    {i : ℕ} :
    (registry.owner display fingerprint).2 = some i ↔
      registry.owners display = some { fingerprint, controllerIndex := i } := by
  unfold BlankOwnerRegistry.owner
  cases registry.owners display with
  | none => simp
  | some entry =>
    obtain ⟨recorded, j⟩ := entry
    by_cases hrecorded : recorded = fingerprint
    · simp [hrecorded]
    · simp [hrecorded]

/-- The registry holds exactly the controller that owns the panel. -/
theorem OwnerRun.owns {display : DisplayId} {history : List OwnerCall}
    {registry : BlankOwnerRegistry} (h : OwnerRun display .new history registry)
    (fingerprint : String) (i : ℕ) :
    registry.owners display = some { fingerprint, controllerIndex := i } ↔
      Owns history fingerprint i := by
  induction h with
  | nil =>
    constructor
    · rintro ⟨⟩
    · rintro ⟨before, c, after, hsplit, -⟩
      cases before <;> cases hsplit
  | snoc h hcall ih =>
    rw [owns_snoc, ← ih]
    exact hcall.entry fingerprint i

/-- Every round of the next wake begins with the owner of the panel. -/
theorem owner_first {display : DisplayId} {history : List OwnerCall} {c : OwnerCall}
    {registry registry' : BlankOwnerRegistry} (h : OwnerRun display .new history registry)
    (hcall : c.Runs display registry registry') :
    (∀ fingerprint i, (registry.owner display fingerprint).2 = some i ↔
        Owns history fingerprint i) ∧
      (c.command = .wakeOnce ∨ c.command = .wake → ∀ round ∈ regularRounds c.calls,
        RegularRound (registry.owner display c.executor.chainFingerprint).2
          c.executor.chain.length round) :=
  ⟨fun fingerprint i => owner_eq_some.trans (h.owns fingerprint i), hcall.rounds⟩

/-! ## A display with two controllers -/

def deskPair : DisplayExecutor where
  display := ⟨"monitor"⟩
  chain := ["kwin-dpms", "ddcci"]
  retry := { wakeRetries := 1, wakeRetryBackoff := 500000000 }
  chainFingerprint := "kwin-dpms,ddcci:1-1"

/-- After an edit of the target of the second controller. -/
def deskPairEdited : DisplayExecutor :=
  { deskPair with chainFingerprint := "kwin-dpms,ddcci:2-1" }

def pairIdle (registry : BlankOwnerRegistry) : ExecutorState where
  supersede := 0
  health := []
  blankOwners := registry
  supportedModes _ := [.powerOff]

def replayed (c : OwnerCall) (registry : BlankOwnerRegistry) : Option BlankOwnerRegistry :=
  ((executions c.executor).replay (c.executor.program c.command) (pairIdle registry) c.calls).map
    fun replay => replay.1.blankOwners

theorem runs_of_replayed {c : OwnerCall} {registry registry' : BlankOwnerRegistry}
    (h : replayed c registry = some registry') :
    c.Runs c.executor.display registry registry' := by
  obtain ⟨⟨s', out⟩, hreplay, rfl⟩ := Option.map_eq_some_iff.mp h
  exact ⟨rfl, pairIdle registry, s', out, rfl, rfl,
    Scheme.solo_of_replay (DisplayExecutor.Around.refl c.executor) hreplay⟩

/-- The panel is blanked through the second controller, as the first is not available. -/
def blankedThroughSecond : OwnerCall where
  executor := deskPair
  command := .blank .powerOff
  calls := [⟨.isAvailable 0, false⟩, ⟨.isAvailable 1, true⟩, ⟨.blank 1 .powerOff, .ok ()⟩]

def wokenThroughSecond : OwnerCall where
  executor := deskPair
  command := .wakeOnce
  calls := [⟨.wake 1, .ok ()⟩]

/-- A wake in which no controller answers, after the edit. -/
def failedAfterEdit : OwnerCall where
  executor := deskPairEdited
  command := .wakeOnce
  calls := [⟨.isAvailable 0, false⟩, ⟨.isAvailable 1, false⟩, ⟨.reprobe 0, ()⟩,
    ⟨.isAvailable 0, false⟩, ⟨.reprobe 1, ()⟩, ⟨.isAvailable 1, false⟩]

/-- A wake after the edit has been taken back. -/
def wokenThroughFirst : OwnerCall where
  executor := deskPair
  command := .wakeOnce
  calls := [⟨.isAvailable 0, true⟩, ⟨.wake 0, .ok ()⟩]

/-- The wake that fails under the other fingerprint removes the entry. Neither controller has woken
the panel when the next wake asks the first controller first. -/
theorem owner_not_first :
    ∃ blanked failed woken : BlankOwnerRegistry,
      blankedThroughSecond.Runs deskPair.display .new blanked ∧
        failedAfterEdit.Runs deskPair.display blanked failed ∧
        wokenThroughFirst.Runs deskPair.display failed woken ∧
        failedAfterEdit.calls.findSome? wokeAt = none ∧
        regularRounds wokenThroughFirst.calls = [[⟨.isAvailable 0, true⟩, ⟨.wake 0, .ok ()⟩]] :=
  ⟨_, _, _, runs_of_replayed rfl, runs_of_replayed rfl, runs_of_replayed rfl, rfl, rfl⟩

/-- Without the edit, the second controller is asked first. -/
theorem owner_first_desk :
    let blanked := BlankOwnerRegistry.new.record deskPair.display deskPair.chainFingerprint 1
    ((blanked.owner deskPair.display deskPair.chainFingerprint).2 = some 1 ↔
        Owns [blankedThroughSecond] deskPair.chainFingerprint 1) ∧
      ∀ round ∈ regularRounds wokenThroughSecond.calls, RegularRound (some 1) 2 round := by
  intro blanked
  have hblank : blankedThroughSecond.Runs deskPair.display .new blanked := runs_of_replayed rfl
  have hwake : wokenThroughSecond.Runs deskPair.display blanked _ := runs_of_replayed rfl
  have h := owner_first (.snoc .nil hblank) hwake
  exact ⟨h.1 deskPair.chainFingerprint 1, h.2 (.inl rfl)⟩

end Dormant
