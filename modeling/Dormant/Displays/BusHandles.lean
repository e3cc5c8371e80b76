import Dormant.Displays.BusOrder
import Dormant.Foundations.Custody

/-!
# The handles of the DDC bus

A handle is in one cache, or in the hands of the one transaction that operates it. A transaction
that fails on the wire drops its handle for good, and no handle leaves its cache later than
`cacheRevalidateAfter` after the scan that found it, however often it went back in between.
-/

namespace Dormant
set_option autoImplicit false

namespace DdcBus

open Custody (From Apart)

inductive Place where
  | cached (cache : ℕ) (ident : String)
  | inUse (n : ℕ)
  deriving DecidableEq

/-- The handle that a place has, with the instant of its scan. -/
def Bus.handleAt (b : Bus) : Place → Option (ℕ × ℕ)
  | .cached cache ident => b.entries cache ident
  | .inUse n => b.workers[n]?.bind Worker.handle?

variable {b b₁ : Bus} {n m : ℕ} {w w' : Worker}

theorem handleAt_put (hw : b.workers[n]? = some w) (hworkers : b₁.workers = b.workers)
    (w' : Worker) (m : ℕ) :
    (b₁.put n w').handleAt (.inUse m) = if m = n then w'.handle? else b.handleAt (.inUse m) := by
  simp only [Bus.handleAt]
  rw [workers_put hw hworkers]
  split <;> rfl

theorem handleAt_inUse (hw : b.workers[n]? = some w) : b.handleAt (.inUse n) = w.handle? := by
  simp [Bus.handleAt, hw]

/-- A worker takes its step, and the caches stay as they are. -/
theorem from_put (hw : b.workers[n]? = some w) (hworkers : b₁.workers = b.workers)
    (hentries : ∀ cache ident x, b₁.entries cache ident = some x → b.entries cache ident = some x)
    (hhandle : ∀ x, w'.handle? = some x → w.handle? = some x) :
    From (b₁.put n w').handleAt b.handleAt := by
  refine Custody.from_of_le fun place x hx => ?_
  cases place with
  | cached cache ident => exact hentries cache ident x hx
  | inUse m =>
    rw [handleAt_put hw hworkers] at hx
    split at hx
    · rename_i hm
      rw [hm, handleAt_inUse hw]
      exact hhandle x hx
    · exact hx

theorem setEntry_entries (b : Bus) (cache : ℕ) (ident : String) (entry : Option (ℕ × ℕ))
    (cache' : ℕ) (ident' : String) : (b.setEntry cache ident entry).entries cache' ident' =
      if cache' = cache ∧ ident' = ident then entry else b.entries cache' ident' := by
  simp only [Bus.setEntry, Function.update_apply]
  by_cases hc : cache' = cache
  · subst hc
    by_cases hi : ident' = ident <;> simp [hi]
  · simp [hc]

/-- The handle goes from its cache to the transaction. -/
theorem from_checkout (hw : b.workers[n]? = some w) (hworkers : b₁.workers = b.workers)
    {cache : ℕ} {ident : String} {x : ℕ × ℕ} (hentry : b.entries cache ident = some x)
    (hentries : b₁.entries = (b.setEntry cache ident none).entries)
    (hhandle : w'.handle? = some x) : From (b₁.put n w').handleAt b.handleAt := by
  refine Custody.from_passed (.inUse n) (.cached cache ident) (fun y hy => ?_) ?_
    fun place hne y hy => ?_
  · rw [handleAt_put hw hworkers, if_pos rfl, hhandle] at hy
    cases hy
    exact hentry
  · have hput : (b₁.put n w').handleAt (.cached cache ident) = b₁.entries cache ident := rfl
    rw [hput, hentries, setEntry_entries, if_pos ⟨rfl, rfl⟩]
  · cases place with
    | cached cache' ident' =>
      have hput : (b₁.put n w').handleAt (.cached cache' ident') = b₁.entries cache' ident' := rfl
      rw [hput, hentries, setEntry_entries] at hy
      split at hy
      · cases hy
      · exact hy
    | inUse m =>
      have hm : m ≠ n := fun hm => hne (by rw [hm])
      rw [handleAt_put hw hworkers, if_neg hm] at hy
      exact hy

/-- The handle goes back. -/
theorem from_return (hw : b.workers[n]? = some w) {cache : ℕ} {ident : String} {x : ℕ × ℕ}
    (hhandle : w.handle? = some x) (hhandle' : w'.handle? = none) :
    From ((b.setEntry cache ident (some x)).put n w').handleAt b.handleAt := by
  refine Custody.from_passed (.cached cache ident) (.inUse n) (fun y hy => ?_) ?_
    fun place hne y hy => ?_
  · have hput : ((b.setEntry cache ident (some x)).put n w').handleAt (.cached cache ident) =
        (b.setEntry cache ident (some x)).entries cache ident := rfl
    rw [hput, setEntry_entries, if_pos ⟨rfl, rfl⟩] at hy
    rw [handleAt_inUse hw, hhandle, hy]
  · have hworkers : (b.setEntry cache ident (some x)).workers = b.workers := rfl
    rw [handleAt_put hw hworkers, if_pos rfl, hhandle']
  · cases place with
    | cached cache' ident' =>
      have hput : ((b.setEntry cache ident (some x)).put n w').handleAt (.cached cache' ident') =
        (b.setEntry cache ident (some x)).entries cache' ident' := rfl
      rw [hput, setEntry_entries] at hy
      split at hy
      · rename_i hsame
        rw [hsame.1, hsame.2] at hne
        exact absurd rfl hne
      · exact hy
    | inUse m =>
      have hworkers : (b.setEntry cache ident (some x)).workers = b.workers := rfl
      rw [handleAt_put hw hworkers] at hy
      split at hy
      · rw [hhandle'] at hy
        cases hy
      · exact hy

theorem from_transact {r : Request} {stage : Stage} (hw : b.workers[n]? = some (.vcp r stage)) :
    From (b.transact n r stage).handleAt b.handleAt := by
  have quiet {b₁ : Bus} {stage' : Stage} (hworkers : b₁.workers = b.workers)
      (hentries : b₁.entries = b.entries) (hhandle : (Worker.vcp r stage').handle? = none) :
      From (b₁.put n (.vcp r stage')).handleAt b.handleAt :=
    from_put hw hworkers (fun _ _ _ hx => hentries ▸ hx) fun x hx => by simp [hhandle] at hx
  cases stage with
  | called =>
    simp only [Bus.transact]
    split
    · exact quiet rfl rfl rfl
    · split <;> exact quiet rfl rfl rfl
  | announced =>
    simp only [Bus.transact]
    split
    · exact quiet rfl rfl rfl
    · exact .refl _
  | checked =>
    simp only [Bus.transact]
    split <;> exact quiet rfl rfl rfl
  | tried =>
    simp only [Bus.transact]
    split <;> exact quiet rfl rfl rfl
  | entered =>
    simp only [Bus.transact]
    split
    · exact quiet rfl rfl rfl
    · exact .refl _
  | gated =>
    cases hentry : b.entries r.cache r.ident with
    | none =>
      simp only [Bus.transact, hentry]
      exact quiet rfl rfl rfl
    | some entry =>
      simp only [Bus.transact, hentry]
      split
      · exact from_checkout hw rfl hentry rfl rfl
      · refine from_put hw rfl (fun cache ident x hx => ?_) fun x hx => by cases hx
        rw [setEntry_entries] at hx
        split at hx
        · cases hx
        · exact hx
  | locked => exact quiet rfl rfl rfl
  | leaving => exact quiet rfl rfl rfl
  | left => exact quiet rfl rfl rfl
  | missed => exact .refl _
  | operating => exact .refl _
  | done => exact .refl _

theorem from_gate {stage stage' : GateStage} (hw : b.workers[n]? = some (.scan stage))
    (hworkers : b₁.workers = b.workers) (hentries : b₁.entries = b.entries) :
    From (b₁.put n (.scan stage')).handleAt b.handleAt :=
  from_put hw hworkers (fun _ _ _ hx => hentries ▸ hx) fun x hx => by cases hx

theorem from_go (b : Bus) (n : ℕ) : From (b.go n).handleAt b.handleAt := by
  rw [Bus.go]
  split
  · rename_i hw
    exact from_transact hw
  · rename_i stage hw
    cases stage with
    | awaiting =>
      simp only [Bus.listDisplays]
      split
      · exact from_gate hw rfl rfl
      · exact .refl _
    | inside => exact from_gate hw rfl rfl
    | done => exact .refl _
  · rename_i cache stage hw
    cases stage with
    | awaiting =>
      simp only [Bus.drainForTeardown]
      split
      · exact from_put hw rfl (fun _ _ _ hx => hx) fun x hx => by cases hx
      · exact .refl _
    | inside =>
      refine from_put hw rfl (fun cache' ident x hx => ?_) fun x hx => by cases hx
      simp only [Function.update_apply] at hx
      split at hx
      · cases hx
      · exact hx
    | done => exact .refl _
  · exact .refl _

theorem from_finish (b : Bus) (n : ℕ) (result : OpResult) :
    From (b.finish n result).handleAt b.handleAt := by
  rw [Bus.finish]
  split
  · rename_i r handle resolvedAt hw
    split
    · exact from_return hw rfl rfl
    · exact from_put hw rfl (fun _ _ _ hx => hx) fun x hx => by cases hx
  · exact .refl _

theorem handle_of_fresh (hw : w.fresh = true) : w.handle? = none := by
  cases w with
  | vcp r stage =>
    cases stage with
    | operating => cases hw
    | _ => rfl
  | _ => rfl

theorem from_spawn (b : Bus) (hw : w.fresh = true) :
    From { b with workers := b.workers ++ [w] }.handleAt b.handleAt := by
  refine Custody.from_of_le fun place x hx => ?_
  cases place with
  | cached cache ident => exact hx
  | inUse m =>
    simp only [Bus.handleAt, List.getElem?_append] at hx ⊢
    split at hx
    · exact hx
    · rw [Option.bind_eq_some_iff] at hx
      obtain ⟨w', hw', hx⟩ := hx
      have hmem := List.mem_of_getElem? hw'
      rw [List.mem_singleton] at hmem
      rw [hmem, handle_of_fresh hw] at hx
      cases hx

theorem from_resolve (b : Bus) (n : ℕ) (found : Option String) :
    (From (b.resolve n found).handleAt b.handleAt ∧ (b.resolve n found).minted = b.minted) ∨
    ∃ place, From (b.resolve n found).handleAt
        (Function.update b.handleAt place (some (b.minted, b.now))) ∧
      (b.resolve n found).minted = b.minted + 1 := by
  rw [Bus.resolve]
  split
  · rename_i r hw
    cases found with
    | none =>
      refine .inl ⟨from_put hw rfl (fun _ _ _ hx => hx) fun x hx => ?_, rfl⟩
      cases hx
    | some canonical =>
      refine .inr ⟨.cached r.cache canonical, ?_⟩
      have hput {b₁ : Bus} (hb : b₁ = b.setEntry r.cache canonical (some (b.minted, b.now))) :
          From b₁.handleAt
            (Function.update b.handleAt (.cached r.cache canonical) (some (b.minted, b.now))) := by
        subst hb
        refine Custody.from_of_le fun place x hx => ?_
        rw [Function.update_apply]
        cases place with
        | cached cache ident =>
          simp only [Bus.handleAt, setEntry_entries] at hx
          simpa [Bus.handleAt] using hx
        | inUse m => exact hx
      dsimp only
      split
      · rename_i handle resolvedAt hentry
        refine ⟨.trans ?_ (hput rfl), rfl⟩
        exact from_checkout (b := b.setEntry r.cache canonical (some (b.minted, b.now))) hw rfl
          hentry rfl rfl
      · refine ⟨.trans ?_ (hput rfl), rfl⟩
        exact from_put (b := b.setEntry r.cache canonical (some (b.minted, b.now))) hw rfl
          (fun _ _ _ hx => hx) fun x hx => by cases hx
  · exact .inl ⟨.refl _, rfl⟩

theorem minted_go (b : Bus) (n : ℕ) : (b.go n).minted = b.minted ∧ (b.go n).now = b.now := by
  rw [Bus.go]
  split
  · rename_i r stage hw
    cases stage with
    | called =>
      simp only [Bus.transact]
      split
      · exact ⟨rfl, rfl⟩
      · split <;> exact ⟨rfl, rfl⟩
    | gated =>
      simp only [Bus.transact]
      split
      · split <;> exact ⟨rfl, rfl⟩
      · exact ⟨rfl, rfl⟩
    | announced | checked | tried | entered =>
      simp only [Bus.transact]
      split <;> exact ⟨rfl, rfl⟩
    | _ => exact ⟨rfl, rfl⟩
  · rename_i stage hw
    cases stage with
    | awaiting =>
      simp only [Bus.listDisplays]
      split <;> exact ⟨rfl, rfl⟩
    | _ => exact ⟨rfl, rfl⟩
  · rename_i cache stage hw
    cases stage with
    | awaiting =>
      simp only [Bus.drainForTeardown]
      split <;> exact ⟨rfl, rfl⟩
    | _ => exact ⟨rfl, rfl⟩
  · exact ⟨rfl, rfl⟩

theorem minted_finish (b : Bus) (n : ℕ) (result : OpResult) :
    (b.finish n result).minted = b.minted := by
  rw [Bus.finish]
  split
  · split <;> rfl
  · rfl

/-- A move mints one handle at most, and makes no other. -/
theorem from_next (b : Bus) (move : Move) :
    (From (b.next move).handleAt b.handleAt ∧ (b.next move).minted = b.minted) ∨
    ∃ place, From (b.next move).handleAt
        (Function.update b.handleAt place (some (b.minted, b.now))) ∧
      (b.next move).minted = b.minted + 1 := by
  cases move with
  | tick elapsed =>
    refine .inl ⟨Custody.from_of_le fun place x hx => ?_, rfl⟩
    cases place <;> exact hx
  | call r => exact .inl ⟨from_spawn b rfl, rfl⟩
  | scan => exact .inl ⟨from_spawn b rfl, rfl⟩
  | teardown cache => exact .inl ⟨from_spawn b rfl, rfl⟩
  | go n => exact .inl ⟨from_go b n, (minted_go b n).1⟩
  | resolve n found => exact from_resolve b n found
  | finish n result => exact .inl ⟨from_finish b n result, minted_finish b n result⟩

theorem now_next (b : Bus) (move : Move) : b.now ≤ (b.next move).now := by
  cases move with
  | tick elapsed => exact Nat.le_add_right _ _
  | go n => exact (minted_go b n).2.ge
  | resolve n found =>
    simp only [Bus.next, Bus.resolve]
    repeat (first | exact le_refl _ | split)
  | finish n result =>
    simp only [Bus.next, Bus.finish]
    repeat (first | exact le_refl _ | split)
  | _ => exact le_refl _

/-- Every handle was minted, no later than now, and is in one place. -/
structure Handled (b : Bus) : Prop where
  minted : ∀ place x, b.handleAt place = some x → x.1 < b.minted ∧ x.2 ≤ b.now
  apart : Apart Prod.fst b.handleAt

theorem handled_next (h : Handled b) (move : Move) : Handled (b.next move) := by
  have hnow := now_next b move
  obtain ⟨hfrom, hminted⟩ | ⟨place, hfrom, hminted⟩ := from_next b move
  · refine ⟨hfrom.all fun p x hx => ?_, hfrom.apart _ h.apart⟩
    have hx := h.minted p x hx
    omega
  · refine ⟨hfrom.all fun p x hx => ?_, hfrom.apart _ (h.apart.mint _ place _ fun q y hy => ?_)⟩
    · rw [Function.update_apply] at hx
      split at hx
      · cases hx
        exact ⟨by omega, hnow⟩
      · have hx := h.minted p x hx
        omega
    · have := h.minted q y hy
      exact (show y.1 < b.minted by omega).ne

theorem handled_run (now : ℕ) (moves : List Move) : Handled (ddcBus.run (.idle now) moves) := by
  have hstep (b : Bus) (move : Move) (h : Handled b) : Handled (ddcBus.next b move).1 :=
    handled_next h move
  refine Runs.System.invariant hstep ⟨fun place x hx => ?_, fun p q x y hp => ?_⟩ moves
  · cases place <;> cases hx
  · cases p <;> cases hp

/-- A handle that was minted is, as long as it is kept, the one that it was. -/
theorem kept_run (h : Handled b) {moves : List Move} {place : Place} {x : ℕ × ℕ}
    (hminted : x.1 < b.minted) (hx : (ddcBus.run b moves).handleAt place = some x) :
    ∃ place', b.handleAt place' = some x := by
  induction moves generalizing b with
  | nil => exact ⟨place, hx⟩
  | cons move moves ih =>
    have hfrom := from_next b move
    have hle : b.minted ≤ (b.next move).minted := by
      obtain ⟨-, hm⟩ | ⟨_, -, hm⟩ := hfrom <;> omega
    obtain ⟨p, hp⟩ := ih (handled_next h move) (hminted.trans_le hle) hx
    obtain ⟨⟨σ, hσ⟩, -⟩ | ⟨q, ⟨σ, hσ⟩, -⟩ := hfrom
    · exact ⟨_, hσ p x hp⟩
    · have hq := hσ p x hp
      rw [Function.update_apply] at hq
      split at hq
      · cases hq
        exact absurd hminted (lt_irrefl _)
      · exact ⟨_, hq⟩

/-- The handle is in no cache, and nobody operates it. -/
def Bus.lacks (b : Bus) (handle : ℕ) : Prop :=
  ∀ place x, b.handleAt place = some x → x.1 ≠ handle

theorem lacks_run (h : Handled b) {handle : ℕ} (hminted : handle < b.minted)
    (hlacks : b.lacks handle) (moves : List Move) : (ddcBus.run b moves).lacks handle := by
  intro place x hx heq
  subst heq
  obtain ⟨place', hx'⟩ := kept_run h hminted hx
  exact hlacks place' x hx' rfl

theorem lacks_finish (h : Handled b) {r : Request} {handle resolvedAt : ℕ} {result : OpResult}
    (hw : b.workers[n]? = some (.vcp r (.operating handle resolvedAt)))
    (hdrop : result.keeps = false) : (b.finish n result).lacks handle := by
  have huse : b.handleAt (.inUse n) = some (handle, resolvedAt) := handleAt_inUse hw
  have hfinish : b.finish n result = b.put n (.vcp r .leaving) := by
    simp only [Bus.finish, hw, hdrop]
    rfl
  intro place x hx heq
  rw [hfinish] at hx
  cases place with
  | cached cache ident =>
    have hcached : b.handleAt (.cached cache ident) = some x := hx
    have hplace := h.apart _ _ _ _ hcached huse heq
    cases hplace
  | inUse m =>
    rw [handleAt_put hw rfl] at hx
    split at hx
    · cases hx
    · rename_i hm
      have hplace := h.apart _ _ _ _ hx huse heq
      cases hplace
      exact hm rfl

/-- A handle on which an operation failed on the wire, or panicked, is never used again. -/
theorem failed_handle_never_returns (now : ℕ) (before after : List Move) (n : ℕ) (r : Request)
    (handle resolvedAt : ℕ) (result : OpResult)
    (hw : (ddcBus.run (.idle now) before).workers[n]? =
      some (.vcp r (.operating handle resolvedAt)))
    (hdrop : result.keeps = false) :
    (ddcBus.run (.idle now) (before ++ .finish n result :: after)).lacks handle := by
  have h := handled_run now before
  have huse : (ddcBus.run (.idle now) before).handleAt (.inUse n) = some (handle, resolvedAt) :=
    handleAt_inUse hw
  rw [Runs.System.run_append]
  refine lacks_run (handled_next h (.finish n result)) ?_ (lacks_finish h hw hdrop) after
  exact (h.minted _ _ huse).1.trans_eq (minted_finish _ n result).symm

theorem failed_handle_never_returns_panicked :
    (ddcBus.run (.idle 0) ([.call ⟨"ddc:aoc:1", 0, "AOC", .command⟩, .go 0, .go 0, .go 0, .go 0,
        .go 0, .resolve 0 (some "AOC")])).workers[0]? =
      some (.vcp ⟨"ddc:aoc:1", 0, "AOC", .command⟩ (.operating 0 0)) ∧
    (ddcBus.run (.idle 0) ([.call ⟨"ddc:aoc:1", 0, "AOC", .command⟩, .go 0, .go 0, .go 0, .go 0,
        .go 0, .resolve 0 (some "AOC")] ++
      .finish 0 .panicked :: [.call ⟨"ddc:aoc:1", 0, "AOC", .command⟩, .go 0, .go 0])).lacks 0 :=
  ⟨rfl, failed_handle_never_returns 0 _ _ 0 _ 0 0 .panicked rfl rfl⟩

/-! ## The age of a handle -/

/-- A transaction that misses finds nothing in the cache. -/
def Vacant (b : Bus) : Prop :=
  ∀ (n : ℕ) (r : Request), b.workers[n]? = some (.vcp r .missed) → b.entries r.cache r.ident = none

theorem entries_go (hw : b.workers[n]? = some w) (hgate : w.holdsGate = false) :
    (b.go n).entries = b.entries := by
  rw [Bus.go, hw]
  cases w with
  | vcp r stage =>
    cases stage with
    | called =>
      simp only [Bus.transact]
      split
      · rfl
      · split <;> rfl
    | gated => cases hgate
    | announced | checked | tried | entered =>
      simp only [Bus.transact]
      split <;> rfl
    | _ => rfl
  | scan stage =>
    cases stage with
    | awaiting =>
      simp only [Bus.listDisplays]
      split <;> rfl
    | _ => rfl
  | teardown cache stage =>
    cases stage with
    | awaiting =>
      simp only [Bus.drainForTeardown]
      split <;> rfl
    | inside => cases hgate
    | done => rfl

theorem missed_of_after {r : Request} (hafter : b.after w = .vcp r .missed) :
    w = .vcp r .gated ∨ w = .vcp r .missed := by
  cases w with
  | vcp r' stage =>
    simp only [Bus.after, Worker.vcp.injEq] at hafter
    obtain ⟨rfl, hstage⟩ := hafter
    cases stage with
    | gated => exact .inl rfl
    | missed => exact .inr rfl
    | called =>
      simp only [Bus.advance] at hstage
      split at hstage
      · cases hstage
      · split at hstage <;> cases hstage
    | announced | checked | tried | entered =>
      simp only [Bus.advance] at hstage
      split at hstage <;> cases hstage
    | _ => cases hstage
  | scan => cases hafter
  | teardown => cases hafter

theorem vacant_gated {r : Request} (hw : b.workers[n]? = some (.vcp r .gated)) :
    (b.go n).entries r.cache r.ident = none := by
  simp only [Bus.go, hw]
  cases hentry : b.entries r.cache r.ident with
  | none =>
    simp only [Bus.transact, hentry]
    exact hentry
  | some entry =>
    simp only [Bus.transact, hentry]
    split
    · exact (setEntry_entries b _ _ _ _ _).trans (if_pos ⟨rfl, rfl⟩)
    · exact (setEntry_entries b _ _ _ _ _).trans (if_pos ⟨rfl, rfl⟩)

theorem vacant_go (hlocks : Locks b) (h : Vacant b) (n : ℕ) : Vacant (b.go n) := by
  intro m r hm
  cases hw : b.workers[n]? with
  | none =>
    rw [show b.go n = b by simp only [Bus.go, hw]] at hm ⊢
    exact h m r hm
  | some w =>
    have hset := hm
    rw [go_workers hw, List.getElem?_set] at hset
    by_cases hmn : n = m
    · subst hmn
      simp only [(List.getElem?_eq_some_iff.mp hw).1, if_true] at hset
      obtain rfl | rfl := missed_of_after (Option.some.inj hset)
      · exact vacant_gated hw
      · rw [show b.go n = b by simp only [Bus.go, hw, Bus.transact]]
        exact h n r hw
    · rw [if_neg hmn] at hset
      have hgate : w.holdsGate = false := by
        rw [Bool.eq_false_iff]
        exact fun hgate => hmn (hlocks.gate_unique hw hset hgate rfl)
      rw [entries_go hw hgate]
      exact h m r hset

theorem vacant_put (hlocks : Locks b) (hw : b.workers[n]? = some w) (hgate : w.holdsGate = true)
    (hworkers : b₁.workers = b.workers) (hmissed : ∀ r, w' ≠ .vcp r .missed) :
    Vacant (b₁.put n w') := by
  intro m r hm
  rw [workers_put hw hworkers] at hm
  split at hm
  · exact absurd (Option.some.inj hm) (hmissed r)
  · rename_i hmn
    exact absurd (hlocks.gate_unique hm hw rfl hgate) hmn

theorem vacant_spawn (h : Vacant b) (hw : w.fresh = true) :
    Vacant { b with workers := b.workers ++ [w] } := by
  intro m r hm
  rw [List.getElem?_append] at hm
  split at hm
  · exact h m r hm
  · have hmem := List.mem_of_getElem? hm
    rw [List.mem_singleton] at hmem
    subst hmem
    cases hw

theorem vacant_next (hlocks : Locks b) (h : Vacant b) (move : Move) : Vacant (b.next move) := by
  cases move with
  | tick elapsed => exact h
  | call r => exact vacant_spawn h rfl
  | scan => exact vacant_spawn h rfl
  | teardown cache => exact vacant_spawn h rfl
  | go n => exact vacant_go hlocks h n
  | resolve n found =>
    simp only [Bus.next, Bus.resolve]
    split
    · rename_i r hw
      cases found with
      | none => exact vacant_put hlocks hw rfl rfl fun _ hne => by cases hne
      | some canonical =>
        dsimp only
        split <;> exact vacant_put hlocks hw rfl rfl fun _ hne => by cases hne
    · exact h
  | finish n result =>
    simp only [Bus.next, Bus.finish]
    split
    · rename_i r handle resolvedAt hw
      split <;> exact vacant_put hlocks hw rfl rfl fun _ hne => by cases hne
    · exact h

theorem vacant_run (now : ℕ) (moves : List Move) : Vacant (ddcBus.run (.idle now) moves) := by
  have hstep (b : Bus) (move : Move) (h : Locks b ∧ Vacant b) :
      Locks (ddcBus.next b move).1 ∧ Vacant (ddcBus.next b move).1 :=
    ⟨locks_next h.1 move, vacant_next h.1 h.2 move⟩
  refine (Runs.System.invariant hstep ⟨locks_idle now, fun n r hw => ?_⟩ moves).2
  simp [Bus.idle] at hw

/-- What a transaction takes into its hands is young. -/
theorem young_of_advance (h : Vacant b) (hw : b.workers[n]? = some w) (hstep : Advance b w w')
    {x : ℕ × ℕ} (hbefore : w.handle? = none) (hafter : w'.handle? = some x) :
    b.now - x.2 < cacheRevalidateAfter := by
  cases hstep with
  | go w =>
    cases w with
    | vcp r stage =>
      cases stage with
      | gated =>
        simp only [Bus.after, Bus.advance] at hafter
        split at hafter
        · split at hafter
          · rename_i hyoung
            cases hafter
            exact hyoung
          · cases hafter
        · cases hafter
      | called =>
        simp only [Bus.after, Bus.advance] at hafter
        repeat (first | cases hafter | split at hafter)
      | announced | checked | tried | entered =>
        simp only [Bus.after, Bus.advance] at hafter
        split at hafter <;> cases hafter
      | operating => cases hbefore
      | _ => cases hafter
    | scan => cases hafter
    | teardown => cases hafter
  | resolved r handle resolvedAt hfound =>
    cases hafter
    obtain rfl | hold := hfound
    · rw [Nat.sub_self]
      exact Nat.mul_pos (by omega) (by omega)
    · rw [h n r hw] at hold
      cases hold
  | unresolved => cases hafter
  | finished => cases hafter

theorem young_next (h : Vacant b) (move : Move) {x : ℕ × ℕ}
    (hbefore : b.handleAt (.inUse n) = none)
    (hafter : (b.next move).handleAt (.inUse n) = some x) :
    b.now - x.2 < cacheRevalidateAfter := by
  simp only [Bus.handleAt, Option.bind_eq_none_iff, Option.bind_eq_some_iff] at hbefore hafter
  obtain ⟨w, hw, hx⟩ := hafter
  obtain heq | ⟨w₁, hw₁, heq⟩ | ⟨m, w₁, w₂, hw₁, hstep, heq⟩ := next_workers b move
  · rw [heq] at hw
    rw [hbefore w hw] at hx
    cases hx
  · rw [heq, List.getElem?_append] at hw
    split at hw
    · rw [hbefore w hw] at hx
      cases hx
    · have hmem := List.mem_of_getElem? hw
      rw [List.mem_singleton] at hmem
      subst hmem
      rw [handle_of_fresh hw₁] at hx
      cases hx
  · rw [heq, List.getElem?_set] at hw
    by_cases hm : m = n
    · subst hm
      simp only [(List.getElem?_eq_some_iff.mp hw₁).1, if_true] at hw
      cases hw
      exact young_of_advance h hw₁ hstep (hbefore w₁ hw₁) hx
    · rw [if_neg hm] at hw
      rw [hbefore w hw] at hx
      cases hx

/-- However often a handle goes back to its cache, it does not come out of it later than
`cacheRevalidateAfter` after its scan. -/
theorem handle_has_deadline (now : ℕ) (before between : List Move) (move : Move) (place : Place)
    (n handle resolvedAt since : ℕ)
    (hknown : (ddcBus.run (.idle now) before).handleAt place = some (handle, resolvedAt))
    (hbefore : (ddcBus.run (.idle now) (before ++ between)).handleAt (.inUse n) = none)
    (hafter : (ddcBus.run (.idle now) (before ++ between ++ [move])).handleAt (.inUse n) =
      some (handle, since)) :
    (ddcBus.run (.idle now) (before ++ between)).now < resolvedAt + cacheRevalidateAfter := by
  have h := handled_run now before
  have hx := hafter
  rw [List.append_assoc, Runs.System.run_append] at hx
  have hminted : (handle, since).1 < (ddcBus.run (.idle now) before).minted :=
    (h.minted _ _ hknown).1
  obtain ⟨place', hx'⟩ := kept_run h hminted hx
  have hplace := h.apart _ _ _ _ hx' hknown rfl
  rw [hplace, hknown] at hx'
  cases hx'
  rw [Runs.System.run_append] at hafter
  have hyoung := young_next (vacant_run now (before ++ between)) move hbefore hafter
  dsimp only at hyoung
  omega

theorem handle_has_deadline_reused :
    (ddcBus.run (.idle 0) ([.call ⟨"ddc:aoc:1", 0, "AOC", .command⟩, .go 0, .go 0, .go 0, .go 0,
        .go 0, .resolve 0 (some "AOC")])).handleAt (.inUse 0) = some (0, 0) ∧
    (ddcBus.run (.idle 0) ([.call ⟨"ddc:aoc:1", 0, "AOC", .command⟩, .go 0, .go 0, .go 0, .go 0,
        .go 0, .resolve 0 (some "AOC")] ++ [.finish 0 .value, .go 0, .go 0, .tick 7,
        .call ⟨"ddc:aoc:1", 0, "AOC", .sampler⟩, .go 1, .go 1, .go 1, .go 1])).now <
      0 + cacheRevalidateAfter :=
  ⟨rfl, handle_has_deadline 0 _ _ (.go 1) (.inUse 0) 1 0 0 0 rfl rfl rfl⟩

end DdcBus
end Dormant
