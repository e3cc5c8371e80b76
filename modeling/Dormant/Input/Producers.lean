import Dormant.Input.Supervisor

/-!
# The producers of a supervisor

At most one producer runs. It is the one that the supervisor turned to last, and the supervisor
turns to the next when it has joined it.
-/

namespace Dormant
set_option autoImplicit false

/-- The producers that may run at a point. -/
def SupervisorPoint.allows : SupervisorPoint → ProducerKind → Prop
  | .startingFiltered, _ | .choosingStock, _ | .withoutStock, _ => False
  | .filtered, kind | .joiningFiltered, kind => kind = .filtered
  | .stock, kind | .afterProbe, kind | .joiningStock _, kind => kind ≠ .filtered
  | .stopped, _ => True

namespace InputSupervisor
variable {s s' : InputSupervisor} {kind : ProducerKind}

def kinds (s : InputSupervisor) : List ProducerKind := s.producers.map Producer.kind

theorem runs_iff : s.runs kind = true ↔ kind ∈ s.kinds := by
  unfold runs kinds
  simp only [List.any_eq_true, beq_iff_eq, List.mem_map]

theorem runsStock_iff : s.runsStock = true ↔ ∃ kind ∈ s.kinds, kind ≠ .filtered := by
  unfold runsStock kinds
  simp only [List.any_eq_true, bne_iff_ne, List.mem_map, exists_exists_and_eq_and]

theorem kinds_cancelKind {p : ProducerKind → Bool}
    (hproducers : s'.producers = (s.cancelKind p).producers) : s'.kinds = s.kinds := by
  unfold kinds
  rw [hproducers]
  unfold cancelKind
  rw [List.map_map]
  refine List.map_congr_left fun producer _ => ?_
  dsimp only [Function.comp]
  split <;> rfl

structure Placed (s : InputSupervisor) : Prop where
  single : s.kinds.length ≤ 1
  allowed : ∀ kind ∈ s.kinds, s.point.allows kind

theorem Placed.sub (h : s.Placed) (hsub : s'.kinds.Sublist s.kinds)
    (hpoint : ∀ kind ∈ s.kinds, s.point.allows kind → s'.point.allows kind) : s'.Placed where
  single := Nat.le_trans hsub.length_le h.single
  allowed kind hkind := hpoint kind (hsub.subset hkind) (h.allowed kind (hsub.subset hkind))

theorem Placed.same (h : s.Placed) (hkinds : s'.kinds = s.kinds)
    (hpoint : ∀ kind ∈ s.kinds, s.point.allows kind → s'.point.allows kind) : s'.Placed := by
  refine h.sub ?_ hpoint
  rw [hkinds]

theorem Placed.cancels (h : s.Placed) (p : ProducerKind → Bool)
    (hproducers : s'.producers = (s.cancelKind p).producers)
    (hpoint : ∀ kind ∈ s.kinds, s.point.allows kind → s'.point.allows kind) : s'.Placed :=
  h.same (kinds_cancelKind hproducers) hpoint

theorem Placed.kinds_eq_nil (h : s.Placed) (hpoint : ∀ kind, ¬ s.point.allows kind) :
    s.kinds = [] :=
  List.eq_nil_iff_forall_not_mem.mpr fun kind hkind => hpoint kind (h.allowed kind hkind)

theorem Placed.of_nil (h : s'.kinds = []) : s'.Placed where
  single := by
    rw [h]
    exact Nat.zero_le 1
  allowed kind hkind := by
    rw [h] at hkind
    cases hkind

/-- A producer that runs is the only one. -/
theorem Placed.eq_of_runs (h : s.Placed) (hruns : s.runs kind = true) {kind' : ProducerKind}
    (hruns' : s.runs kind' = true) : kind' = kind := by
  have hmem := runs_iff.mp hruns
  have hmem' := runs_iff.mp hruns'
  have hsingle := h.single
  generalize s.kinds = kinds at hmem hmem' hsingle
  match kinds, hsingle with
  | [one], _ => exact (List.mem_singleton.mp hmem').trans (List.mem_singleton.mp hmem).symm
  | [], _ => cases hmem

theorem Placed.spawn (h : s.Placed) (kind : ProducerKind) (hpoint : ∀ kind, ¬ s.point.allows kind)
    (hkinds : s'.kinds = s.kinds ++ [kind]) (hallows : s'.point.allows kind) : s'.Placed := by
  rw [h.kinds_eq_nil hpoint, List.nil_append] at hkinds
  constructor
  · rw [hkinds]
    exact Nat.le_refl 1
  · intro kind' hkind'
    rw [hkinds, List.mem_singleton] at hkind'
    rw [hkind']
    exact hallows

theorem placed_new (globalEdgeSeq : ℕ) : (new globalEdgeSeq).Placed := .of_nil rfl

theorem Placed.afterFiltered (h : s.kinds = []) : s.afterFiltered.Placed := by
  unfold InputSupervisor.afterFiltered
  split <;> exact .of_nil h

theorem Placed.afterStock (h : s.kinds = []) : s.afterStock.Placed := by
  unfold InputSupervisor.afterStock
  split <;> exact .of_nil h

variable {rules : List ActivityRule}

theorem Placed.filteredBroken (h : s.Placed) (hpoint : s.point = .filtered) (now : ℕ)
    (room : RuleId → Bool) : (s.filteredBroken rules now room).1.Placed := by
  refine h.cancels (fun kind => kind == .filtered) rfl fun kind _ hallows => ?_
  rw [hpoint] at hallows
  exact hallows

/-- Where no filtered source runs any more, nothing runs. -/
theorem Placed.kinds_of_joined (h : s.Placed)
    (hpoint : ∀ kind, s.point.allows kind → kind = .filtered)
    (hruns : ¬ s.runs .filtered = true) : s.kinds = [] := by
  refine List.eq_nil_iff_forall_not_mem.mpr fun kind hkind => hruns (runs_iff.mpr ?_)
  rw [← hpoint kind (h.allowed kind hkind)]
  exact hkind

theorem Placed.kinds_of_joinedStock (h : s.Placed)
    (hpoint : ∀ kind, s.point.allows kind → kind ≠ .filtered) (hruns : ¬ s.runsStock = true) :
    s.kinds = [] :=
  List.eq_nil_iff_forall_not_mem.mpr fun kind hkind =>
    hruns (runsStock_iff.mpr ⟨kind, hkind, hpoint kind (h.allowed kind hkind)⟩)

theorem Placed.next (h : s.Placed) (e : InputEvent) : (s.next rules e).1.Placed := by
  cases e with
  | cancel =>
    exact h.cancels (fun _ => true) rfl fun _ _ hallows => hallows
  | stopped =>
    dsimp only [InputSupervisor.next]
    split
    · exact h.same rfl fun _ _ _ => trivial
    · exact h
  | started =>
    dsimp only [InputSupervisor.next]
    split
    · rename_i hpoint
      refine h.spawn .filtered (by rw [hpoint]; intro kind hallows; exact hallows)
        List.map_append ?_
      dsimp only
      split
      · trivial
      · rfl
    · exact h
  | startFailed now room =>
    dsimp only [InputSupervisor.next]
    split
    · rename_i hpoint
      refine Placed.afterFiltered (h.kinds_eq_nil ?_)
      rw [hpoint]
      exact fun _ hallows => hallows
    · exact h
  | reports activity =>
    dsimp only [InputSupervisor.next]
    split
    · exact h.same rfl fun _ _ hallows => hallows
    · exact h
  | exits kind =>
    refine h.sub ?_ fun _ _ hallows => hallows
    exact (List.eraseP_sublist).map _
  | changed now room =>
    dsimp only [InputSupervisor.next]
    split
    · rename_i hpoint
      have hseen : ({ s with unseen := false } : InputSupervisor).Placed :=
        h.same rfl fun _ _ hallows => hallows
      split
      · split
        · exact hseen.same rfl fun _ _ hallows => hallows
        · exact hseen.filteredBroken hpoint now room
      · split
        · exact h
        · exact h.filteredBroken hpoint now room
    · exact h
  | tick now room =>
    dsimp only [InputSupervisor.next]
    split
    · exact h.same rfl fun _ _ hallows => hallows
    · exact h
  | stale now room =>
    dsimp only [InputSupervisor.next]
    split
    · rename_i hpoint
      exact h.filteredBroken hpoint now room
    · exact h
  | joined now room =>
    dsimp only [InputSupervisor.next]
    cases hpoint : s.point with
    | filtered =>
      dsimp only
      split
      · exact h
      · exact h.filteredBroken hpoint now room
    | joiningFiltered =>
      dsimp only
      split
      · exact h
      · rename_i hruns
        refine Placed.afterFiltered (h.kinds_of_joined ?_ hruns)
        rw [hpoint]
        exact fun _ hallows => hallows
    | stock =>
      dsimp only
      split
      · exact h
      · rename_i hruns
        refine .of_nil (h.kinds_of_joinedStock ?_ hruns)
        rw [hpoint]
        exact fun _ hallows => hallows
    | joiningStock recovered =>
      dsimp only
      split
      · exact h
      · rename_i hruns
        have hnone : s.kinds = [] := by
          refine h.kinds_of_joinedStock ?_ hruns
          rw [hpoint]
          exact fun _ hallows => hallows
        split
        · exact Placed.afterStock hnone
        · exact .of_nil hnone
    | startingFiltered | choosingStock | withoutStock | afterProbe | stopped => exact h
  | stockFactory source room =>
    dsimp only [InputSupervisor.next]
    split
    · rename_i hpoint
      have hnone : ∀ kind, ¬ s.point.allows kind := by
        rw [hpoint]
        exact fun _ hallows => hallows
      cases source with
      | none => exact .of_nil (h.kinds_eq_nil hnone)
      | some source =>
        refine h.spawn (.stock source) hnone List.map_append ?_
        intro heq
        cases heq
    · exact h
  | slept =>
    dsimp only [InputSupervisor.next]
    cases hpoint : s.point with
    | withoutStock =>
      refine .of_nil (h.kinds_eq_nil ?_)
      rw [hpoint]
      exact fun _ hallows => hallows
    | afterProbe =>
      refine h.cancels (fun kind => kind != .filtered) rfl fun kind _ hallows => ?_
      rw [hpoint] at hallows
      exact hallows
    | startingFiltered | filtered | joiningFiltered | choosingStock | stock | stopped => exact h
    | joiningStock recovered => exact h
  | polls inhibited room =>
    dsimp only [InputSupervisor.next]
    split
    · exact h.same rfl fun _ _ hallows => hallows
    · exact h
  | notifies inhibited room =>
    dsimp only [InputSupervisor.next]
    split
    · exact h.same rfl fun _ _ hallows => hallows
    · exact h
  | probed ok =>
    dsimp only [InputSupervisor.next]
    split
    · rename_i hpoint
      split
      · refine h.cancels (fun kind => kind != .filtered) rfl fun kind _ hallows => ?_
        rw [hpoint] at hallows
        exact hallows
      · refine h.same rfl fun kind _ hallows => ?_
        rw [hpoint] at hallows
        exact hallows
    · exact h

end InputSupervisor

end Dormant
