import Mathlib.Data.List.Chain
import Dormant.Input.Supervisor

/-!
# Edges of filtered input

The published count of edges grows by what the sources report, less what is still unread when the
run of a source ends.
-/

namespace Dormant
set_option autoImplicit false

namespace InputSupervisor

/-- The edges in the source's channel that are not counted yet. -/
def unread (s : InputSupervisor) : ℕ :=
  if s.point = .filtered then s.watch.edgeSeq - s.sourceEdgeSeq else 0

/-- The edges that the source reports in a step. -/
def newEdges (s : InputSupervisor) : InputEvent → ℕ
  | .reports activity => if s.runs .filtered then activity.edgeSeq - s.watch.edgeSeq else 0
  | _ => 0

/-- The edges that no one reads any more: those that are unread when the supervisor turns away from
a source, and those that the source reports afterwards. -/
def lostEdges (s : InputSupervisor) (e : InputEvent) (s' : InputSupervisor) : ℕ :=
  if s.point = .filtered then if s'.point = .filtered then 0 else s.unread else s.newEdges e

/-- The counter of a source does not decrease. -/
def CountsUp (s : InputSupervisor) : InputEvent → Prop
  | .reports activity => s.runs .filtered = true → s.watch.edgeSeq ≤ activity.edgeSeq
  | _ => True

instance (s : InputSupervisor) : DecidablePred s.CountsUp
  | .reports activity =>
    inferInstanceAs (Decidable (s.runs .filtered = true → s.watch.edgeSeq ≤ activity.edgeSeq))
  | .cancel | .stopped | .started | .startFailed _ _ | .exits _ | .changed _ _ | .tick _ _
  | .stale _ _ | .joined _ _ | .stockFactory _ _ | .slept | .polls _ _ | .notifies _ _
  | .probed _ => isTrue trivial

/-- Not more is counted than the source reported. -/
def CountOk (s : InputSupervisor) : Prop :=
  s.point = .filtered → s.sourceEdgeSeq ≤ s.watch.edgeSeq

end InputSupervisor

/-! ## What a step does to the count -/

/-- A step counts nothing, or everything that is unread. -/
inductive EdgeStep (s : InputSupervisor) (e : InputEvent) (s' : InputSupervisor) :
    List FilteredActivity → Prop
  | silent (hok : s'.CountOk) (hglobal : s'.globalEdgeSeq = s.globalEdgeSeq)
      (hunread : s'.unread + s.lostEdges e s' = s.unread + s.newEdges e) : EdgeStep s e s' []
  | unavailable (now : ℕ) (hok : s'.CountOk) (hglobal : s'.globalEdgeSeq = s.globalEdgeSeq)
      (hnone : s'.unread = 0) (hlost : s.lostEdges e s' = s.unread + s.newEdges e) :
      EdgeStep s e s' [{ FilteredActivity.unavailable now with edgeSeq := s.globalEdgeSeq }]
  | published (hok : s'.CountOk) (havailable : s.watch.available = true)
      (hglobal : s'.globalEdgeSeq = saturatingAddU64 s.globalEdgeSeq s.unread)
      (hunread : s'.unread = 0) (hlost : s.lostEdges e s' = 0) (hnew : s.newEdges e = 0) :
      EdgeStep s e s' [{ s.watch with edgeSeq := s'.globalEdgeSeq }]

section
variable {s s' : InputSupervisor} {e : InputEvent}

/-- The step does not touch the channel and stays in the loop, or outside of it. -/
theorem unread_same (hnew : s.newEdges e = 0) (hpoint : s'.point = s.point)
    (hwatch : s'.watch = s.watch) (hsource : s'.sourceEdgeSeq = s.sourceEdgeSeq) :
    s'.unread + s.lostEdges e s' = s.unread + s.newEdges e := by
  unfold InputSupervisor.lostEdges InputSupervisor.unread
  rw [hnew, hpoint, hwatch, hsource]
  by_cases hfiltered : s.point = .filtered
  · simp only [hfiltered, if_true]
  · simp only [hfiltered, if_false]

/-- The step turns away from the source. -/
theorem lost_left (hnew : s.newEdges e = 0) (hpoint : s'.point ≠ .filtered) :
    s.lostEdges e s' = s.unread + s.newEdges e := by
  unfold InputSupervisor.lostEdges
  rw [hnew, if_neg hpoint]
  by_cases hfiltered : s.point = .filtered
  · rw [if_pos hfiltered]
    rfl
  · rw [if_neg hfiltered]
    exact (if_neg hfiltered).symm

theorem edgeStep_left (hnew : s.newEdges e = 0) (hpoint : s'.point ≠ .filtered)
    (hglobal : s'.globalEdgeSeq = s.globalEdgeSeq) : EdgeStep s e s' [] := by
  have hnone : s'.unread = 0 := if_neg hpoint
  refine .silent (fun h => absurd h hpoint) hglobal ?_
  rw [hnone, Nat.zero_add]
  exact lost_left hnew hpoint

theorem edgeStep_unavailable (hnew : s.newEdges e = 0) (hpoint : s'.point ≠ .filtered)
    (hglobal : s'.globalEdgeSeq = s.globalEdgeSeq) (now : ℕ) :
    EdgeStep s e s' [{ FilteredActivity.unavailable now with edgeSeq := s.globalEdgeSeq }] :=
  .unavailable now (fun h => absurd h hpoint) hglobal (if_neg hpoint) (lost_left hnew hpoint)

variable {rules : List ActivityRule}

theorem edgeStep_publishFiltered (hpoint : s.point = .filtered) (hnew : s.newEdges e = 0)
    (havailable : s.watch.available = true) (now : ℕ) (room : RuleId → Bool) (unseen : Bool) :
    EdgeStep s e (({ s with unseen := unseen } : InputSupervisor).publishFiltered rules now room).1
      (({ s with unseen := unseen } : InputSupervisor).publishFiltered rules now room).2 := by
  have hunread : s.unread = s.watch.edgeSeq - s.sourceEdgeSeq := if_pos hpoint
  refine .published (fun _ => Nat.le_refl _) havailable ?_ ?_ ?_ hnew
  · rw [hunread]
    rfl
  · refine (if_pos hpoint).trans ?_
    exact Nat.sub_self _
  · unfold InputSupervisor.lostEdges
    rw [if_pos hpoint]
    exact if_pos hpoint

theorem edgeStep_filteredBroken (hnew : s.newEdges e = 0) (now : ℕ) (room : RuleId → Bool)
    (unseen : Bool) :
    EdgeStep s e (({ s with unseen := unseen } : InputSupervisor).filteredBroken rules now room).1
      (({ s with unseen := unseen } : InputSupervisor).filteredBroken rules now room).2 := by
  have hpoint : (({ s with unseen := unseen } : InputSupervisor).filteredBroken rules now
      room).1.point ≠ .filtered := by
    intro h
    cases h
  exact edgeStep_unavailable hnew hpoint rfl now

theorem edgeStep_same (hok : s.CountOk) (hnew : s.newEdges e = 0) : EdgeStep s e s [] :=
  .silent hok rfl (unread_same hnew rfl rfl rfl)

theorem afterFiltered_point (s : InputSupervisor) : s.afterFiltered.point ≠ .filtered := by
  unfold InputSupervisor.afterFiltered
  split <;> (intro h; cases h)

theorem afterStock_point (s : InputSupervisor) : s.afterStock.point ≠ .filtered := by
  unfold InputSupervisor.afterStock
  split <;> (intro h; cases h)

theorem afterFiltered_global (s : InputSupervisor) :
    s.afterFiltered.globalEdgeSeq = s.globalEdgeSeq := by
  unfold InputSupervisor.afterFiltered
  split <;> rfl

theorem afterStock_global (s : InputSupervisor) :
    s.afterStock.globalEdgeSeq = s.globalEdgeSeq := by
  unfold InputSupervisor.afterStock
  split <;> rfl

theorem edgeStep_next (s : InputSupervisor) (e : InputEvent) (hok : s.CountOk)
    (hcounts : s.CountsUp e) : EdgeStep s e (s.next rules e).1 (s.next rules e).2 := by
  cases e with
  | cancel => exact .silent hok rfl (unread_same rfl rfl rfl rfl)
  | stopped =>
    dsimp only [InputSupervisor.next]
    split
    · exact edgeStep_left rfl (by intro h; cases h) rfl
    · exact edgeStep_same hok rfl
  | started =>
    dsimp only [InputSupervisor.next]
    split
    · rename_i hstart
      have hunread : s.unread = 0 := if_neg (by rw [hstart]; intro h; cases h)
      have hlost (s' : InputSupervisor) : s.lostEdges .started s' = 0 :=
        if_neg (by rw [hstart]; intro h; cases h)
      refine .silent (fun _ => Nat.le_refl 0) rfl ?_
      rw [hunread, hlost]
      unfold InputSupervisor.unread
      split <;> rfl
    · exact edgeStep_same hok rfl
  | startFailed now room =>
    dsimp only [InputSupervisor.next]
    split
    · have hglobal : (s.publishUnavailable rules now room).1.afterFiltered.globalEdgeSeq =
          s.globalEdgeSeq := afterFiltered_global _
      exact edgeStep_unavailable rfl (afterFiltered_point _) hglobal now
    · exact edgeStep_same hok rfl
  | reports activity =>
    dsimp only [InputSupervisor.next]
    by_cases hruns : s.runs .filtered = true
    · have hle := hcounts hruns
      have hnew : s.newEdges (.reports activity) = activity.edgeSeq - s.watch.edgeSeq :=
        if_pos hruns
      rw [if_pos hruns]
      refine .silent (fun hpoint => Nat.le_trans (hok hpoint) hle) rfl ?_
      unfold InputSupervisor.lostEdges InputSupervisor.unread
      dsimp only
      rw [hnew]
      by_cases hpoint : s.point = .filtered
      · have hread := hok hpoint
        simp only [hpoint, if_true]
        omega
      · simp only [hpoint, if_false]
    · have hnew : s.newEdges (.reports activity) = 0 := if_neg hruns
      rw [if_neg hruns]
      exact edgeStep_same hok hnew
  | exits kind => exact .silent hok rfl (unread_same rfl rfl rfl rfl)
  | changed now room =>
    dsimp only [InputSupervisor.next]
    by_cases hpoint : s.point = .filtered
    · rw [if_pos hpoint]
      by_cases hunseen : s.unseen = true
      · rw [if_pos hunseen]
        by_cases havailable : s.watch.available = true
        · rw [if_pos havailable]
          exact edgeStep_publishFiltered hpoint rfl havailable now room false
        · rw [if_neg havailable]
          exact edgeStep_filteredBroken rfl now room false
      · rw [if_neg hunseen]
        split
        · exact edgeStep_same hok rfl
        · exact edgeStep_filteredBroken rfl now room s.unseen
    · rw [if_neg hpoint]
      exact edgeStep_same hok rfl
  | tick now room =>
    dsimp only [InputSupervisor.next]
    split
    · rename_i htick
      exact edgeStep_publishFiltered htick.1 rfl htick.2 now room s.unseen
    · exact edgeStep_same hok rfl
  | stale now room =>
    dsimp only [InputSupervisor.next]
    split
    · exact edgeStep_filteredBroken rfl now room s.unseen
    · exact edgeStep_same hok rfl
  | joined now room =>
    dsimp only [InputSupervisor.next]
    split
    · split
      · exact edgeStep_same hok rfl
      · exact edgeStep_filteredBroken rfl now room s.unseen
    · split
      · exact edgeStep_same hok rfl
      · exact edgeStep_left rfl (afterFiltered_point s) (afterFiltered_global s)
    · split
      · exact edgeStep_same hok rfl
      · exact edgeStep_left rfl (by intro h; cases h) rfl
    · split
      · exact edgeStep_same hok rfl
      split
      · exact edgeStep_left rfl (afterStock_point s) (afterStock_global s)
      · exact edgeStep_left rfl (by intro h; cases h) rfl
    · exact edgeStep_same hok rfl
  | stockFactory source room =>
    dsimp only [InputSupervisor.next]
    split
    · cases source with
      | none => exact edgeStep_left rfl (by intro h; cases h) rfl
      | some source => exact edgeStep_left rfl (by intro h; cases h) rfl
    · exact edgeStep_same hok rfl
  | slept =>
    dsimp only [InputSupervisor.next]
    split
    · exact edgeStep_left rfl (by intro h; cases h) rfl
    · exact edgeStep_left rfl (by intro h; cases h) rfl
    · exact edgeStep_same hok rfl
  | polls inhibited room =>
    dsimp only [InputSupervisor.next]
    split
    · exact .silent hok rfl (unread_same rfl rfl rfl rfl)
    · exact edgeStep_same hok rfl
  | notifies inhibited room =>
    dsimp only [InputSupervisor.next]
    split
    · exact .silent hok rfl (unread_same rfl rfl rfl rfl)
    · exact edgeStep_same hok rfl
  | probed ok =>
    dsimp only [InputSupervisor.next]
    split
    · split
      · exact edgeStep_left rfl (by intro h; cases h) rfl
      · exact edgeStep_left rfl (by intro h; cases h) rfl
    · exact edgeStep_same hok rfl

theorem EdgeStep.ok {os : List FilteredActivity} (h : EdgeStep s e s' os) : s'.CountOk := by
  cases h <;> assumption

end

/-! ## Counting along a run -/

/-- A published observation, with the edges that were reported and lost until then. -/
structure PublishedEdges where
  activity : FilteredActivity
  reported : ℕ
  lost : ℕ
  deriving DecidableEq, Repr

structure EdgeLedger where
  reported : ℕ
  lost : ℕ
  published : List PublishedEdges
  deriving DecidableEq, Repr

def EdgeLedger.after (l : EdgeLedger) (s : InputSupervisor) (e : InputEvent)
    (r : InputSupervisor × List FilteredActivity) : EdgeLedger :=
  let reported := l.reported + s.newEdges e
  let lost := l.lost + s.lostEdges e r.1
  ⟨reported, lost, l.published ++ r.2.map fun activity => ⟨activity, reported, lost⟩⟩

/-- Runs with a ledger of edges. -/
def countedEdges (rules : List ActivityRule) :
    Runs.System (EdgeLedger × InputSupervisor) InputEvent FilteredActivity :=
  (supervisors rules).observed EdgeLedger.after

/-- From one published observation to a later one, the count grows by the edges that are reported in
between and not lost. -/
structure Grown (x y : PublishedEdges) : Prop where
  reported : x.reported ≤ y.reported
  lost : x.lost ≤ y.lost
  monotone : x.activity.edgeSeq ≤ y.activity.edgeSeq
  grown : y.activity.edgeSeq - x.activity.edgeSeq + (y.lost - x.lost) = y.reported - x.reported

/-- An unavailable observation keeps the count of the one before it. -/
def KeepsCount (x y : PublishedEdges) : Prop :=
  y.activity.available = false → y.activity.edgeSeq = x.activity.edgeSeq

/-- The ledger balances, from a count that the channel starts with. -/
structure Balanced (start : ℕ) (l : EdgeLedger) (s : InputSupervisor) : Prop where
  ok : s.CountOk
  balance : start + l.reported = s.globalEdgeSeq + s.unread + l.lost
  entries : ∀ x ∈ l.published, start + x.reported = x.activity.edgeSeq + x.lost ∧
    x.reported ≤ l.reported ∧ x.lost ≤ l.lost ∧ x.activity.edgeSeq ≤ s.globalEdgeSeq
  sorted : l.published.Pairwise Grown
  keeps : l.published.IsChain KeepsCount
  last : ∀ x ∈ l.published.getLast?, x.activity.edgeSeq = s.globalEdgeSeq

theorem Balanced.quiet {start : ℕ} {l l' : EdgeLedger} {s s' : InputSupervisor}
    (h : Balanced start l s) (hok : s'.CountOk) (hpublished : l'.published = l.published)
    (hreported : l.reported ≤ l'.reported) (hlost : l.lost ≤ l'.lost)
    (hglobal : s'.globalEdgeSeq = s.globalEdgeSeq)
    (hbalance : start + l'.reported = s'.globalEdgeSeq + s'.unread + l'.lost) :
    Balanced start l' s' where
  ok := hok
  balance := hbalance
  entries := by
    intro x hx
    rw [hpublished] at hx
    obtain ⟨hxbalance, hxreported, hxlost, hxglobal⟩ := h.entries x hx
    exact ⟨hxbalance, by omega, by omega, by omega⟩
  sorted := by
    rw [hpublished]
    exact h.sorted
  keeps := by
    rw [hpublished]
    exact h.keeps
  last := by
    rw [hpublished, hglobal]
    exact h.last

/-- An observation is published when nothing is left unread. -/
theorem Balanced.add {start : ℕ} {l l' : EdgeLedger} {s s' : InputSupervisor}
    (h : Balanced start l s) {activity : FilteredActivity} (hok : s'.CountOk)
    (hpublished : l'.published = l.published ++ [⟨activity, l'.reported, l'.lost⟩])
    (hreported : l.reported ≤ l'.reported) (hlost : l.lost ≤ l'.lost)
    (hglobal : s.globalEdgeSeq ≤ s'.globalEdgeSeq) (hunread : s'.unread = 0)
    (hbalance : start + l'.reported = s'.globalEdgeSeq + l'.lost)
    (hedgeSeq : activity.edgeSeq = s'.globalEdgeSeq)
    (hkeeps : activity.available = false → s'.globalEdgeSeq = s.globalEdgeSeq) :
    Balanced start l' s' where
  ok := hok
  balance := by omega
  entries := by
    intro x hx
    rw [hpublished] at hx
    rcases List.mem_append.mp hx with hx | hx
    · obtain ⟨hxbalance, hxreported, hxlost, hxglobal⟩ := h.entries x hx
      exact ⟨hxbalance, by omega, by omega, by omega⟩
    · obtain rfl := List.mem_singleton.mp hx
      dsimp only
      exact ⟨by omega, Nat.le_refl _, Nat.le_refl _, by omega⟩
  sorted := by
    rw [hpublished]
    refine List.pairwise_append.mpr ⟨h.sorted, List.pairwise_singleton _ _, fun x hx y hy => ?_⟩
    obtain rfl := List.mem_singleton.mp hy
    obtain ⟨hxbalance, hxreported, hxlost, hxglobal⟩ := h.entries x hx
    refine ⟨?_, ?_, ?_, ?_⟩ <;> dsimp only <;> omega
  keeps := by
    rw [hpublished]
    refine List.isChain_append.mpr ⟨h.keeps, List.isChain_singleton _, fun x hx y hy => ?_⟩
    obtain rfl := Option.some.inj hy
    intro havailable
    rw [h.last x hx, ← hkeeps havailable]
    exact hedgeSeq
  last := by
    intro x hx
    rw [hpublished, List.getLast?_concat] at hx
    obtain rfl := Option.some.inj hx
    exact hedgeSeq

/-- The channel's first observation is as good as published. -/
def EdgeLedger.seeded (seed : FilteredActivity) : EdgeLedger := ⟨0, 0, [⟨seed, 0, 0⟩]⟩

theorem balanced_seeded (seed : FilteredActivity) :
    Balanced seed.edgeSeq (.seeded seed) (.new seed.edgeSeq) where
  ok := fun h => (by cases h)
  balance := rfl
  entries := by
    intro x hx
    obtain rfl := List.mem_singleton.mp hx
    exact ⟨rfl, Nat.le_refl _, Nat.le_refl _, Nat.le_refl _⟩
  sorted := List.pairwise_singleton _ _
  keeps := List.isChain_singleton _
  last := by
    intro x hx
    obtain rfl := Option.some.inj hx
    rfl

section
variable {rules : List ActivityRule} {start : ℕ} {l : EdgeLedger} {s : InputSupervisor}
variable {e : InputEvent}

theorem balanced_next (h : Balanced start l s) (hcounts : s.CountsUp e)
    (hfew : start + (l.reported + s.newEdges e) < 2 ^ 64) :
    Balanced start (l.after s e (s.next rules e)) (s.next rules e).1 := by
  have hstep : EdgeStep s e (s.next rules e).1 (s.next rules e).2 :=
    edgeStep_next s e h.ok hcounts
  have hbalance := h.balance
  generalize s.next rules e = r at hstep
  obtain ⟨s', os⟩ := r
  dsimp only at hstep ⊢
  cases hstep with
  | silent hok hglobal hunread =>
    refine h.quiet hok (List.append_nil _) (Nat.le_add_right _ _) (Nat.le_add_right _ _) hglobal ?_
    unfold EdgeLedger.after
    dsimp only
    omega
  | unavailable now hok hglobal hnone hlost =>
    refine h.add hok rfl (Nat.le_add_right _ _) (Nat.le_add_right _ _) (Nat.le_of_eq hglobal.symm)
      hnone ?_ hglobal.symm fun _ => hglobal
    unfold EdgeLedger.after
    dsimp only
    omega
  | published hok havailable hglobal hunread hlost hnew =>
    have hsum : s'.globalEdgeSeq = s.globalEdgeSeq + s.unread := by
      rw [hglobal]
      unfold saturatingAddU64
      omega
    refine h.add hok rfl (Nat.le_add_right _ _) (Nat.le_add_right _ _) (by omega) hunread ?_ rfl
      fun hunavailable => ?_
    · unfold EdgeLedger.after
      dsimp only
      omega
    · exact absurd (havailable.symm.trans hunavailable) (by decide)

end

/-- An observation of a source, and whether there is a device. -/
def keyboard (available : Bool) (edgeSeq : ℕ) : InputEvent :=
  .reports ⟨some 0, 0, available, edgeSeq⟩

/-- A source starts and is read once. -/
def sourceStarts : List InputEvent :=
  [.started, keyboard true 0, .changed 0 fun _ => true]

/-- A key is pressed and the keyboard is unplugged before the source is read. The stock source takes
over, the keyboard is back, and the filtered source starts again. -/
def keyThenUnplugged : List InputEvent :=
  sourceStarts ++
    [keyboard true 1, keyboard false 1, .changed 0 fun _ => true, .exits .filtered,
      .joined 0 fun _ => true, .stockFactory (some .polling) fun _ => true, .probed true,
      .exits (.stock .polling), .joined 0 fun _ => true] ++ sourceStarts

end Dormant
