import Mathlib.Data.Fintype.EquivFin
import Mathlib.Data.List.Nodup
import Mathlib.Data.List.Perm.Subperm
import Mathlib.Logic.Function.Basic
import Mathlib.Logic.Relation
import Mathlib.Order.WellFounded

/-!
# Bottom-up orders

Nodes that need the values of other nodes are evaluated bottom-up: each one after those it needs.
In such an order one sweep settles every node, whatever the values were before, and settled values
are unique. Kahn's algorithm finds such an order by counting down what each node still needs.
-/

namespace BottomUp
set_option autoImplicit false

universe u v w

variable {ν : Type u} {κ : Type v} {β : Type w} [DecidableEq κ] (key : ν → κ) (needs : ν → List κ)

/-- Each node is new, and comes after what it needs. -/
def Ordered : List κ → List ν → Prop
  | _, [] => True
  | done, n :: rest => key n ∉ done ∧ (∀ c ∈ needs n, c ∈ done) ∧ Ordered (key n :: done) rest

variable {key needs}

omit [DecidableEq κ] in
theorem ordered_concat {done : List κ} {order : List ν} {n : ν} :
    Ordered key needs done (order ++ [n]) ↔ Ordered key needs done order ∧
      (key n ∉ done ∧ key n ∉ order.map key) ∧ ∀ c ∈ needs n, c ∈ done ∨ c ∈ order.map key := by
  induction order generalizing done with
  | nil => simp [Ordered]
  | cons m rest ih =>
    simp only [List.cons_append, Ordered, ih, List.mem_cons, List.map_cons, not_or]
    grind

omit [DecidableEq κ] in
theorem Ordered.fresh {done : List κ} {order : List ν} (h : Ordered key needs done order) :
    (∀ n ∈ order, key n ∉ done) ∧ (order.map key).Nodup := by
  induction order generalizing done with
  | nil => simp
  | cons m rest ih =>
    obtain ⟨hnew, -, hrest⟩ := h
    obtain ⟨hfresh, hnodup⟩ := ih hrest
    refine ⟨fun n hn => ?_, List.nodup_cons.mpr ⟨fun hm => ?_, hnodup⟩⟩
    · rcases List.mem_cons.mp hn with rfl | hn
      · exact hnew
      · exact fun hd => hfresh n hn (List.mem_cons_of_mem _ hd)
    · obtain ⟨n, hn, heq⟩ := List.mem_map.mp hm
      exact hfresh n hn (heq ▸ List.mem_cons_self)

omit [DecidableEq κ] in
/-- The order of the nodes is an order of their keys. -/
theorem ordered_map {μ : Type u} {key' : μ → κ} {needs' : μ → List κ} {f : ν → μ}
    {done : List κ} {order : List ν} (hkey : ∀ n ∈ order, key' (f n) = key n)
    (hneeds : ∀ n ∈ order, ∀ c ∈ needs n, c ∈ needs' (f n))
    (h : Ordered key' needs' done (order.map f)) : Ordered key needs done order := by
  induction order generalizing done with
  | nil => trivial
  | cons n rest ih =>
    obtain ⟨hnew, hdone, hrest⟩ := h
    have hn := hkey n List.mem_cons_self
    rw [hn] at hnew hrest
    refine ⟨hnew, fun c hc => hdone c (hneeds n List.mem_cons_self c hc), ?_⟩
    exact ih (fun m hm => hkey m (List.mem_cons_of_mem _ hm))
      (fun m hm => hneeds m (List.mem_cons_of_mem _ hm)) hrest

omit [DecidableEq κ] in
/-- Bottom-up induction. -/
theorem Ordered.forall {P : κ → Prop} {done : List κ} {order : List ν}
    (h : Ordered key needs done order) (hdone : ∀ d ∈ done, P d)
    (hstep : ∀ n ∈ order, (∀ c ∈ needs n, P c) → P (key n)) : ∀ n ∈ order, P (key n) := by
  induction order generalizing done with
  | nil => simp
  | cons n rest ih =>
    obtain ⟨-, hneeds, hrest⟩ := h
    have hn : P (key n) := hstep n List.mem_cons_self fun c hc => hdone c (hneeds c hc)
    have hrest := ih hrest (fun d hd => ?_) fun m hm => hstep m (List.mem_cons_of_mem _ hm)
    · intro m hm
      rcases List.mem_cons.mp hm with rfl | hm
      · exact hn
      · exact hrest m hm
    · rcases List.mem_cons.mp hd with rfl | hd
      · exact hn
      · exact hdone d hd

omit [DecidableEq κ] in
/-- Nothing comes before what it is made of, however deep. -/
theorem Ordered.pairwise {R : κ → κ → Prop} {done : List κ} {order : List ν}
    (h : Ordered key needs done order) (hR : ∀ n ∈ order, ∀ c, R c (key n) → c ∈ needs n)
    (hdone : ∀ d ∈ done, ∀ c, R c d → c ∈ done) :
    order.Pairwise fun a b => ¬ Relation.TransGen R (key b) (key a) := by
  induction order generalizing done with
  | nil => exact List.Pairwise.nil
  | cons n rest ih =>
    have hfresh := h.2.2.fresh.1
    obtain ⟨-, hneeds, hrest⟩ := h
    have hclosed : ∀ d ∈ key n :: done, ∀ c, R c d → c ∈ done := by
      intro d hd c hc
      rcases List.mem_cons.mp hd with rfl | hd
      · exact hneeds c (hR n List.mem_cons_self c hc)
      · exact hdone d hd c hc
    have hbelow (d : κ) (hd : d ∈ key n :: done) (c : κ) (hc : Relation.TransGen R c d) :
        c ∈ done := by
      induction hc using Relation.TransGen.head_induction_on with
      | single hstep => exact hclosed d hd _ hstep
      | head hstep _ hmid => exact hclosed _ (List.mem_cons_of_mem _ hmid) _ hstep
    refine List.Pairwise.cons (fun m hm hnested => ?_) (ih hrest ?_ ?_)
    · exact hfresh m hm (List.mem_cons_of_mem _ (hbelow _ List.mem_cons_self _ hnested))
    · exact fun m hm => hR m (List.mem_cons_of_mem _ hm)
    · exact fun d hd c hc => List.mem_cons_of_mem _ (hclosed d hd c hc)

/-! ## Orders without cycles -/

omit [DecidableEq κ] in
/-- What is in a bottom-up order is not made of itself. -/
theorem Ordered.irrefl {R : κ → κ → Prop} {done : List κ} {order : List ν}
    (h : Ordered key needs done order) (hR : ∀ n ∈ order, ∀ c, R c (key n) → c ∈ needs n)
    (hdone : ∀ d ∈ done, ¬ Relation.TransGen R d d) :
    ∀ n ∈ order, ¬ Relation.TransGen R (key n) (key n) := by
  refine h.forall hdone fun n hn hneeds hcycle => ?_
  obtain ⟨c, hdown, hlast⟩ := Relation.TransGen.tail'_iff.mp hcycle
  refine hneeds c (hR n hn c hlast) ?_
  exact Relation.TransGen.head' hlast hdown

/-- Without a cycle, something outside of a set needs nothing else outside of it. -/
theorem exists_lowest {children : κ → List κ} {nodes order : List κ}
    (hclosed : ∀ n ∈ nodes, ∀ c ∈ children n, c ∈ nodes)
    (hacyclic : ∀ n ∈ nodes, ¬ Relation.TransGen (fun c n => n ∈ nodes ∧ c ∈ children n) n n)
    (hleft : ∃ n ∈ nodes, n ∉ order) :
    ∃ n ∈ nodes, n ∉ order ∧ ∀ c ∈ children n, c ∈ order := by
  let R : κ → κ → Prop := fun c n => n ∈ nodes ∧ c ∈ children n
  let below : {n // n ∈ nodes} → {n // n ∈ nodes} → Prop :=
    fun c n => Relation.TransGen R c.1 n.1
  have htrans : IsTrans _ below := ⟨fun _ _ _ => Relation.TransGen.trans⟩
  have hirrefl : Std.Irrefl below := ⟨fun n => hacyclic n.1 n.2⟩
  have hwf : WellFounded below := Finite.wellFounded_of_trans_of_irrefl below
  obtain ⟨n, hn, hnew⟩ := hleft
  obtain ⟨least, hleast, hmin⟩ := hwf.has_min {n | n.1 ∉ order} ⟨⟨n, hn⟩, hnew⟩
  refine ⟨least.1, least.2, hleast, fun c hc => ?_⟩
  by_contra hout
  exact hmin ⟨c, hclosed _ least.2 c hc⟩ hout (.single ⟨least.2, hc⟩)

/-- Without a cycle there is an order. -/
theorem exists_ordered {children : κ → List κ} {nodes : List κ} (hnodes : nodes.Nodup)
    (hclosed : ∀ n ∈ nodes, ∀ c ∈ children n, c ∈ nodes)
    (hacyclic : ∀ n ∈ nodes, ¬ Relation.TransGen (fun c n => n ∈ nodes ∧ c ∈ children n) n n) :
    ∃ order : List κ, order.Perm nodes ∧ Ordered id children [] order := by
  have hgrow : ∀ k ≤ nodes.length, ∃ order : List κ, order.length = k ∧
      (∀ n ∈ order, n ∈ nodes) ∧ Ordered id children [] order := by
    intro k
    induction k with
    | zero => exact fun _ => ⟨[], rfl, by simp, trivial⟩
    | succ k ih =>
      intro hk
      obtain ⟨order, hlength, hknown, hordered⟩ := ih (by omega)
      have hleft : ∃ n ∈ nodes, n ∉ order := by
        by_contra hnone
        push Not at hnone
        have hle := (hnodes.subperm hnone).length_le
        omega
      obtain ⟨n, hn, hnew, hneeds⟩ := exists_lowest hclosed hacyclic hleft
      refine ⟨order ++ [n], by simp [hlength], ?_, ?_⟩
      · intro m hm
        cases List.mem_append.mp hm with
        | inl hm => exact hknown m hm
        | inr hm => exact List.mem_singleton.mp hm ▸ hn
      · refine ordered_concat.mpr ⟨hordered, ⟨by simp, by simpa using hnew⟩, ?_⟩
        exact fun c hc => .inr (by simpa using hneeds c hc)
  obtain ⟨order, hlength, hknown, hordered⟩ := hgrow nodes.length le_rfl
  have hnodup : order.Nodup := by simpa using hordered.fresh.2
  exact ⟨order, (hnodup.subperm hknown).perm_of_length_le (by omega), hordered⟩

/-! ## Values -/

variable (key) in
/-- Evaluate one node on the values so far. -/
def sweep (resolve : ν → (κ → Option β) → β) (values : κ → Option β) (n : ν) : κ → Option β :=
  Function.update values (key n) (some (resolve n values))

variable (key) in
def Settled (resolve : ν → (κ → Option β) → β) (values : κ → Option β) (n : ν) : Prop :=
  values (key n) = some (resolve n values)

variable {resolve : ν → (κ → Option β) → β}

/-- A sweep settles all its nodes, and leaves what came before. -/
theorem settled_sweep
    (hlocal : ∀ n (v v' : κ → Option β), (∀ c ∈ needs n, v c = v' c) → resolve n v = resolve n v')
    {done : List κ} {order : List ν} (h : Ordered key needs done order) (values : κ → Option β) :
    (∀ c, c ∉ order.map key → order.foldl (sweep key resolve) values c = values c) ∧
      ∀ n ∈ order, Settled key resolve (order.foldl (sweep key resolve) values) n := by
  induction order generalizing done values with
  | nil => simp
  | cons n rest ih =>
    have hnodup := List.nodup_cons.mp h.fresh.2
    obtain ⟨hnew, hdone, hrest⟩ := h
    obtain ⟨hkept, hsettled⟩ := ih hrest (sweep key resolve values n)
    have hbefore (c : κ) (hc : c ∈ done) :
        rest.foldl (sweep key resolve) (sweep key resolve values n) c = values c := by
      have hfresh : c ∉ rest.map key := by
        intro hm
        obtain ⟨m, hmem, rfl⟩ := List.mem_map.mp hm
        exact hrest.fresh.1 m hmem (List.mem_cons_of_mem _ hc)
      have hne : c ≠ key n := fun heq => hnew (heq ▸ hc)
      rw [hkept c hfresh]
      exact Function.update_of_ne hne _ _
    rw [List.foldl_cons]
    refine ⟨fun c hc => ?_, fun m hm => ?_⟩
    · rw [List.map_cons, List.mem_cons, not_or] at hc
      rw [hkept c hc.2]
      exact Function.update_of_ne hc.1 _ _
    · rcases List.mem_cons.mp hm with rfl | hm
      · unfold Settled
        rw [hkept _ hnodup.1, hlocal m _ values fun c hc => hbefore c (hdone c hc)]
        exact Function.update_self _ _ _
      · exact hsettled m hm

/-! ## Kahn's algorithm -/

/-- What is ready, what each node still needs, and the order so far. -/
structure Kahn (κ : Type v) where
  queue : List κ
  inDegree : κ → Option ℕ
  order : List κ

namespace Kahn
variable (dependents : κ → List κ)

/-- One need of `parent` less; it is ready on the last. A node without a count, or with none left,
is a fault. -/
def release (s : Kahn κ) (parent : κ) : Option (Kahn κ) :=
  match s.inDegree parent with
  | none => none
  | some 0 => none
  | some (degree + 1) =>
    some
      { s with
        inDegree := Function.update s.inDegree parent (some degree)
        queue := if degree = 0 then s.queue ++ [parent] else s.queue }

def loop : ℕ → Kahn κ → Option (Kahn κ)
  | fuel, s =>
    match s.queue with
    | [] => some s
    | node :: queue =>
      match fuel with
      | 0 => none
      | fuel + 1 =>
        ((dependents node).foldlM release { s with queue := queue, order := s.order ++ [node] }).bind
          (loop fuel)

variable {dependents}

/-- Parents that are released have so many counts fewer, and those without any left are ready. -/
theorem release_all {nodes : List κ} (left : κ → ℕ) {parents : List κ} (hp : ∀ p ∈ parents, p ∈ nodes)
    {s : Kahn κ} (hs : ∀ n ∈ nodes, s.inDegree n = some (left n + parents.count n)) :
    ∃ s' pushed, parents.foldlM release s = some s' ∧ s'.order = s.order ∧
      (∀ n ∈ nodes, s'.inDegree n = some (left n)) ∧ s'.queue = s.queue ++ pushed ∧
      pushed.Nodup ∧ ∀ n, n ∈ pushed ↔ n ∈ parents ∧ left n = 0 := by
  induction parents generalizing s with
  | nil => exact ⟨s, [], rfl, rfl, by simpa using hs, (List.append_nil _).symm, List.nodup_nil, by simp⟩
  | cons parent parents ih =>
    have hcount : s.inDegree parent = some (left parent + parents.count parent + 1) := by
      rw [hs parent (hp parent List.mem_cons_self), List.count_cons_self, Nat.add_assoc]
    have hrest (n : κ) (hn : n ∈ nodes) :
        Function.update s.inDegree parent (some (left parent + parents.count parent)) n =
          some (left n + parents.count n) := by
      by_cases heq : n = parent
      · subst heq
        exact Function.update_self _ _ _
      · rw [Function.update_of_ne heq, hs n hn, List.count_cons_of_ne (Ne.symm heq)]
    have hpar : ∀ p ∈ parents, p ∈ nodes := fun p hmem => hp p (List.mem_cons_of_mem _ hmem)
    obtain ⟨next, hreleased, hdegree, hnext, hafter⟩ : ∃ next, release s parent = some next ∧
        next.inDegree =
          Function.update s.inDegree parent (some (left parent + parents.count parent)) ∧
        next.queue =
          (if left parent + parents.count parent = 0 then s.queue ++ [parent] else s.queue) ∧
        next.order = s.order := by
      unfold release
      rw [hcount]
      exact ⟨_, rfl, rfl, rfl, rfl⟩
    rw [← hdegree] at hrest
    obtain ⟨s', pushed, hfold, horder, hleft, hqueue, hnodup, hmem⟩ := ih hpar hrest
    rw [List.foldlM_cons, hreleased]
    rw [hafter] at horder
    rw [hnext] at hqueue
    by_cases hzero : left parent + parents.count parent = 0
    · have hlast : parent ∉ parents := List.count_eq_zero.mp (Nat.add_eq_zero_iff.mp hzero).2
      refine ⟨s', parent :: pushed, hfold, horder, hleft, ?_, ?_, fun n => ?_⟩
      · rw [hqueue, if_pos hzero, List.append_assoc, List.singleton_append]
      · exact List.nodup_cons.mpr ⟨fun hm => hlast ((hmem parent).mp hm).1, hnodup⟩
      · rw [List.mem_cons, List.mem_cons, hmem]
        constructor
        · rintro (rfl | ⟨hn, hz⟩)
          · exact ⟨.inl rfl, (Nat.add_eq_zero_iff.mp hzero).1⟩
          · exact ⟨.inr hn, hz⟩
        · rintro ⟨rfl | hn, hz⟩
          · exact .inl rfl
          · exact .inr ⟨hn, hz⟩
    · refine ⟨s', pushed, hfold, horder, hleft, ?_, hnodup, fun n => ?_⟩
      · rw [hqueue, if_neg hzero]
      · rw [hmem, List.mem_cons]
        constructor
        · rintro ⟨hn, hz⟩
          exact ⟨.inr hn, hz⟩
        · rintro ⟨rfl | hn, hz⟩
          · rw [hz, Nat.zero_add] at hzero
            exact ⟨List.count_pos_iff.mp (Nat.pos_of_ne_zero hzero), hz⟩
          · exact ⟨hn, hz⟩

/-- `dependents` are the edges of `children` the other way round, each as often. -/
structure Graph (children dependents : κ → List κ) (nodes : List κ) : Prop where
  parents : ∀ c, ∀ p ∈ dependents c, p ∈ nodes
  counted : ∀ c, ∀ p ∈ nodes, (dependents c).count p = (children p).count c

/-- Each count is what is still missing, and the nodes that miss nothing are queued or done. -/
structure Progress (children : κ → List κ) (nodes : List κ) (s : Kahn κ) : Prop where
  nodup : (s.order ++ s.queue).Nodup
  known : ∀ n ∈ s.order ++ s.queue, n ∈ nodes
  degree : ∀ n ∈ nodes, s.inDegree n = some ((children n).countP (· ∉ s.order))
  ready : ∀ n ∈ nodes, (∀ c ∈ children n, c ∈ s.order) ↔ n ∈ s.order ++ s.queue
  ordered : Ordered id children [] s.order

theorem countP_concat {order l : List κ} {a : κ} (ha : a ∉ order) :
    l.countP (· ∉ order) = l.countP (· ∉ order ++ [a]) + l.count a := by
  induction l with
  | nil => rfl
  | cons b l ih =>
    by_cases hb : b = a
    · subst hb
      rw [List.countP_cons, List.countP_cons, List.count_cons_self, ih]
      simp only [ha, List.mem_append, List.mem_singleton, or_true, not_true_eq_false,
        not_false_eq_true, decide_true, decide_false, if_true, Bool.false_eq_true, if_false]
      omega
    · simp only [List.countP_cons, ih, List.count_cons_of_ne hb, List.mem_append,
        List.mem_singleton, hb, or_false]
      omega

variable {children : κ → List κ} {nodes : List κ} {s : Kahn κ}

theorem Progress.pop (hg : Graph children dependents nodes) (h : Progress children nodes s)
    {node : κ} {queue : List κ} (hq : s.queue = node :: queue) :
    ∃ s', (dependents node).foldlM release { s with queue := queue, order := s.order ++ [node] } =
        some s' ∧ s'.order = s.order ++ [node] ∧ Progress children nodes s' := by
  have hnodup := h.nodup
  rw [hq] at hnodup
  have hfresh : node ∉ s.order := fun hm => List.disjoint_of_nodup_append hnodup hm List.mem_cons_self
  have hnode : node ∈ nodes := h.known node (by simp [hq])
  have hdegree (n : κ) (hn : n ∈ nodes) : s.inDegree n =
      some ((children n).countP (· ∉ s.order ++ [node]) + (dependents node).count n) := by
    rw [h.degree n hn, countP_concat hfresh, hg.counted node n hn]
  obtain ⟨s', pushed, hfold, horder, hleft, hqueue, hpushed, hmem⟩ :=
    release_all (fun n => (children n).countP (· ∉ s.order ++ [node])) (hg.parents node)
      (s := { s with queue := queue, order := s.order ++ [node] }) hdegree
  have hsame : s'.order ++ s'.queue = (s.order ++ s.queue) ++ pushed := by
    rw [horder, hqueue, hq]
    simp
  have hzero (n : κ) : (children n).countP (· ∉ s.order ++ [node]) = 0 ↔
      ∀ c ∈ children n, c ∈ s.order ++ [node] :=
    List.countP_eq_zero.trans (forall₂_congr fun c _ => by simp only [decide_eq_true_eq, not_not])
  -- a node is released by what it needs, so it was not ready before
  have hnew (n : κ) (hn : n ∈ pushed) : n ∈ nodes ∧ n ∉ s.order ++ s.queue := by
    have hparent := ((hmem n).mp hn).1
    have hn := hg.parents node n hparent
    refine ⟨hn, fun hready => hfresh ((h.ready n hn).mpr hready node ?_)⟩
    rw [← List.count_pos_iff, ← hg.counted node n hn]
    exact List.count_pos_iff.mpr hparent
  refine ⟨s', hfold, horder, ?_, fun n hn => ?_, fun n hn => ?_, fun n hn => ?_, ?_⟩
  · rw [hsame]
    exact List.Nodup.append h.nodup hpushed fun n hold hn => (hnew n hn).2 hold
  · rw [hsame] at hn
    rcases List.mem_append.mp hn with hn | hn
    · exact h.known n hn
    · exact (hnew n hn).1
  · rw [hleft n hn, horder]
  · rw [hsame, horder, ← hzero, List.mem_append, hmem, ← h.ready n hn]
    constructor
    · intro hz
      by_cases hchild : node ∈ children n
      · refine .inr ⟨?_, hz⟩
        rw [← List.count_pos_iff, hg.counted node n hn]
        exact List.count_pos_iff.mpr hchild
      · refine .inl fun c hc => ?_
        have hin := (hzero n).mp hz c hc
        rw [List.mem_append, List.mem_singleton] at hin
        exact hin.resolve_right fun heq => hchild (heq ▸ hc)
    · rintro (hready | ⟨-, hz⟩)
      · exact (hzero n).mpr fun c hc => List.mem_append_left _ (hready c hc)
      · exact hz
  · rw [horder]
    refine ordered_concat.mpr ⟨h.ordered, ⟨by simp, by simpa using hfresh⟩, fun c hc => .inr ?_⟩
    have hready := (h.ready node hnode).mpr (by simp [hq])
    simpa using hready c hc

/-- The loop ends with an empty queue, on as many turns as there are nodes left. -/
theorem Progress.loop (hg : Graph children dependents nodes) {fuel : ℕ}
    (h : Progress children nodes s) (hfuel : nodes.length ≤ s.order.length + fuel) :
    ∃ s', Kahn.loop dependents fuel s = some s' ∧ s'.queue = [] ∧ Progress children nodes s' := by
  induction fuel generalizing s with
  | zero =>
    refine ⟨s, ?_, ?_, h⟩
    all_goals
      have hle := (h.nodup.subperm h.known).length_le
      rw [List.length_append] at hle
      have hempty : s.queue = [] := List.length_eq_zero_iff.mp (by omega)
    · unfold Kahn.loop
      rw [hempty]
    · exact hempty
  | succ fuel ih =>
    unfold Kahn.loop
    cases hq : s.queue with
    | nil => exact ⟨s, rfl, hq, h⟩
    | cons node queue =>
      obtain ⟨next, hfold, horder, hnext⟩ := h.pop hg hq
      dsimp only
      rw [hfold, Option.bind_some]
      refine ih hnext ?_
      rw [horder, List.length_append, List.length_singleton]
      omega

theorem progress_start {inDegree : κ → Option ℕ} {queue : List κ}
    (hdegree : ∀ n ∈ nodes, inDegree n = some (children n).length) (hnodup : queue.Nodup)
    (hqueue : ∀ n, n ∈ queue ↔ n ∈ nodes ∧ inDegree n = some 0) :
    Progress children nodes { queue := queue, inDegree := inDegree, order := [] } where
  nodup := hnodup
  known n hn := ((hqueue n).mp hn).1
  degree n hn := by simp [hdegree n hn]
  ready n hn := by
    rw [List.nil_append, hqueue, hdegree n hn]
    simp [hn, List.eq_nil_iff_forall_not_mem]
  ordered := trivial

theorem Progress.subperm (h : Progress children nodes s) : s.order.Subperm nodes :=
  (h.nodup.sublist (List.sublist_append_left _ _)).subperm fun n hn =>
    h.known n (List.mem_append_left _ hn)

theorem Progress.perm (h : Progress children nodes s) (hlength : s.order.length = nodes.length) :
    s.order.Perm nodes :=
  h.subperm.perm_of_length_le (Nat.le_of_eq hlength.symm)

theorem Progress.length (h : Progress children nodes s) (hnodes : nodes.Nodup)
    (hall : ∀ n ∈ nodes, n ∈ s.order) : s.order.length = nodes.length :=
  Nat.le_antisymm h.subperm.length_le (hnodes.subperm hall).length_le

/-- The loop only stops short of a node where there is no order. -/
theorem Progress.complete (h : Progress children nodes s) (hq : s.queue = []) {done order : List κ}
    (horder : Ordered id children done order) (hnodes : ∀ n ∈ order, n ∈ nodes)
    (hdone : ∀ n ∈ done, n ∈ s.order) : ∀ n ∈ order, n ∈ s.order := by
  induction order generalizing done with
  | nil => simp
  | cons n rest ih =>
    obtain ⟨-, hneeds, hrest⟩ := horder
    have hn : n ∈ s.order := by
      have hready := (h.ready n (hnodes n List.mem_cons_self)).mp fun c hc => hdone c (hneeds c hc)
      rwa [hq, List.append_nil] at hready
    have hdone' : ∀ m ∈ n :: done, m ∈ s.order := by
      intro m hm
      rcases List.mem_cons.mp hm with rfl | hm
      · exact hn
      · exact hdone m hm
    intro m hm
    rcases List.mem_cons.mp hm with rfl | hm
    · exact hn
    · exact ih hrest (fun m hm => hnodes m (List.mem_cons_of_mem _ hm)) hdone' m hm

end Kahn
end BottomUp
