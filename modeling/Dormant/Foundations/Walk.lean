import Mathlib.Data.List.Nodup
import Mathlib.Data.List.Perm.Basic

/-!
# Walks with a limit

A directory tree is read entry by entry and a directory is not opened once the limit is reached.
What is then left out depends on the order of the entries: a find is left out of some order just
when so many others are outside its directory.
-/

namespace Walk
set_option autoImplicit false

universe u v

variable {ν : Type u} {ε : Type v}

/-- An entry and the directory it is in. -/
structure Found (ν : Type u) (ε : Type v) where
  dir : List ν
  entry : ε
  deriving DecidableEq

/-- What is asked of entries. -/
structure Query (ν : Type u) (ε : Type v) where
  name : ε → ν
  isDir : ε → Bool
  keep : Found ν ε → Bool

section Definitions

variable (q : Query ν ε)

/-- One entry, where `enter` is what is done with a directory. -/
def visit (enter : List ν → List (Found ν ε) → List (Found ν ε)) (dir : List ν)
    (out : List (Found ν ε)) (e : ε) : List (Found ν ε) :=
  if q.isDir e then enter (dir ++ [q.name e]) out
  else if q.keep ⟨dir, e⟩ then out ++ [⟨dir, e⟩] else out

variable (read : List ν → List ε)

/-- The walk that opens no directory once the limit is reached. -/
def gather (limit : ℕ) : ℕ → List ν → List (Found ν ε) → List (Found ν ε)
  | 0, _, out => out
  | n + 1, dir, out =>
    if limit ≤ out.length then out else (read dir).foldl (visit q (gather limit n) dir) out

def below (walk : List ν → List (Found ν ε)) (dir : List ν) (e : ε) : List (Found ν ε) :=
  if q.isDir e then walk (dir ++ [q.name e]) else if q.keep ⟨dir, e⟩ then [⟨dir, e⟩] else []

/-- Everything there is to find. -/
def walk : ℕ → List ν → List (Found ν ε)
  | 0, _ => []
  | n + 1, dir => (read dir).flatMap (below q (walk n) dir)

end Definitions

variable {q : Query ν ε} {read read' : List ν → List ε}

/-! ## Everything -/

theorem prefix_of_below {walk : List ν → List (Found ν ε)}
    (hwalk : ∀ d, ∀ f ∈ walk d, d <+: f.dir) {dir : List ν} {e : ε} {f : Found ν ε}
    (hf : f ∈ below q walk dir e) :
    f.dir = dir ∧ f.entry = e ∨ q.isDir e = true ∧ dir ++ [q.name e] <+: f.dir := by
  unfold below at hf
  split at hf
  · rename_i hdir
    exact .inr ⟨hdir, hwalk _ f hf⟩
  · split at hf
    · rw [List.mem_singleton.mp hf]
      exact .inl ⟨rfl, rfl⟩
    · cases hf

theorem prefix_of_mem {n : ℕ} {dir : List ν} {f : Found ν ε} (hf : f ∈ walk q read n dir) :
    dir <+: f.dir := by
  induction n generalizing dir f with
  | zero => cases hf
  | succ n ih =>
    obtain ⟨e, -, he⟩ := List.mem_flatMap.mp hf
    rcases prefix_of_below (fun d g => ih) he with ⟨hdir, -⟩ | ⟨-, hdir⟩
    · exact hdir ▸ List.prefix_refl f.dir
    · exact (List.prefix_append _ _).trans hdir

theorem mem_read_of_mem {n : ℕ} {dir : List ν} {f : Found ν ε} (hf : f ∈ walk q read n dir) :
    f.entry ∈ read f.dir ∧ q.keep f = true := by
  induction n generalizing dir with
  | zero => cases hf
  | succ n ih =>
    obtain ⟨e, he, hfe⟩ := List.mem_flatMap.mp hf
    unfold below at hfe
    split at hfe
    · exact ih hfe
    · split at hfe
      · rename_i hkeep
        rw [List.mem_singleton.mp hfe]
        exact ⟨he, hkeep⟩
      · cases hfe

theorem walk_perm (h : ∀ d, (read' d).Perm (read d)) (n : ℕ) (dir : List ν) :
    (walk q read' n dir).Perm (walk q read n dir) := by
  induction n generalizing dir with
  | zero => exact .refl _
  | succ n ih =>
    refine List.Perm.flatMap (h dir) fun e _ => ?_
    unfold below
    split
    · exact ih _
    · exact .refl _

theorem not_prefix_self (dir : List ν) (a : ν) : ¬ dir ++ [a] <+: dir := by
  intro h
  have hlength := h.length_le
  rw [List.length_append, List.length_singleton] at hlength
  omega

theorem step_unique {dir d : List ν} {a b : ν} (ha : dir ++ [a] <+: d) (hb : dir ++ [b] <+: d) :
    a = b := by
  have hlength : (dir ++ [a]).length ≤ (dir ++ [b]).length := by
    simp
  have hab := List.prefix_of_prefix_length_le ha hb hlength
  have heq := (List.prefix_append_right_inj dir).mp hab
  exact List.singleton_inj.mp (heq.eq_of_length rfl)

/-- Two entries of one directory have nothing in common. -/
theorem disjoint_below {walk : List ν → List (Found ν ε)}
    (hwalk : ∀ d, ∀ f ∈ walk d, d <+: f.dir) {dir : List ν} {a b : ε} (hne : q.name a ≠ q.name b) :
    (below q walk dir a).Disjoint (below q walk dir b) := by
  intro f ha hb
  rcases prefix_of_below hwalk ha with ⟨hadir, ha⟩ | ⟨-, ha⟩ <;>
    rcases prefix_of_below hwalk hb with ⟨hbdir, hb⟩ | ⟨-, hb⟩
  · exact hne (congrArg q.name (ha.symm.trans hb))
  · exact not_prefix_self dir _ (hadir ▸ hb)
  · exact not_prefix_self dir _ (hbdir ▸ ha)
  · exact hne (step_unique ha hb)

theorem walk_nodup (h : ∀ d, ((read d).map q.name).Nodup) (n : ℕ) (dir : List ν) :
    (walk q read n dir).Nodup := by
  induction n generalizing dir with
  | zero => exact List.nodup_nil
  | succ n ih =>
    refine List.nodup_flatMap.mpr ⟨fun e _ => ?_, ?_⟩
    · unfold below
      split
      · exact ih _
      · split
        · exact List.nodup_singleton _
        · exact List.nodup_nil
    · refine (List.pairwise_map.mp (h dir)).imp fun hne => ?_
      exact disjoint_below (fun d g => prefix_of_mem) hne

/-! ## With the limit -/

variable [DecidableEq ν]

/-- The find is neither in the directory nor below it. -/
def outside (dir : List ν) (f : Found ν ε) : Bool := decide (¬ dir <+: f.dir)

/-- What a walk adds to `out`, out of everything. -/
structure Gathered (limit : ℕ) (out new all : List (Found ν ε)) : Prop where
  sublist : new.Sublist all
  full : limit ≤ (out ++ new).length ∨ new = all
  missed : ∀ f ∈ all, f ∉ new → limit ≤ out.length + all.countP (outside f.dir)

variable {limit : ℕ} {out new new' all all' : List (Found ν ε)}

theorem Gathered.nothing (h : limit ≤ out.length) : Gathered limit out [] all where
  sublist := List.nil_sublist all
  full := .inl (by rw [List.append_nil]; exact h)
  missed := fun _ _ _ => Nat.le_add_right_of_le h

theorem Gathered.everything : Gathered limit out all all where
  sublist := .refl all
  full := .inr rfl
  missed := fun _ hf hnot => absurd hf hnot

/-- One after the other, where what the second leaves out is not among the finds of the first. -/
theorem Gathered.append (h : Gathered limit out new all)
    (h' : Gathered limit (out ++ new) new' all')
    (hout : ∀ f ∈ all', f ∉ new' → ∀ x ∈ all, outside f.dir x = true) :
    Gathered limit out (new ++ new') (all ++ all') where
  sublist := h.sublist.append h'.sublist
  full := by
    rw [← List.append_assoc]
    rcases h'.full with hfull | rfl
    · exact .inl hfull
    · rcases h.full with hfull | rfl
      · refine .inl ?_
        rw [List.length_append]
        omega
      · exact .inr rfl
  missed := by
    intro f hf hnot
    have hnew : f ∉ new := fun hmem => hnot (List.mem_append_left _ hmem)
    have hnew' : f ∉ new' := fun hmem => hnot (List.mem_append_right _ hmem)
    rw [List.countP_append]
    rcases List.mem_append.mp hf with hall | hall
    · have hmissed := h.missed f hall hnew
      omega
    · have hmissed := h'.missed f hall hnew'
      have hcount := List.countP_eq_length.mpr (hout f hall hnew')
      have hlength := h.sublist.length_le
      rw [List.length_append] at hmissed
      omega

section Entries

variable {enter : List ν → List (Found ν ε) → List (Found ν ε)} {walk : List ν → List (Found ν ε)}
  (hwalk : ∀ d, ∀ f ∈ walk d, d <+: f.dir)
  (henter : ∀ d out, ∃ new, enter d out = out ++ new ∧ Gathered limit out new (walk d))

include hwalk henter

theorem visit_gathered (dir : List ν) (out : List (Found ν ε)) (e : ε) :
    ∃ new, visit q enter dir out e = out ++ new ∧ Gathered limit out new (below q walk dir e) ∧
      ∀ f ∈ below q walk dir e, f.dir = dir → f ∈ new := by
  unfold visit below
  split
  · obtain ⟨new, hnew, hgathered⟩ := henter (dir ++ [q.name e]) out
    refine ⟨new, hnew, hgathered, fun f hf hdir => ?_⟩
    exact absurd (hdir ▸ hwalk _ f hf) (not_prefix_self dir _)
  · split
    · exact ⟨_, rfl, .everything, fun f hf _ => hf⟩
    · exact ⟨[], (List.append_nil out).symm, .everything, fun f hf _ => hf⟩

/-- Of the finds of a directory only those in subdirectories can be left out. -/
theorem fold_gathered {es : List ε} (hes : (es.map q.name).Nodup) (dir : List ν)
    (out : List (Found ν ε)) :
    ∃ new, es.foldl (visit q enter dir) out = out ++ new ∧
      Gathered limit out new (es.flatMap (below q walk dir)) ∧
        ∀ f ∈ es.flatMap (below q walk dir), f.dir = dir → f ∈ new := by
  induction es generalizing out with
  | nil => exact ⟨[], (List.append_nil out).symm, .everything, fun f hf _ => hf⟩
  | cons e es ih =>
    obtain ⟨hname, hes⟩ := List.nodup_cons.mp hes
    obtain ⟨new, hnew, hgathered, hhere⟩ := visit_gathered (q := q) hwalk henter dir out e
    obtain ⟨new', hnew', hgathered', hhere'⟩ := ih hes (out ++ new)
    refine ⟨new ++ new', ?_, ?_, fun f hf hdir => ?_⟩
    · rw [List.foldl_cons, hnew, hnew', List.append_assoc]
    · refine hgathered.append hgathered' fun f hf hnot x hx => decide_eq_true fun hbegins => ?_
      obtain ⟨e', he', hfe⟩ := List.mem_flatMap.mp hf
      rcases prefix_of_below hwalk hfe with ⟨hdir, -⟩ | ⟨-, hfdir⟩
      · exact hnot (hhere' f hf hdir)
      rcases prefix_of_below hwalk hx with ⟨hdir, -⟩ | ⟨-, hxdir⟩
      · exact not_prefix_self dir _ (hdir ▸ hfdir.trans hbegins)
      · have heq := step_unique hxdir (hfdir.trans hbegins)
        exact hname (heq ▸ List.mem_map_of_mem he')
    · rcases List.mem_append.mp hf with hfe | hfe
      · exact List.mem_append_left _ (hhere f hfe hdir)
      · exact List.mem_append_right _ (hhere' f hfe hdir)

end Entries

omit [DecidableEq ν] in
theorem gather_full (h : limit ≤ out.length) (n : ℕ) (dir : List ν) :
    gather q read limit n dir out = out := by
  cases n with
  | zero => rfl
  | succ n => exact if_pos h

variable (limit) in
theorem gather_gathered (hnames : ∀ d, ((read d).map q.name).Nodup) (n : ℕ) (dir : List ν)
    (out : List (Found ν ε)) :
    ∃ new, gather q read limit n dir out = out ++ new ∧
      Gathered limit out new (walk q read n dir) := by
  induction n generalizing dir out with
  | zero => exact ⟨[], (List.append_nil out).symm, .everything⟩
  | succ n ih =>
    by_cases hfull : limit ≤ out.length
    · rw [gather_full hfull]
      exact ⟨[], (List.append_nil out).symm, .nothing hfull⟩
    · obtain ⟨new, hnew, hgathered, -⟩ :=
        fold_gathered (fun d f => prefix_of_mem) ih (hnames dir) dir out
      exact ⟨new, (if_neg hfull).trans hnew, hgathered⟩

/-- What is in the directory itself is always collected. -/
theorem mem_gather_of_dir (hnames : ∀ d, ((read d).map q.name).Nodup) {n : ℕ} {dir : List ν}
    (hout : out.length < limit) {f : Found ν ε} (hf : f ∈ walk q read n dir) (hdir : f.dir = dir) :
    f ∈ gather q read limit n dir out := by
  cases n with
  | zero => cases hf
  | succ n =>
    have hsub := gather_gathered limit hnames n
    obtain ⟨new, hnew, -, hhere⟩ :=
      fold_gathered (fun d f => prefix_of_mem) hsub (hnames dir) dir out
    unfold gather
    rw [if_neg (Nat.not_le.mpr hout), hnew]
    exact List.mem_append_right _ (hhere f hf hdir)

/-! ## The way to a find -/

/-- The name after `dir` on the way to `target`. -/
def next (target dir : List ν) : Option ν :=
  if dir <+: target then target[dir.length]? else none

theorem next_step {target dir : List ν} {a : ν} (h : dir ++ [a] <+: target) :
    next target dir = some a := by
  obtain ⟨rest, rfl⟩ := h
  unfold next
  rw [List.append_assoc, if_pos (List.prefix_append _ _),
    List.getElem?_append_right (Nat.le_refl dir.length), Nat.sub_self]
  rfl

variable (q read)

def onWay (target dir : List ν) (e : ε) : Bool := decide (some (q.name e) = next target dir)

/-- The order in which the way to `target` comes first. -/
def wayFirst (target dir : List ν) : List ε :=
  (read dir).filter (onWay q target dir) ++ (read dir).filter (!onWay q target dir ·)

/-- The order in which the way to `target` comes last. -/
def wayLast (target dir : List ν) : List ε :=
  (read dir).filter (!onWay q target dir ·) ++ (read dir).filter (onWay q target dir)

theorem wayFirst_perm (target dir : List ν) : (wayFirst q read target dir).Perm (read dir) :=
  List.filter_append_perm _ _

theorem wayLast_perm (target dir : List ν) : (wayLast q read target dir).Perm (read dir) :=
  List.perm_append_comm.trans (wayFirst_perm q read target dir)

variable {q read}

omit [DecidableEq ν] in
theorem names_nodup (hnames : ∀ d, ((read d).map q.name).Nodup)
    (hperm : ∀ d, (read' d).Perm (read d)) (d : List ν) : ((read' d).map q.name).Nodup :=
  (((hperm d).map q.name).nodup_iff).mpr (hnames d)

/-- Just one entry is on the way. -/
theorem filter_onWay {es : List ε} (hes : (es.map q.name).Nodup) {e : ε} (he : e ∈ es)
    {target dir : List ν} (h : dir ++ [q.name e] <+: target) :
    es.filter (onWay q target dir) = [e] := by
  have hway (e' : ε) : onWay q target dir e' = decide (q.name e' = q.name e) := by
    unfold onWay
    rw [next_step h]
    exact decide_eq_decide.mpr Option.some_inj
  obtain ⟨s, t, rfl⟩ := List.append_of_mem he
  rw [List.map_append, List.map_cons, List.nodup_middle, List.nodup_cons, List.mem_append] at hes
  obtain ⟨hnot, -⟩ := hes
  have hnone {l : List ε} (hl : q.name e ∉ l.map q.name) :
      l.filter (onWay q target dir) = [] := by
    refine List.filter_eq_nil_iff.mpr fun e' he' htrue => hl ?_
    rw [hway, decide_eq_true_eq] at htrue
    exact htrue ▸ List.mem_map_of_mem he'
  rw [List.filter_append, List.filter_cons, hnone fun hmem => hnot (.inl hmem),
    hnone fun hmem => hnot (.inr hmem), hway, decide_eq_true rfl]
  rfl

omit [DecidableEq ν] in
theorem foldl_extends {enter : List ν → List (Found ν ε) → List (Found ν ε)}
    (henter : ∀ d out, out <+: enter d out) (dir : List ν) (es : List ε) (out : List (Found ν ε)) :
    out <+: es.foldl (visit q enter dir) out := by
  induction es generalizing out with
  | nil => exact List.prefix_refl out
  | cons e es ih =>
    refine List.IsPrefix.trans ?_ (ih _)
    unfold visit
    split
    · exact henter _ out
    · split
      · exact List.prefix_append _ _
      · exact List.prefix_refl out

omit [DecidableEq ν] in
theorem gather_extends (n : ℕ) (dir : List ν) (out : List (Found ν ε)) :
    out <+: gather q read limit n dir out := by
  induction n generalizing dir out with
  | zero => exact List.prefix_refl out
  | succ n ih =>
    unfold gather
    split
    · exact List.prefix_refl out
    · exact foldl_extends ih dir _ out

/-- With its way first, a find is collected. -/
theorem mem_gather_wayFirst (hnames : ∀ d, ((read d).map q.name).Nodup) {f : Found ν ε} {n : ℕ}
    {dir : List ν} (hf : f ∈ walk q read n dir) (hout : out.length < limit) :
    f ∈ gather q (wayFirst q read f.dir) limit n dir out := by
  induction n generalizing dir with
  | zero => cases hf
  | succ n ih =>
    have hperm := wayFirst_perm q read f.dir
    obtain ⟨e, he, hfe⟩ := List.mem_flatMap.mp hf
    rcases prefix_of_below (fun d g => prefix_of_mem) hfe with ⟨hdir, -⟩ | ⟨hisDir, hbegins⟩
    · exact mem_gather_of_dir (names_nodup hnames hperm) hout
        ((walk_perm hperm (n + 1) dir).mem_iff.mpr hf) hdir
    · unfold below at hfe
      rw [if_pos hisDir] at hfe
      have hread : wayFirst q read f.dir dir =
          e :: (read dir).filter (!onWay q f.dir dir ·) := by
        unfold wayFirst
        rw [filter_onWay (hnames dir) he hbegins, List.singleton_append]
      unfold gather
      rw [if_neg (Nat.not_le.mpr hout), hread, List.foldl_cons]
      refine (foldl_extends (gather_extends n) dir _ _).subset ?_
      unfold visit
      rw [if_pos hisDir]
      exact ih hfe

/-- With its way last, a find is left out where enough others are outside its directory. -/
theorem notMem_gather_wayLast (hnames : ∀ d, ((read d).map q.name).Nodup) {f : Found ν ε} {n : ℕ}
    {dir : List ν} (hf : f ∈ walk q read n dir) (hdir : f.dir ≠ dir) (hnot : f ∉ out)
    (hcount : limit ≤ out.length + (walk q read n dir).countP (outside f.dir)) :
    f ∉ gather q (wayLast q read f.dir) limit n dir out := by
  induction n generalizing dir out with
  | zero => cases hf
  | succ n ih =>
    by_cases hopen : limit ≤ out.length
    · rw [gather_full hopen]
      exact hnot
    have hperm := wayLast_perm q read f.dir
    obtain ⟨e, he, hfe⟩ := List.mem_flatMap.mp hf
    rcases prefix_of_below (fun d g => prefix_of_mem) hfe with ⟨hsame, -⟩ | ⟨hisDir, hbegins⟩
    · exact absurd hsame hdir
    unfold below at hfe
    rw [if_pos hisDir] at hfe
    have hread : wayLast q read f.dir dir =
        (read dir).filter (!onWay q f.dir dir ·) ++ [e] := by
      unfold wayLast
      rw [filter_onWay (hnames dir) he hbegins]
    have hfirst : ∀ e' ∈ (read dir).filter (!onWay q f.dir dir ·), q.name e' ≠ q.name e := by
      intro e' he' heq
      have hway := (List.mem_filter.mp he').2
      unfold onWay at hway
      rw [next_step hbegins, heq, decide_eq_true rfl] at hway
      cases hway
    have hothers := ((List.filter_sublist (l := read dir)
      (p := (!onWay q f.dir dir ·))).map q.name).nodup (hnames dir)
    generalize (read dir).filter (!onWay q f.dir dir ·) = others at *
    have hsub := gather_gathered limit (names_nodup hnames hperm) n
    obtain ⟨new, hnew, hgathered, -⟩ :=
      fold_gathered (fun d g => prefix_of_mem) hsub hothers dir out
    -- what comes before the way is outside the directory of the find
    have houtside : ∀ x ∈ others.flatMap (below q (walk q (wayLast q read f.dir) n) dir),
        outside f.dir x = true := by
      intro x hx
      refine decide_eq_true fun hbelow => ?_
      obtain ⟨e', he', hxe⟩ := List.mem_flatMap.mp hx
      rcases prefix_of_below (fun d g => prefix_of_mem) hxe with ⟨hxdir, -⟩ | ⟨-, hxdir⟩
      · exact not_prefix_self dir _ (hxdir ▸ hbegins.trans hbelow)
      · exact hfirst e' he' (step_unique hxdir (hbegins.trans hbelow))
    have hnot' : f ∉ out ++ new := by
      intro hmem
      rcases List.mem_append.mp hmem with hmem | hmem
      · exact hnot hmem
      · exact of_decide_eq_true (houtside f (hgathered.sublist.subset hmem)) (List.prefix_refl _)
    unfold gather
    rw [if_neg hopen, hread, List.foldl_append, hnew, List.foldl_cons, List.foldl_nil]
    unfold visit
    rw [if_pos hisDir]
    by_cases hfull : limit ≤ (out ++ new).length
    · rw [gather_full hfull]
      exact hnot'
    have hall := hgathered.full.resolve_left hfull
    have htotal : (walk q read (n + 1) dir).countP (outside f.dir) =
        new.length + (walk q read n (dir ++ [q.name e])).countP (outside f.dir) := by
      rw [← (walk_perm hperm (n + 1) dir).countP_eq]
      conv_lhs => unfold walk
      rw [hread, List.flatMap_append, List.countP_append, ← hall, List.flatMap_singleton]
      conv_lhs => unfold below
      rw [if_pos hisDir, (walk_perm hperm n _).countP_eq,
        List.countP_eq_length.mpr fun x hx => houtside x (hgathered.sublist.subset hx)]
    rw [List.length_append] at hfull
    by_cases hlast : f.dir = dir ++ [q.name e]
    · have hzero : (walk q read n (dir ++ [q.name e])).countP (outside f.dir) = 0 := by
        refine List.countP_eq_zero.mpr fun x hx htrue => of_decide_eq_true htrue ?_
        rw [hlast]
        exact prefix_of_mem hx
      omega
    · refine ih hfe hlast hnot' ?_
      rw [List.length_append]
      omega

/-! ## Cuts -/

section Cuts

universe w

variable {α : Type w} {l l' : List α} {r : ℕ}

/-- Who is among the first of all is among the first of some. -/
theorem mem_take_of_sublist (h : l'.Sublist l) (hl : l.Nodup) {a : α} (ha : a ∈ l.take r)
    (ha' : a ∈ l') : a ∈ l'.take r := by
  induction h generalizing r with
  | slnil => cases ha'
  | cons b hsub ih =>
    obtain ⟨hb, hl⟩ := List.nodup_cons.mp hl
    cases r with
    | zero => cases ha
    | succ r =>
      rw [List.take_succ_cons] at ha
      rcases List.mem_cons.mp ha with rfl | ha
      · exact absurd (hsub.subset ha') hb
      · exact List.take_subset_take_left _ (Nat.le_succ r) (ih hl ha ha')
  | cons_cons b hsub ih =>
    obtain ⟨-, hl⟩ := List.nodup_cons.mp hl
    cases r with
    | zero => cases ha
    | succ r =>
      rw [List.take_succ_cons] at ha ⊢
      rcases List.mem_cons.mp ha with rfl | ha
      · exact List.mem_cons_self
      · rcases List.mem_cons.mp ha' with rfl | ha'
        · exact List.mem_cons_self
        · exact List.mem_cons_of_mem _ (ih hl ha ha')

/-- Where none of the first is missing, leaving others out makes no difference to them. -/
theorem take_eq_of_sublist (h : l'.Sublist l) (hl : l.Nodup) (hall : ∀ a ∈ l.take r, a ∈ l') :
    l'.take r = l.take r := by
  induction h generalizing r with
  | slnil => rfl
  | cons b hsub ih =>
    obtain ⟨hb, hl⟩ := List.nodup_cons.mp hl
    cases r with
    | zero => rfl
    | succ r => exact absurd (hsub.subset (hall b List.mem_cons_self)) hb
  | cons_cons b hsub ih =>
    obtain ⟨hb, hl⟩ := List.nodup_cons.mp hl
    cases r with
    | zero => rfl
    | succ r =>
      rw [List.take_succ_cons, List.take_succ_cons]
      refine congrArg (b :: ·) (ih hl fun a ha => ?_)
      rcases List.mem_cons.mp (hall a (List.mem_cons_of_mem b ha)) with rfl | ha'
      · exact absurd (List.mem_of_mem_take ha) hb
      · exact ha'

end Cuts

end Walk
