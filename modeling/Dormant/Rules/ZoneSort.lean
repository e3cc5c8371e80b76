import Dormant.Foundations.BottomUp
import Dormant.Foundations.Checks
import Dormant.Foundations.Places
import Dormant.Rules.Zone

/-!
# How a zone engine is built

`ZoneEngine.new` checks the specs and sorts them bottom-up. It iterates over hash maps, whose order
is anyone's guess: `HashOrder` is any such order, and what `new` promises holds of all of them.
-/

namespace Dormant
set_option autoImplicit false

/-- What the detail of a `ConfigInvalid` says. -/
inductive ConfigDetail where
  | duplicateZoneId (zone : ZoneId)
  | weightedThreshold (zone : ZoneId) (got : Rat)
  | weight (zone : ZoneId) (key : String) (got : Rat)
  deriving DecidableEq

inductive DormantError where
  | configInvalid (detail : ConfigDetail)
  | zoneUnknownMember (zone member : String)
  | zoneCycle (zone : String)
  deriving DecidableEq

/-- A spec with the keys of its weights, in the order of their hash map. -/
structure ZoneEntry where
  spec : ZoneSpec
  weightKeys : List String
  listed : ∀ key, key ∈ weightKeys ↔ (spec.weights key).isSome

/-- The orders in which the map of the specs and the map of the in-degrees are iterated. -/
structure HashOrder where
  specs : List ZoneEntry → List ZoneEntry
  specs_perm : ∀ l, (specs l).Perm l
  ids : List ZoneId → List ZoneId
  ids_perm : ∀ l, (ids l).Perm l

/-- The map of the specs, as it was filled. -/
abbrev SpecMap := List ZoneEntry

namespace SpecMap

def containsKey (map : SpecMap) (zone : ZoneId) : Bool := map.any fun entry => entry.spec.id = zone

def get (map : SpecMap) (zone : ZoneId) : Option ZoneSpec :=
  (map.find? fun entry => entry.spec.id = zone).map (·.spec)

def insert (map : SpecMap) (entry : ZoneEntry) : Except DormantError SpecMap :=
  if map.containsKey entry.spec.id then .error (.configInvalid (.duplicateZoneId entry.spec.id))
  else .ok (map ++ [entry])

end SpecMap

def checkMember (map : SpecMap) (inventory : List SensorId) (spec : ZoneSpec) :
    ZoneMember → Except DormantError Unit
  | .sensor sid =>
    if sid ∈ inventory then .ok () else .error (.zoneUnknownMember spec.id.id sid.id)
  | .zone zid =>
    if map.containsKey zid then .ok () else .error (.zoneUnknownMember spec.id.id zid.id)

def checkMembers (map : SpecMap) (inventory : List SensorId) (entry : ZoneEntry) :
    Except DormantError Unit :=
  entry.spec.members.forM (checkMember map inventory entry.spec)

def checkWeight (spec : ZoneSpec) (key : String) : Except DormantError Unit :=
  match spec.weights key with
  | none => .ok ()
  | some weight =>
    if weight < 0 then .error (.configInvalid (.weight spec.id key weight)) else .ok ()

def checkWeighted (entry : ZoneEntry) : Except DormantError Unit :=
  match entry.spec.mode with
  | .weighted threshold =>
    if 0 ≤ threshold ∧ threshold ≤ 1 then entry.weightKeys.forM (checkWeight entry.spec)
    else .error (.configInvalid (.weightedThreshold entry.spec.id threshold))
  | _ => .ok ()

/-! ## The sort -/

structure ZoneEdges where
  inDegree : ZoneId → Option ℕ
  dependents : ZoneId → List ZoneId

namespace ZoneEdges

def empty : ZoneEdges := { inDegree := fun _ => none, dependents := fun _ => [] }

def addMember (map : SpecMap) (spec : ZoneSpec) (edges : ZoneEdges) : ZoneMember → ZoneEdges
  | .sensor _ => edges
  | .zone zid =>
    if map.containsKey zid then
      { dependents := Function.update edges.dependents zid (edges.dependents zid ++ [spec.id])
        inDegree :=
          Function.update edges.inDegree spec.id (some ((edges.inDegree spec.id).getD 0 + 1)) }
    else edges

def addSpec (map : SpecMap) (edges : ZoneEdges) (spec : ZoneSpec) : ZoneEdges :=
  spec.members.foldl (addMember map spec)
    { edges with
      inDegree := Function.update edges.inDegree spec.id (some ((edges.inDegree spec.id).getD 0)) }

end ZoneEdges

/-- `none` is a panic of Kahn's algorithm, or more turns than there are zones. -/
def topoSort (order : HashOrder) (map : SpecMap) : Option (Except DormantError (List ZoneId)) :=
  let specs := (order.specs map).map (·.spec)
  let edges := specs.foldl (ZoneEdges.addSpec map) .empty
  let queue := (order.ids (map.map (·.spec.id))).filter fun zid => edges.inDegree zid = some 0
  (BottomUp.Kahn.loop edges.dependents map.length
    { queue := queue, inDegree := edges.inDegree, order := [] }).map fun sorted =>
      if sorted.order.length = map.length then .ok sorted.order
      else
        let cycleZone := (specs.map (·.id)).find? (· ∉ sorted.order)
        .error (.zoneCycle (cycleZone.elim "unknown" (·.id)))

def ZoneEngine.new (order : HashOrder) (specs : List ZoneEntry) (inventory : List SensorId)
    (now : ℕ) : Option (Except DormantError ZoneEngine) :=
  match specs.foldlM SpecMap.insert [] with
  | .error e => some (.error e)
  | .ok map =>
    let checked : Except DormantError Unit := do
      (order.specs map).forM (checkMembers map inventory)
      (order.specs map).forM checkWeighted
    match checked with
    | .error e => some (.error e)
    | .ok () =>
      (topoSort order map).map fun sorted =>
        sorted.map fun ids => .initial (ids.filterMap map.get) inventory now

/-! ## The edges -/

def ZoneMember.nested : ZoneMember → Option ZoneId
  | .sensor _ => none
  | .zone zid => some zid

/-- The zones that a zone is made of, as often as they are members. -/
def ZoneSpec.zones (spec : ZoneSpec) : List ZoneId := spec.members.filterMap ZoneMember.nested

def SpecMap.zonesOf (map : SpecMap) (spec : ZoneSpec) : List ZoneId :=
  spec.zones.filter map.containsKey

namespace ZoneEdges
variable {map : SpecMap} {edges : ZoneEdges}

theorem foldl_addMember (spec : ZoneSpec) (members : List ZoneMember) {n : ℕ}
    (hn : edges.inDegree spec.id = some n) :
    (members.foldl (addMember map spec) edges).inDegree =
        Function.update edges.inDegree spec.id
          (some (n + ((members.filterMap ZoneMember.nested).filter map.containsKey).length)) ∧
      ∀ c, (members.foldl (addMember map spec) edges).dependents c = edges.dependents c ++
        List.replicate (((members.filterMap ZoneMember.nested).filter map.containsKey).count c)
          spec.id := by
  induction members generalizing edges n with
  | nil => simp [← hn]
  | cons member members ih =>
    rw [List.foldl_cons]
    cases member with
    | sensor sid => exact ih hn
    | zone zid =>
      by_cases hz : map.containsKey zid = true
      · have hadded : (addMember map spec edges (.zone zid)).inDegree spec.id = some (n + 1) := by
          simp [addMember, hz, hn]
        obtain ⟨hdegree, hdependents⟩ := ih hadded
        rw [hdegree]
        refine ⟨?_, fun c => ?_⟩
        · simp [addMember, hz, hn, ZoneMember.nested, Nat.add_assoc, Nat.add_comm 1]
        · rw [hdependents c]
          by_cases hc : c = zid
          · subst hc
            simp [addMember, hz, ZoneMember.nested, List.replicate_succ]
          · simp [addMember, hz, hc, ZoneMember.nested, Ne.symm hc]
      · have hsame : addMember map spec edges (.zone zid) = edges := if_neg hz
        rw [hsame]
        simpa [ZoneMember.nested, hz] using ih hn

theorem addSpec_inDegree (spec : ZoneSpec) (h : edges.inDegree spec.id = none) :
    (addSpec map edges spec).inDegree =
      Function.update edges.inDegree spec.id (some (map.zonesOf spec).length) := by
  unfold addSpec
  rw [h, (foldl_addMember spec spec.members (Function.update_self _ _ _)).1]
  simp [SpecMap.zonesOf, ZoneSpec.zones]

theorem addSpec_dependents (spec : ZoneSpec) (c : ZoneId) :
    (addSpec map edges spec).dependents c =
      edges.dependents c ++ List.replicate ((map.zonesOf spec).count c) spec.id := by
  unfold addSpec
  rw [(foldl_addMember spec spec.members (Function.update_self _ _ _)).2]
  rfl

theorem foldl_addSpec_inDegree {specs : List ZoneSpec} (hnodup : (specs.map (·.id)).Nodup)
    (h : ∀ spec ∈ specs, edges.inDegree spec.id = none) :
    (∀ zone, zone ∉ specs.map (·.id) →
        (specs.foldl (addSpec map) edges).inDegree zone = edges.inDegree zone) ∧
      ∀ spec ∈ specs, (specs.foldl (addSpec map) edges).inDegree spec.id =
        some (map.zonesOf spec).length := by
  induction specs generalizing edges with
  | nil => simp
  | cons first rest ih =>
    obtain ⟨hfirst, hrest⟩ := List.nodup_cons.mp hnodup
    have hadded : (addSpec map edges first).inDegree = _ :=
      addSpec_inDegree first (h first List.mem_cons_self)
    have hne (spec : ZoneSpec) (hs : spec ∈ rest) : spec.id ≠ first.id :=
      fun heq => hfirst (List.mem_map.mpr ⟨spec, hs, heq⟩)
    have hnone : ∀ spec ∈ rest, (addSpec map edges first).inDegree spec.id = none := by
      intro spec hs
      rw [hadded, Function.update_of_ne (hne spec hs)]
      exact h spec (List.mem_cons_of_mem _ hs)
    obtain ⟨hkept, hcounted⟩ := ih hrest hnone
    rw [List.foldl_cons]
    refine ⟨fun zone hz => ?_, fun spec hs => ?_⟩
    · rw [List.map_cons, List.mem_cons, not_or] at hz
      rw [hkept zone hz.2, hadded, Function.update_of_ne hz.1]
    · rcases List.mem_cons.mp hs with rfl | hs
      · rw [hkept _ hfirst, hadded, Function.update_self]
      · exact hcounted spec hs

theorem foldl_addSpec_dependents (specs : List ZoneSpec) (c : ZoneId) :
    (specs.foldl (addSpec map) edges).dependents c = edges.dependents c ++
      specs.flatMap fun spec => List.replicate ((map.zonesOf spec).count c) spec.id := by
  induction specs generalizing edges with
  | nil => simp
  | cons first rest ih =>
    rw [List.foldl_cons, ih, addSpec_dependents, List.flatMap_cons, List.append_assoc]

end ZoneEdges

theorem count_dependents {specs : List ZoneSpec} (hnodup : (specs.map (·.id)).Nodup)
    (f : ZoneSpec → ℕ) {spec : ZoneSpec} (hspec : spec ∈ specs) :
    (specs.flatMap fun spec => List.replicate (f spec) spec.id).count spec.id = f spec := by
  induction specs with
  | nil => cases hspec
  | cons first rest ih =>
    obtain ⟨hfirst, hrest⟩ := List.nodup_cons.mp hnodup
    rw [List.flatMap_cons, List.count_append, List.count_replicate]
    rcases List.mem_cons.mp hspec with rfl | hspec
    · have hnone : spec.id ∉ rest.flatMap fun spec => List.replicate (f spec) spec.id := by
        intro hm
        obtain ⟨other, hother, hid⟩ := List.mem_flatMap.mp hm
        exact hfirst (List.mem_map.mpr ⟨other, hother, (List.eq_of_mem_replicate hid).symm⟩)
      rw [List.count_eq_zero.mpr hnone]
      simp
    · have hne : first.id ≠ spec.id := fun heq =>
        hfirst (List.mem_map.mpr ⟨spec, hspec, heq.symm⟩)
      rw [ih hrest hspec]
      simp [hne]

/-! ## The map of the specs -/

namespace SpecMap

/-- What the duplicate check leaves. -/
def Distinct (map : SpecMap) : Prop := (map.map (·.spec.id)).Nodup

theorem containsKey_iff {map : SpecMap} {zone : ZoneId} :
    map.containsKey zone = true ↔ zone ∈ map.map (·.spec.id) := by
  simp [containsKey]

theorem Distinct.get {map : SpecMap} (h : map.Distinct) {entry : ZoneEntry} (he : entry ∈ map) :
    map.get entry.spec.id = some entry.spec := by
  have hfind : map.find? (·.spec.id == entry.spec.id) = some entry :=
    Entries.find?_of_nodup h he
  exact congrArg (Option.map ZoneEntry.spec) hfind

theorem foldlM_insert_from {specs : List ZoneEntry} {map map' : SpecMap} (hmap : map.Distinct)
    (h : specs.foldlM insert map = .ok map') : map' = map ++ specs ∧ map'.Distinct := by
  induction specs generalizing map with
  | nil =>
    obtain rfl := Except.ok.inj h
    exact ⟨(List.append_nil _).symm, hmap⟩
  | cons first rest ih =>
    rw [List.foldlM_cons] at h
    unfold insert at h
    split at h
    · cases h
    · rename_i hnew
      rw [containsKey_iff] at hnew
      have hadded : Distinct (map ++ [first]) := by
        unfold Distinct
        rw [List.map_append]
        refine List.Nodup.append hmap (List.nodup_singleton _) fun zone hz hfirst => ?_
        obtain rfl := List.mem_singleton.mp hfirst
        exact hnew hz
      obtain ⟨heq, hdistinct⟩ := ih hadded h
      exact ⟨by rw [heq, List.append_assoc, List.singleton_append], hdistinct⟩

theorem foldlM_insert {specs : List ZoneEntry} {map : SpecMap}
    (h : specs.foldlM insert [] = .ok map) : map = specs ∧ map.Distinct := by
  have hnil : Distinct [] := List.nodup_nil
  exact foldlM_insert_from hnil h

end SpecMap

/-- The member check lets no unknown zone pass. -/
theorem zonesOf_checked {map : SpecMap} {inventory : List SensorId} {entry : ZoneEntry}
    (h : checkMembers map inventory entry = .ok ()) : map.zonesOf entry.spec = entry.spec.zones := by
  refine List.filter_eq_self.mpr fun zone hz => ?_
  obtain ⟨member, hmember, hnested⟩ := List.mem_filterMap.mp hz
  have hchecked := Checks.forM_eq_ok.mp h member hmember
  cases member with
  | sensor sid => cases hnested
  | zone zid =>
    obtain rfl := Option.some.inj hnested
    change (if map.containsKey zid then .ok () else .error _) = Except.ok () at hchecked
    split at hchecked
    · assumption
    · cases hchecked

/-! ## What the sort finds -/

open BottomUp

/-- The zones that a zone of the map waits for. -/
def SpecMap.children (map : SpecMap) (zone : ZoneId) : List ZoneId :=
  (map.get zone).elim [] map.zonesOf

section
variable (order : HashOrder) {map : SpecMap} (hd : map.Distinct)

/-- The specs in the order in which the sort finds them. -/
def HashOrder.sorting (map : SpecMap) : List ZoneSpec := (order.specs map).map (·.spec)

theorem sorting_ids : ((order.sorting map).map (·.id)).Perm (map.map (·.spec.id)) := by
  unfold HashOrder.sorting
  rw [List.map_map]
  exact (order.specs_perm map).map _

theorem mem_sorting {spec : ZoneSpec} :
    spec ∈ order.sorting map ↔ ∃ entry ∈ map, entry.spec = spec := by
  unfold HashOrder.sorting
  rw [List.mem_map]
  exact exists_congr fun entry => and_congr_left fun _ => (order.specs_perm map).mem_iff

def HashOrder.edges (map : SpecMap) : ZoneEdges :=
  (order.sorting map).foldl (ZoneEdges.addSpec map) .empty

include hd

theorem children_of {entry : ZoneEntry} (he : entry ∈ map) :
    map.children entry.spec.id = map.zonesOf entry.spec := by
  unfold SpecMap.children
  rw [hd.get he]
  rfl

theorem inDegree_edges : ∀ zone ∈ map.map (·.spec.id),
    (order.edges map).inDegree zone = some (map.children zone).length := by
  intro zone hz
  obtain ⟨entry, he, rfl⟩ := List.mem_map.mp hz
  have hnodup : ((order.sorting map).map (·.id)).Nodup := (sorting_ids order).nodup_iff.mpr hd
  have hnone : ∀ spec ∈ order.sorting map, ZoneEdges.empty.inDegree spec.id = none :=
    fun _ _ => rfl
  have hcounted : (order.edges map).inDegree entry.spec.id =
      some (map.zonesOf entry.spec).length :=
    (ZoneEdges.foldl_addSpec_inDegree hnodup hnone).2 entry.spec
      ((mem_sorting order).mpr ⟨entry, he, rfl⟩)
  rw [children_of hd he]
  exact hcounted

theorem graph_edges :
    Kahn.Graph map.children (order.edges map).dependents (map.map (·.spec.id)) where
  parents c p hp := by
    unfold HashOrder.edges at hp
    rw [ZoneEdges.foldl_addSpec_dependents] at hp
    obtain ⟨spec, hspec, hid⟩ := List.mem_flatMap.mp hp
    obtain rfl := List.eq_of_mem_replicate hid
    obtain ⟨entry, he, rfl⟩ := (mem_sorting order).mp hspec
    exact List.mem_map.mpr ⟨entry, he, rfl⟩
  counted c p hp := by
    obtain ⟨entry, he, rfl⟩ := List.mem_map.mp hp
    have hnodup : ((order.sorting map).map (·.id)).Nodup := (sorting_ids order).nodup_iff.mpr hd
    unfold HashOrder.edges
    rw [ZoneEdges.foldl_addSpec_dependents, children_of hd he]
    exact count_dependents hnodup (fun spec => (map.zonesOf spec).count c)
      ((mem_sorting order).mpr ⟨entry, he, rfl⟩)

/-- The sort comes to an end. It finds an order of all zones, or there is none. -/
theorem topoSort_total : ∃ result, topoSort order map = some result ∧
    (∀ ids, result = .ok ids →
      ids.Perm (map.map (·.spec.id)) ∧ Ordered id map.children [] ids) ∧
    ∀ e, result = .error e →
      ¬ ∃ ids : List ZoneId, ids.Perm (map.map (·.spec.id)) ∧ Ordered id map.children [] ids := by
  have hstart := Kahn.progress_start (inDegree_edges order hd)
    (((order.ids_perm _).nodup_iff.mpr hd).filter fun zid => (order.edges map).inDegree zid = some 0)
    fun zone => by rw [List.mem_filter, (order.ids_perm _).mem_iff, decide_eq_true_eq]
  have hfuel : (map.map (·.spec.id)).length ≤ ([] : List ZoneId).length + map.length := by simp
  obtain ⟨sorted, hloop, hempty, hsorted⟩ := hstart.loop (graph_edges order hd) hfuel
  have hsort : topoSort order map = some (if sorted.order.length = map.length then .ok sorted.order
      else .error (.zoneCycle
        ((((order.sorting map).map (·.id)).find? (· ∉ sorted.order)).elim "unknown" (·.id)))) :=
    congrArg (Option.map _) hloop
  refine ⟨_, hsort, fun ids hok => ?_, fun e herror => ?_⟩
  · split at hok
    · rename_i hlength
      obtain rfl := Except.ok.inj hok
      exact ⟨hsorted.perm (by rw [hlength, List.length_map]), hsorted.ordered⟩
    · cases hok
  · split at herror
    · cases herror
    · rename_i hlength
      rintro ⟨ids, hperm, hordered⟩
      have hall := hsorted.complete hempty hordered (fun n hn => hperm.mem_iff.mp hn) (by simp)
      have hsame := hsorted.length hd fun n hn => hall n (hperm.mem_iff.mpr hn)
      rw [List.length_map] at hsame
      exact hlength hsame

end

/-! ## What `new` accepts -/

theorem SpecMap.Distinct.filterMap_get {map : SpecMap} (hd : map.Distinct) {ids : List ZoneId}
    (hperm : ids.Perm (map.map (·.spec.id))) :
    (ids.filterMap map.get).Perm (map.map (·.spec)) ∧ (ids.filterMap map.get).map (·.id) = ids := by
  constructor
  · refine (hperm.filterMap map.get).trans (.of_eq ?_)
    rw [List.filterMap_map, ← List.filterMap_eq_map]
    exact List.filterMap_congr fun entry he => hd.get he
  · rw [List.map_filterMap]
    refine (List.filterMap_congr fun zone hz => ?_).trans List.filterMap_some
    obtain ⟨entry, he, rfl⟩ := List.mem_map.mp (hperm.mem_iff.mp hz)
    rw [hd.get he]
    rfl

/-- Building an engine never panics and always comes to an end. -/
theorem ZoneEngine.new_total (order : HashOrder) (specs : List ZoneEntry)
    (inventory : List SensorId) (now : ℕ) : ∃ result, new order specs inventory now = some result := by
  unfold ZoneEngine.new
  split
  · exact ⟨_, rfl⟩
  · rename_i map hmap
    have hd : map.Distinct := (SpecMap.foldlM_insert hmap).2
    dsimp only
    split
    · exact ⟨_, rfl⟩
    · obtain ⟨result, hsort, -⟩ := topoSort_total order hd
      rw [hsort]
      exact ⟨_, rfl⟩

/-- The specs in an order that the sort has found. -/
theorem sorted_specs {map : SpecMap} (hd : map.Distinct) {inventory : List SensorId}
    (hmembers : ∀ entry ∈ map, checkMembers map inventory entry = .ok ()) {ids : List ZoneId}
    (hperm : ids.Perm (map.map (·.spec.id))) (hordered : Ordered id map.children [] ids) :
    (ids.filterMap map.get).Perm (map.map (·.spec)) ∧
      Ordered (·.id) ZoneSpec.zones [] (ids.filterMap map.get) := by
  obtain ⟨hspecs, hids⟩ := hd.filterMap_get hperm
  refine ⟨hspecs, ?_⟩
  rw [← hids] at hordered
  refine ordered_map (f := (·.id)) (fun _ _ => ?_) (fun spec hs zone hz => ?_) hordered
  · exact rfl
  · obtain ⟨entry, he, rfl⟩ := List.mem_map.mp (hspecs.mem_iff.mp hs)
    rw [children_of hd he, zonesOf_checked (hmembers entry he)]
    exact hz

/-- An engine that is accepted holds all its specs, in an order that is bottom-up. -/
theorem ZoneEngine.new_sorted {order : HashOrder} {specs : List ZoneEntry}
    {inventory : List SensorId} {now : ℕ} {engine : ZoneEngine}
    (h : new order specs inventory now = some (.ok engine)) :
    ∃ evalOrder, engine = initial evalOrder inventory now ∧
      evalOrder.Perm (specs.map (·.spec)) ∧ Ordered (·.id) ZoneSpec.zones [] evalOrder := by
  unfold ZoneEngine.new at h
  split at h
  · cases h
  · rename_i map hmap
    obtain ⟨rfl, hd⟩ := SpecMap.foldlM_insert hmap
    dsimp only at h
    split at h
    · cases h
    · rename_i hchecked
      obtain ⟨result, hsort, hfound, -⟩ := topoSort_total order hd
      rw [hsort] at h
      cases result with
      | error e => cases h
      | ok ids =>
        obtain ⟨hperm, hordered⟩ := hfound ids rfl
        have hmembers : (order.specs map).forM (checkMembers map inventory) = .ok () := by
          cases hm : (order.specs map).forM (checkMembers map inventory) with
          | error e =>
            rw [hm] at hchecked
            cases hchecked
          | ok u => rfl
        have hentries : ∀ entry ∈ map, checkMembers map inventory entry = .ok () :=
          fun entry he =>
            Checks.forM_eq_ok.mp hmembers entry ((order.specs_perm map).mem_iff.mpr he)
        obtain ⟨hspecs, hsorted⟩ := sorted_specs hd hentries hperm hordered
        exact ⟨_, (Except.ok.inj (Option.some.inj h)).symm, hspecs, hsorted⟩

end Dormant
