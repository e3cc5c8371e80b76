import Dormant.Rules.Fusion

/-!
# Which zone graphs are accepted

`ZoneEngine::new` on specs as they are loaded, where a weight or a threshold may be infinite or not
a number. It accepts the well-formed graphs and no others, whatever the hash maps do.
-/

namespace Dormant
set_option autoImplicit false

open BottomUp

/-- What an `f32` may be. Finite ones are exact. -/
inductive Single where
  | finite (value : Rat)
  | infinite (negative : Bool)
  | nan
  deriving DecidableEq

namespace Single

def isFinite : Single → Bool
  | finite _ => true
  | _ => false

/-- `*self < 0.0`. -/
def isNegative : Single → Bool
  | finite value => value < 0
  | infinite negative => negative
  | nan => false

/-- `(0.0..=1.0).contains(self)`. -/
def inUnitRange : Single → Bool
  | finite value => 0 ≤ value ∧ value ≤ 1
  | _ => false

/-- The value, where there is one. -/
def exact : Single → Rat
  | finite value => value
  | _ => 0

end Single

inductive LoadedMode where
  | any
  | all
  | quorum (n : UInt32)
  | weighted (threshold : Single)

structure LoadedSpec where
  id : ZoneId
  mode : LoadedMode
  members : List ZoneMember
  weights : String → Option Single
  unavailablePolicy : UnavailablePolicy

structure LoadedZone where
  spec : LoadedSpec
  weightKeys : List String
  listed : ∀ key, key ∈ weightKeys ↔ (spec.weights key).isSome

def LoadedMode.exact : LoadedMode → FusionMode
  | any => .any
  | all => .all
  | quorum n => .quorum n
  | weighted threshold => .weighted threshold.exact

/-- The spec that is evaluated. Only a weighted zone reads its threshold and its weights, and
there they are finite once the spec has been accepted. -/
def LoadedSpec.exact (spec : LoadedSpec) : ZoneSpec where
  id := spec.id
  mode := spec.mode.exact
  members := spec.members
  weights key := (spec.weights key).map Single.exact
  unavailablePolicy := spec.unavailablePolicy

def LoadedZone.exact (zone : LoadedZone) : ZoneEntry where
  spec := zone.spec.exact
  weightKeys := zone.weightKeys
  listed key := by
    rw [zone.listed key]
    exact (Option.isSome_map).symm ▸ Iff.rfl

inductive NewError where
  | dormant (e : DormantError)
  | weightedThreshold (zone : ZoneId) (got : Single)
  | weight (zone : ZoneId) (key : String) (got : Single)

/-- The order in which the loaded specs are iterated, too. -/
structure LoadedOrder extends HashOrder where
  loaded : List LoadedZone → List LoadedZone
  loaded_perm : ∀ l, (loaded l).Perm l

def checkLoadedWeight (spec : LoadedSpec) (key : String) : Except NewError Unit :=
  match spec.weights key with
  | none => .ok ()
  | some weight =>
    if !weight.isFinite || weight.isNegative then .error (.weight spec.id key weight) else .ok ()

def checkLoaded (zone : LoadedZone) : Except NewError Unit :=
  match zone.spec.mode with
  | .weighted threshold =>
    if !threshold.isFinite || !threshold.inUnitRange then
      .error (.weightedThreshold zone.spec.id threshold)
    else zone.weightKeys.forM (checkLoadedWeight zone.spec)
  | _ => .ok ()

/-- `new`. `none` is a panic: a count of the sort that is missing, or one that would go below
zero. -/
def ZoneEngine.load (order : LoadedOrder) (specs : List LoadedZone) (inventory : List SensorId)
    (now : ℕ) : Option (Except NewError ZoneEngine) :=
  match (specs.map LoadedZone.exact).foldlM SpecMap.insert [] with
  | .error e => some (.error (.dormant e))
  | .ok map =>
    match (order.specs map).forM (checkMembers map inventory) with
    | .error e => some (.error (.dormant e))
    | .ok () =>
      match (order.loaded specs).forM checkLoaded with
      | .error e => some (.error e)
      | .ok () =>
        (topoSort order.toHashOrder map).map fun sorted =>
          match sorted with
          | .error e => .error (.dormant e)
          | .ok ids => .ok (.initial (ids.filterMap map.get) inventory now)

/-! ## The checks -/

theorem insert_ok_iff {specs : List ZoneEntry} :
    (∃ map, specs.foldlM SpecMap.insert [] = .ok map) ↔ SpecMap.Distinct specs := by
  constructor
  · intro ⟨map, hmap⟩
    obtain ⟨rfl, hd⟩ := SpecMap.foldlM_insert hmap
    exact hd
  · intro hd
    have hfrom : ∀ (rest map : List ZoneEntry), SpecMap.Distinct (map ++ rest) →
        rest.foldlM SpecMap.insert map = .ok (map ++ rest) := by
      intro rest
      induction rest with
      | nil =>
        intro map _
        rw [List.append_nil]
        rfl
      | cons entry rest ih =>
        intro map hdistinct
        have hnew : ¬ SpecMap.containsKey map entry.spec.id = true := by
          rw [SpecMap.containsKey_iff]
          intro hmem
          unfold SpecMap.Distinct at hdistinct
          rw [List.map_append, List.map_cons, List.nodup_append] at hdistinct
          exact hdistinct.2.2 _ hmem _ List.mem_cons_self rfl
        rw [List.append_cons] at hdistinct ⊢
        rw [List.foldlM_cons]
        unfold SpecMap.insert
        rw [if_neg hnew]
        exact ih _ hdistinct
    exact ⟨specs, hfrom specs [] hd⟩

theorem checkMembers_ok_iff {map : SpecMap} {inventory : List SensorId} {entry : ZoneEntry} :
    checkMembers map inventory entry = .ok () ↔
      (∀ sid, .sensor sid ∈ entry.spec.members → sid ∈ inventory) ∧
        ∀ zid, .zone zid ∈ entry.spec.members → zid ∈ map.map (·.spec.id) := by
  unfold checkMembers
  rw [Checks.forM_eq_ok]
  have hsensor (sid : SensorId) :
      checkMember map inventory entry.spec (.sensor sid) = .ok () ↔ sid ∈ inventory := by
    unfold checkMember
    by_cases h : sid ∈ inventory <;> simp [h]
  have hzone (zid : ZoneId) :
      checkMember map inventory entry.spec (.zone zid) = .ok () ↔
        zid ∈ map.map (·.spec.id) := by
    rw [← SpecMap.containsKey_iff]
    unfold checkMember
    by_cases h : map.containsKey zid = true <;> simp [h]
  constructor
  · intro hall
    exact ⟨fun sid hs => (hsensor sid).mp (hall _ hs), fun zid hz => (hzone zid).mp (hall _ hz)⟩
  · intro ⟨hsensors, hzones⟩ member hmember
    cases member with
    | sensor sid => exact (hsensor sid).mpr (hsensors sid hmember)
    | zone zid => exact (hzone zid).mpr (hzones zid hmember)

theorem checkLoaded_ok_iff {zone : LoadedZone} :
    checkLoaded zone = .ok () ↔ ∀ threshold, zone.spec.mode = .weighted threshold →
      (∃ value, threshold = .finite value ∧ 0 ≤ value ∧ value ≤ 1) ∧
        ∀ key weight, zone.spec.weights key = some weight →
          ∃ value, weight = .finite value ∧ 0 ≤ value := by
  have hweight (key : String) : checkLoadedWeight zone.spec key = .ok () ↔
      ∀ weight, zone.spec.weights key = some weight →
        ∃ value, weight = .finite value ∧ 0 ≤ value := by
    unfold checkLoadedWeight
    cases zone.spec.weights key with
    | none => simp
    | some weight => cases weight <;> simp [Single.isFinite, Single.isNegative]
  have hweights : zone.weightKeys.forM (checkLoadedWeight zone.spec) = .ok () ↔
      ∀ key weight, zone.spec.weights key = some weight →
        ∃ value, weight = .finite value ∧ 0 ≤ value := by
    rw [Checks.forM_eq_ok]
    constructor
    · intro hall key weight hkey
      have hlisted : key ∈ zone.weightKeys := by
        rw [zone.listed, hkey]
        rfl
      exact (hweight key).mp (hall key hlisted) weight hkey
    · exact fun hall key _ => (hweight key).mpr (hall key)
  unfold checkLoaded
  cases hmode : zone.spec.mode with
  | weighted threshold =>
    cases threshold with
    | finite value =>
      by_cases hunit : 0 ≤ value ∧ value ≤ 1
      · simpa [Single.isFinite, Single.inUnitRange, hunit] using hweights
      · simp [Single.isFinite, Single.inUnitRange, hunit]
    | infinite negative => simp [Single.isFinite]
    | nan => simp [Single.isFinite]
  | any => simp
  | all => simp
  | quorum n => simp

/-! ## The sort -/

/-- A zone is a member of another one. -/
def MemberZone (specs : List LoadedZone) (child zone : ZoneId) : Prop :=
  ∃ loaded ∈ specs, loaded.spec.id = zone ∧ .zone child ∈ loaded.spec.members

structure WellFormed (specs : List LoadedZone) (inventory : List SensorId) : Prop where
  distinct : (specs.map (·.spec.id)).Nodup
  sensors : ∀ zone ∈ specs, ∀ sid, .sensor sid ∈ zone.spec.members → sid ∈ inventory
  zones : ∀ zone ∈ specs, ∀ zid, .zone zid ∈ zone.spec.members → zid ∈ specs.map (·.spec.id)
  acyclic : ∀ zone, ¬ Relation.TransGen (MemberZone specs) zone zone
  weighted : ∀ zone ∈ specs, ∀ threshold, zone.spec.mode = .weighted threshold →
    (∃ value, threshold = .finite value ∧ 0 ≤ value ∧ value ≤ 1) ∧
      ∀ key weight, zone.spec.weights key = some weight →
        ∃ value, weight = .finite value ∧ 0 ≤ value

theorem exact_ids (specs : List LoadedZone) :
    (specs.map LoadedZone.exact).map (·.spec.id) = specs.map (·.spec.id) := by
  rw [List.map_map]
  rfl

section
variable {specs : List LoadedZone} (hd : SpecMap.Distinct (specs.map LoadedZone.exact))
  (hzones : ∀ zone ∈ specs, ∀ zid, .zone zid ∈ zone.spec.members → zid ∈ specs.map (·.spec.id))
include hd hzones

/-- What a zone waits for in the sort is what it is made of. -/
theorem children_iff {zone child : ZoneId} :
    (zone ∈ (specs.map LoadedZone.exact).map (·.spec.id) ∧
      child ∈ SpecMap.children (specs.map LoadedZone.exact) zone) ↔
        MemberZone specs child zone := by
  have hchild (loaded : LoadedZone) (hloaded : loaded ∈ specs) :
      child ∈ SpecMap.children (specs.map LoadedZone.exact) loaded.spec.id ↔
        .zone child ∈ loaded.spec.members := by
    have hchildren : SpecMap.children (specs.map LoadedZone.exact) loaded.spec.id = _ :=
      children_of hd (List.mem_map_of_mem hloaded)
    have hnested : child ∈ loaded.exact.spec.zones ↔ .zone child ∈ loaded.spec.members := by
      unfold ZoneSpec.zones
      rw [List.mem_filterMap]
      constructor
      · intro ⟨member, hmember, hid⟩
        cases member with
        | sensor sid => cases hid
        | zone zid => exact Option.some.inj hid ▸ hmember
      · exact fun hmember => ⟨_, hmember, rfl⟩
    rw [hchildren]
    unfold SpecMap.zonesOf
    rw [List.mem_filter, hnested, SpecMap.containsKey_iff, exact_ids]
    exact and_iff_left_of_imp (hzones loaded hloaded child)
  constructor
  · intro ⟨hzone, hmem⟩
    rw [exact_ids] at hzone
    obtain ⟨loaded, hloaded, rfl⟩ := List.mem_map.mp hzone
    exact ⟨loaded, hloaded, rfl, (hchild loaded hloaded).mp hmem⟩
  · rintro ⟨loaded, hloaded, rfl, hmember⟩
    refine ⟨?_, (hchild loaded hloaded).mpr hmember⟩
    rw [exact_ids]
    exact List.mem_map_of_mem hloaded

theorem exists_order_iff :
    (∃ ids : List ZoneId, ids.Perm ((specs.map LoadedZone.exact).map (·.spec.id)) ∧
      Ordered id (SpecMap.children (specs.map LoadedZone.exact)) [] ids) ↔
        ∀ zone, ¬ Relation.TransGen (MemberZone specs) zone zone := by
  have hR : (fun child zone => zone ∈ (specs.map LoadedZone.exact).map (·.spec.id) ∧
      child ∈ SpecMap.children (specs.map LoadedZone.exact) zone) = MemberZone specs := by
    funext child zone
    exact propext (children_iff hd hzones)
  constructor
  · intro ⟨ids, hperm, hordered⟩ zone hcycle
    obtain ⟨_, _, loaded, hloaded, hid, _⟩ := Relation.TransGen.tail'_iff.mp hcycle
    have hzone : zone ∈ ids := by
      rw [hperm.mem_iff, exact_ids]
      exact hid ▸ List.mem_map_of_mem hloaded
    refine hordered.irrefl (R := MemberZone specs) ?_ (by simp) zone hzone hcycle
    exact fun _ _ _ h => ((children_iff hd hzones).mpr h).2
  · intro hacyclic
    refine exists_ordered hd ?_ fun zone _ => ?_
    · intro zone hzone child hchild
      obtain ⟨loaded, hloaded, hid, hmember⟩ := (children_iff hd hzones).mp ⟨hzone, hchild⟩
      rw [exact_ids]
      exact hzones loaded hloaded child hmember
    · rw [hR]
      exact hacyclic zone

end

/-- What becomes of the specs: an error, or an engine whose zones are in an order that the sort has
found. -/
theorem ZoneEngine.load_total (order : LoadedOrder) (specs : List LoadedZone)
    (inventory : List SensorId) (now : ℕ) :
    ∃ result, load order specs inventory now = some result ∧
      ((∃ engine, result = .ok engine) ↔ WellFormed specs inventory) ∧
      ∀ engine, result = .ok engine → ∃ evalOrder, engine = initial evalOrder inventory now ∧
        evalOrder.Perm (specs.map fun zone => zone.exact.spec) ∧
          Ordered (·.id) ZoneSpec.zones [] evalOrder := by
  have hmembers : ∀ l : List LoadedZone,
      (∀ entry ∈ l.map LoadedZone.exact,
        checkMembers (l.map LoadedZone.exact) inventory entry = .ok ()) ↔
      ∀ zone ∈ l, (∀ sid, .sensor sid ∈ zone.spec.members → sid ∈ inventory) ∧
        ∀ zid, .zone zid ∈ zone.spec.members → zid ∈ l.map (·.spec.id) := by
    intro l
    rw [List.forall_mem_map]
    refine forall₂_congr fun zone _ => ?_
    rw [checkMembers_ok_iff, exact_ids]
    rfl
  unfold ZoneEngine.load
  cases hmap : (specs.map LoadedZone.exact).foldlM SpecMap.insert [] with
  | error e =>
    refine ⟨_, rfl, iff_of_false (by simp) fun hwf => ?_, by simp⟩
    have hd : SpecMap.Distinct (specs.map LoadedZone.exact) := by
      unfold SpecMap.Distinct
      rw [exact_ids]
      exact hwf.distinct
    obtain ⟨map, hok⟩ := insert_ok_iff.mpr hd
    rw [hmap] at hok
    cases hok
  | ok map =>
    obtain ⟨rfl, hd⟩ := SpecMap.foldlM_insert hmap
    have hentries : (order.specs (specs.map LoadedZone.exact)).forM
        (checkMembers (specs.map LoadedZone.exact) inventory) = .ok () ↔ _ :=
      Checks.forM_eq_ok.trans ((forall_congr' fun entry =>
        imp_congr_left (order.specs_perm _).mem_iff).trans (hmembers specs))
    have hweights : (order.loaded specs).forM checkLoaded = .ok () ↔ _ :=
      Checks.forM_eq_ok.trans ((forall_congr' fun zone =>
        imp_congr_left (order.loaded_perm _).mem_iff).trans
          (forall₂_congr fun zone _ => checkLoaded_ok_iff))
    dsimp only
    cases hchecked : (order.specs (specs.map LoadedZone.exact)).forM
        (checkMembers (specs.map LoadedZone.exact) inventory) with
    | error e =>
      refine ⟨_, rfl, iff_of_false (by simp) fun hwf => ?_, by simp⟩
      rw [hentries.mpr fun zone hz => ⟨hwf.sensors zone hz, hwf.zones zone hz⟩] at hchecked
      cases hchecked
    | ok u =>
      have hknown := hentries.mp hchecked
      dsimp only
      cases hloaded : (order.loaded specs).forM checkLoaded with
      | error e =>
        refine ⟨_, rfl, iff_of_false (by simp) fun hwf => ?_, by simp⟩
        rw [hweights.mpr hwf.weighted] at hloaded
        cases hloaded
      | ok u =>
        obtain ⟨result, hsort, hfound, hnone⟩ := topoSort_total order.toHashOrder hd
        have hexists := exists_order_iff hd fun zone hz => (hknown zone hz).2
        dsimp only
        rw [hsort]
        cases result with
        | error e =>
          refine ⟨_, rfl, iff_of_false (by simp) fun hwf => ?_, by simp⟩
          exact hnone e rfl (hexists.mpr hwf.acyclic)
        | ok ids =>
          obtain ⟨hperm, hordered⟩ := hfound ids rfl
          obtain ⟨hspecs, hsorted⟩ := sorted_specs hd ((hmembers specs).mpr hknown) hperm hordered
          refine ⟨_, rfl, iff_of_true ⟨_, rfl⟩ ?_, ?_⟩
          · exact
              { distinct := by rw [← exact_ids]; exact hd
                sensors := fun zone hz => (hknown zone hz).1
                zones := fun zone hz => (hknown zone hz).2
                acyclic := hexists.mp ⟨ids, hperm, hordered⟩
                weighted := hweights.mp hloaded }
          · intro engine hengine
            obtain rfl := Except.ok.inj hengine
            rw [List.map_map] at hspecs
            exact ⟨_, rfl, hspecs, hsorted⟩

/-- A graph is accepted exactly if it is well-formed, and no count of the sort goes below zero. The
zones are evaluated in an order in which each comes after the zones that it is made of. -/
theorem accepts_well_formed (order : LoadedOrder) (specs : List LoadedZone)
    (inventory : List SensorId) (now : ℕ) :
    ∃ result, ZoneEngine.load order specs inventory now = some result ∧
      ((∃ engine, result = .ok engine) ↔ WellFormed specs inventory) ∧
      ∀ engine, result = .ok engine →
        (engine.evalOrder.map (·.id)).Perm (specs.map (·.spec.id)) ∧
          Ordered (·.id) ZoneSpec.zones [] engine.evalOrder := by
  obtain ⟨result, hload, haccepted, hsorted⟩ := ZoneEngine.load_total order specs inventory now
  refine ⟨result, hload, haccepted, fun engine hok => ?_⟩
  obtain ⟨evalOrder, rfl, hperm, hordered⟩ := hsorted engine hok
  refine ⟨?_, hordered⟩
  have hids := hperm.map (fun spec : ZoneSpec => spec.id)
  rw [List.map_map] at hids
  exact hids

end Dormant
