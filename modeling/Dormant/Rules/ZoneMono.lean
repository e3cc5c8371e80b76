import Dormant.Rules.ZoneAccept
import Mathlib.Algebra.Order.BigOperators.Group.List
import Mathlib.Algebra.Order.Field.Basic

/-!
# Fusion is monotone

More presence among the members is more presence of the zone: a walk up the graph, with the fusion
of one zone as its step. A quorum counts its members in 32 bits, so the step fails for a zone of
2^32 members or more.
-/

namespace Dormant
set_option autoImplicit false

open BottomUp

/-- Where one is present, so is the other. -/
def Rises (a b : Bool) : Prop := a = true → b = true

/-! ## One zone -/

theorem countP_rises {as bs : List Bool} (h : List.Forall₂ Rises as bs) :
    as.countP id ≤ bs.countP id := by
  induction h with
  | nil => rfl
  | @cons a b as bs hab _ ih =>
    rw [List.countP_cons, List.countP_cons]
    cases a with
    | false =>
      rw [id, if_neg Bool.false_ne_true]
      omega
    | true => rw [hab rfl]; omega

theorem presentWeight_rises {members : List ZoneMember} {weight : ZoneMember → Rat}
    (hweight : ∀ member ∈ members, 0 ≤ weight member) {as bs : List Bool}
    (h : List.Forall₂ Rises as bs) :
    (((members.zip as).filter Prod.snd).map (weight ·.1)).sum ≤
      (((members.zip bs).filter Prod.snd).map (weight ·.1)).sum := by
  induction h generalizing members with
  | nil => simp
  | @cons a b as bs hab _ ih =>
    cases members with
    | nil => simp
    | cons member members =>
      have hrest := ih fun m hm => hweight m (List.mem_cons_of_mem _ hm)
      have hfirst := hweight member List.mem_cons_self
      rw [List.zip_cons_cons, List.zip_cons_cons]
      cases a with
      | true =>
        rw [hab rfl, List.filter_cons_of_pos rfl, List.filter_cons_of_pos rfl]
        simpa using hrest
      | false =>
        rw [List.filter_cons_of_neg (by simp)]
        cases b with
        | false =>
          rw [List.filter_cons_of_neg (by simp)]
          exact hrest
        | true =>
          rw [List.filter_cons_of_pos rfl, List.map_cons, List.sum_cons]
          exact hrest.trans (le_add_of_nonneg_left hfirst)

/-- The members of a quorum are counted without a wrap. -/
def CountFits (spec : ZoneSpec) : Prop :=
  ∀ n, spec.mode = .quorum n → n = 0 ∨ spec.members.length < 4294967296

def WeightsNonneg (spec : ZoneSpec) : Prop :=
  ∀ threshold, spec.mode = .weighted threshold → ∀ member, 0 ≤ memberWeight member spec

theorem fuseMembers_rises {spec : ZoneSpec} (hweights : WeightsNonneg spec)
    (hcounted : CountFits spec) {as bs : List Bool} (hlength : bs.length = spec.members.length)
    (h : List.Forall₂ Rises as bs) (hpresent : fuseMembers spec as = true) :
    fuseMembers spec bs = true := by
  unfold fuseMembers at hpresent ⊢
  cases hmode : spec.mode with
  | any =>
    rw [hmode] at hpresent
    simp only [List.any_eq_true, id] at hpresent ⊢
    obtain ⟨a, ha, rfl⟩ := hpresent
    obtain ⟨i, hi, hget⟩ := List.mem_iff_getElem.mp ha
    have hi' : i < bs.length := h.length_eq ▸ hi
    exact ⟨bs[i], List.getElem_mem hi', h.get hi hi' hget⟩
  | all =>
    rw [hmode] at hpresent
    simp only [List.all_eq_true, id] at hpresent ⊢
    intro b hb
    obtain ⟨i, hi, rfl⟩ := List.mem_iff_getElem.mp hb
    have hi' : i < as.length := h.length_eq ▸ hi
    exact h.get hi' hi (hpresent _ (List.getElem_mem hi'))
  | quorum n =>
    rw [hmode] at hpresent
    simp only [decide_eq_true_eq] at hpresent ⊢
    cases hcounted n hmode with
    | inl hzero => rw [hzero]; exact UInt32.zero_le
    | inr hsmall =>
      have hle := countP_rises h
      have hlt : bs.countP id < 4294967296 := by
        have := List.countP_le_length (p := id) (l := bs)
        omega
      rw [UInt32.le_iff_toNat_le, UInt32.toNat_ofNat_of_lt'] at hpresent ⊢
      · omega
      · exact hlt
      · exact lt_of_le_of_lt hle hlt
  | weighted threshold =>
    rw [hmode] at hpresent
    dsimp only at hpresent ⊢
    split at hpresent
    · cases hpresent
    · rename_i htotal
      rw [if_neg htotal]
      simp only [decide_eq_true_eq] at hpresent ⊢
      refine hpresent.trans ?_
      have hsum := presentWeight_rises
        (fun member (_ : member ∈ spec.members) => hweights threshold hmode member) h
      exact div_le_div_of_nonneg_right hsum (le_of_lt (not_le.mp htotal))

theorem forall₂_replicate (n : ℕ) (a : Bool) :
    List.Forall₂ Rises (List.replicate n a) (List.replicate n a) :=
  List.forall₂_same.mpr fun _ _ h => h

theorem countP_mostly (k r : ℕ) (b : Bool) :
    (List.replicate k true ++ b :: List.replicate r false).countP id =
      k + if b then 1 else 0 := by
  rw [List.countP_append, List.countP_cons, List.countP_replicate, List.countP_replicate]
  simp

/-- The fusion of a zone is monotone exactly if its quorum is counted without a wrap. -/
theorem fuseMembers_rises_iff {spec : ZoneSpec} (hweights : WeightsNonneg spec) :
    (∀ as bs, bs.length = spec.members.length → List.Forall₂ Rises as bs →
      fuseMembers spec as = true → fuseMembers spec bs = true) ↔ CountFits spec := by
  refine ⟨fun hrises n hmode => ?_, fun hcounted as bs => fuseMembers_rises hweights hcounted⟩
  by_contra hlarge
  rw [not_or, not_lt] at hlarge
  obtain ⟨hn, hlength⟩ := hlarge
  obtain ⟨k, hk⟩ : ∃ k : ℕ, k = 4294967295 := ⟨_, rfl⟩
  obtain ⟨r, hr⟩ : ∃ r : ℕ, spec.members.length = k + (1 + r) :=
    ⟨spec.members.length - 4294967296, by omega⟩
  have hfalse : fuseMembers spec (List.replicate k true ++ true :: List.replicate r false) =
      false := by
    unfold fuseMembers
    rw [hmode]
    dsimp only
    rw [countP_mostly, decide_eq_false_iff_not, UInt32.le_iff_toNat_le, UInt32.toNat_ofNat']
    intro hle
    have hwraps : (k + if true then 1 else 0) % 4294967296 = 0 := by
      rw [if_pos rfl, hk]
    have hzero : n.toNat = 0 := by
      have := hle.trans (le_of_eq hwraps)
      omega
    exact hn (UInt32.toNat_inj.mp hzero)
  have htrue : fuseMembers spec (List.replicate k true ++ false :: List.replicate r false) =
      true := by
    unfold fuseMembers
    rw [hmode]
    dsimp only
    rw [countP_mostly, decide_eq_true_eq, UInt32.le_iff_toNat_le, UInt32.toNat_ofNat']
    have hlt : n.toNat < 4294967296 := n.toNat_lt
    have hkept : (k + if false then 1 else 0) % 4294967296 = 4294967295 := by
      rw [if_neg Bool.false_ne_true, hk]
    exact (show n.toNat ≤ 4294967295 by omega).trans (le_of_eq hkept.symm)
  have hmore : List.Forall₂ Rises (List.replicate k true ++ false :: List.replicate r false)
      (List.replicate k true ++ true :: List.replicate r false) := by
    refine List.rel_append (forall₂_replicate _ _) (.cons ?_ (forall₂_replicate _ _))
    exact fun h => (by cases h)
  have hsame : (List.replicate k true ++ true :: List.replicate r false).length =
      spec.members.length := by
    rw [List.length_append, List.length_cons, List.length_replicate, List.length_replicate]
    omega
  rw [hrises _ _ hsame hmore htrue] at hfalse
  cases hfalse

theorem resolve_rises {spec : ZoneSpec} (hweights : WeightsNonneg spec) (hcounted : CountFits spec)
    {states states' : SensorId → Option (SensorState × ℕ)} {values values' : ZoneId → Option Bool}
    {policy policy' : UnavailablePolicy}
    (h : ∀ member ∈ spec.members, Rises (memberEffectiveBool member policy states values)
      (memberEffectiveBool member policy' states' values')) :
    Rises (resolveZoneWithPolicy spec states values policy)
      (resolveZoneWithPolicy spec states' values' policy') := by
  unfold resolveZoneWithPolicy
  split
  · exact fun h => h
  · refine fuseMembers_rises hweights hcounted (List.length_map _) ?_
    rw [List.forall₂_map_left_iff, List.forall₂_map_right_iff]
    exact List.forall₂_same.mpr h

/-! ## The graph -/

/-- The zones are evaluated bottom-up, so it is enough that every sensor rises where it is a
member. -/
theorem rises_bottom_up {order : List ZoneSpec} (horder : Ordered (·.id) ZoneSpec.zones [] order)
    (hweights : ∀ spec ∈ order, WeightsNonneg spec) (hcounted : ∀ spec ∈ order, CountFits spec)
    {states states' : SensorId → Option (SensorState × ℕ)} {values values' : ZoneId → Option Bool}
    (policy policy' : ZoneSpec → UnavailablePolicy)
    (hvalues : ∀ spec ∈ order,
      values spec.id = some (resolveZoneWithPolicy spec states values (policy spec)))
    (hvalues' : ∀ spec ∈ order,
      values' spec.id = some (resolveZoneWithPolicy spec states' values' (policy' spec)))
    (hsensors : ∀ spec ∈ order, ∀ sid, .sensor sid ∈ spec.members →
      Rises (memberEffectiveBool (.sensor sid) (policy spec) states values)
        (memberEffectiveBool (.sensor sid) (policy' spec) states' values')) :
    ∀ spec ∈ order, values spec.id = some true → values' spec.id = some true := by
  refine horder.forall (P := fun zone => values zone = some true → values' zone = some true)
    (by simp) ?_
  intro spec hspec hzones hpresent
  rw [hvalues spec hspec, Option.some.injEq] at hpresent
  rw [hvalues' spec hspec, Option.some.injEq]
  refine resolve_rises (hweights spec hspec) (hcounted spec hspec) ?_ hpresent
  intro member hmember
  cases member with
  | sensor sid => exact hsensors spec hspec sid hmember
  | zone zid =>
    have hrises := hzones zid (List.mem_filterMap.mpr ⟨_, hmember, rfl⟩)
    intro hvalue
    change (values zid).getD false = true at hvalue
    change (values' zid).getD false = true
    cases hzid : values zid with
    | none => rw [hzid] at hvalue; cases hvalue
    | some b =>
      rw [hzid, Option.getD_some] at hvalue
      subst hvalue
      rw [hrises hzid]
      rfl

/-- What a sensor in this state counts as. -/
def SensorState.counts (s : SensorState) (policy : UnavailablePolicy) : Bool :=
  s = .present ∨ s = .unavailable ∧ policy = .present

theorem member_sensor (sid : SensorId) (policy : UnavailablePolicy)
    (states : SensorId → Option (SensorState × ℕ)) (values : ZoneId → Option Bool) :
    memberEffectiveBool (.sensor sid) policy states values =
      (((states sid).map Prod.fst).getD .unavailable).counts policy := by
  unfold memberEffectiveBool SensorState.counts
  dsimp only
  cases ((states sid).map Prod.fst).getD .unavailable <;> cases policy <;> rfl

theorem SensorState.counts_of_absent {s : SensorState} {policy : UnavailablePolicy}
    (h : s.counts .absent = true) : s.counts policy = true := by
  cases s <;> cases policy <;> first | rfl | exact h

/-- At or below, in the order in which a sensor is absent or present. -/
def SensorState.AtOrBelow (s t : SensorState) : Prop := s = t ∨ s = .absent ∧ t = .present

/-- The sensor is a member of the zone, or of a zone nested in it. -/
def HasSensor (specs : List LoadedZone) (sid : SensorId) (zone : ZoneId) : Prop :=
  ∃ direct ∈ specs, .sensor sid ∈ direct.spec.members ∧
    Relation.ReflTransGen (MemberZone specs) direct.spec.id zone

/-- What is read of a sensor. -/
def ZoneEngine.stateOf (z : ZoneEngine) (sid : SensorId) : Option SensorState :=
  (z.sensorStates sid).map Prod.fst

structure FailsSafe (specs : List LoadedZone) (engine : ZoneEngine) : Prop where
  monotone : ∀ events events', (∀ sid s t, (engine.after events).stateOf sid = some s →
      (engine.after events').stateOf sid = some t → s.AtOrBelow t) →
    ∀ zone, (engine.after events).isPresent zone = some true →
      (engine.after events').isPresent zone = some true
  confirmed : ∀ events zone, (engine.after events).hasConfirmedPresence zone = true →
    (engine.after events).isPresent zone = some true
  unavailable : ∀ events ev, ev.state = .unavailable →
    (∀ zone ∈ specs, HasSensor specs ev.sensorId zone.spec.id →
      zone.spec.unavailablePolicy = .present) →
    ∀ zone, (engine.after events).isPresent zone = some true →
      ((engine.after events).apply ev).1.isPresent zone = some true

section
variable {order : List ZoneSpec} (horder : Ordered (·.id) ZoneSpec.zones [] order)
  (hweights : ∀ spec ∈ order, WeightsNonneg spec) (hcounted : ∀ spec ∈ order, CountFits spec)
include horder hweights hcounted

theorem fused_rises {states states' : SensorId → Option (SensorState × ℕ)} {z z' : ZoneEngine}
    (h : ZoneEngine.Fused order states z) (h' : ZoneEngine.Fused order states' z')
    (hsensors : ∀ spec ∈ order, ∀ sid, .sensor sid ∈ spec.members →
      Rises (memberEffectiveBool (.sensor sid) spec.unavailablePolicy states z.zonePresence)
        (memberEffectiveBool (.sensor sid) spec.unavailablePolicy states' z'.zonePresence))
    {zone : ZoneId} (hpresent : z.isPresent zone = some true) : z'.isPresent zone = some true := by
  by_cases hzone : zone ∈ order.map (·.id)
  · obtain ⟨spec, hspec, rfl⟩ := List.mem_map.mp hzone
    exact rises_bottom_up horder hweights hcounted (·.unavailablePolicy)
      (·.unavailablePolicy) h.settled h'.settled hsensors spec hspec hpresent
  · rw [h.unknown zone hzone] at hpresent
    cases hpresent

theorem confirmed_rises {states : SensorId → Option (SensorState × ℕ)} {z : ZoneEngine}
    (h : ZoneEngine.Fused order states z) {zone : ZoneId}
    (hconfirmed : z.hasConfirmedPresence zone = true) : z.isPresent zone = some true := by
  have hlocal (spec : ZoneSpec) (v v' : ZoneId → Option Bool)
      (hv : ∀ zone ∈ spec.zones, v zone = v' zone) :
      resolveZoneWithPolicy spec states v .absent = resolveZoneWithPolicy spec states v' .absent :=
    ZoneEngine.resolveZone_local states { spec with unavailablePolicy := .absent } v v' hv
  obtain ⟨hkept, hsettled⟩ := settled_sweep hlocal horder (fun _ => none)
  unfold ZoneEngine.hasConfirmedPresence at hconfirmed
  rw [h.evalOrder, h.sensors] at hconfirmed
  have hsome := Option.getD_eq_iff.mp hconfirmed
  have hpresent := hsome.resolve_right (by simp)
  by_cases hzone : zone ∈ order.map (·.id)
  · obtain ⟨spec, hspec, rfl⟩ := List.mem_map.mp hzone
    refine rises_bottom_up horder hweights hcounted (fun _ => .absent)
      (·.unavailablePolicy) hsettled h.settled ?_ spec hspec hpresent
    intro spec _ sid _ hsensor
    rw [member_sensor] at hsensor ⊢
    exact SensorState.counts_of_absent hsensor
  · exact absurd (hpresent.symm.trans (hkept zone hzone)) (by simp)

end

/-- Once accepted, the weights of a weighted zone are not negative. -/
theorem WellFormed.weightsNonneg {specs : List LoadedZone} {inventory : List SensorId}
    (h : WellFormed specs inventory) {zone : LoadedZone} (hzone : zone ∈ specs) :
    WeightsNonneg zone.exact.spec := by
  intro threshold hmode member
  cases hloaded : zone.spec.mode with
  | weighted loaded =>
    have hweights := (h.weighted zone hzone loaded hloaded).2
    show 0 ≤ ((zone.spec.weights member.key).map Single.exact).getD 1
    cases hweight : zone.spec.weights member.key with
    | none => exact zero_le_one
    | some weight =>
      obtain ⟨value, rfl, hvalue⟩ := hweights _ _ hweight
      exact hvalue
  | any =>
    rw [show zone.exact.spec.mode = .any from congrArg LoadedMode.exact hloaded] at hmode
    cases hmode
  | all =>
    rw [show zone.exact.spec.mode = .all from congrArg LoadedMode.exact hloaded] at hmode
    cases hmode
  | quorum n =>
    rw [show zone.exact.spec.mode = .quorum n from congrArg LoadedMode.exact hloaded] at hmode
    cases hmode

/-- One sensor once, the other one as often as said. -/
def crowd (n : UInt32) (k : ℕ) : LoadedZone where
  spec :=
    { id := ⟨"room"⟩
      mode := .quorum n
      members := .sensor ⟨"pir"⟩ :: List.replicate k (.sensor ⟨"mmwave"⟩)
      weights := fun _ => none
      unavailablePolicy := .present }
  weightKeys := []
  listed := by simp

def asGiven : LoadedOrder where
  specs l := l
  specs_perm _ := .rfl
  ids l := l
  ids_perm _ := .rfl
  loaded l := l
  loaded_perm _ := .rfl

def roomSensors : List SensorId := [⟨"pir"⟩, ⟨"mmwave"⟩]

theorem crowd_wellFormed (n : UInt32) (k : ℕ) : WellFormed [crowd n k] roomSensors where
  distinct := by simp
  sensors zone hzone sid hmember := by
    obtain rfl := List.mem_singleton.mp hzone
    cases List.mem_cons.mp hmember with
    | inl h => cases h; decide
    | inr h => cases List.eq_of_mem_replicate h; decide
  zones zone hzone zid hmember := by
    obtain rfl := List.mem_singleton.mp hzone
    cases List.mem_cons.mp hmember with
    | inl h => cases h
    | inr h => cases List.eq_of_mem_replicate h
  acyclic zone hcycle := by
    obtain ⟨_, _, loaded, hloaded, _, hmember⟩ := Relation.TransGen.tail'_iff.mp hcycle
    obtain rfl := List.mem_singleton.mp hloaded
    cases List.mem_cons.mp hmember with
    | inl h => cases h
    | inr h => cases List.eq_of_mem_replicate h
  weighted zone hzone threshold hmode := by
    obtain rfl := List.mem_singleton.mp hzone
    cases hmode

/-- Everybody is seen by the second sensor; the first one is told apart by its state. -/
def seenBy (pir : SensorState) : List PresenceEvent :=
  [⟨⟨"mmwave"⟩, .present, 1⟩, ⟨⟨"pir"⟩, pir, 2⟩]

theorem crowd_fused (k : ℕ) (pir : SensorState) :
    ZoneEngine.Fused [(crowd 1 k).exact.spec] (latestStates roomSensors 0 (seenBy pir))
      ((ZoneEngine.initial [(crowd 1 k).exact.spec] roomSensors 0).after (seenBy pir)) := by
  have hordered : Ordered (·.id) ZoneSpec.zones [] [(crowd 1 k).exact.spec] := by
    refine ⟨by simp, ?_, trivial⟩
    intro zone hzone
    obtain ⟨member, hmember, hid⟩ := List.mem_filterMap.mp hzone
    cases List.mem_cons.mp hmember with
    | inl h => subst h; cases hid
    | inr h => cases List.eq_of_mem_replicate h; cases hid
  exact ZoneEngine.fused_after hordered roomSensors 0 (seenBy pir)

theorem crowd_present (k : ℕ) (pir : SensorState) :
    ((ZoneEngine.initial [(crowd 1 k).exact.spec] roomSensors 0).after (seenBy pir)).isPresent
        ⟨"room"⟩ =
      some (decide (1 ≤ UInt32.ofNat (k + if pir.counts .present then 1 else 0))) := by
  have hpir : latestStates roomSensors 0 (seenBy pir) ⟨"pir"⟩ = some (pir, 2) := rfl
  have hmmwave : latestStates roomSensors 0 (seenBy pir) ⟨"mmwave"⟩ = some (.present, 1) := rfl
  refine ((crowd_fused k pir).settled _ List.mem_cons_self).trans (congrArg some ?_)
  show fuseMembers (crowd 1 k).exact.spec (List.map _ (_ :: List.replicate k _)) = _
  rw [List.map_cons, List.map_replicate, member_sensor, member_sensor, hpir, hmmwave]
  show decide (1 ≤ UInt32.ofNat (List.countP id (_ :: List.replicate k true))) = _
  rw [List.countP_cons, List.countP_replicate]
  rfl

end Dormant
