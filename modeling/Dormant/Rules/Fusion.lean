import Dormant.Rules.Sensors
import Dormant.Rules.ZoneSort
import Mathlib.Data.List.Induction

/-!
# What zone fusion means

A zone is fused from the presence of its members, and that of a nested zone is fused from its own.
`Evaluates` is this recursion over what the sensors said last. The engine keeps the presence of
every zone and overwrites it zone by zone, which comes to the same.
-/

namespace Dormant
set_option autoImplicit false

open BottomUp

/-- The value of a zone, evaluated from scratch. -/
inductive Evaluates (specs : List ZoneSpec) (states : SensorId → Option (SensorState × ℕ)) :
    ZoneId → Bool → Prop
  | zone {spec : ZoneSpec} (hspec : spec ∈ specs) (values : ZoneId → Bool)
      (hnested : ∀ zone ∈ spec.zones, Evaluates specs states zone (values zone)) :
      Evaluates specs states spec.id (resolveZone spec states fun zone => some (values zone))

/-- What the sensors of the inventory said last. -/
def latestStates (inventory : List SensorId) (now : ℕ) (events : List PresenceEvent)
    (sensor : SensorId) : Option (SensorState × ℕ) :=
  if sensor ∈ inventory then
    let last := events.reverse.find? fun ev => ev.sensorId = sensor
    some ((last.map fun ev => (ev.state, ev.stamp)).getD (.unavailable, now))
  else none

/-- A zone is a member of another one, or of a member of it. -/
def NestedIn (specs : List ZoneSpec) : ZoneId → ZoneId → Prop :=
  Relation.TransGen fun child zone => ∃ spec ∈ specs, spec.id = zone ∧ child ∈ spec.zones

namespace ZoneEngine

def after (z : ZoneEngine) (events : List PresenceEvent) : ZoneEngine :=
  events.foldl (fun z ev => (z.apply ev).1) z

theorem after_concat (z : ZoneEngine) (events : List PresenceEvent) (ev : PresenceEvent) :
    z.after (events ++ [ev]) = ((z.after events).apply ev).1 := by
  unfold after
  rw [List.foldl_append]
  rfl

/-! ## One sweep -/

theorem resolveZone_local (states : SensorId → Option (SensorState × ℕ)) (spec : ZoneSpec)
    (v v' : ZoneId → Option Bool) (h : ∀ zone ∈ spec.zones, v zone = v' zone) :
    resolveZone spec states v = resolveZone spec states v' := by
  unfold resolveZone resolveZoneWithPolicy
  split
  · rfl
  · refine congrArg (fuseMembers spec) (List.map_congr_left fun member hmember => ?_)
    cases member with
    | sensor sid => rfl
    | zone zid =>
      have hzone : zid ∈ spec.zones := List.mem_filterMap.mpr ⟨_, hmember, rfl⟩
      exact congrArg (·.getD false) (h zid hzone)

/-- The change of a zone that is reported, if it is one. -/
def changeOf (cause : SensorId) (old new : ZoneId → Option Bool) (spec : ZoneSpec) :
    Option ZoneChange :=
  if old spec.id = new spec.id then none
  else (new spec.id).map fun present => { zone := spec.id, present := present, cause := cause }

def sweepWith (states : SensorId → Option (SensorState × ℕ)) :=
  sweep (fun spec : ZoneSpec => spec.id) fun spec values => resolveZone spec states values

def SettledWith (states : SensorId → Option (SensorState × ℕ)) :=
  Settled (fun spec : ZoneSpec => spec.id) fun spec values => resolveZone spec states values

theorem settled_sweepWith {done : List ZoneId} {order : List ZoneSpec}
    (h : Ordered (·.id) ZoneSpec.zones done order) (states : SensorId → Option (SensorState × ℕ))
    (values : ZoneId → Option Bool) :
    (∀ zone, zone ∉ order.map (·.id) → order.foldl (sweepWith states) values zone = values zone) ∧
      ∀ spec ∈ order, SettledWith states (order.foldl (sweepWith states) values) spec :=
  settled_sweep (fun spec => resolveZone_local states spec) h values

theorem reresolve_eq (cause : SensorId) (states : SensorId → Option (SensorState × ℕ))
    (acc : (ZoneId → Option Bool) × List ZoneChange) (spec : ZoneSpec) :
    reresolve cause states acc spec = (sweepWith states acc.1 spec,
      acc.2 ++ (changeOf cause acc.1 (sweepWith states acc.1 spec) spec).toList) := by
  have hnew : sweepWith states acc.1 spec spec.id = some (resolveZone spec states acc.1) :=
    Function.update_self _ _ _
  unfold reresolve changeOf
  rw [hnew]
  dsimp only
  split
  · rename_i hsame
    have hkept : sweepWith states acc.1 spec = acc.1 := by
      unfold sweepWith sweep
      rw [← hsame, Function.update_eq_self]
    rw [hkept, Option.toList_none, List.append_nil]
  · rfl

theorem foldl_reresolve {done : List ZoneId} {order : List ZoneSpec}
    (h : Ordered (·.id) ZoneSpec.zones done order) (cause : SensorId)
    (states : SensorId → Option (SensorState × ℕ))
    (acc : (ZoneId → Option Bool) × List ZoneChange) :
    order.foldl (reresolve cause states) acc = (order.foldl (sweepWith states) acc.1,
      acc.2 ++ order.filterMap
        (changeOf cause acc.1 (order.foldl (sweepWith states) acc.1))) := by
  induction order generalizing done acc with
  | nil => simp
  | cons spec rest ih =>
    have hspec := (List.nodup_cons.mp h.fresh.2).1
    have hswept := (settled_sweepWith h.2.2 states (sweepWith states acc.1 spec)).1 spec.id hspec
    have hfirst : changeOf cause acc.1 ((spec :: rest).foldl (sweepWith states) acc.1) spec =
        changeOf cause acc.1 (sweepWith states acc.1 spec) spec := by
      unfold changeOf
      rw [List.foldl_cons, hswept]
    have hrest : ∀ n ∈ rest, changeOf cause (sweepWith states acc.1 spec)
        (rest.foldl (sweepWith states) (sweepWith states acc.1 spec)) n =
          changeOf cause acc.1 (rest.foldl (sweepWith states) (sweepWith states acc.1 spec)) n := by
      intro n hn
      have hne : n.id ≠ spec.id := fun heq => hspec (List.mem_map.mpr ⟨n, hn, heq⟩)
      have hkept : sweepWith states acc.1 spec n.id = acc.1 n.id := Function.update_of_ne hne _ _
      unfold changeOf
      rw [hkept]
    rw [List.foldl_cons, ih h.2.2, reresolve_eq]
    refine Prod.ext rfl ?_
    rw [List.append_assoc, List.filterMap_congr hrest]
    refine congrArg (acc.2 ++ ·) ?_
    rw [List.filterMap_cons, hfirst]
    cases changeOf cause acc.1 (sweepWith states acc.1 spec) spec <;> rfl

/-! ## The engine -/

/-- The engine holds the specs in a bottom-up order, knows the presence of its zones and of no
others, and that of each zone follows from its members. -/
structure Fused (order : List ZoneSpec) (states : SensorId → Option (SensorState × ℕ))
    (z : ZoneEngine) : Prop where
  evalOrder : z.evalOrder = order
  sensors : z.sensorStates = states
  settled : ∀ spec ∈ order, SettledWith states z.zonePresence spec
  unknown : ∀ zone, zone ∉ order.map (·.id) → z.isPresent zone = none

section
variable {order : List ZoneSpec} (horder : Ordered (·.id) ZoneSpec.zones [] order)
include horder

theorem fused_initial (inventory : List SensorId) (now : ℕ) :
    Fused order (latestStates inventory now []) (initial order inventory now) := by
  obtain ⟨hkept, hsettled⟩ :=
    settled_sweepWith horder (latestStates inventory now []) fun _ => none
  exact ⟨rfl, rfl, hsettled, hkept⟩

theorem fused_swept {states : SensorId → Option (SensorState × ℕ)} {z : ZoneEngine}
    (h : Fused order states z) (states' : SensorId → Option (SensorState × ℕ)) :
    Fused order states'
      { z with
        sensorStates := states', zonePresence := order.foldl (sweepWith states') z.zonePresence } := by
  obtain ⟨hkept, hsettled⟩ := settled_sweepWith horder states' z.zonePresence
  exact ⟨h.evalOrder, rfl, hsettled, fun zone hz => (hkept zone hz).trans (h.unknown zone hz)⟩

omit horder in
theorem apply_unknown {inventory : List SensorId} {now : ℕ} {events : List PresenceEvent}
    {z : ZoneEngine} (h : Fused order (latestStates inventory now events) z) {ev : PresenceEvent}
    (hunknown : ev.sensorId ∉ inventory) : z.apply ev = (z, []) := by
  have hnone : z.sensorStates ev.sensorId = none := by
    rw [h.sensors]
    exact if_neg hunknown
  unfold apply
  rw [hnone]
  rfl

/-- An event of a known sensor: one sweep, and the changes of it. -/
theorem apply_known {states : SensorId → Option (SensorState × ℕ)} {z : ZoneEngine}
    (h : Fused order states z) (ev : PresenceEvent) (hknown : (states ev.sensorId).isSome) :
    let states' := Function.update states ev.sensorId (some (ev.state, ev.stamp))
    z.apply ev =
      ({ z with
          sensorStates := states', zonePresence := order.foldl (sweepWith states') z.zonePresence },
        order.filterMap (changeOf ev.sensorId z.zonePresence
          (order.foldl (sweepWith states') z.zonePresence))) := by
  have hsensor : (z.sensorStates ev.sensorId).isNone = false := by
    rw [h.sensors]
    exact Option.isNone_eq_false_iff.mpr hknown
  unfold apply
  rw [hsensor, h.sensors, h.evalOrder, if_neg Bool.false_ne_true]
  dsimp only
  rw [foldl_reresolve horder, List.nil_append]

theorem evaluates_iff {states : SensorId → Option (SensorState × ℕ)} {z : ZoneEngine}
    (h : Fused order states z) (zone : ZoneId) (present : Bool) :
    z.isPresent zone = some present ↔ Evaluates order states zone present := by
  constructor
  · intro hpresent
    have hall : ∀ spec ∈ order,
        ∃ b, z.isPresent spec.id = some b ∧ Evaluates order states spec.id b := by
      refine horder.forall (P := fun zone =>
        ∃ b, z.isPresent zone = some b ∧ Evaluates order states zone b) (by simp) ?_
      intro spec hspec hzones
      have hevaluates := Evaluates.zone hspec (fun zone => (z.isPresent zone).getD false)
        fun zone hz => by
          obtain ⟨b, hb, hevaluated⟩ := hzones zone hz
          rw [hb]
          exact hevaluated
      rw [resolveZone_local states spec _ z.zonePresence fun zone hz => ?_] at hevaluates
      · exact ⟨_, h.settled spec hspec, hevaluates⟩
      · obtain ⟨b, hb, -⟩ := hzones zone hz
        rw [hb]
        exact hb.symm
    by_cases hzone : zone ∈ order.map (·.id)
    · obtain ⟨spec, hspec, rfl⟩ := List.mem_map.mp hzone
      obtain ⟨b, hb, hevaluates⟩ := hall spec hspec
      rw [hpresent] at hb
      obtain rfl := Option.some.inj hb
      exact hevaluates
    · rw [h.unknown zone hzone] at hpresent
      cases hpresent
  · intro hevaluates
    induction hevaluates with
    | @zone spec hspec values hnested ih =>
      have hsettled : z.isPresent spec.id = some (resolveZone spec states z.zonePresence) :=
        h.settled spec hspec
      rw [hsettled, resolveZone_local states spec z.zonePresence _ ih]

/-! ## Over a run -/

omit horder in
theorem latestStates_other (inventory : List SensorId) (now : ℕ) (events : List PresenceEvent)
    {ev : PresenceEvent} {sensor : SensorId} (hs : sensor ≠ ev.sensorId) :
    latestStates inventory now (events ++ [ev]) sensor =
      latestStates inventory now events sensor := by
  unfold latestStates
  rw [List.reverse_append, List.reverse_singleton, List.singleton_append,
    List.find?_cons_of_neg (by simpa using Ne.symm hs)]

omit horder in
theorem latestStates_concat (inventory : List SensorId) (now : ℕ) (events : List PresenceEvent)
    (ev : PresenceEvent) :
    latestStates inventory now (events ++ [ev]) =
      if ev.sensorId ∈ inventory then
        Function.update (latestStates inventory now events) ev.sensorId (some (ev.state, ev.stamp))
      else latestStates inventory now events := by
  funext sensor
  by_cases hs : sensor = ev.sensorId
  · subst hs
    by_cases hin : ev.sensorId ∈ inventory
    · rw [if_pos hin, Function.update_self]
      unfold latestStates
      rw [if_pos hin, List.reverse_append, List.reverse_singleton, List.singleton_append,
        List.find?_cons_of_pos (by simp)]
      rfl
    · rw [if_neg hin]
      unfold latestStates
      rw [if_neg hin, if_neg hin]
  · rw [latestStates_other _ _ _ hs]
    split
    · rw [Function.update_of_ne hs]
    · rfl

omit horder in
theorem latestStates_known {inventory : List SensorId} {sensor : SensorId} (h : sensor ∈ inventory)
    (now : ℕ) (events : List PresenceEvent) : (latestStates inventory now events sensor).isSome := by
  unfold latestStates
  rw [if_pos h]
  rfl

theorem apply_changes {inventory : List SensorId} {now : ℕ} {events : List PresenceEvent}
    {z : ZoneEngine} (h : Fused order (latestStates inventory now events) z) (ev : PresenceEvent) :
    (z.apply ev).2 =
      order.filterMap (changeOf ev.sensorId z.zonePresence (z.apply ev).1.zonePresence) := by
  by_cases hknown : ev.sensorId ∈ inventory
  · rw [apply_known horder h ev (latestStates_known hknown now events)]
  · rw [apply_unknown h hknown]
    exact (List.filterMap_eq_nil_iff.mpr fun spec _ => if_pos rfl).symm

theorem fused_after (inventory : List SensorId) (now : ℕ) (events : List PresenceEvent) :
    Fused order (latestStates inventory now events) ((initial order inventory now).after events) := by
  induction events using List.reverseRecOn with
  | nil => exact fused_initial horder inventory now
  | append_singleton events ev ih =>
    rw [after_concat, latestStates_concat]
    split
    · rename_i hknown
      rw [apply_known horder ih ev (latestStates_known hknown now events)]
      exact fused_swept horder ih _
    · rename_i hunknown
      rw [apply_unknown ih hunknown]
      exact ih

end

/-! ## What is reported -/

/-- The zones that changed, each with its new value, once, and after the zones it is made of. -/
structure Reports (specs : List ZoneSpec) (cause : SensorId) (before after : ZoneEngine)
    (changes : List ZoneChange) : Prop where
  changed : ∀ change, change ∈ changes ↔ change.cause = cause ∧
    after.isPresent change.zone = some change.present ∧
    before.isPresent change.zone ≠ after.isPresent change.zone
  once : (changes.map (·.zone)).Nodup
  nestedFirst : changes.Pairwise fun a b => ¬ NestedIn specs b.zone a.zone

theorem changeOf_eq_some {cause : SensorId} {old new : ZoneId → Option Bool} {spec : ZoneSpec}
    {change : ZoneChange} :
    changeOf cause old new spec = some change ↔ change.zone = spec.id ∧ change.cause = cause ∧
      new spec.id = some change.present ∧ old spec.id ≠ new spec.id := by
  unfold changeOf
  split
  · rename_i hsame
    exact ⟨fun h => (by cases h), fun h => absurd hsame h.2.2.2⟩
  · rename_i hne
    rw [Option.map_eq_some_iff]
    constructor
    · rintro ⟨present, hpresent, rfl⟩
      exact ⟨rfl, rfl, hpresent, hne⟩
    · rintro ⟨hzone, hcause, hpresent, -⟩
      exact ⟨change.present, hpresent, by rw [← hzone, ← hcause]⟩

theorem reports_changes {order specs : List ZoneSpec} (hperm : order.Perm specs)
    (horder : Ordered (·.id) ZoneSpec.zones [] order) {cause : SensorId} {before after : ZoneEngine}
    (hunknown : ∀ zone, zone ∉ order.map (·.id) → after.isPresent zone = none) :
    Reports specs cause before after
      (order.filterMap (changeOf cause before.zonePresence after.zonePresence)) := by
  have hnodup := horder.fresh.2
  have hzone {spec : ZoneSpec} {change : ZoneChange}
      (h : changeOf cause before.zonePresence after.zonePresence spec = some change) :
      change.zone = spec.id := (changeOf_eq_some.mp h).1
  refine ⟨fun change => ?_, ?_, ?_⟩
  · rw [List.mem_filterMap]
    constructor
    · rintro ⟨spec, hspec, hchange⟩
      obtain ⟨hid, hcause, hpresent, hne⟩ := changeOf_eq_some.mp hchange
      rw [hid]
      exact ⟨hcause, hpresent, hne⟩
    · rintro ⟨hcause, hpresent, hne⟩
      have hknown : change.zone ∈ order.map (·.id) := by
        by_contra hzone
        rw [hunknown _ hzone] at hpresent
        cases hpresent
      obtain ⟨spec, hspec, hid⟩ := List.mem_map.mp hknown
      refine ⟨spec, hspec, changeOf_eq_some.mpr ⟨hid.symm, hcause, ?_⟩⟩
      rw [hid]
      exact ⟨hpresent, hne⟩
  · refine List.pairwise_map.mpr ((List.pairwise_map.mp hnodup).filterMap _ ?_)
    intro a b hne x hx y hy
    rw [hzone hx, hzone hy]
    exact hne
  · have hnested : ∀ n ∈ order, ∀ c, (∃ spec ∈ specs, spec.id = n.id ∧ c ∈ spec.zones) →
        c ∈ n.zones := by
      rintro n hn c ⟨spec, hspec, hid, hc⟩
      have hsame := List.inj_on_of_nodup_map hnodup (hperm.mem_iff.mpr hspec) hn hid
      exact hsame ▸ hc
    have hpairwise := horder.pairwise
      (R := fun child zone => ∃ spec ∈ specs, spec.id = zone ∧ child ∈ spec.zones) hnested (by simp)
    refine hpairwise.filterMap _ ?_
    intro a b hne x hx y hy
    rw [hzone hx, hzone hy]
    exact hne

end ZoneEngine

theorem Evaluates.congr {specs specs' : List ZoneSpec} (h : ∀ spec ∈ specs, spec ∈ specs')
    {states : SensorId → Option (SensorState × ℕ)} {zone : ZoneId} {present : Bool}
    (he : Evaluates specs states zone present) : Evaluates specs' states zone present := by
  induction he with
  | zone hspec values _ ih => exact .zone (h _ hspec) values ih

/-- After every event, each zone is what it evaluates to from scratch; what changed is reported,
and an unknown sensor changes nothing. -/
theorem fusion_recursive {order : HashOrder} {specs : List ZoneEntry} {inventory : List SensorId}
    {now : ℕ} {engine : ZoneEngine}
    (hnew : ZoneEngine.new order specs inventory now = some (.ok engine))
    (events : List PresenceEvent) (ev : PresenceEvent) :
    let before := engine.after events
    let applied := before.apply ev
    let states := latestStates inventory now (events ++ [ev])
    (∀ entry ∈ specs, (applied.1.isPresent entry.spec.id).isSome) ∧
      (∀ zone present, applied.1.isPresent zone = some present ↔
        Evaluates (specs.map (·.spec)) states zone present) ∧
      ZoneEngine.Reports (specs.map (·.spec)) ev.sensorId before applied.1 applied.2 ∧
      (ev.sensorId ∉ inventory → applied = (before, [])) := by
  obtain ⟨evalOrder, rfl, hperm, horder⟩ := ZoneEngine.new_sorted hnew
  intro before applied states
  have hbefore := ZoneEngine.fused_after horder inventory now events
  have hafter := ZoneEngine.fused_after horder inventory now (events ++ [ev])
  rw [ZoneEngine.after_concat] at hafter
  refine ⟨fun entry he => ?_, fun zone present => ?_, ?_, fun hunknown => ?_⟩
  · have hspec := hperm.mem_iff.mpr (List.mem_map_of_mem (f := ZoneEntry.spec) he)
    exact Option.isSome_iff_exists.mpr ⟨_, hafter.settled _ hspec⟩
  · rw [ZoneEngine.evaluates_iff horder hafter]
    exact ⟨.congr fun spec hs => hperm.mem_iff.mp hs, .congr fun spec hs => hperm.mem_iff.mpr hs⟩
  · have hchanges : applied.2 = _ := ZoneEngine.apply_changes horder hbefore ev
    rw [hchanges]
    exact ZoneEngine.reports_changes hperm horder hafter.unknown
  · exact ZoneEngine.apply_unknown hbefore hunknown

/-- Two rooms on one floor, the hall listed twice. -/
def floorEntries : List ZoneEntry :=
  [{ spec :=
       { id := ⟨"floor"⟩
         mode := .quorum 2
         members := [.zone ⟨"hall"⟩, .zone ⟨"study"⟩, .zone ⟨"hall"⟩]
         weights := fun _ => none
         unavailablePolicy := .present }
     weightKeys := []
     listed := by simp },
   { spec :=
       { id := ⟨"study"⟩
         mode := .any
         members := [.sensor ⟨"mmwave"⟩, .zone ⟨"hall"⟩]
         weights := fun _ => none
         unavailablePolicy := .absent }
     weightKeys := []
     listed := by simp },
   { spec :=
       { id := ⟨"hall"⟩
         mode := .all
         members := [.sensor ⟨"pir"⟩]
         weights := fun _ => none
         unavailablePolicy := .absent }
     weightKeys := []
     listed := by simp }]

def asFilled : HashOrder where
  specs l := l
  specs_perm _ := .rfl
  ids l := l
  ids_perm _ := .rfl

theorem fusion_recursive_floor : ∃ engine,
    ZoneEngine.new asFilled floorEntries [⟨"mmwave"⟩, ⟨"pir"⟩] 0 = some (.ok engine) ∧
      (engine.apply ⟨⟨"pir"⟩, .present, 1⟩).2.map (·.zone) = [⟨"hall"⟩, ⟨"study"⟩, ⟨"floor"⟩] ∧
      ∀ zone present, (engine.apply ⟨⟨"pir"⟩, .present, 1⟩).1.isPresent zone = some present ↔
        Evaluates (floorEntries.map (·.spec))
          (latestStates [⟨"mmwave"⟩, ⟨"pir"⟩] 0 [⟨⟨"pir"⟩, .present, 1⟩]) zone present := by
  have hnew : ZoneEngine.new asFilled floorEntries [⟨"mmwave"⟩, ⟨"pir"⟩] 0 =
      some (.ok (.initial (floorEntries.map (·.spec)).reverse [⟨"mmwave"⟩, ⟨"pir"⟩] 0)) := rfl
  exact ⟨_, hnew, by decide, (fusion_recursive hnew [] _).2.1⟩

end Dormant
