import Dormant.Foundations.Mirror
import Dormant.Publish.Topics
import Dormant.Rules.Broadcast

/-!
# The records of the publisher

The pure half of `state_publisher.rs`: what a snapshot, an event and a flush make of the state.
The JSON of a discovery config is named by the entity that it is of, and a phase payload by the
phase in it.
-/

namespace Dormant
set_option autoImplicit false

namespace Publisher

inductive Payload where
  | word (text : String)
  | phase (phase : String)
  | discovery (topic : String)
  deriving DecidableEq

structure PublishRecord where
  topic : String
  payload : Payload
  qos : ℕ
  retain : Bool
  deriving DecidableEq

/-! ## Entities -/

/-- Each topic id goes to the first key that sanitizes to it. The ids that are taken come first. -/
def firstWins (seen : List String) : List String → List String × List String
  | [] => (seen, [])
  | raw :: raws =>
    let id := sanitizeTopicId raw
    if id ∈ seen then firstWins seen raws
    else
      let rest := firstWins (id :: seen) raws
      (rest.1, raw :: rest.2)

structure Winners where
  sensors : List String
  zones : List String
  displays : List String

/-- One gate for the three kinds, sensors before zones before displays. -/
def winners (cfg : Config) : Winners :=
  let sensors := firstWins [] (cfg.sensors.map (·.id))
  let zones := firstWins sensors.1 (cfg.zones.map (·.id))
  let displays := firstWins zones.1 (cfg.displays.map (·.id))
  ⟨sensors.2, zones.2, displays.2⟩

/-! ## Records -/

def globalOnlineRecord (cfg : Config) (inst : String) : Option PublishRecord :=
  if cfg.publish.enabled then
    some ⟨topicAvailability (sanitizeTopicId cfg.publish.baseTopic) (sanitizeTopicId inst),
      .word "online", 1, true⟩
  else none

def discoveryRecords (cfg : Config) (inst : String) : List PublishRecord :=
  if cfg.publish.enabled then
    let inst := sanitizeTopicId inst
    let discovery := sanitizeTopicId cfg.publish.discoveryPrefix
    let record (topic : String) : PublishRecord := ⟨topic, .discovery topic, 1, true⟩
    (winners cfg).sensors.map
        (fun raw => record (topicDiscoverySensor discovery inst (sanitizeTopicId raw))) ++
      ((winners cfg).zones.map
        (fun raw => record (topicDiscoveryZone discovery inst (sanitizeTopicId raw))) ++
      (winners cfg).displays.map
        (fun raw => record (topicDiscoveryDisplay discovery inst (sanitizeTopicId raw))))
  else []

def statePayload : SensorState → Payload
  | .present => .word "ON"
  | .absent | .unavailable => .word "OFF"

def availabilityPayload : SensorState → Payload
  | .present | .absent => .word "online"
  | .unavailable => .word "offline"

def zonePayload (present : Bool) : Payload := .word (if present then "ON" else "OFF")

def stateRecord (topic : String) (state : SensorState) : PublishRecord :=
  ⟨topic, statePayload state, 1, true⟩

def availabilityRecord (topic : String) (state : SensorState) : PublishRecord :=
  ⟨topic, availabilityPayload state, 1, true⟩

def snapshotRecords (cfg : Config) (snapshot : RulesEngine.StateSnapshot) (inst : String) :
    List PublishRecord :=
  if cfg.publish.enabled then
    let base := sanitizeTopicId cfg.publish.baseTopic
    let inst := sanitizeTopicId inst
    (snapshot.sensors.flatMap fun row =>
        if row.1.id ∈ (winners cfg).sensors then
          [stateRecord (topicSensorState base inst (sanitizeTopicId row.1.id)) row.2,
            availabilityRecord (topicSensorAvailability base inst (sanitizeTopicId row.1.id)) row.2]
        else []) ++
      ((snapshot.zones.flatMap fun row =>
        if row.1.id ∈ (winners cfg).zones then
          [⟨topicZoneState base inst (sanitizeTopicId row.1.id),
            zonePayload (row.2.getD false), 1, true⟩]
        else []) ++
      (snapshot.displays.flatMap fun row =>
        if row.1.id ∈ (winners cfg).displays then
          [⟨topicDisplayPhase base inst (sanitizeTopicId row.1.id), .phase row.2, 1, true⟩]
        else []))
  else []

def eventRecords (cfg : Config) (event : DaemonEvent) (inst : String) : List PublishRecord :=
  if cfg.publish.enabled then
    let base := sanitizeTopicId cfg.publish.baseTopic
    let inst := sanitizeTopicId inst
    match event with
    | .sensorChanged sensor state =>
      [stateRecord (topicSensorState base inst (sanitizeTopicId sensor.id)) state,
        availabilityRecord (topicSensorAvailability base inst (sanitizeTopicId sensor.id)) state]
    | .zoneChanged zone present _ =>
      [⟨topicZoneState base inst (sanitizeTopicId zone.id), zonePayload present, 1, true⟩]
    | .displayPhase display phase _ _ =>
      [⟨topicDisplayPhase base inst (sanitizeTopicId display.id), .phase phase, 1, true⟩]
    | _ => []
  else []

/-- What a record does to the retained topics. -/
def PublishRecord.write? (r : PublishRecord) : Option (String × Payload) :=
  if r.retain then some (r.topic, r.payload) else none

def writes (records : List PublishRecord) : List (String × Payload) :=
  records.filterMap PublishRecord.write?

/-! ## What the records say -/

/-- The payload that a snapshot gives a feature. -/
def now (s : RulesEngine.StateSnapshot) : Feature → Option Payload
  | .availability => some (.word "online")
  | .sensorState sensor => (s.sensors.lookup sensor).map statePayload
  | .sensorAvailability sensor => (s.sensors.lookup sensor).map availabilityPayload
  | .zoneState zone => (s.zones.lookup zone).map fun present => zonePayload (present.getD false)
  | .displayPhase display => (s.displays.lookup display).map .phase

/-- The feature is of a key that has its topic id. -/
def Feature.wins (cfg : Config) : Feature → Bool
  | .availability => true
  | .sensorState sensor | .sensorAvailability sensor => sensor.id ∈ (winners cfg).sensors
  | .zoneState zone => zone.id ∈ (winners cfg).zones
  | .displayPhase display => display.id ∈ (winners cfg).displays

/-- A snapshot as a table of features. -/
def rows (s : RulesEngine.StateSnapshot) : List (Feature × Payload) :=
  (s.sensors.flatMap fun row => [(.sensorState row.1, statePayload row.2),
      (.sensorAvailability row.1, availabilityPayload row.2)]) ++
    (s.zones.flatMap (fun row => [(.zoneState row.1, zonePayload (row.2.getD false))]) ++
      s.displays.flatMap fun row => [(.displayPhase row.1, .phase row.2)])

/-- The features that an event is about. -/
def changed : DaemonEvent → List (Feature × Payload)
  | .sensorChanged sensor state => [(.sensorState sensor, statePayload state),
      (.sensorAvailability sensor, availabilityPayload state)]
  | .zoneChanged zone present _ => [(.zoneState zone, zonePayload present)]
  | .displayPhase display phase _ _ => [(.displayPhase display, .phase phase)]
  | _ => []

section Enabled
variable {cfg : Config} (henabled : cfg.publish.enabled = true)

theorem writes_append (a b : List PublishRecord) : writes (a ++ b) = writes a ++ writes b :=
  List.filterMap_append

include henabled in
theorem writes_eventRecords (event : DaemonEvent) :
    writes (eventRecords cfg event cfg.inst) =
      (changed event).map fun row => (row.1.topic cfg, row.2) := by
  rw [eventRecords, if_pos henabled, Config.inst, sanitizeTopicId_twice]
  cases event <;> rfl

theorem writes_flatMap {α : Type} (rows : List α) (records : α → List PublishRecord)
    (features : α → List (Feature × Payload))
    (h : ∀ row, writes (records row) = ((features row).filter fun r => r.1.wins cfg).map
      fun r => (r.1.topic cfg, r.2)) :
    writes (rows.flatMap records) = ((rows.flatMap features).filter fun r => r.1.wins cfg).map
      fun r => (r.1.topic cfg, r.2) := by
  induction rows with
  | nil => rfl
  | cons row rows ih =>
    rw [List.flatMap_cons, List.flatMap_cons, writes_append, List.filter_append, List.map_append,
      h, ih]

include henabled in
/-- A snapshot's records are its rows, as far as they have their topic. -/
theorem writes_snapshotRecords (s : RulesEngine.StateSnapshot) :
    writes (snapshotRecords cfg s cfg.inst) =
      ((rows s).filter fun row => row.1.wins cfg).map fun row => (row.1.topic cfg, row.2) := by
  rw [snapshotRecords, if_pos henabled, Config.inst, sanitizeTopicId_twice]
  simp only [rows, List.filter_append, List.map_append, writes_append]
  congr 1
  · apply writes_flatMap
    intro row
    by_cases h : row.1.id ∈ (winners cfg).sensors <;> simp [h, Feature.wins] <;> rfl
  · congr 1
    · apply writes_flatMap
      intro row
      by_cases h : row.1.id ∈ (winners cfg).zones <;> simp [h, Feature.wins] <;> rfl
    · apply writes_flatMap
      intro row
      by_cases h : row.1.id ∈ (winners cfg).displays <;> simp [h, Feature.wins] <;> rfl

/-! ## One topic, one feature -/

theorem notMem_of_firstWins {seen raws : List String} {raw : String}
    (h : raw ∈ (firstWins seen raws).2) : sanitizeTopicId raw ∉ seen := by
  induction raws generalizing seen with
  | nil => cases h
  | cons first raws ih =>
    rw [firstWins] at h
    dsimp only at h
    split at h
    · exact ih h
    · rename_i hfree
      obtain rfl | h := List.mem_cons.mp h
      · exact hfree
      · exact fun hseen => ih h (List.mem_cons_of_mem _ hseen)

theorem firstWins_unique {seen raws : List String} {a b : String}
    (ha : a ∈ (firstWins seen raws).2) (hb : b ∈ (firstWins seen raws).2)
    (h : sanitizeTopicId a = sanitizeTopicId b) : a = b := by
  induction raws generalizing seen with
  | nil => cases ha
  | cons first raws ih =>
    rw [firstWins] at ha hb
    dsimp only at ha hb
    split at ha
    · rename_i hseen
      rw [if_pos hseen] at hb
      exact ih ha hb
    · rename_i hfree
      rw [if_neg hfree] at hb
      obtain rfl | ha := List.mem_cons.mp ha
      · obtain rfl | hb := List.mem_cons.mp hb
        · rfl
        · exact absurd (h ▸ List.mem_cons_self) (notMem_of_firstWins hb)
      · obtain rfl | hb := List.mem_cons.mp hb
        · exact absurd (h ▸ List.mem_cons_self) (notMem_of_firstWins ha)
        · exact ih ha hb

/-- Of the features with one topic at most one has it. -/
theorem eq_of_topic {f g : Feature} (hf : f.wins cfg = true) (hg : g.wins cfg = true)
    (h : f.topic cfg = g.topic cfg) : f = g := by
  have hsanitized := sanitized_of_topic h
  have hunique {a b : String} {seen raws : List String}
      (ha : decide (a ∈ (firstWins seen raws).2) = true)
      (hb : decide (b ∈ (firstWins seen raws).2) = true)
      (hab : sanitizeTopicId a = sanitizeTopicId b) : a = b :=
    firstWins_unique (of_decide_eq_true ha) (of_decide_eq_true hb) hab
  cases f <;> cases g <;>
    simp only [Feature.sanitized, Feature.wins, winners, reduceCtorEq,
      Feature.sensorState.injEq, Feature.sensorAvailability.injEq, Feature.zoneState.injEq,
      Feature.displayPhase.injEq, SensorId.mk.injEq, ZoneId.mk.injEq, DisplayId.mk.injEq]
      at hsanitized hf hg ⊢
  · exact congrArg SensorId.mk (hunique hf hg hsanitized)
  · exact congrArg SensorId.mk (hunique hf hg hsanitized)
  · exact congrArg ZoneId.mk (hunique hf hg hsanitized)
  · exact congrArg DisplayId.mk (hunique hf hg hsanitized)

/-! ## What the records come to -/

theorem lookup_setRow {α β : Type} [DecidableEq α] (rows : List (α × β)) (a : α) (b : β) (k : α) :
    (setRow rows a b).lookup k =
      if k = a then (rows.lookup k).map fun _ => b else rows.lookup k := by
  induction rows with
  | nil => simp [setRow]
  | cons row rows ih =>
    rw [setRow, List.map_cons, ← setRow]
    by_cases hrow : row.1 = a
    · rw [if_pos hrow, List.lookup_cons, List.lookup_cons, hrow, ih]
      by_cases hk : k = a
      · simp [hk]
      · have hka : (k == a) = false := by simpa using hk
        rw [hka, if_neg hk]
    · rw [if_neg hrow, List.lookup_cons, List.lookup_cons, ih]
      by_cases hk : k = row.1
      · have hka : k ≠ a := fun h => hrow (hk ▸ h)
        rw [if_neg hka]
        simp [hk, hrow]
      · have hkr : (k == row.1) = false := by simpa using hk
        rw [hkr]

theorem mem_of_lookup {α β : Type} [DecidableEq α] {rows : List (α × β)} {a : α} {b : β}
    (h : rows.lookup a = some b) : (a, b) ∈ rows := by
  induction rows with
  | nil => cases h
  | cons row rows ih =>
    rw [List.lookup_cons] at h
    by_cases hrow : a = row.1
    · subst hrow
      simp only [beq_self_eq_true, Option.some.injEq] at h
      subst h
      exact List.mem_cons_self
    · have hne : (a == row.1) = false := by simpa using hrow
      rw [hne] at h
      exact List.mem_cons_of_mem _ (ih h)

theorem lookup_told {α β : Type} [DecidableEq α] {rows : List (α × β)} {k : α} {g : β → Payload}
    (hlisted : ((rows.lookup k).map g).isSome = true) (a : α) (b : β) :
    (if a = k then some (g b) else (rows.lookup k).map g) =
      ((setRow rows a b).lookup k).map g := by
  rw [lookup_setRow]
  by_cases h : a = k
  · rw [Option.isSome_map] at hlisted
    obtain ⟨v, hv⟩ := Option.isSome_iff_exists.mp hlisted
    rw [if_pos h, if_pos h.symm, hv]
    rfl
  · rw [if_neg h, if_neg (Ne.symm h)]

/-- An event changes the features that it is about, and no others. -/
theorem shownAfter_changed {s : RulesEngine.StateSnapshot} {f : Feature}
    (hlisted : (now s f).isSome = true) (event : DaemonEvent) :
    Mirror.shownAfter (changed event) f (now s f) = now (s.hear event) f := by
  cases event <;> cases f <;>
    simp only [changed, now, RulesEngine.StateSnapshot.hear, Mirror.shownAfter, List.foldl_cons,
      List.foldl_nil, reduceCtorEq, if_false, Feature.sensorState.injEq,
      Feature.sensorAvailability.injEq, Feature.zoneState.injEq,
      Feature.displayPhase.injEq] at hlisted ⊢
  case zoneChanged.zoneState => exact lookup_told hlisted _ (some _)
  all_goals exact lookup_told hlisted _ _

/-- No key has two rows that differ. -/
structure Single (s : RulesEngine.StateSnapshot) : Prop where
  sensors : ∀ a b b', (a, b) ∈ s.sensors → (a, b') ∈ s.sensors → b = b'
  zones : ∀ a b b', (a, b) ∈ s.zones → (a, b') ∈ s.zones → b = b'
  displays : ∀ a b b', (a, b) ∈ s.displays → (a, b') ∈ s.displays → b = b'

theorem single_sendSnapshot (e : RulesEngine) : Single e.sendSnapshot where
  sensors a b b' h h' := by
    obtain ⟨k, -, hk⟩ := List.mem_map.mp h
    obtain ⟨k', -, hk'⟩ := List.mem_map.mp h'
    rw [Prod.mk.injEq] at hk hk'
    rw [← hk.2, ← hk'.2, hk.1, hk'.1]
  zones a b b' h h' := by
    obtain ⟨k, -, hk⟩ := List.mem_map.mp h
    obtain ⟨k', -, hk'⟩ := List.mem_map.mp h'
    rw [Prod.mk.injEq] at hk hk'
    rw [← hk.2, ← hk'.2, hk.1, hk'.1]
  displays a b b' h h' := by
    obtain ⟨k, -, hk⟩ := List.mem_filterMap.mp h
    obtain ⟨k', -, hk'⟩ := List.mem_filterMap.mp h'
    obtain ⟨phase, hphase, hrow⟩ := Option.map_eq_some_iff.mp hk
    obtain ⟨phase', hphase', hrow'⟩ := Option.map_eq_some_iff.mp hk'
    rw [Prod.mk.injEq] at hrow hrow'
    rw [hrow.1] at hphase
    rw [hrow'.1, hphase] at hphase'
    rw [← hrow.2, ← hrow'.2]
    exact Option.some.inj hphase'

theorem row_of_lookup {α β : Type} [DecidableEq α] {table : List (α × β)} {k : α}
    {g : β → Payload} {P : Payload → Prop} {v : Payload}
    (hP : ∀ v, P v ↔ ∃ b, (k, b) ∈ table ∧ v = g b)
    (hs : ∀ a b b', (a, b) ∈ table → (a, b') ∈ table → b = b')
    (hv : (table.lookup k).map g = some v) : P v ∧ ∀ v', P v' → v' = v := by
  obtain ⟨b, hb, rfl⟩ := Option.map_eq_some_iff.mp hv
  have hmem := mem_of_lookup hb
  refine ⟨(hP _).mpr ⟨b, hmem, rfl⟩, fun v' hv' => ?_⟩
  obtain ⟨b', hmem', rfl⟩ := (hP v').mp hv'
  rw [hs k b b' hmem hmem']

/-- The rows of a feature say what holds of it, and there is one if it is listed. -/
theorem rows_spec {s : RulesEngine.StateSnapshot} (hs : Single s) {f : Feature} {v : Payload}
    (hf : f ≠ .availability) (hv : now s f = some v) :
    (f, v) ∈ rows s ∧ ∀ v', (f, v') ∈ rows s → v' = v := by
  cases f with
  | availability => exact absurd rfl hf
  | sensorState a =>
    exact row_of_lookup (P := fun v => (.sensorState a, v) ∈ rows s) (by simp [rows]) hs.sensors hv
  | sensorAvailability a =>
    exact row_of_lookup (P := fun v => (.sensorAvailability a, v) ∈ rows s) (by simp [rows])
      hs.sensors hv
  | zoneState a =>
    exact row_of_lookup (P := fun v => (.zoneState a, v) ∈ rows s) (by simp [rows]) hs.zones hv
  | displayPhase a =>
    refine row_of_lookup (P := fun v => (.displayPhase a, v) ∈ rows s) (fun v => ?_) hs.displays hv
    simp only [rows, List.mem_append, List.mem_flatMap, List.mem_cons, List.not_mem_nil, or_false,
      Prod.mk.injEq, reduceCtorEq, false_and, and_false, exists_false, false_or]
    constructor
    · rintro ⟨row, hrow, hrow', rfl⟩
      obtain rfl := Feature.displayPhase.inj hrow'
      exact ⟨row.2, hrow, rfl⟩
    · rintro ⟨b, hb, rfl⟩
      exact ⟨(a, b), hb, rfl, rfl⟩

include henabled in
/-- The records of a snapshot restore every feature that it lists and that has its topic. -/
theorem restores_snapshotRecords {s : RulesEngine.StateSnapshot} (hs : Single s) {f : Feature}
    (hf : f ≠ .availability) (hwins : f.wins cfg = true) (hlisted : (now s f).isSome = true) :
    Mirror.Restores (writes (snapshotRecords cfg s cfg.inst)) (f.topic cfg) (now s f) := by
  obtain ⟨v, hv⟩ := Option.isSome_iff_exists.mp hlisted
  obtain ⟨hmem, honly⟩ := rows_spec hs hf hv
  rw [writes_snapshotRecords henabled, hv]
  apply Mirror.restores_of_const
  · intro w hw ht
    obtain ⟨row, hrow, rfl⟩ := List.mem_map.mp hw
    obtain ⟨hrow, hwin⟩ := List.mem_filter.mp hrow
    obtain rfl := eq_of_topic hwin hwins ht
    exact honly _ hrow
  · exact ⟨_, List.mem_map.mpr ⟨(f, v), List.mem_filter.mpr ⟨hmem, hwins⟩, rfl⟩, rfl⟩

/-- Nothing else in the event has the feature's topic. -/
def Alike (cfg : Config) (f : Feature) (event : DaemonEvent) : Prop :=
  ∀ row ∈ changed event, row.1.topic cfg = f.topic cfg → row.1 = f

instance decidableAlike (cfg : Config) (f : Feature) (event : DaemonEvent) :
    Decidable (Alike cfg f event) :=
  inferInstanceAs (Decidable (∀ row ∈ changed event, row.1.topic cfg = f.topic cfg → row.1 = f))

include henabled in
/-- The records of an event change what a topic shows as the event changes the feature. -/
theorem shownAfter_eventRecords {s : RulesEngine.StateSnapshot} {f : Feature}
    (hlisted : (now s f).isSome = true) {event : DaemonEvent} (halike : Alike cfg f event) :
    Mirror.shownAfter (writes (eventRecords cfg event cfg.inst)) (f.topic cfg) (now s f) =
      now (s.hear event) f := by
  rw [writes_eventRecords henabled, Mirror.shownAfter_map halike, shownAfter_changed hlisted]

theorem now_hear_listed {s : RulesEngine.StateSnapshot} {f : Feature} (event : DaemonEvent) :
    (now (s.hear event) f).isSome = (now s f).isSome := by
  cases event <;> cases f <;> simp only [now, RulesEngine.StateSnapshot.hear, Option.isSome_map] <;>
    · rw [lookup_setRow]
      split <;> simp only [Option.isSome_map]

/-! ## Availability and discovery -/

include henabled in
theorem restores_online : Mirror.Restores (writes (globalOnlineRecord cfg cfg.inst).toList)
    (Feature.topic cfg .availability) (some (.word "online")) := by
  rw [globalOnlineRecord, if_pos henabled, Config.inst, sanitizeTopicId_twice]
  apply Mirror.restores_of_const
  · intro w hw _
    obtain rfl := List.mem_singleton.mp hw
    rfl
  · exact ⟨_, List.mem_singleton_self _, rfl⟩

/-- The last segment tells a discovery topic from the others. -/
theorem topic_not_config {discovery inst kind entity : String} (hd : '/' ∉ discovery.toList)
    (hi : '/' ∉ inst.toList) (hk : '/' ∉ kind.toList) (he : '/' ∉ entity.toList) (f : Feature) :
    "/".intercalate [discovery, kind, inst, entity, "config"] ≠ f.topic cfg := by
  intro h
  rw [topic_segments] at h
  have hsegments := segments_of_topic (by simp [hd, hi, hk, he]) (slash_segments cfg f) (by simp)
    (segments_ne_nil cfg f) h
  cases f <;> simp [Feature.segments] at hsegments

include henabled in
theorem discovery_other (f : Feature) :
    ∀ w ∈ writes (discoveryRecords cfg cfg.inst), w.1 ≠ f.topic cfg := by
  rw [discoveryRecords, if_pos henabled, Config.inst, sanitizeTopicId_twice]
  intro w hw
  have hsan := slash_sanitizeTopicId
  simp only [writes, List.mem_filterMap, List.mem_append, List.mem_map] at hw
  obtain ⟨r, ⟨raw, -, rfl⟩ | ⟨raw, -, rfl⟩ | ⟨raw, -, rfl⟩, hr⟩ := hw <;>
    obtain rfl := Option.some.inj hr
  · exact topic_not_config (hsan _) (hsan _) (by simp) (by simp [hsan]) f
  · exact topic_not_config (hsan _) (hsan _) (by simp) (by simp [hsan]) f
  · exact topic_not_config (hsan _) (hsan _) (by simp) (by simp [hsan]) f

/-- Nothing but a flush touches the availability of the daemon. -/
theorem rows_not_availability (s : RulesEngine.StateSnapshot) :
    ∀ row ∈ rows s, row.1 ≠ .availability := by
  intro row hrow
  simp only [rows, List.mem_append, List.mem_flatMap, List.mem_cons, List.not_mem_nil,
    or_false] at hrow
  obtain ⟨a, -, rfl | rfl⟩ | ⟨a, -, rfl⟩ | ⟨a, -, rfl⟩ := hrow <;> simp

theorem changed_not_availability (event : DaemonEvent) :
    ∀ row ∈ changed event, row.1 ≠ .availability := by
  cases event <;> simp [changed]

/-- Only the availability of the daemon has its topic. -/
theorem topic_ne_availability {f : Feature} (hf : f ≠ .availability) :
    f.topic cfg ≠ Feature.topic cfg .availability := by
  intro h
  have hsame := sanitized_of_topic h
  cases f <;> simp [Feature.sanitized] at hsame hf

include henabled in
theorem snapshotRecords_other (s : RulesEngine.StateSnapshot) :
    ∀ w ∈ writes (snapshotRecords cfg s cfg.inst), w.1 ≠ Feature.topic cfg .availability := by
  rw [writes_snapshotRecords henabled]
  intro w hw
  obtain ⟨row, hrow, rfl⟩ := List.mem_map.mp hw
  exact topic_ne_availability (rows_not_availability s row (List.mem_of_mem_filter hrow))

include henabled in
theorem eventRecords_other (event : DaemonEvent) :
    ∀ w ∈ writes (eventRecords cfg event cfg.inst), w.1 ≠ Feature.topic cfg .availability := by
  rw [writes_eventRecords henabled]
  intro w hw
  obtain ⟨row, hrow, rfl⟩ := List.mem_map.mp hw
  exact topic_ne_availability (changed_not_availability event row hrow)

/-! ## A flush -/

theorem nodup_firstWins (seen raws : List String) :
    ((firstWins seen raws).2.map sanitizeTopicId).Nodup := by
  induction raws generalizing seen with
  | nil => simp [firstWins]
  | cons first raws ih =>
    rw [firstWins]
    dsimp only
    split
    · exact ih seen
    · refine List.nodup_cons.mpr ⟨fun hmem => ?_, ih _⟩
      obtain ⟨raw, hraw, hsame⟩ := List.mem_map.mp hmem
      exact notMem_of_firstWins hraw (hsame ▸ List.mem_cons_self)

theorem nodup_rows {s : RulesEngine.StateSnapshot} (hsensors : (s.sensors.map Prod.fst).Nodup)
    (hzones : (s.zones.map Prod.fst).Nodup) (hdisplays : (s.displays.map Prod.fst).Nodup) :
    ((rows s).map Prod.fst).Nodup := by
  have hflat : (rows s).map Prod.fst =
      ((s.sensors.map Prod.fst).flatMap fun a => [.sensorState a, .sensorAvailability a]) ++
        (((s.zones.map Prod.fst).flatMap fun a => [.zoneState a]) ++
          (s.displays.map Prod.fst).flatMap fun a => [.displayPhase a]) := by
    simp only [rows, List.map_append, List.map_flatMap, List.map_cons, List.map_nil,
      List.flatMap_map]
  have hkind {α : Type} {keys : List α} (hkeys : keys.Nodup) {features : α → List Feature}
      (heach : ∀ a, (features a).Nodup)
      (happart : ∀ a b, a ≠ b → List.Disjoint (features a) (features b)) :
      (keys.flatMap features).Nodup :=
    List.nodup_flatMap.mpr ⟨fun a _ => heach a, hkeys.imp fun hab => happart _ _ hab⟩
  rw [hflat, List.nodup_append, List.nodup_append]
  refine ⟨hkind hsensors (by simp) ?_,
    ⟨hkind hzones (by simp) ?_, hkind hdisplays (by simp) ?_, ?_⟩, ?_⟩
  · intro a b hab
    simp [Ne.symm hab]
  · intro a b hab
    simp [Ne.symm hab]
  · intro a b hab
    simp [Ne.symm hab]
  · intro f hf g hg
    obtain ⟨a, -, hfa⟩ := List.mem_flatMap.mp hf
    obtain ⟨b, -, hgb⟩ := List.mem_flatMap.mp hg
    rw [List.mem_singleton] at hfa hgb
    rw [hfa, hgb]
    simp
  · intro f hf g hg
    obtain ⟨a, -, hfa⟩ := List.mem_flatMap.mp hf
    simp only [List.mem_append, List.mem_flatMap, List.mem_singleton] at hg
    obtain ⟨b, -, rfl⟩ | ⟨b, -, rfl⟩ := hg <;>
      · rintro rfl
        simp at hfa

theorem writes_retained {α : Type} (l : List α) (topic : α → String) (payload : α → Payload) :
    writes (l.map fun a => ⟨topic a, payload a, 1, true⟩) =
      l.map fun a => (topic a, payload a) := by
  rw [writes, List.filterMap_map]
  exact congrFun List.filterMap_eq_map l

theorem nodup_discovery (cfg : Config) (discovery inst : String) (hd : '/' ∉ discovery.toList)
    (hi : '/' ∉ inst.toList) :
    ((winners cfg).sensors.map
        (fun raw => topicDiscoverySensor discovery inst (sanitizeTopicId raw)) ++
      ((winners cfg).zones.map
        (fun raw => topicDiscoveryZone discovery inst (sanitizeTopicId raw)) ++
      (winners cfg).displays.map
        (fun raw => topicDiscoveryDisplay discovery inst (sanitizeTopicId raw)))).Nodup := by
  have hsan := slash_sanitizeTopicId
  have hid {kind id kind' id' : String} (hk : '/' ∉ kind.toList) (hk' : '/' ∉ kind'.toList)
      (hid : '/' ∉ id.toList) (hid' : '/' ∉ id'.toList)
      (h : "/".intercalate [discovery, kind, inst, id, "config"] =
        "/".intercalate [discovery, kind', inst, id', "config"]) : kind = kind' ∧ id = id' := by
    have hsegments := segments_of_topic (by simp [hd, hi, hk, hid]) (by simp [hd, hi, hk', hid'])
      (by simp) (by simp) h
    simpa using hsegments
  have hkind {seen raws : List String} {build : String → String}
      (hbuild : ∀ a b, build (sanitizeTopicId a) = build (sanitizeTopicId b) →
        sanitizeTopicId a = sanitizeTopicId b) :
      ((firstWins seen raws).2.map fun raw => build (sanitizeTopicId raw)).Nodup :=
    List.pairwise_map.mpr
      ((List.pairwise_map.mp (nodup_firstWins seen raws)).imp fun hne h => hne (hbuild _ _ h))
  have hentity (word a : String) (hw : '/' ∉ word.toList) :
      '/' ∉ (word ++ sanitizeTopicId a).toList := by
    simp [hw, hsan]
  have hinj {kind : String} (hk : '/' ∉ kind.toList) {word : String} (hw : '/' ∉ word.toList)
      (a b : String)
      (h : "/".intercalate [discovery, kind, inst, word ++ sanitizeTopicId a, "config"] =
        "/".intercalate [discovery, kind, inst, word ++ sanitizeTopicId b, "config"]) :
      sanitizeTopicId a = sanitizeTopicId b :=
    String.append_right_inj word |>.mp (hid hk hk (hentity word a hw) (hentity word b hw) h).2
  rw [List.nodup_append, List.nodup_append]
  refine ⟨hkind (hinj (by decide) (by decide)), ⟨hkind (hinj (by decide) (by decide)),
    hkind (hinj (by decide) (by decide)), ?_⟩, ?_⟩
  · intro t ht t' ht' hsame
    obtain ⟨a, -, rfl⟩ := List.mem_map.mp ht
    obtain ⟨b, -, rfl⟩ := List.mem_map.mp ht'
    have hkinds := (hid (by decide) (by decide) (hentity "zone_" a (by decide))
      (hentity "display_" b (by decide)) hsame).1
    revert hkinds
    decide
  · intro t ht t' ht' hsame
    obtain ⟨a, -, rfl⟩ := List.mem_map.mp ht
    obtain ht' | ht' := List.mem_append.mp ht'
    · obtain ⟨b, -, rfl⟩ := List.mem_map.mp ht'
      have hids := (hid (by decide) (by decide) (hentity "sensor_" a (by decide))
        (hentity "zone_" b (by decide)) hsame).2
      have hheads := congrArg (fun s => s.toList.head?) hids
      simp at hheads
    · obtain ⟨b, -, rfl⟩ := List.mem_map.mp ht'
      have hkinds := (hid (by decide) (by decide) (hentity "sensor_" a (by decide))
        (hentity "display_" b (by decide)) hsame).1
      revert hkinds
      decide

include henabled in
/-- No two records of a flush have the same topic. -/
theorem flush_topics_nodup {s : RulesEngine.StateSnapshot}
    (hsensors : (s.sensors.map Prod.fst).Nodup) (hzones : (s.zones.map Prod.fst).Nodup)
    (hdisplays : (s.displays.map Prod.fst).Nodup) :
    ((writes ((globalOnlineRecord cfg cfg.inst).toList ++
      (discoveryRecords cfg cfg.inst ++ snapshotRecords cfg s cfg.inst))).map Prod.fst).Nodup := by
  have hdiscovery : ((writes (discoveryRecords cfg cfg.inst)).map Prod.fst).Nodup := by
    rw [discoveryRecords, if_pos henabled, Config.inst, sanitizeTopicId_twice]
    have hnodup := nodup_discovery cfg (sanitizeTopicId cfg.publish.discoveryPrefix)
      (sanitizeTopicId cfg.publish.instanceId) (slash_sanitizeTopicId _) (slash_sanitizeTopicId _)
    dsimp only
    rw [writes_append, writes_append, writes_retained, writes_retained, writes_retained,
      List.map_append, List.map_append, List.map_map, List.map_map, List.map_map]
    exact hnodup
  have hsnapshot : ((writes (snapshotRecords cfg s cfg.inst)).map Prod.fst).Nodup := by
    rw [writes_snapshotRecords henabled, List.map_map]
    have hrows := List.pairwise_map.mp (nodup_rows hsensors hzones hdisplays)
    refine List.pairwise_map.mpr ((hrows.filter _).imp_of_mem fun ha hb hne htopic => hne ?_)
    exact eq_of_topic (List.mem_filter.mp ha).2 (List.mem_filter.mp hb).2 htopic
  have hdisjoint (t t' : String) (ht : t ∈ (writes (discoveryRecords cfg cfg.inst)).map Prod.fst)
      (ht' : t' ∈ (writes (snapshotRecords cfg s cfg.inst)).map Prod.fst) : t ≠ t' := by
    obtain ⟨w, hw, rfl⟩ := List.mem_map.mp ht
    obtain ⟨w', hw', rfl⟩ := List.mem_map.mp ht'
    rw [writes_snapshotRecords henabled] at hw'
    obtain ⟨row, -, rfl⟩ := List.mem_map.mp hw'
    exact discovery_other henabled row.1 w hw
  rw [writes_append, writes_append, List.map_append, List.map_append, List.nodup_append,
    List.nodup_append]
  refine ⟨?_, ⟨hdiscovery, hsnapshot, fun t ht t' => hdisjoint t t' ht⟩, ?_⟩
  · rw [globalOnlineRecord, if_pos henabled]
    exact List.nodup_singleton _
  · intro t ht t' ht' hsame
    subst hsame
    rw [globalOnlineRecord, if_pos henabled, Config.inst, sanitizeTopicId_twice] at ht
    obtain rfl := List.mem_singleton.mp ht
    obtain ht' | ht' := List.mem_append.mp ht'
    · obtain ⟨w, hw, htopic⟩ := List.mem_map.mp ht'
      exact discovery_other henabled .availability w hw htopic
    · obtain ⟨w, hw, htopic⟩ := List.mem_map.mp ht'
      exact snapshotRecords_other henabled s w hw htopic

end Enabled

/-- A sensor and a zone whose ids collide with those of another sensor. -/
def collidingConfig : Config where
  publish := ⟨true, "dormant", "homeassistant", "office"⟩
  sensors := [⟨"Desk Radar"⟩, ⟨"desk.radar"⟩]
  zones := [⟨"desk radar"⟩]
  displays := [⟨"monitor"⟩]

theorem flush_topics_nodup_colliding :
    let s : RulesEngine.StateSnapshot := ⟨[(⟨"Desk Radar"⟩, .present), (⟨"desk.radar"⟩, .absent)],
      [(⟨"desk radar"⟩, some true)], [(⟨"monitor"⟩, "active")]⟩
    let flush := writes ((globalOnlineRecord collidingConfig collidingConfig.inst).toList ++
      (discoveryRecords collidingConfig collidingConfig.inst ++
        snapshotRecords collidingConfig s collidingConfig.inst))
    flush.length = 6 ∧ (flush.map Prod.fst).Nodup :=
  ⟨by decide, flush_topics_nodup rfl (by decide) (by decide) (by decide)⟩

end Publisher
end Dormant
