import Dormant.Rules.Zone
import Dormant.Rules.Types
import Mathlib.Data.List.Chain
import Mathlib.Data.List.DropRight

/-!
# The topics of the publisher

`sanitize_topic_id` and the topic builders of `state_publisher.rs`. A sanitized id is a word of
letters, digits and dashes with single underscores inside, so it holds no slash, and a topic gives
back what it is about, as far as sanitized ids tell.
-/

namespace Dormant
set_option autoImplicit false

namespace Publisher

/-! ## Sanitized ids -/

def plainChar (c : Char) : Bool := c.isLower || c.isDigit || c = '-'

def safeChar (c : Char) : Char :=
  let c := c.toLower
  if plainChar c then c else '_'

/-- Runs of underscores become one, and one that follows an underscore goes. -/
def collapse : Bool → List Char → List Char
  | _, [] => []
  | lastWasUnderscore, c :: cs =>
    if c = '_' then
      if lastWasUnderscore then collapse true cs else '_' :: collapse true cs
    else c :: collapse false cs

def sanitizeTopicId (raw : String) : String :=
  let collapsed := (collapse true (raw.toList.map safeChar)).rdropWhile (· = '_')
  if collapsed = [] then "unnamed" else String.ofList collapsed

/-- No two underscores in a row. -/
def Spaced (l : List Char) : Prop := l.IsChain fun a b => ¬ (a = '_' ∧ b = '_')

/-- Letters, digits and dashes, with single underscores between them. -/
structure Clean (l : List Char) : Prop where
  nonempty : l ≠ []
  chars : ∀ c ∈ l, plainChar c = true ∨ c = '_'
  head : l.head? ≠ some '_'
  last : l.getLast? ≠ some '_'
  spaced : Spaced l

theorem safeChar_cases (c : Char) : plainChar (safeChar c) = true ∨ safeChar c = '_' := by
  unfold safeChar
  dsimp only
  split
  · rename_i h
    exact .inl h
  · exact .inr rfl

theorem toLower_of_plainChar {c : Char} (h : plainChar c = true) : c.toLower = c := by
  rw [plainChar, Bool.or_eq_true, Bool.or_eq_true] at h
  refine dif_neg ?_
  rintro ⟨hlo, hhi⟩
  have hA : ('A' : Char).val.toNat = 65 := rfl
  have hZ : ('Z' : Char).val.toNat = 90 := rfl
  rw [ge_iff_le, UInt32.le_iff_toNat_le] at hlo
  rw [UInt32.le_iff_toNat_le] at hhi
  obtain (hc | hc) | hc := h
  · change (decide _ && decide _) = true at hc
    simp only [Bool.and_eq_true, decide_eq_true_eq, ge_iff_le, UInt32.le_iff_toNat_le] at hc
    have ha : ('a' : Char).val.toNat = 97 := rfl
    omega
  · simp only [Char.isDigit, ge_iff_le, Bool.and_eq_true, decide_eq_true_eq,
      UInt32.le_iff_toNat_le] at hc
    have h9 : ('9' : Char).val.toNat = 57 := rfl
    omega
  · rw [decide_eq_true_eq] at hc
    subst hc
    revert hlo
    decide

theorem safeChar_of_safe {c : Char} (h : plainChar c = true ∨ c = '_') : safeChar c = c := by
  obtain h | rfl := h
  · rw [safeChar, toLower_of_plainChar h]
    exact if_pos h
  · decide

theorem mem_of_mem_collapse {last : Bool} {l : List Char} {c : Char} (h : c ∈ collapse last l) :
    c ∈ l := by
  induction l generalizing last with
  | nil => cases h
  | cons a l ih =>
    rw [collapse] at h
    split at h
    · split at h
      · exact List.mem_cons_of_mem a (ih h)
      · rename_i ha _
        obtain rfl | h := List.mem_cons.mp h
        · rw [ha]
          exact List.mem_cons_self
        · exact List.mem_cons_of_mem a (ih h)
    · obtain rfl | h := List.mem_cons.mp h
      · exact List.mem_cons_self
      · exact List.mem_cons_of_mem a (ih h)

theorem collapse_spaced (last : Bool) (l : List Char) :
    Spaced (collapse last l) ∧ (last = true → (collapse last l).head? ≠ some '_') := by
  induction l generalizing last with
  | nil => simp [collapse, Spaced]
  | cons a l ih =>
    rw [collapse]
    split
    · obtain ⟨hspaced, hhead⟩ := ih true
      split
      · exact ⟨hspaced, fun _ => hhead rfl⟩
      · rename_i hlast
        refine ⟨List.isChain_cons.mpr ⟨?_, hspaced⟩, fun h => absurd h hlast⟩
        rintro b hb ⟨-, rfl⟩
        exact hhead rfl hb
    · rename_i ha
      refine ⟨List.isChain_cons.mpr ⟨?_, (ih false).1⟩, fun _ => by simpa using ha⟩
      rintro b - ⟨rfl, -⟩
      exact ha rfl

theorem collapse_of_spaced {last : Bool} {l : List Char} (h : Spaced l)
    (hhead : last = true → l.head? ≠ some '_') : collapse last l = l := by
  induction l generalizing last with
  | nil => rfl
  | cons a l ih =>
    obtain ⟨hnext, htail⟩ := List.isChain_cons.mp h
    rw [collapse]
    split
    · rename_i ha
      subst ha
      have hlast : last ≠ true := fun hlast => hhead hlast rfl
      rw [if_neg hlast, ih htail]
      intro _ hunder
      exact hnext '_' hunder ⟨rfl, rfl⟩
    · rw [ih htail]
      intro hfalse
      cases hfalse

theorem Clean.unnamed : Clean "unnamed".toList where
  nonempty := by decide
  chars := by simp [plainChar]
  head := by decide
  last := by decide
  spaced := by unfold Spaced; decide

theorem Clean.of_beginning {l l' : List Char} (hl : l' <+: l) (hne : l' ≠ [])
    (chars : ∀ c ∈ l, plainChar c = true ∨ c = '_') (head : l.head? ≠ some '_')
    (spaced : Spaced l) (last : ∀ h : l' ≠ [], ¬ l'.getLast h = '_') : Clean l' where
  nonempty := hne
  chars c hc := chars c (hl.subset hc)
  head := by
    obtain ⟨rest, rfl⟩ := hl
    rwa [List.head?_append_of_ne_nil _ hne] at head
  last := by
    rw [List.getLast?_eq_some_getLast hne]
    exact fun h => last hne (Option.some.inj h)
  spaced := by
    obtain ⟨rest, rfl⟩ := hl
    exact List.IsChain.left_of_append spaced

/-- What `sanitize_topic_id` makes of an id is clean, and what is clean it leaves alone. -/
theorem clean_sanitizeTopicId (raw : String) :
    Clean (sanitizeTopicId raw).toList ∧ (Clean raw.toList → sanitizeTopicId raw = raw) := by
  constructor
  · rw [sanitizeTopicId]
    split
    · exact .unnamed
    · rename_i hne
      rw [String.toList_ofList]
      obtain ⟨hspaced, hhead⟩ := collapse_spaced true (raw.toList.map safeChar)
      refine .of_beginning (List.rdropWhile_prefix _ _) hne ?_ (hhead rfl) hspaced fun h => ?_
      · intro c hc
        obtain ⟨a, -, rfl⟩ := List.mem_map.mp (mem_of_mem_collapse hc)
        exact safeChar_cases a
      · simpa using List.rdropWhile_last_not _ _ h
  · intro h
    have hsafe : raw.toList.map safeChar = raw.toList := by
      conv_rhs => rw [← List.map_id raw.toList]
      exact List.map_congr_left fun c hc => safeChar_of_safe (h.chars c hc)
    have hlast : raw.toList.rdropWhile (· = '_') = raw.toList := by
      rw [List.rdropWhile_eq_self_iff]
      intro hne
      have := h.last
      rw [List.getLast?_eq_some_getLast hne] at this
      simpa using this
    rw [sanitizeTopicId, hsafe, collapse_of_spaced h.spaced fun _ => h.head, hlast,
      if_neg h.nonempty,
      String.ofList_toList]

/-! ## Topics -/

def topicAvailability (base inst : String) : String := "/".intercalate [base, inst, "availability"]

def topicSensorState (base inst sensorId : String) : String :=
  "/".intercalate [base, inst, "sensor", sensorId, "state"]

def topicSensorAvailability (base inst sensorId : String) : String :=
  "/".intercalate [base, inst, "sensor", sensorId, "availability"]

def topicZoneState (base inst zoneId : String) : String :=
  "/".intercalate [base, inst, "zone", zoneId, "state"]

def topicDisplayPhase (base inst displayId : String) : String :=
  "/".intercalate [base, inst, "display", displayId, "phase"]

def topicDiscoverySensor (discovery inst sensorId : String) : String :=
  "/".intercalate [discovery, "binary_sensor", inst, "sensor_" ++ sensorId, "config"]

def topicDiscoveryZone (discovery inst zoneId : String) : String :=
  "/".intercalate [discovery, "binary_sensor", inst, "zone_" ++ zoneId, "config"]

def topicDiscoveryDisplay (discovery inst displayId : String) : String :=
  "/".intercalate [discovery, "sensor", inst, "display_" ++ displayId, "config"]

structure PublishConfig where
  enabled : Bool
  baseTopic : String
  discoveryPrefix : String
  instanceId : String

/-- The keys of the configuration's tables, in its order. -/
structure Config where
  publish : PublishConfig
  sensors : List SensorId
  zones : List ZoneId
  displays : List DisplayId

def Config.base (cfg : Config) : String := sanitizeTopicId cfg.publish.baseTopic

def Config.inst (cfg : Config) : String := sanitizeTopicId cfg.publish.instanceId

/-- What a retained topic can be about. -/
inductive Feature where
  | availability
  | sensorState (sensor : SensorId)
  | sensorAvailability (sensor : SensorId)
  | zoneState (zone : ZoneId)
  | displayPhase (display : DisplayId)
  deriving DecidableEq

def Feature.topic (cfg : Config) : Feature → String
  | .availability => topicAvailability cfg.base cfg.inst
  | .sensorState sensor => topicSensorState cfg.base cfg.inst (sanitizeTopicId sensor.id)
  | .sensorAvailability sensor =>
    topicSensorAvailability cfg.base cfg.inst (sanitizeTopicId sensor.id)
  | .zoneState zone => topicZoneState cfg.base cfg.inst (sanitizeTopicId zone.id)
  | .displayPhase display => topicDisplayPhase cfg.base cfg.inst (sanitizeTopicId display.id)

/-- A feature as its topic names it. -/
def Feature.sanitized : Feature → Feature
  | .availability => .availability
  | .sensorState sensor => .sensorState ⟨sanitizeTopicId sensor.id⟩
  | .sensorAvailability sensor => .sensorAvailability ⟨sanitizeTopicId sensor.id⟩
  | .zoneState zone => .zoneState ⟨sanitizeTopicId zone.id⟩
  | .displayPhase display => .displayPhase ⟨sanitizeTopicId display.id⟩

theorem Clean.no_slash {l : List Char} (h : Clean l) : '/' ∉ l := by
  intro hmem
  obtain hplain | hunder := h.chars '/' hmem
  · revert hplain
    decide
  · revert hunder
    decide

theorem slash_sanitizeTopicId (raw : String) : '/' ∉ (sanitizeTopicId raw).toList :=
  (clean_sanitizeTopicId raw).1.no_slash

@[simp] theorem sanitizeTopicId_twice (raw : String) :
    sanitizeTopicId (sanitizeTopicId raw) = sanitizeTopicId raw :=
  (clean_sanitizeTopicId _).2 (clean_sanitizeTopicId raw).1

/-- Segments without a slash are what a topic splits into. -/
theorem segments_of_topic {as bs : List String} (ha : ∀ s ∈ as, '/' ∉ s.toList)
    (hb : ∀ s ∈ bs, '/' ∉ s.toList) (hna : as ≠ []) (hnb : bs ≠ [])
    (h : "/".intercalate as = "/".intercalate bs) : as = bs := by
  have hlists := congrArg String.toList h
  have hslash : ("/" : String).toList = ['/'] := rfl
  rw [String.toList_intercalate, String.toList_intercalate, hslash] at hlists
  have hsplit := congrArg (List.splitOn '/') hlists
  rw [List.splitOn_intercalate '/' (by simpa using ha) (by simpa using hna),
    List.splitOn_intercalate '/' (by simpa using hb) (by simpa using hnb)] at hsplit
  exact List.map_injective_iff.mpr (fun _ _ => String.toList_inj.mp) hsplit

def Feature.segments (cfg : Config) : Feature → List String
  | .availability => [cfg.base, cfg.inst, "availability"]
  | .sensorState sensor => [cfg.base, cfg.inst, "sensor", sanitizeTopicId sensor.id, "state"]
  | .sensorAvailability sensor =>
    [cfg.base, cfg.inst, "sensor", sanitizeTopicId sensor.id, "availability"]
  | .zoneState zone => [cfg.base, cfg.inst, "zone", sanitizeTopicId zone.id, "state"]
  | .displayPhase display => [cfg.base, cfg.inst, "display", sanitizeTopicId display.id, "phase"]

theorem topic_segments (cfg : Config) (f : Feature) :
    f.topic cfg = "/".intercalate (f.segments cfg) := by
  cases f <;> rfl

theorem slash_segments (cfg : Config) (f : Feature) : ∀ s ∈ f.segments cfg, '/' ∉ s.toList := by
  have hbase : '/' ∉ cfg.base.toList := slash_sanitizeTopicId _
  have hinst : '/' ∉ cfg.inst.toList := slash_sanitizeTopicId _
  cases f <;> simp [Feature.segments, hbase, hinst, slash_sanitizeTopicId]

theorem segments_ne_nil (cfg : Config) (f : Feature) : f.segments cfg ≠ [] := by
  cases f <;> simp [Feature.segments]

/-- Two features with one topic differ at most in how their ids were spelled. -/
theorem sanitized_of_topic {cfg : Config} {f g : Feature} (h : f.topic cfg = g.topic cfg) :
    f.sanitized = g.sanitized := by
  rw [topic_segments, topic_segments] at h
  have hsegments := segments_of_topic (slash_segments cfg f) (slash_segments cfg g)
    (segments_ne_nil cfg f) (segments_ne_nil cfg g) h
  cases f <;> cases g <;> simp [Feature.segments, Feature.sanitized] at hsegments ⊢ <;>
    exact hsegments

end Publisher
end Dormant
