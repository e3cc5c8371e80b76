import Mathlib.Algebra.Order.Field.Rat
import Mathlib.Data.List.Basic

/-!
# Zone fusion

The part of `zone.rs` that runs: applying a presence event, fusing the members of every zone
in evaluation order, and the presence queries. A zone engine holds its specs in evaluation
order, as `topo_sort` leaves them. Weights and thresholds are exact rationals where the
source has `f32`.
-/

namespace Dormant
set_option autoImplicit false

structure SensorId where
  id : String
  deriving DecidableEq, Repr, Ord

structure ZoneId where
  id : String
  deriving DecidableEq, Repr

inductive SensorState where
  | present
  | absent
  | unavailable
  deriving DecidableEq, Repr

structure PresenceEvent where
  sensorId : SensorId
  state : SensorState
  stamp : ℕ
  deriving DecidableEq, Repr

inductive FusionMode where
  | any
  | all
  | quorum (n : UInt32)
  | weighted (threshold : Rat)

inductive UnavailablePolicy where
  | present
  | absent
  deriving DecidableEq, Repr

inductive ZoneMember where
  | sensor (id : SensorId)
  | zone (id : ZoneId)
  deriving DecidableEq, Repr

structure ZoneSpec where
  id : ZoneId
  mode : FusionMode
  members : List ZoneMember
  weights : String → Option Rat
  unavailablePolicy : UnavailablePolicy

structure ZoneChange where
  zone : ZoneId
  present : Bool
  cause : SensorId
  deriving DecidableEq, Repr

structure ZoneEngine where
  sensorStates : SensorId → Option (SensorState × ℕ)
  evalOrder : List ZoneSpec
  zonePresence : ZoneId → Option Bool

def ZoneMember.key : ZoneMember → String
  | .sensor sid => sid.id
  | .zone zid => zid.id

def memberWeight (member : ZoneMember) (spec : ZoneSpec) : Rat :=
  (spec.weights member.key).getD 1

def memberEffectiveBool (member : ZoneMember) (policy : UnavailablePolicy)
    (sensorStates : SensorId → Option (SensorState × ℕ)) (zonePresence : ZoneId → Option Bool) :
    Bool :=
  match member with
  | .sensor sid =>
    match ((sensorStates sid).map Prod.fst).getD .unavailable with
    | .present => true
    | .absent => false
    | .unavailable => policy == .present
  | .zone zid => (zonePresence zid).getD false

def fuseMembers (spec : ZoneSpec) (bools : List Bool) : Bool :=
  match spec.mode with
  | .any => bools.any id
  | .all => bools.all id
  | .quorum n => n ≤ UInt32.ofNat (bools.countP id)
  | .weighted threshold =>
    let total := (spec.members.map (memberWeight · spec)).sum
    if total ≤ 0 then false
    else
      let present := ((spec.members.zip bools).filter Prod.snd).map (memberWeight ·.1 spec)
      threshold ≤ present.sum / total

def resolveZoneWithPolicy (spec : ZoneSpec)
    (sensorStates : SensorId → Option (SensorState × ℕ)) (zonePresence : ZoneId → Option Bool)
    (policy : UnavailablePolicy) : Bool :=
  if spec.members.isEmpty then false
  else fuseMembers spec
    (spec.members.map (memberEffectiveBool · policy sensorStates zonePresence))

def resolveZone (spec : ZoneSpec) (sensorStates : SensorId → Option (SensorState × ℕ))
    (zonePresence : ZoneId → Option Bool) : Bool :=
  resolveZoneWithPolicy spec sensorStates zonePresence spec.unavailablePolicy

namespace ZoneEngine

/-- The state that `new` builds once the specs are sorted: every sensor of the inventory is
unavailable, and the zones are resolved bottom-up. -/
def initial (evalOrder : List ZoneSpec) (inventory : List SensorId) (now : ℕ) : ZoneEngine :=
  let sensorStates := fun sensor => if sensor ∈ inventory then some (.unavailable, now) else none
  let resolve (presence : ZoneId → Option Bool) (spec : ZoneSpec) :=
    Function.update presence spec.id (some (resolveZone spec sensorStates presence))
  { sensorStates := sensorStates
    evalOrder := evalOrder
    zonePresence := evalOrder.foldl resolve (fun _ => none) }

/-- Resolve one zone, and note the change when its presence flips. -/
def reresolve (cause : SensorId) (sensorStates : SensorId → Option (SensorState × ℕ))
    (acc : (ZoneId → Option Bool) × List ZoneChange) (spec : ZoneSpec) :
    (ZoneId → Option Bool) × List ZoneChange :=
  let present := resolveZone spec sensorStates acc.1
  if acc.1 spec.id = some present then acc
  else
    (Function.update acc.1 spec.id (some present),
      acc.2 ++ [{ zone := spec.id, present := present, cause := cause }])

def apply (z : ZoneEngine) (ev : PresenceEvent) : ZoneEngine × List ZoneChange :=
  if (z.sensorStates ev.sensorId).isNone then (z, [])
  else
    let sensorStates := Function.update z.sensorStates ev.sensorId (some (ev.state, ev.stamp))
    let resolved := z.evalOrder.foldl (reresolve ev.sensorId sensorStates) (z.zonePresence, [])
    ({ z with sensorStates := sensorStates, zonePresence := resolved.1 }, resolved.2)

def isPresent (z : ZoneEngine) (zone : ZoneId) : Option Bool := z.zonePresence zone

/-- The zone is present with unavailable sensors counted as absent in every zone. -/
def hasConfirmedPresence (z : ZoneEngine) (zone : ZoneId) : Bool :=
  let confirm (confirmed : ZoneId → Option Bool) (spec : ZoneSpec) :=
    Function.update confirmed spec.id
      (some (resolveZoneWithPolicy spec z.sensorStates confirmed .absent))
  (z.evalOrder.foldl confirm (fun _ => none) zone).getD false

end ZoneEngine
end Dormant
