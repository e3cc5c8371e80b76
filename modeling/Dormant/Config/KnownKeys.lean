import Mathlib.Data.List.Basic

/-!
# Known keys of a configuration

`collect_unknown_keys` and `is_known_config_path`. Both join the segments of a path with dots and
look the joined path up in one table, so an id with a dot in it reads as several segments. A string
is the list of its characters. The lookup slices a path behind its first byte, so it fails where
that byte is not a whole character.
-/

namespace Dormant.Schema
set_option autoImplicit false

abbrev Key := List Char

/-- The characters of a text. -/
def chars (text : String) {cs : List Char} (_ : text = String.ofList cs := by rfl) : Key := cs

/-- What the table says about the keys of one level. -/
structure KnownLevel where
  path : Key
  keys : List Key

def hookKeys : List Key :=
  [chars "command", chars "mqtt", chars "timeout", chars "blocking", chars "abort_on_failure",
    chars "skip_if_display_awake"]

def hookMqttKeys : List Key := [chars "topic", chars "payload"]

/-- `KNOWN_KEYS`. -/
def knownKeys : List KnownLevel :=
  [⟨chars "", [chars "config_version", chars "daemon", chars "sensors", chars "zones",
     chars "displays", chars "rules", chars "wear", chars "notifications", chars "watchdog",
     chars "audio", chars "coordination", chars "keymap", chars "input_filter", chars "publish"]⟩,
   ⟨chars "coordination", [chars "poll_interval", chars "state_poll_interval",
     chars "loss_confirmations", chars "flap_threshold", chars "flap_window", chars "flap_settle",
     chars "reprobe_failure_threshold", chars "reprobe_interval", chars "activity_follow",
     chars "arm_after", chars "cooldown"]⟩,
   ⟨chars "keymap", [chars "claim_hotkey"]⟩,
   ⟨chars "input_filter", [chars "ignore_devices"]⟩,
   ⟨chars "publish", [chars "enabled", chars "broker_url", chars "base_topic",
     chars "discovery_prefix", chars "instance_id"]⟩,
   ⟨chars "audio", [chars "poll_interval", chars "min_active", chars "call_roles",
     chars "playback_roles", chars "capture_is_call", chars "pw_dump_command"]⟩,
   ⟨chars "watchdog", [chars "lkg_enabled", chars "lkg_rollback_enabled",
     chars "stability_window"]⟩,
   ⟨chars "wear", [chars "enabled", chars "sample_interval", chars "persist_interval",
     chars "read_timeout", chars "grid_rows", chars "grid_cols", chars "fallback_brightness",
     chars "screensaver_factor", chars "short_cycle_dwell", chars "advisory_after",
     chars "active_sampling"]⟩,
   ⟨chars "wear.active_sampling", [chars "enabled", chars "sampled_display",
     chars "sampled_displays", chars "stream_mode", chars "capture_timeout",
     chars "failure_threshold", chars "circuit_reset_after"]⟩,
   ⟨chars "notifications", [chars "enabled", chars "wake_attempt_threshold", chars "cooldown",
     chars "notify_recovery"]⟩,
   ⟨chars "daemon", [chars "startup_holdoff", chars "stale_sensor_timeout", chars "log_level",
     chars "socket_path", chars "idle_time_unit", chars "idle_source", chars "reload_debounce",
     chars "generation_barrier_ack_timeout", chars "web_port", chars "web_bind",
     chars "web_allow_nonloopback", chars "entity_crud_enabled", chars "pairing_enabled",
     chars "pair_timeout", chars "hook_edit_enabled", chars "doctor_wake_settle",
     chars "macos_idle_frozen_polls", chars "macos_idle_sanity_cap",
     chars "macos_idle_startup_grace"]⟩,
   ⟨chars "sensors.", [chars "type", chars "kind", chars "hold_time", chars "stale_timeout",
     chars "broker_url", chars "topic", chars "field", chars "payload_on", chars "payload_off",
     chars "availability_topic", chars "availability_payload_online",
     chars "availability_payload_offline", chars "url", chars "entity", chars "port",
     chars "baud"]⟩,
   ⟨chars "zones.", [chars "mode", chars "members", chars "quorum", chars "threshold",
     chars "weights", chars "unavailable_policy"]⟩,
   ⟨chars "displays.", [chars "controllers", chars "scope", chars "shared_input_code",
     chars "shared_input_write_code", chars "shared_peer_input_code",
     chars "shared_peer_input_write_code", chars "blank_mode", chars "degraded_mode",
     chars "ladder", chars "screensaver", chars "output", chars "ddc_display", chars "host",
     chars "wol_mac", chars "blank_command", chars "wake_command", chars "modes", chars "ha_url",
     chars "blank_service", chars "blank_data", chars "wake_service", chars "wake_data",
     chars "command_timeout", chars "restore_brightness", chars "samsung_restore_backlight",
     chars "treat_unreachable_as_blanked", chars "panel_type", chars "power_off_opt_in",
     chars "compositor_output", chars "output_panel", chars "sampling", chars "hooks"]⟩,
   ⟨chars "rules.", [chars "zone", chars "displays", chars "grace_period", chars "min_blank_time",
     chars "min_wake_time", chars "inhibitors", chars "activity_idle_threshold",
     chars "activity_poll_interval", chars "wake_retries", chars "wake_retry_backoff",
     chars "wake_retry_interval", chars "input_wake_hold"]⟩,
   ⟨chars "displays..ladder", [chars "kind", chars "dwell"]⟩,
   ⟨chars "displays..hooks", [chars "timeout", chars "before_release", chars "after_release",
     chars "before_acquire", chars "after_acquire", chars "on_observed_loss",
     chars "on_observed_gain", chars "on_wake", chars "observed_gain_requires_presence"]⟩,
   ⟨chars "displays..hooks.before_release", hookKeys⟩,
   ⟨chars "displays..hooks.after_release", hookKeys⟩,
   ⟨chars "displays..hooks.before_acquire", hookKeys⟩,
   ⟨chars "displays..hooks.after_acquire", hookKeys⟩,
   ⟨chars "displays..hooks.on_observed_loss", hookKeys⟩,
   ⟨chars "displays..hooks.on_observed_gain", hookKeys⟩,
   ⟨chars "displays..hooks.on_wake", hookKeys⟩,
   ⟨chars "displays..hooks.before_release.mqtt", hookMqttKeys⟩,
   ⟨chars "displays..hooks.after_release.mqtt", hookMqttKeys⟩,
   ⟨chars "displays..hooks.before_acquire.mqtt", hookMqttKeys⟩,
   ⟨chars "displays..hooks.after_acquire.mqtt", hookMqttKeys⟩,
   ⟨chars "displays..hooks.on_observed_loss.mqtt", hookMqttKeys⟩,
   ⟨chars "displays..hooks.on_observed_gain.mqtt", hookMqttKeys⟩,
   ⟨chars "displays..hooks.on_wake.mqtt", hookMqttKeys⟩,
   ⟨chars "displays..sampling", [chars "expected_source", chars "source_poll_interval",
     chars "stream_mode", chars "watched_apps"]⟩,
   ⟨chars "displays..screensaver", [chars "trigger", chars "audio", chars "source",
     chars "scale_mode", chars "transition", chars "transition_duration", chars "shift_px",
     chars "shift_interval", chars "wear_temperature", chars "shift_heat_bias"]⟩,
   ⟨chars "displays..screensaver.source", [chars "path", chars "urls", chars "recurse",
     chars "shuffle", chars "order", chars "wear_tag", chars "image_duration"]⟩]

/-! ## Looking a path up -/

def utf8Len : List Char → Nat
  | [] => 0
  | c :: rest => c.utf8Size + utf8Len rest

/-- `&rest[1..]`, which panics when byte 1 is inside a character. -/
def sliceFromOne : List Char → Option (List Char)
  | [] => none
  | c :: rest => if c.utf8Size = 1 then some rest else none

/-- `prefix.find("..")`: what is before it, and what follows its first dot. -/
def splitDoubleDot : List Char → Option (List Char × List Char)
  | '.' :: '.' :: rest => some ([], '.' :: rest)
  | c :: rest => (splitDoubleDot rest).map fun parts => (c :: parts.1, parts.2)
  | [] => none

/-- From the first dot of a string on. -/
def fromDot : List Char → Option (List Char)
  | [] => none
  | c :: rest => if c = '.' then some (c :: rest) else fromDot rest

/-- The level is that of a single dynamic id, as `"sensors."` is of `"sensors.desk"`. -/
def matchesId (path : Key) (level : KnownLevel) : Bool :=
  !level.path.isEmpty && level.path.isPrefixOf path &&
    !(path.drop level.path.length).contains '.'

/-- The double dot of the level stands for a dynamic id, as that of `"displays..ladder"` does in
`"displays.mon.ladder"`. -/
def matchesDoubleDot (path : Key) (level : KnownLevel) : Option Bool :=
  match splitDoubleDot level.path with
  | none => some false
  | some (before, after) =>
    let rest := path.drop before.length
    if before.isPrefixOf path && decide (utf8Len before < utf8Len path) &&
        decide (1 < utf8Len rest) then
      (sliceFromOne rest).map fun tail => fromDot tail == some after
    else some false

def findDoubleDot (path : Key) : List KnownLevel → Option (List Key)
  | [] => some []
  | level :: rest => do
    if ← matchesDoubleDot path level then return level.keys
    findDoubleDot path rest

/-- `known_keys_for_path`. -/
def knownKeysForPath (path : Key) : Option (List Key) :=
  match knownKeys.find? (fun level => level.path == path) with
  | some level => some level.keys
  | none =>
    match knownKeys.find? (matchesId path) with
    | some level => some level.keys
    | none => findDoubleDot path knownKeys

def collections : List Key :=
  [chars "sensors", chars "zones", chars "displays", chars "rules"]

def isCollectionLevel (path : Key) : Bool := collections.contains path

/-- The path ends with the name, behind a dot. -/
def endsWithSegment (path name : Key) : Bool := ('.' :: name).isSuffixOf path

def isWeightsLevel (path : Key) : Bool := endsWithSegment path (chars "weights")

def isArrayOfTablesParent (path : Key) : Bool :=
  endsWithSegment path (chars "ladder") || endsWithSegment path (chars "source")

def isPassthroughDataKey (key : Key) : Bool :=
  [chars "blank_data", chars "wake_data"].contains key

/-- The path one segment further down. -/
def joined (path segment : Key) : Key :=
  if path.isEmpty then segment else path ++ '.' :: segment

/-! ## The walk of a value -/

/-- A TOML value. What a scalar holds is not looked at. -/
inductive Value where
  | table (entries : List (Key × Value))
  | array (items : List Value)
  | scalar

structure UnknownKey where
  keyPath : Key
  detail : Key
deriving DecidableEq

/-- The key itself is reported. -/
def ownReport (path : Key) (allowed : List Key) (key : Key) : List UnknownKey :=
  if !allowed.contains key && !allowed.isEmpty then [⟨joined path key, key⟩] else []

mutual

/-- `walk_toml`. -/
def walkToml : Value → Key → Option (List UnknownKey)
  | .table entries, path => do
    let allowed ← knownKeysForPath path
    walkEntries entries path allowed
  | .array _, _ => some []
  | .scalar, _ => some []

def walkEntries : List (Key × Value) → Key → List Key → Option (List UnknownKey)
  | [], _, _ => some []
  | (key, val) :: rest, path, allowed => do
    let found ←
      (if isCollectionLevel path || isWeightsLevel path then walkToml val (joined path key)
        else (ownReport path allowed key ++ ·) <$> walkChild val key (joined path key))
    let later ← walkEntries rest path allowed
    return found ++ later

/-- Below a key that is not an id: a table unless it is passed through, or the items of an array. -/
def walkChild : Value → Key → Key → Option (List UnknownKey)
  | .table entries, key, path =>
    if isPassthroughDataKey key then some []
    else do
      let allowed ← knownKeysForPath path
      walkEntries entries path allowed
  | .array items, _, path => walkItems items path
  | .scalar, _, _ => some []

def walkItems : List Value → Key → Option (List UnknownKey)
  | [], _ => some []
  | item :: rest, path => do
    let found ← walkToml item path
    let later ← walkItems rest path
    return found ++ later

end

def collectUnknownKeys (value : Value) : Option (List UnknownKey) := walkToml value []

/-! ## The check of a path -/

def isDigitSegment (segment : Key) : Bool := segment.all Char.isDigit && !segment.isEmpty

/-- `check_valid`. -/
def checkValid : Key → List Key → Option Bool
  | _, [] => some true
  | parent, segment :: rest => do
    let allowed ← knownKeysForPath parent
    if allowed.contains segment then
      if ← checkValid (joined parent segment) rest then return true
    if isCollectionLevel parent || isWeightsLevel parent then
      if ← checkValid (joined parent segment) rest then return true
    if isArrayOfTablesParent parent && isDigitSegment segment && !rest.isEmpty then
      if ← checkValid parent rest then return true
    return false

def isKnownConfigPath (path : List Key) : Option Bool :=
  if path.isEmpty then some false else checkValid [] path

end Dormant.Schema
