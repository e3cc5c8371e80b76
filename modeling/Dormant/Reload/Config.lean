import Dormant.Rules.Types

/-!
# Configurations and the files they come from

What a reload of `app.rs` reads of a configuration, and `load_runtime_from_paths`. The digest and
the parsers are parameters. A read finds what the file holds at that moment, or the text of an
error.
-/

namespace Dormant.Reload
set_option autoImplicit false

inductive DisplayScope where
  | priv
  | shared
  deriving DecidableEq, Repr

structure DisplayConfig where
  scope : DisplayScope
  sharedInputCode : Option UInt8
  controllers : List String
  blankMode : Option BlankMode
  degradedMode : Option BlankMode
  ladder : List LadderStage
  output : Option String
  ddcDisplay : Option String
  host : Option String
  wolMac : Option String
  blankCommand : Option String
  wakeCommand : Option String
  modes : Option (List BlankMode)
  haUrl : Option String
  blankService : Option String
  blankData : Option String
  wakeService : Option String
  wakeData : Option String
  commandTimeout : ℕ
  treatUnreachableAsBlanked : Bool
  deriving DecidableEq, Repr

/-- The fields of a display that determine the outcome of a dispatch are equal. -/
def dispatchRelevantEq (a b : DisplayConfig) : Bool :=
  decide (a.controllers = b.controllers) && decide (a.blankMode = b.blankMode) &&
    decide (a.degradedMode = b.degradedMode) && decide (a.ladder = b.ladder) &&
    decide (a.output = b.output) && decide (a.ddcDisplay = b.ddcDisplay) &&
    decide (a.host = b.host) && decide (a.wolMac = b.wolMac) &&
    decide (a.blankCommand = b.blankCommand) && decide (a.wakeCommand = b.wakeCommand) &&
    decide (a.modes = b.modes) && decide (a.haUrl = b.haUrl) &&
    decide (a.blankService = b.blankService) && decide (a.blankData = b.blankData) &&
    decide (a.wakeService = b.wakeService) && decide (a.wakeData = b.wakeData) &&
    decide (a.commandTimeout = b.commandTimeout) &&
    decide (a.treatUnreachableAsBlanked = b.treatUnreachableAsBlanked)

/-- A rule is its displays. -/
structure Config where
  displays : List (DisplayId × DisplayConfig)
  rules : List (RuleId × List DisplayId)
  activityFollow : Bool
  reloadDebounce : ℕ
  generationBarrierAckTimeout : ℕ
  lkgEnabled : Bool
  stabilityWindow : ℕ
  deriving DecidableEq, Repr

namespace Config
variable (cfg : Config)

def ids : List DisplayId := cfg.displays.map Prod.fst

def display (id : DisplayId) : Option DisplayConfig := cfg.displays.lookup id

/-- The keys of `index_display_rules`. -/
def ruled : List DisplayId := cfg.rules.flatMap Prod.snd

def sharedDisplays : List DisplayId :=
  (cfg.displays.filter fun d => decide (d.2.scope = .shared)).map Prod.fst

/-- The displays that the activity-follow task pulls. -/
def followed : List DisplayId :=
  (cfg.displays.filter fun d =>
    decide (d.2.scope = .shared) && d.2.sharedInputCode.isSome).map Prod.fst

end Config

structure MqttCredential where
  username : String
  password : String
  deriving DecidableEq, Repr

structure Credentials where
  haToken : Option String
  samsung : List (String × String)
  mqtt : List (String × MqttCredential)
  deriving DecidableEq, Repr

def Credentials.default : Credentials := { haToken := none, samsung := [], mqtt := [] }

/-! ## Revisions -/

abbrev Bytes := List UInt8

/-- The text of a digest is never `missing`. -/
inductive ContentRevision where
  | digest (value : ℕ)
  | missing
  deriving DecidableEq, Repr

structure RuntimeRevision where
  config : ContentRevision
  credentials : ContentRevision
  deriving DecidableEq, Repr

/-- What stands for the digest and the parsers. -/
structure Loader where
  sha256 : Bytes → ℕ
  loadConfig : Bytes → Except String Config
  loadCredentials : Bytes → Except String Credentials

/-- A read of the config file. -/
abbrev ConfigRead := Except String Bytes

/-- A read of the credentials file, after the checks of its existence and its mode. -/
inductive CredsRead where
  | absent
  | failed (error : String)
  | contents (bytes : Bytes)
  deriving DecidableEq, Repr

namespace Loader
variable (loader : Loader)

def fromBytes (bytes : Bytes) : ContentRevision := .digest (loader.sha256 bytes)

def credsRevision : CredsRead → ContentRevision
  | .absent => .missing
  | .failed _ => loader.fromBytes []
  | .contents bytes => loader.fromBytes bytes

def creds : CredsRead → Except String Credentials
  | .absent => .ok .default
  | .failed error => .error error
  | .contents bytes => loader.loadCredentials bytes

/-- `load_runtime_from_paths`. -/
def loadRuntime (config : ConfigRead) (creds : CredsRead) :
    RuntimeRevision × Except String (Config × Credentials) :=
  match config with
  | .error error => (⟨loader.fromBytes [], .missing⟩, .error error)
  | .ok bytes =>
    (⟨loader.fromBytes bytes, loader.credsRevision creds⟩,
      match loader.loadConfig bytes, loader.creds creds with
      | .ok cfg, .ok creds => .ok (cfg, creds)
      | .error error, _ => .error error
      | .ok _, .error error => .error error)

/-- `runtime_revision_from_paths`, of a boot. A read that fails ends the boot. -/
def runtimeRevision (config : Bytes) (creds : Option Bytes) : RuntimeRevision where
  config := loader.fromBytes config
  credentials := match creds with
    | none => .missing
    | some bytes => loader.fromBytes bytes

end Loader

end Dormant.Reload
