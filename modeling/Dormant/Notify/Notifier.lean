import Dormant.Foundations.Runs
import Dormant.Rules.Types

/-!
# Desktop notifications of failures

One episode is open for each display and kind of failure. The notifier decides on an event of the
engine, or on a snapshot of it at startup and after a lag, what to send and what to close, and
writes the time and the id of a notification back when the sink has taken it.
-/

namespace Dormant
set_option autoImplicit false

inductive FailKind where
  | blank
  | wake
  deriving DecidableEq, Repr

structure EpisodeKey where
  display : DisplayId
  kind : FailKind
  deriving DecidableEq, Repr

structure Episode where
  dbusId : Option UInt32
  lastSent : Option ℕ
  notified : Bool
  deriving DecidableEq, Repr

structure NotifyState where
  episodes : EpisodeKey → Option Episode

def NotifyState.empty : NotifyState := { episodes := fun _ => none }

inductive Urgency where
  | normal
  | critical
  deriving DecidableEq, Repr

inductive SuppressReason where
  | cooldown
  | belowThreshold
  deriving DecidableEq, Repr

inductive NotifyAction where
  | send (key : EpisodeKey) (summary body : String) (urgency : Urgency) (replaces : Option UInt32)
  | close (key : EpisodeKey) (dbusId : UInt32)
  | logSuppressed (key : EpisodeKey) (reason : SuppressReason)
  deriving DecidableEq, Repr

def NotifyAction.key : NotifyAction → EpisodeKey
  | .send key _ _ _ _ => key
  | .close key _ => key
  | .logSuppressed key _ => key

structure NotificationsConfig where
  wakeAttemptThreshold : UInt64
  cooldown : ℕ
  notifyRecovery : Bool

structure DisplaySnapshot where
  wakeAttempts : UInt64
  lastBlankFailed : Bool

/-- The engine builds a snapshot from a map, so it lists each display once. -/
structure StateSnapshot where
  displays : List (DisplayId × DisplaySnapshot)
  nodup : (displays.map Prod.fst).Nodup

def wakeMessage (display : DisplayId) (attempts : UInt64) : String × String :=
  ("Display " ++ display.id ++ " failed to wake",
    toString attempts ++ " consecutive wake attempts have failed for display '" ++ display.id ++
      "'.")

def blankMessage (display : DisplayId) (controller detail : String) : String × String :=
  ("Display " ++ display.id ++ " failed to blank", "controller '" ++ controller ++ "': " ++ detail)

def recoveryMessage (key : EpisodeKey) : String × String :=
  let noun := match key.kind with
    | .wake => "wake"
    | .blank => "blank"
  ("Display " ++ key.display.id ++ " recovered",
    "Display '" ++ key.display.id ++ "' succeeded its " ++ noun ++
      " command after prior failures.")

/-- An episode that was never sent counts as sent infinitely long ago. -/
def Episode.cooling (ep : Episode) (cfg : NotificationsConfig) (now : ℕ) : Bool :=
  match ep.lastSent with
  | none => false
  | some sent => now - sent < cfg.cooldown

namespace NotifyState
variable (st : NotifyState) (cfg : NotificationsConfig) (now : ℕ)

def put (key : EpisodeKey) (episode : Option Episode) : NotifyState :=
  { episodes := Function.update st.episodes key episode }

def recordDbusId (key : EpisodeKey) (id : UInt32) : NotifyState :=
  match st.episodes key with
  | some ep => st.put key (some { ep with dbusId := some id })
  | none => st

def recordSent (key : EpisodeKey) (instant : ℕ) : NotifyState :=
  match st.episodes key with
  | some ep => st.put key (some { ep with lastSent := some instant })
  | none => st

/-! ## Events -/

def sendWithCooldown (key : EpisodeKey) (urgency : Urgency) (message : String × String) :
    NotifyState × List NotifyAction :=
  let opened : NotifyState × List NotifyAction :=
    (st.put key (some { dbusId := none, lastSent := none, notified := true }),
      [.send key message.1 message.2 urgency none])
  match st.episodes key with
  | some ep =>
    if ep.notified then
      if ep.cooling cfg now then (st, [.logSuppressed key .cooldown])
      else (st, [.send key message.1 message.2 urgency ep.dbusId])
    else opened
  | none => opened

def decideWakeRetry (display : DisplayId) (attempt : UInt64) : NotifyState × List NotifyAction :=
  if attempt < cfg.wakeAttemptThreshold then
    (st, [.logSuppressed ⟨display, .wake⟩ .belowThreshold])
  else st.sendWithCooldown cfg now ⟨display, .wake⟩ .critical (wakeMessage display attempt)

def decideBlankFailure (display : DisplayId) (controller detail : String) :
    NotifyState × List NotifyAction :=
  st.sendWithCooldown cfg now ⟨display, .blank⟩ .critical (blankMessage display controller detail)

def closing (key : EpisodeKey) (episode : Episode) : List NotifyAction :=
  (episode.dbusId.map (NotifyAction.close key)).toList

def decideRecovered (key : EpisodeKey) : NotifyState × List NotifyAction :=
  match st.episodes key with
  | none => (st, [])
  | some episode =>
    (st.put key none, closing key episode ++
      if cfg.notifyRecovery then
        [.send key (recoveryMessage key).1 (recoveryMessage key).2 .normal none]
      else [])

def decide : DaemonEvent → NotifyState × List NotifyAction
  | .wakeRetry display attempt => st.decideWakeRetry cfg now display attempt
  | .wakeRecovered display _ => st.decideRecovered cfg ⟨display, .wake⟩
  | .blankFailure display controller detail =>
    st.decideBlankFailure cfg now display controller detail
  | .blankRecovered display => st.decideRecovered cfg ⟨display, .blank⟩
  | _ => (st, [])

/-! ## Snapshots -/

def closeEpisode (key : EpisodeKey) : NotifyState × List NotifyAction :=
  match st.episodes key with
  | none => (st, [])
  | some episode => (st.put key none, closing key episode)

def reconcileOne (key : EpisodeKey) (failing : Bool) (message : String × String) :
    NotifyState × List NotifyAction :=
  if failing && (st.episodes key).isNone then
    (st.put key (some { dbusId := none, lastSent := some now, notified := true }),
      [.send key message.1 message.2 .critical none])
  else if !failing then st.closeEpisode key
  else (st, [])

/-- One transition after the other, the actions in order. -/
def andThen (r : NotifyState × List NotifyAction)
    (f : NotifyState → NotifyState × List NotifyAction) : NotifyState × List NotifyAction :=
  ((f r.1).1, r.2 ++ (f r.1).2)

def reconcileDisplay (display : DisplayId) (dsnap : DisplaySnapshot) :
    NotifyState × List NotifyAction :=
  andThen (st.reconcileOne now ⟨display, .wake⟩
      (cfg.wakeAttemptThreshold ≤ dsnap.wakeAttempts) (wakeMessage display dsnap.wakeAttempts))
    fun st => st.reconcileOne now ⟨display, .blank⟩ dsnap.lastBlankFailed
      (blankMessage display "unknown" "blank command failed (state persisted across restart)")

/-- The open episodes of displays that the snapshot does not have, in the order in which the map
of the episodes is walked. -/
def staleKeys (snapshot : StateSnapshot) (walk : List EpisodeKey) : List EpisodeKey :=
  walk.filter fun key =>
    (st.episodes key).isSome && !(key.display ∈ snapshot.displays.map Prod.fst)

def reconcile (snapshot : StateSnapshot) (walk : List EpisodeKey) :
    NotifyState × List NotifyAction :=
  let r := snapshot.displays.foldl
    (fun r d => andThen r fun st => st.reconcileDisplay cfg now d.1 d.2) (st, [])
  (r.1.staleKeys snapshot walk).foldl (fun r key => andThen r fun st => st.closeEpisode key) r

end NotifyState

/-! ## The sink -/

inductive SinkReply where
  | accepted (id : UInt32) (instant : ℕ)
  | rejected
  deriving DecidableEq, Repr

/-- An action that was performed, with the reply of the sink if it was a notification. -/
structure Performed where
  action : NotifyAction
  reply : Option SinkReply
  deriving DecidableEq, Repr

/-- What is written back of an action. -/
def NotifyState.noteReply (st : NotifyState) (p : Performed) : NotifyState :=
  match p.action, p.reply with
  | .send key _ _ _ _, some (.accepted id instant) =>
    (st.recordSent key instant).recordDbusId key id
  | _, _ => st

/-- The replies of the sink, one for each notification in turn. -/
def perform : List NotifyAction → List SinkReply → List Performed
  | [], _ => []
  | .send key summary body urgency replaces :: actions, replies =>
    ⟨.send key summary body urgency replaces, some (replies.headD .rejected)⟩ ::
      perform actions replies.tail
  | action :: actions, replies => ⟨action, none⟩ :: perform actions replies

inductive NotifyInput where
  | event (event : DaemonEvent)
  | reconcile (snapshot : StateSnapshot) (walk : List EpisodeKey)

/-- An input of the notifier, the instant at which it is decided on, and what the sink says. -/
structure NotifyTurn where
  now : ℕ
  input : NotifyInput
  replies : List SinkReply

def NotifyTurn.decided (t : NotifyTurn) (cfg : NotificationsConfig) (st : NotifyState) :
    NotifyState × List NotifyAction :=
  match t.input with
  | .event event => st.decide cfg t.now event
  | .reconcile snapshot walk => st.reconcile cfg t.now snapshot walk

def notifier (cfg : NotificationsConfig) : Runs.System NotifyState NotifyTurn Performed where
  next st t :=
    let performed := perform (t.decided cfg st).2 t.replies
    (performed.foldl NotifyState.noteReply (t.decided cfg st).1, performed)

end Dormant
