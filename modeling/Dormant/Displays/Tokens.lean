import Dormant.Displays.Executor

/-!
# The history of a command

The commands of one executor side by side. `ExecutorPast` is what a command has gone through, and
`may` and `ends` say where in it each call stands: a wake looks at its token before it attempts a
controller, and again before it returns success.
-/

namespace Dormant
set_option autoImplicit false

open Tasks

/-- What a command has gone through. It is `fresh` from a look at its token that finds it current to
the next wait. It is `passing` while it waits to be told whether a controller is available, and goes
on to that controller without another look. -/
structure ExecutorPast where
  command : ExecutorCommand
  token : Option ℕ
  fresh : Bool
  asked : Option ℕ
  passing : Option ℕ
  deriving DecidableEq

namespace ExecutorPast

def start (command : ExecutorCommand) : ExecutorPast where
  command := command
  token := none
  fresh := false
  asked := none
  passing := none

def wait (s : ExecutorState) (q : ExecutorPast) (passing : Option ℕ) : ExecutorPast :=
  { q with fresh := false, asked := some s.supersede, passing := passing }

def ask (s : ExecutorState) (q : ExecutorPast) : ExecutorCall → ExecutorPast
  | .isAvailable i => q.wait s (if q.fresh then some i else none)
  | .reprobe _ => q.wait s none
  | .blank _ _ => q.wait s none
  | .wake _ => q.wait s none
  | .backoff _ => q.wait s none
  | .panic => q.wait s none
  | _ => q

def got (_ : ExecutorState) (q : ExecutorPast) : (call : ExecutorCall) → call.Reply → ExecutorPast
  | .rotateSupersede, token => { q with token := some token, fresh := true }
  | .isCancelled _, cancelled => { q with fresh := !cancelled }
  | _, _ => q

end ExecutorPast

/-- Around the commands, what the controllers support changes, and other displays and executors use
the registry. -/
inductive ExecutorChange where
  | supportedModes (modes : ℕ → List BlankMode)
  | blankOwners (registry : BlankOwnerRegistry)

def executions (ex : DisplayExecutor) :
    Scheme ExecutorCommand ExecutorChange ExecutorState ExecutorPast ExecutorCall
      ExecutorCall.Reply CommandResult where
  program command := ex.program command
  act call := ex.act call
  unwind _ := return ()
  outside change s :=
    match change with
    | .supportedModes modes => { s with supportedModes := modes }
    | .blankOwners registry => { s with blankOwners := registry }
  start := ExecutorPast.start
  ask := ExecutorPast.ask
  got := ExecutorPast.got
  lost q _ := q

abbrev ExecutorThread :=
  Thread ExecutorCommand ExecutorPast ExecutorCall ExecutorCall.Reply CommandResult

abbrev ExecutorPool :=
  Pool ExecutorCommand ExecutorState ExecutorPast ExecutorCall ExecutorCall.Reply CommandResult

abbrev ExecutorEvent := PoolEvent ExecutorCommand ExecutorChange ExecutorCall ExecutorCall.Reply

def ExecutorCommand.isBlank : ExecutorCommand → Bool
  | .blank _ => true
  | _ => false

/-! ## Where each call stands -/

namespace ExecutorPast
variable (q : ExecutorPast)

def may : ExecutorCall → Prop
  | .rotateSupersede => q.token = none
  | .isCancelled token => q.token = some token
  | .blank _ _ => q.token.isSome ∧ q.command.isBlank
  | .wake i => q.token.isSome ∧ q.command.isBlank = false ∧ (q.fresh ∨ q.passing = some i)
  | .isAvailable _ => q.token.isSome
  | .reprobe _ => q.token.isSome
  | .backoff _ => q.token.isSome
  | .panic => q.token.isSome
  | _ => True

def ends (result : CommandResult) : Prop :=
  result = .ok () → q.command.isBlank = false → q.fresh

/-- It is the same command, with its token. -/
def Same (q' : ExecutorPast) : Prop := q'.command = q.command ∧ q'.token = q.token

/-- A wake that holds its token. -/
def Waking (token : ℕ) : Prop := q.command.isBlank = false ∧ q.token = some token

end ExecutorPast

theorem ExecutorPast.Same.trans {q q' q'' : ExecutorPast} (h : q.Same q') (h' : q'.Same q'') :
    q.Same q'' :=
  ⟨h'.1.trans h.1, h'.2.trans h.2⟩

/-! ## The commands conform -/

namespace DisplayExecutor
variable {ex : DisplayExecutor} {q : ExecutorPast}

theorem same_of_blank {q q' : ExecutorPast} (h : q.token.isSome ∧ q.command.isBlank)
    (hq : q.Same q') : q'.token.isSome ∧ q'.command.isBlank := by
  rw [hq.1, hq.2]
  exact h

theorem conforms_blanked (tally : BlankTally) (i : ℕ) :
    (executions ex).Conforms ExecutorPast.may (fun q' _ => q' = q) (blanked tally i) q := by
  refine Scheme.conforms_request trivial fun _ _ _ => ?_
  exact Scheme.conforms_request (f := Task.done) trivial fun _ _ _ => rfl

theorem conforms_blankPass (mode : BlankMode) {probe : ℕ → Execution Unit}
    {skip : BlankTally → ℕ → String → BlankTally} {fail : BlankTally → BlankTally}
    (hprobe : ∀ i (q : ExecutorPast), q.token.isSome ∧ q.command.isBlank →
      (executions ex).Conforms ExecutorPast.may (fun q' _ => q.Same q') (probe i) q)
    (controllers : List (String × ℕ)) (tally : BlankTally)
    (h : q.token.isSome ∧ q.command.isBlank) :
    (executions ex).Conforms ExecutorPast.may (fun q' _ => q.Same q')
      (blankPass mode probe skip fail controllers tally) q := by
  induction controllers generalizing q tally with
  | nil => exact ⟨rfl, rfl⟩
  | cons controller rest ih =>
    obtain ⟨name, i⟩ := controller
    have hrest {q' : ExecutorPast} (hq : q.Same q') (tally : BlankTally) :
        (executions ex).Conforms ExecutorPast.may (fun q'' _ => q.Same q'')
          (blankPass mode probe skip fail rest tally) q' :=
      (ih tally (same_of_blank h hq)).mono fun _ _ hq' => hq.trans hq'
    refine Scheme.conforms_bind (hprobe i q h) fun q₁ _ hq₁ => ?_
    have h₁ := same_of_blank h hq₁
    refine Scheme.conforms_request h₁.1 fun s _ available => ?_
    have hasked : q.Same (q₁.wait s (if q₁.fresh then some i else none)) := hq₁
    split
    · refine Scheme.conforms_request trivial fun _ _ modes => ?_
      split
      · refine Scheme.conforms_request h₁ fun s' _ result => ?_
        have hblanked : q.Same (ExecutorPast.wait s'
            (q₁.wait s (if q₁.fresh then some i else none)) none) := hq₁
        split
        · refine Scheme.conforms_bind (conforms_blanked tally i) fun q' _ hq' => ?_
          subst hq'
          exact hblanked
        · exact hrest hblanked _
      · exact hrest hasked _
    · exact hrest hasked _

theorem conforms_blankRound (mode : BlankMode) (controllers : List (String × ℕ))
    (tally : BlankTally) (h : q.token.isSome ∧ q.command.isBlank) :
    (executions ex).Conforms ExecutorPast.may (fun q' _ => q.Same q')
      (blankRound mode controllers tally) q := by
  refine conforms_blankPass mode (fun _ _ _ => ?_) controllers tally h
  exact ⟨rfl, rfl⟩

theorem conforms_reprobeBlankPass (mode : BlankMode) (controllers : List (String × ℕ))
    (tally : BlankTally) (h : q.token.isSome ∧ q.command.isBlank) :
    (executions ex).Conforms ExecutorPast.may (fun q' _ => q.Same q')
      (reprobeBlankPass mode controllers tally) q := by
  refine conforms_blankPass mode (fun _ _ h => ?_) controllers tally h
  exact Scheme.conforms_request (f := Task.done) h.1 fun _ _ _ => ⟨rfl, rfl⟩

theorem conforms_blankFailed (mode : BlankMode) (tally : BlankTally) :
    (executions ex).Conforms ExecutorPast.may ExecutorPast.ends (blankFailed mode tally) q :=
  Scheme.conforms_request trivial fun _ _ _ hok => by cases hok

theorem conforms_blank (ex : DisplayExecutor) (mode : BlankMode) :
    (executions ex).Conforms ExecutorPast.may ExecutorPast.ends (ex.blank mode)
      (.start (.blank mode)) := by
  have hok {q : ExecutorPast} {result : CommandResult} (hq : q.command.isBlank = true) :
      q.ends result := fun _ hwake => by cases hq.symm.trans hwake
  refine Scheme.conforms_request rfl fun _ _ token => ?_
  refine Scheme.conforms_bind (conforms_blankRound mode _ _ ⟨rfl, rfl⟩) fun q tally hq => ?_
  have hq := same_of_blank ⟨rfl, rfl⟩ hq
  cases tally with
  | none => exact hok hq.2
  | some tally =>
    dsimp only
    split
    · refine Scheme.conforms_bind (conforms_reprobeBlankPass mode _ _ hq) fun q' tally hq' => ?_
      have hq' := same_of_blank hq hq'
      cases tally with
      | none => exact hok hq'.2
      | some tally => exact conforms_blankFailed mode tally
    · exact conforms_blankFailed mode tally

end DisplayExecutor

/-! ## Wakes -/

/-- Where a loop of a wake leaves the history. It returns success only with a fresh look. -/
def ExecutorPast.Flowed {α : Type} (q q' : ExecutorPast) (flow : Flow α) : Prop :=
  q.Same q' ∧ ∀ result, flow = .returned result → result = .ok () → q'.fresh

namespace DisplayExecutor
variable {ex : DisplayExecutor} {q : ExecutorPast} {token : ℕ}

theorem flowed_next {α : Type} (a : α) : q.Flowed q (.next a) :=
  ⟨⟨rfl, rfl⟩, fun _ h => by cases h⟩

theorem flowed_superseded {α : Type} {q' : ExecutorPast} (h : q.Same q') :
    q.Flowed q' (.returned superseded : Flow α) :=
  ⟨h, fun _ h hok => by cases h; cases hok⟩

theorem conforms_woken {α : Type} (owner : Option ℕ) (rows : Option (List ControllerHealth))
    (i : ℕ) (h : q.Waking token) :
    (executions ex).Conforms ExecutorPast.may (fun q' flow => q.Flowed q' flow)
      (woken (α := α) owner token rows i) q := by
  refine Scheme.conforms_request h.2 fun _ _ cancelled => ?_
  cases cancelled with
  | true => exact flowed_superseded ⟨rfl, rfl⟩
  | false =>
    have hrows : (executions ex).Conforms ExecutorPast.may
        (fun q' _ => q' = { q with fresh := true }) (storeRows rows) { q with fresh := true } := by
      cases rows with
      | none => exact rfl
      | some rows => exact Scheme.conforms_request (f := Task.done) trivial fun _ _ _ => rfl
    refine Scheme.conforms_bind hrows fun q₁ _ hq₁ => ?_
    subst hq₁
    have howner : (executions ex).Conforms ExecutorPast.may
        (fun q' _ => q' = { q with fresh := true }) (clearOwner owner i)
        { q with fresh := true } := by
      unfold clearOwner
      split
      · exact Scheme.conforms_request (f := Task.done) trivial fun _ _ _ => rfl
      · exact rfl
    refine Scheme.conforms_bind howner fun q₂ _ hq₂ => ?_
    subst hq₂
    exact ⟨⟨rfl, rfl⟩, fun _ _ _ => rfl⟩

/-- After a fresh look: a controller is attempted at once, or after it has been asked for. -/
theorem conforms_attempts (owner : Option ℕ) (i : ℕ) (h : q.Waking token)
    (hfresh : q.fresh = true) :
    (executions ex).Conforms ExecutorPast.may
      (fun q' _ => q.Same q' ∧ q'.may (.wake i)) (attempts owner i) q := by
  have hsome : q.token.isSome := by rw [h.2]; rfl
  unfold attempts
  split
  · exact ⟨⟨rfl, rfl⟩, hsome, h.1, .inl hfresh⟩
  · refine Scheme.conforms_request (f := Task.done) hsome fun s _ _ => ?_
    refine ⟨⟨rfl, rfl⟩, hsome, h.1, .inr ?_⟩
    show (if q.fresh then some i else none) = some i
    rw [if_pos hfresh]

theorem Waking.same {q q' : ExecutorPast} (h : q.Waking token) (hq : q.Same q') :
    q'.Waking token := by
  unfold ExecutorPast.Waking
  rw [hq.1, hq.2]
  exact h

theorem Flowed.from_same {α : Type} {q q' q'' : ExecutorPast} {flow : Flow α} (hq : q.Same q')
    (h : q'.Flowed q'' flow) : q.Flowed q'' flow :=
  ⟨hq.trans h.1, h.2⟩

theorem conforms_attemptRound {α : Type} (owner : Option ℕ)
    (rows : α → ℕ → Option (List ControllerHealth)) (fail : α → ℕ → String → α)
    (order : List ℕ) (a : α) (h : q.Waking token) :
    (executions ex).Conforms ExecutorPast.may (fun q' flow => q.Flowed q' flow)
      (attemptRound owner token rows fail order a) q := by
  induction order generalizing q a with
  | nil => exact flowed_next a
  | cons i rest ih =>
    have hrest {q' : ExecutorPast} (hq : q.Same q') (a : α) :
        (executions ex).Conforms ExecutorPast.may (fun q'' flow => q.Flowed q'' flow)
          (attemptRound owner token rows fail rest a) q' :=
      (ih a (Waking.same h hq)).mono fun _ _ => Flowed.from_same hq
    refine Scheme.conforms_request h.2 fun _ _ cancelled => ?_
    cases cancelled with
    | true => exact flowed_superseded ⟨rfl, rfl⟩
    | false =>
      have hlooked : ExecutorPast.Waking { q with fresh := true } token := h
      refine Scheme.conforms_bind (conforms_attempts owner i hlooked rfl) fun q₁ attempt hq₁ => ?_
      obtain ⟨hsame, hmay⟩ := hq₁
      split
      · refine Scheme.conforms_request hmay fun s _ result => ?_
        have hwaited : q.Same (q₁.wait s none) := ⟨hsame.1, hsame.2⟩
        split
        · exact (conforms_woken owner _ i (Waking.same h hwaited)).mono
            fun _ _ => Flowed.from_same hwaited
        · exact hrest hwaited _
      · exact hrest hsame _

theorem conforms_reprobeWakePass (owner : Option ℕ) (order : List ℕ) (h : q.Waking token) :
    (executions ex).Conforms ExecutorPast.may (fun q' flow => q.Flowed q' flow)
      (reprobeWakePass owner token order) q := by
  have hsome {q : ExecutorPast} (h : q.Waking token) : q.token.isSome := by rw [h.2]; rfl
  induction order generalizing q with
  | nil => exact flowed_next ()
  | cons i rest ih =>
    have hrest {q' : ExecutorPast} (hq : q.Same q') :
        (executions ex).Conforms ExecutorPast.may (fun q'' flow => q.Flowed q'' flow)
          (reprobeWakePass owner token rest) q' :=
      (ih (Waking.same h hq)).mono fun _ _ => Flowed.from_same hq
    refine Scheme.conforms_request (hsome h) fun s _ _ => ?_
    have hprobed : q.Same (q.wait s none) := ⟨rfl, rfl⟩
    have hasked : (executions ex).Conforms ExecutorPast.may (fun q' _ => q.Same q')
        (attempts owner i) (q.wait s none) := by
      unfold attempts
      split
      · exact hprobed
      · exact Scheme.conforms_request (f := Task.done) (hsome h) fun _ _ _ => ⟨rfl, rfl⟩
    refine Scheme.conforms_bind hasked fun q₁ attempt hsame => ?_
    split
    · refine Scheme.conforms_request (Waking.same h hsame).2 fun _ _ cancelled => ?_
      cases cancelled with
      | true => exact flowed_superseded ⟨hsame.1, hsame.2⟩
      | false =>
        have hmay : ExecutorPast.may { q₁ with fresh := true } (.wake i) :=
          ⟨hsome (Waking.same h hsame), (Waking.same h hsame).1, .inl rfl⟩
        refine Scheme.conforms_request hmay fun s' _ result => ?_
        have hwaited : q.Same (ExecutorPast.wait s' { q₁ with fresh := true } none) :=
          ⟨hsame.1, hsame.2⟩
        split
        · exact (conforms_woken owner _ i (Waking.same h hwaited)).mono
            fun _ _ => Flowed.from_same hwaited
        · exact hrest hwaited
    · exact hrest hsame

theorem conforms_wakeRounds (ex : DisplayExecutor) (owner : Option ℕ) (order : List ℕ)
    (left round : ℕ) (health : List ControllerHealth) (h : q.Waking token) :
    (executions ex).Conforms ExecutorPast.may (fun q' flow => q.Flowed q' flow)
      (ex.wakeRounds owner token order left round health) q := by
  induction left generalizing q round health with
  | zero => exact flowed_next health
  | succ left ih =>
    refine Scheme.conforms_bind (conforms_attemptRound owner _ _ order health h)
      fun q₁ flow hq₁ => ?_
    cases flow with
    | returned result => exact ⟨hq₁.1, fun _ hr => hq₁.2 _ (by cases hr; rfl)⟩
    | next health' =>
      dsimp only
      split
      · exact ⟨hq₁.1, fun _ hr => by cases hr⟩
      · have hwaking := Waking.same h hq₁.1
        have hsome : q₁.token.isSome := by rw [hwaking.2]; rfl
        refine Scheme.conforms_request hsome fun s _ _ => ?_
        have hpaused : q.Same (q₁.wait s none) := ⟨hq₁.1.1, hq₁.1.2⟩
        refine Scheme.conforms_request (Waking.same h hpaused).2 fun _ _ cancelled => ?_
        cases cancelled with
        | true => exact flowed_superseded hpaused
        | false =>
          have hlooked : q.Same { q₁.wait s none with fresh := true } := hpaused
          exact (ih (round + 1) health' (Waking.same h hlooked)).mono
            fun _ _ => Flowed.from_same hlooked

theorem ends_returned {α : Type} {q q' : ExecutorPast} {result : CommandResult}
    (h : q.Flowed q' (.returned result : Flow α)) : q'.ends result :=
  fun hok _ => h.2 result rfl hok

theorem conforms_wakeOnce (ex : DisplayExecutor) :
    (executions ex).Conforms ExecutorPast.may ExecutorPast.ends ex.wakeOnce
      (.start .wakeOnce) := by
  refine Scheme.conforms_request rfl fun _ _ token => ?_
  split
  · exact fun hok => by cases hok
  · refine Scheme.conforms_request trivial fun _ _ owner => ?_
    refine Scheme.conforms_bind (conforms_attemptRound owner _ _ _ () ⟨rfl, rfl⟩)
      fun q flow hq => ?_
    cases flow with
    | returned result => exact ends_returned hq
    | next done =>
      refine Scheme.conforms_bind (conforms_reprobeWakePass owner _ (Waking.same ⟨rfl, rfl⟩ hq.1))
        fun q' flow hq' => ?_
      cases flow with
      | returned result => exact ends_returned hq'
      | next done => exact fun hok => by cases hok

theorem conforms_wake (ex : DisplayExecutor) :
    (executions ex).Conforms ExecutorPast.may ExecutorPast.ends ex.wake (.start .wake) := by
  refine Scheme.conforms_request rfl fun _ _ token => ?_
  split
  · exact fun hok => by cases hok
  · split
    · exact ⟨rfl, fun _ _ nothing => nothing.elim⟩
    · refine Scheme.conforms_request trivial fun _ _ owner => ?_
      refine Scheme.conforms_bind (conforms_wakeRounds ex owner _ _ 0 _ ⟨rfl, rfl⟩)
        fun q flow hq => ?_
      cases flow with
      | returned result => exact ends_returned hq
      | next health =>
        refine Scheme.conforms_request trivial fun _ _ _ => ?_
        refine Scheme.conforms_bind
          (conforms_reprobeWakePass owner _ (Waking.same ⟨rfl, rfl⟩ hq.1)) fun q' flow hq' => ?_
        cases flow with
        | returned result => exact ends_returned hq'
        | next done => exact fun hok => by cases hok

end DisplayExecutor

theorem lawful_executions (ex : DisplayExecutor) :
    (executions ex).Lawful ExecutorPast.may ExecutorPast.ends fun _ => True where
  program command := by
    cases command with
    | blank mode => exact ex.conforms_blank mode
    | wakeOnce => exact ex.conforms_wakeOnce
    | wake => exact ex.conforms_wake
  unstarted _ := trivial
  unwind _ _ := trivial

end Dormant
