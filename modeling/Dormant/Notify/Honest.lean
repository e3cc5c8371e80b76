import Dormant.Notify.Moves

/-!
# Failure notices are honest and rate limited

`Tells` says what an open episode has of the notices that the sink took. With the moves of an
episode it follows for each turn when its notices are honest: not when a reconciliation opened the
episode in vain and a failure comes within the cooldown, and not when a recovery is told of an
episode that nobody was told of.
-/

namespace Dormant
set_option autoImplicit false

/-! ## What an observer of the sink knows -/

/-- What was accepted last for an open episode, with the id and the instant, and whether its
last failure notice was rejected. -/
structure EpisodeLog where
  accepted : Option (UInt32 × ℕ)
  rejected : Bool

def EpisodeLog.empty : EpisodeLog := { accepted := none, rejected := false }

def EpisodeLog.note (l : EpisodeLog) (p : Performed) : EpisodeLog :=
  match p.action, p.reply with
  | .send _ _ _ .critical _, some (.accepted id instant) =>
    { accepted := some (id, instant), rejected := false }
  | .send _ _ _ .critical _, some .rejected => { l with rejected := true }
  | _, _ => l

structure NotifyLog where
  clock : ℕ
  episode : EpisodeKey → EpisodeLog

def NotifyLog.empty : NotifyLog := { clock := 0, episode := fun _ => EpisodeLog.empty }

/-- The instant at which a turn is over. -/
def NotifyTurn.done (t : NotifyTurn) : ℕ :=
  t.replies.foldl (fun clock reply =>
    match reply with
    | .accepted _ instant => max clock instant
    | .rejected => clock) t.now

def noteTurn (l : NotifyLog) (_ : NotifyState) (t : NotifyTurn)
    (r : NotifyState × List Performed) : NotifyLog where
  clock := t.done
  episode key :=
    if (r.1.episodes key).isSome then
      (performedOf key r.2).foldl EpisodeLog.note (l.episode key)
    else EpisodeLog.empty

def notifyWatch (cfg : NotificationsConfig) :
    Runs.System (NotifyLog × NotifyState) NotifyTurn Performed :=
  (notifier cfg).observed noteTurn

/-- The clock does not run backwards. -/
def NotifyLog.inTime (x : NotifyLog × NotifyState) (t : NotifyTurn) : Prop :=
  x.1.clock ≤ t.now ∧ ∀ id instant, .accepted id instant ∈ t.replies → t.now ≤ instant

/-- What an open episode has of the notices that the sink took. -/
structure Tells (cfg : NotificationsConfig) (clock : ℕ) (ep : Episode) (l : EpisodeLog) : Prop where
  notified : ep.notified = true
  dbusId : ep.dbusId = l.accepted.map Prod.fst
  sent : ∀ a ∈ l.accepted, ep.lastSent = some a.2 ∧ a.2 ≤ clock ∧
    (l.rejected = true → a.2 + cfg.cooldown ≤ clock)
  rejected : l.accepted = none → l.rejected = true

/-- An episode that is not open has no log. -/
def TellsOf (cfg : NotificationsConfig) (clock : ℕ) (l : EpisodeLog) : Option Episode → Prop
  | none => l = EpisodeLog.empty
  | some ep => Tells cfg clock ep l

/-- The ids that are closed. -/
def closedIds (ps : List Performed) : List UInt32 :=
  ps.filterMap fun p =>
    match p.action with
    | .close _ id => some id
    | _ => none

def isFailureNotice : Performed → Bool
  | ⟨.send _ _ _ .critical _, _⟩ => true
  | _ => false

def isRecoveryNotice : Performed → Bool
  | ⟨.send _ _ _ .normal _, _⟩ => true
  | _ => false

def isAccepted : Performed → Bool
  | ⟨_, some (.accepted _ _)⟩ => true
  | _ => false

/-- A turn is honest to an episode: accepted failure notices are the cooldown apart, a failure
after a rejected notice is sent at once, a recovery is told only where a failure was, and what was
accepted last is closed once, when the episode is over. -/
structure HonestTo (cfg : NotificationsConfig) (l : EpisodeLog) (cause : Cause) (now : ℕ)
    (before after : Option Episode) (ps : List Performed) : Prop where
  apart : (∃ p ∈ ps, isFailureNotice p ∧ isAccepted p) →
    ∀ a ∈ l.accepted, a.2 + cfg.cooldown ≤ now
  retried : l.rejected = true → cause = .failure → ∃ p ∈ ps, isFailureNotice p
  recovery : (∃ p ∈ ps, isRecoveryNotice p) → l.accepted ≠ none
  closed : before.isSome → after = none → closedIds ps = (l.accepted.map Prod.fst).toList
  kept : (before = none ∨ after.isSome) → closedIds ps = []

/-- No failure comes to an episode within the cooldown of the reconciliation that opened it while
no notice of it was accepted, and no recovery that would be told. -/
def Heeds (cfg : NotificationsConfig) (cause : Cause) (now : ℕ) (ep : Option Episode) : Prop :=
  ∀ episode ∈ ep, episode.dbusId = none →
    (cause = .failure → episode.cooling cfg now = false) ∧
      (cause = .recovery → cfg.notifyRecovery = false)

section Honest
variable {cfg : NotificationsConfig} {clock now : ℕ} {key : EpisodeKey} {l : EpisodeLog}

theorem Tells.cooled {ep : Episode} (h : Tells cfg clock ep l) (hclock : clock ≤ now)
    (hcool : ep.cooling cfg now = false) : ∀ a ∈ l.accepted, a.2 + cfg.cooldown ≤ now := by
  intro a ha
  obtain ⟨hsent, hpast, -⟩ := h.sent a ha
  unfold Episode.cooling at hcool
  rw [hsent] at hcool
  have hle : ¬ now - a.2 < cfg.cooldown := by simpa using hcool
  omega

/-- While an episode is cooling its last notice was accepted, or a reconciliation opened it. -/
theorem Tells.cooling {ep : Episode} (h : Tells cfg clock ep l) (hclock : clock ≤ now)
    (hcool : ep.cooling cfg now = true) : l.rejected = true ↔ ep.dbusId = none := by
  rw [h.dbusId]
  cases ha : l.accepted with
  | none => simpa using h.rejected ha
  | some a =>
    have hfresh : l.rejected ≠ true := by
      intro hrejected
      obtain ⟨hsent, hpast, hapart⟩ := h.sent a ha
      have hlate := hapart hrejected
      unfold Episode.cooling at hcool
      rw [hsent] at hcool
      have hlt : now - a.2 < cfg.cooldown := by simpa using hcool
      omega
    simpa using hfresh

theorem closedIds_closing {ep : Episode} {ps : List Performed}
    (h : ps.map (·.action) = NotifyState.closing key ep) :
    closedIds ps = ep.dbusId.toList ∧ ∀ p ∈ ps, isFailureNotice p = false ∧
      isRecoveryNotice p = false := by
  unfold NotifyState.closing at h
  cases hid : ep.dbusId with
  | none =>
    rw [hid] at h
    have hnil : ps = [] := by simpa using h
    subst hnil
    exact ⟨rfl, by simp⟩
  | some id =>
    rw [hid] at h
    obtain ⟨⟨action, reply⟩, rfl, haction⟩ := List.map_eq_singleton_iff.mp h
    dsimp only at haction
    subst haction
    exact ⟨rfl, by simp [isFailureNotice, isRecoveryNotice]⟩

/-- A turn is honest to an episode just when it heeds what the episode has. -/
theorem honest_iff {cause : Cause} {before after : Option Episode} {actions : List NotifyAction}
    {ps : List Performed} (htells : TellsOf cfg clock l before) (hclock : clock ≤ now)
    (hmove : Move cfg now key cause before after actions) (hps : ps.map (·.action) = actions) :
    HonestTo cfg l cause now before after ps ↔ Heeds cfg cause now before := by
  cases hmove with
  | quiet ep hfailure hrecovery =>
    have hnil : ps = [] := by simpa using hps
    subst hnil
    refine ⟨fun _ episode hep _ => ⟨fun h => absurd h hfailure, fun h => ?_⟩, fun _ => ?_⟩
    · rw [hrecovery h] at hep
      cases hep
    · refine ⟨by simp, fun _ h => absurd h hfailure, by simp, fun hsome hnone => ?_, fun _ => rfl⟩
      rw [hnone] at hsome
      cases hsome
  | belowThreshold ep =>
    obtain ⟨⟨action, reply⟩, rfl, haction⟩ := List.map_eq_singleton_iff.mp hps
    dsimp only at haction
    subst haction
    refine ⟨fun _ episode hep _ => ⟨by simp, by simp⟩, fun _ => ?_⟩
    refine ⟨by simp [isFailureNotice], by simp, by simp [isRecoveryNotice], fun hsome hnone => ?_,
      fun _ => rfl⟩
    rw [hnone] at hsome
    cases hsome
  | cooling ep hcool =>
    obtain ⟨⟨action, reply⟩, rfl, haction⟩ := List.map_eq_singleton_iff.mp hps
    dsimp only at haction
    subst haction
    have hiff := Tells.cooling htells hclock hcool
    constructor
    · intro h episode hep hnone
      obtain rfl : ep = episode := Option.some.inj hep
      obtain ⟨p, hp, hnotice⟩ := h.retried (hiff.mpr hnone) rfl
      rw [List.mem_singleton] at hp
      subst hp
      cases hnotice
    · intro h
      refine ⟨by simp [isFailureNotice], fun hrejected _ => ?_, by simp [isRecoveryNotice],
        by simp, fun _ => rfl⟩
      have hheeds := (h ep rfl (hiff.mp hrejected)).1 rfl
      rw [hcool] at hheeds
      cases hheeds
  | resent ep hcool summary body =>
    obtain ⟨⟨action, reply⟩, rfl, haction⟩ := List.map_eq_singleton_iff.mp hps
    dsimp only at haction
    subst haction
    refine ⟨fun _ episode hep _ => ?_, fun _ => ?_⟩
    · obtain rfl : ep = episode := Option.some.inj hep
      exact ⟨fun _ => hcool, by simp⟩
    · exact ⟨fun _ => Tells.cooled htells hclock hcool, fun _ _ => ⟨_, List.mem_cons_self, rfl⟩,
        by simp [isRecoveryNotice], by simp, fun _ => rfl⟩
  | opened hcause sent summary body =>
    obtain ⟨⟨action, reply⟩, rfl, haction⟩ := List.map_eq_singleton_iff.mp hps
    dsimp only at haction
    subst haction
    have hempty : l = EpisodeLog.empty := htells
    subst hempty
    refine ⟨fun _ episode hep _ => (by cases hep), fun _ => ?_⟩
    exact ⟨by simp [EpisodeLog.empty], fun _ _ => ⟨_, List.mem_cons_self, rfl⟩,
      by simp [isRecoveryNotice], by simp, fun _ => rfl⟩
  | closed ep =>
    obtain ⟨hids, hnone⟩ := closedIds_closing hps
    refine ⟨fun _ episode hep _ => ⟨by simp, by simp⟩, fun _ => ?_⟩
    refine ⟨?_, by simp, ?_, fun _ _ => ?_, by simp⟩
    · rintro ⟨p, hp, hnotice, -⟩
      rw [(hnone p hp).1] at hnotice
      cases hnotice
    · rintro ⟨p, hp, hnotice⟩
      rw [(hnone p hp).2] at hnotice
      cases hnotice
    · rw [hids, Tells.dbusId htells]
  | recovered ep summary body =>
    obtain ⟨closing, told, rfl, hclosing, htold⟩ := List.map_eq_append_iff.mp hps
    obtain ⟨hids, hnone⟩ := closedIds_closing hclosing
    have hdbus := Tells.dbusId htells
    have hno : ∀ p ∈ told, isFailureNotice p = false ∧ isRecoveryNotice p = true ∧
        closedIds [p] = [] := by
      intro p hp
      have hmem : p.action ∈ told.map (·.action) := List.mem_map_of_mem hp
      rw [htold] at hmem
      split at hmem
      · obtain ⟨action, reply⟩ := p
        rw [List.mem_singleton] at hmem
        dsimp only at hmem
        subst hmem
        exact ⟨rfl, rfl, rfl⟩
      · cases hmem
    have hidsTold : closedIds told = [] := by
      unfold closedIds
      rw [List.filterMap_eq_nil_iff]
      intro p hp
      have hone := (hno p hp).2.2
      simpa [closedIds] using hone
    constructor
    · intro h episode hep hid
      obtain rfl : ep = episode := Option.some.inj hep
      refine ⟨by simp, fun _ => ?_⟩
      by_contra htell
      rw [Bool.not_eq_false] at htell
      rw [if_pos htell] at htold
      obtain ⟨p, rfl, -⟩ := List.map_eq_singleton_iff.mp htold
      refine h.recovery ⟨p, by simp, (hno p List.mem_cons_self).2.1⟩ ?_
      rw [hdbus, Option.map_eq_none_iff] at hid
      exact hid
    · intro h
      refine ⟨?_, by simp, ?_, fun _ _ => ?_, by simp⟩
      · rintro ⟨p, hp, hnotice, -⟩
        rcases List.mem_append.mp hp with hp | hp
        · rw [(hnone p hp).1] at hnotice
          cases hnotice
        · rw [(hno p hp).1] at hnotice
          cases hnotice
      · rintro ⟨p, hp, hnotice⟩ haccepted
        rcases List.mem_append.mp hp with hp | hp
        · rw [(hnone p hp).2] at hnotice
          cases hnotice
        · have hid : ep.dbusId = none := by rw [hdbus, haccepted, Option.map_none]
          have hsilent := (h ep rfl hid).2 rfl
          rw [if_neg (by simp [hsilent])] at htold
          have hnil : told = [] := by simpa using htold
          rw [hnil] at hp
          cases hp
      · unfold closedIds at hids hidsTold ⊢
        rw [List.filterMap_append, hids, hidsTold, List.append_nil, hdbus]

theorem NotifyTurn.done_ge (t : NotifyTurn) : t.now ≤ t.done ∧
    ∀ id instant, .accepted id instant ∈ t.replies → instant ≤ t.done := by
  obtain ⟨now, input, replies⟩ := t
  unfold NotifyTurn.done
  dsimp only
  induction replies generalizing now with
  | nil => exact ⟨le_refl _, by simp⟩
  | cons reply replies ih =>
    cases reply with
    | rejected =>
      obtain ⟨hnow, hreplies⟩ := ih now
      exact ⟨hnow, fun id instant h => hreplies id instant (by simpa using h)⟩
    | accepted id instant =>
      obtain ⟨hnow, hreplies⟩ := ih (max now instant)
      rw [List.foldl_cons]
      refine ⟨(le_max_left _ _).trans hnow, fun id' instant' h => ?_⟩
      rcases List.mem_cons.mp h with heq | h
      · cases heq
        exact (le_max_right _ _).trans hnow
      · exact hreplies id' instant' h

theorem TellsOf.later {ep : Option Episode} {clock' : ℕ} (h : TellsOf cfg clock l ep)
    (hclock : clock ≤ clock') : TellsOf cfg clock' l ep := by
  cases ep with
  | none => exact h
  | some ep =>
    have htells : Tells cfg clock ep l := h
    refine ⟨htells.notified, htells.dbusId, fun a ha => ?_, htells.rejected⟩
    obtain ⟨hsent, hpast, hapart⟩ := htells.sent a ha
    exact ⟨hsent, hpast.trans hclock, fun hrejected => (hapart hrejected).trans hclock⟩

theorem writeBack_none (ps : List Performed) :
    ps.foldl (fun ep p => p.writeBack ep) none = none := by
  induction ps with
  | nil => rfl
  | cons p ps ih =>
    rw [List.foldl_cons]
    have hnone : p.writeBack none = none := by
      obtain ⟨action, reply⟩ := p
      unfold Performed.writeBack
      split <;> rfl
    rw [hnone, ih]

/-- A failure notice of an open episode, accepted or not. -/
theorem tells_notice (key : EpisodeKey) {ep : Episode} {done : ℕ} (hnotified : ep.notified = true)
    (hdone : now ≤ done) (hcooled : ∀ a ∈ l.accepted, a.2 + cfg.cooldown ≤ now)
    (hid : ep.dbusId = l.accepted.map Prod.fst)
    (hsent : ∀ a ∈ l.accepted, ep.lastSent = some a.2) (summary body : String)
    (replaces : Option UInt32) (reply : SinkReply)
    (hreply : reply = .rejected ∨ ∃ id instant, reply = .accepted id instant ∧ instant ≤ done) :
    let p : Performed := ⟨.send key summary body .critical replaces, some reply⟩
    (p.writeBack (some ep)).isSome ∧ TellsOf cfg done (l.note p) (p.writeBack (some ep)) := by
  rcases hreply with rfl | ⟨id, instant, rfl, hle⟩
  · refine ⟨rfl, hnotified, hid, fun a ha => ?_, fun _ => rfl⟩
    have hapart := hcooled a ha
    exact ⟨hsent a ha, by omega, fun _ => by omega⟩
  · refine ⟨rfl, hnotified, rfl, fun a ha => ?_, by simp [EpisodeLog.note]⟩
    obtain rfl : (id, instant) = a := Option.some.inj ha
    exact ⟨rfl, hle, by simp [EpisodeLog.note]⟩

theorem tells_move {cause : Cause} {before after : Option Episode} {actions : List NotifyAction}
    {ps : List Performed} {done : ℕ} (htells : TellsOf cfg clock l before) (hclock : clock ≤ now)
    (hdone : now ≤ done) (hmove : Move cfg now key cause before after actions)
    (hps : ps.map (·.action) = actions)
    (hreplies : ∀ p ∈ ps, ∀ key summary body urgency replaces,
      p.action = .send key summary body urgency replaces → ∃ reply, p.reply = some reply ∧
        (reply = .rejected ∨ ∃ id instant, reply = .accepted id instant ∧ instant ≤ done)) :
    TellsOf cfg done
      (if (ps.foldl (fun ep p => p.writeBack ep) after).isSome then ps.foldl EpisodeLog.note l
        else EpisodeLog.empty) (ps.foldl (fun ep p => p.writeBack ep) after) := by
  have hlater := htells.later (hclock.trans hdone)
  have hsame (ep : Option Episode) (h : TellsOf cfg done l ep) :
      TellsOf cfg done (if ep.isSome then l else EpisodeLog.empty) ep := by
    cases ep with
    | none => rfl
    | some ep => exact h
  have hgone (ps : List Performed) : TellsOf cfg done
      (if (ps.foldl (fun ep p => p.writeBack ep) none).isSome then ps.foldl EpisodeLog.note l
        else EpisodeLog.empty) (ps.foldl (fun ep p => p.writeBack ep) none) := by
    rw [writeBack_none]
    rfl
  cases hmove with
  | quiet ep hfailure hrecovery =>
    have hnil : ps = [] := by simpa using hps
    subst hnil
    exact hsame before hlater
  | belowThreshold ep =>
    obtain ⟨⟨action, reply⟩, rfl, haction⟩ := List.map_eq_singleton_iff.mp hps
    dsimp only at haction
    subst haction
    exact hsame before hlater
  | cooling ep hcool =>
    obtain ⟨⟨action, reply⟩, rfl, haction⟩ := List.map_eq_singleton_iff.mp hps
    dsimp only at haction
    subst haction
    exact hsame _ hlater
  | resent ep hcool summary body =>
    obtain ⟨⟨action, reply⟩, rfl, haction⟩ := List.map_eq_singleton_iff.mp hps
    dsimp only at haction
    subst haction
    obtain ⟨reply', hreply, hwhich⟩ := hreplies _ List.mem_cons_self _ _ _ _ _ rfl
    dsimp only at hreply
    subst hreply
    have hep : Tells cfg clock ep l := htells
    obtain ⟨hsome, hnext⟩ := tells_notice key hep.notified hdone
      (hep.cooled hclock hcool) hep.dbusId (fun a ha => (hep.sent a ha).1) summary body ep.dbusId
      reply' hwhich
    rw [List.foldl_cons, List.foldl_nil, if_pos hsome]
    exact hnext
  | opened hcause sent summary body =>
    obtain ⟨⟨action, reply⟩, rfl, haction⟩ := List.map_eq_singleton_iff.mp hps
    dsimp only at haction
    subst haction
    obtain ⟨reply', hreply, hwhich⟩ := hreplies _ List.mem_cons_self _ _ _ _ _ rfl
    dsimp only at hreply
    subst hreply
    have hempty : l = EpisodeLog.empty := htells
    subst hempty
    have hcooled : ∀ a ∈ EpisodeLog.empty.accepted, a.2 + cfg.cooldown ≤ now := by
      simp [EpisodeLog.empty]
    have hsent : ∀ a ∈ EpisodeLog.empty.accepted,
        ({ dbusId := none, lastSent := sent, notified := true } : Episode).lastSent = some a.2 := by
      simp [EpisodeLog.empty]
    obtain ⟨hsome, hnext⟩ :=
      tells_notice key rfl hdone hcooled rfl hsent summary body none reply' hwhich
    rw [List.foldl_cons, List.foldl_nil, if_pos hsome]
    exact hnext
  | recovered ep summary body => exact hgone ps
  | closed ep => exact hgone ps

/-! ## Runs -/

/-- Every open episode has what the sink told, and the others have nothing. -/
def TellsAll (cfg : NotificationsConfig) (x : NotifyLog × NotifyState) : Prop :=
  ∀ key, TellsOf cfg x.1.clock (x.1.episode key) (x.2.episodes key)

theorem TellsAll.move {x : NotifyLog × NotifyState} (h : TellsAll cfg x) (t : NotifyTurn)
    (key : EpisodeKey) :
    Move cfg t.now key (t.cause cfg key) (x.2.episodes key)
      ((t.decided cfg x.2).1.episodes key) (ofKey key (t.decided cfg x.2).2) := by
  apply move_decided
  intro ep hep
  have htells := h key
  rw [hep] at htells
  exact Tells.notified htells

theorem tellsAll_next {x : NotifyLog × NotifyState} {t : NotifyTurn} (h : TellsAll cfg x)
    (ht : NotifyLog.inTime x t) : TellsAll cfg ((notifyWatch cfg).next x t).1 := by
  intro key
  obtain ⟨hnow, hdone⟩ := t.done_ge
  have hnext := tells_move (h key) ht.1 hnow (h.move t key)
    (performedOf_actions key (t.decided cfg x.2).2 t.replies) (fun p hp _ _ _ _ _ hsend => by
      obtain ⟨reply, hreply, hwhich⟩ := perform_replies (List.mem_of_mem_filter hp) hsend
      refine ⟨reply, hreply, hwhich.imp_right ?_⟩
      rintro ⟨id, instant, rfl, hmem⟩
      exact ⟨id, instant, rfl, hdone id instant hmem⟩)
  have hafter : ((notifier cfg).next x.2 t).1.episodes key =
      (performedOf key (perform (t.decided cfg x.2).2 t.replies)).foldl
        (fun ep p => p.writeBack ep) ((t.decided cfg x.2).1.episodes key) :=
    noteReplies_episodes _
  rw [← hafter] at hnext
  exact hnext

theorem HonestTo.congr {cause : Cause} {before after after' : Option Episode}
    {ps : List Performed} (h : HonestTo cfg l cause now before after ps)
    (hafter : after'.isSome = after.isSome) : HonestTo cfg l cause now before after' ps := by
  refine ⟨h.apart, h.retried, h.recovery, fun hsome hnone => ?_, fun hkept => ?_⟩
  · rw [hnone] at hafter
    exact h.closed hsome (Option.not_isSome_iff_eq_none.mp (by simp [← hafter]))
  · rw [hafter] at hkept
    exact h.kept hkept

theorem writeBack_isSome (ps : List Performed) (ep : Option Episode) :
    (ps.foldl (fun ep p => p.writeBack ep) ep).isSome = ep.isSome := by
  induction ps generalizing ep with
  | nil => rfl
  | cons p ps ih =>
    rw [List.foldl_cons, ih]
    unfold Performed.writeBack
    split
    · exact Option.isSome_map
    · rfl

theorem honest_next {x : NotifyLog × NotifyState} {t : NotifyTurn} (h : TellsAll cfg x)
    (ht : NotifyLog.inTime x t) (key : EpisodeKey) :
    HonestTo cfg (x.1.episode key) (t.cause cfg key) t.now (x.2.episodes key)
        (((notifier cfg).next x.2 t).1.episodes key)
        (performedOf key ((notifier cfg).next x.2 t).2) ↔
      Heeds cfg (t.cause cfg key) t.now (x.2.episodes key) := by
  have hiff := honest_iff (h key) ht.1 (h.move t key)
    (performedOf_actions key (t.decided cfg x.2).2 t.replies)
  have hafter : (((notifier cfg).next x.2 t).1.episodes key).isSome =
      ((t.decided cfg x.2).1.episodes key).isSome := by
    have hfold : ((notifier cfg).next x.2 t).1.episodes key =
        (performedOf key (perform (t.decided cfg x.2).2 t.replies)).foldl
          (fun ep p => p.writeBack ep) ((t.decided cfg x.2).1.episodes key) :=
      noteReplies_episodes _
    rw [hfold, writeBack_isSome]
  exact ⟨fun hh => hiff.mp (hh.congr hafter.symm), fun hh => (hiff.mpr hh).congr hafter⟩

end Honest

/-- In every run whose clock does not go back, every turn is honest to every episode just when no
failure comes to an episode of which no notice was accepted within the cooldown of the
reconciliation that opened it, and no recovery that is told of comes to such an episode. -/
theorem notices_honest (cfg : NotificationsConfig) (turns : List NotifyTurn)
    (htime : (notifyWatch cfg).Steps NotifyLog.inTime (NotifyLog.empty, NotifyState.empty) turns) :
    (notifyWatch cfg).Steps (fun x t => ∀ key, HonestTo cfg (x.1.episode key) (t.cause cfg key)
        t.now (x.2.episodes key) (((notifier cfg).next x.2 t).1.episodes key)
        (performedOf key ((notifier cfg).next x.2 t).2))
        (NotifyLog.empty, NotifyState.empty) turns ↔
      (notifyWatch cfg).Steps (fun x t => ∀ key, Heeds cfg (t.cause cfg key) t.now
        (x.2.episodes key)) (NotifyLog.empty, NotifyState.empty) turns := by
  have hnew : TellsAll cfg (NotifyLog.empty, NotifyState.empty) := fun key => rfl
  have hstep (x : NotifyLog × NotifyState) (t : NotifyTurn) (hx : TellsAll cfg x)
      (ht : NotifyLog.inTime x t) : TellsAll cfg ((notifyWatch cfg).next x t).1 :=
    tellsAll_next hx ht
  constructor
  · intro h
    refine (htime.and h).derive (TellsAll cfg) (fun x t hx ht => hstep x t hx ht.1) ?_ hnew
    intro x t hx ht key
    exact (honest_next hx ht.1 key).mp (ht.2 key)
  · intro h
    refine (htime.and h).derive (TellsAll cfg) (fun x t hx ht => hstep x t hx ht.1) ?_ hnew
    intro x t hx ht key
    exact (honest_next hx ht.1 key).mpr (ht.2 key)

/-! ## A bus that is down at startup -/

def standardNotices : NotificationsConfig :=
  { wakeAttemptThreshold := 3, cooldown := 900, notifyRecovery := true }

/-- A display that has failed to wake before the notifier starts. -/
def failingSnapshot : StateSnapshot where
  displays := [(⟨"monitor"⟩, { wakeAttempts := 5, lastBlankFailed := false })]
  nodup := by decide

/-- The notice of the snapshot is rejected, the display fails again, and then it wakes. -/
def busDown : List NotifyTurn :=
  [{ now := 0, input := .reconcile failingSnapshot [], replies := [.rejected] },
    { now := 60, input := .event (.wakeRetry ⟨"monitor"⟩ 6), replies := [.accepted 7 61] },
    { now := 100, input := .event (.wakeRecovered ⟨"monitor"⟩ 6), replies := [.accepted 7 101] }]

theorem busDown_inTime : (notifyWatch standardNotices).Steps NotifyLog.inTime
    (NotifyLog.empty, NotifyState.empty) busDown := by
  simp [busDown, Runs.System.Steps, NotifyLog.inTime, notifyWatch, Runs.System.observed, noteTurn,
    NotifyTurn.done, NotifyLog.empty]

theorem notices_honest_busDown :
    (notifyWatch standardNotices).Steps (fun x t => ∀ key, HonestTo standardNotices
        (x.1.episode key) (t.cause standardNotices key) t.now (x.2.episodes key)
        (((notifier standardNotices).next x.2 t).1.episodes key)
        (performedOf key ((notifier standardNotices).next x.2 t).2))
        (NotifyLog.empty, NotifyState.empty) busDown ↔
      (notifyWatch standardNotices).Steps (fun x t => ∀ key, Heeds standardNotices
        (t.cause standardNotices key) t.now (x.2.episodes key))
        (NotifyLog.empty, NotifyState.empty) busDown :=
  notices_honest standardNotices busDown busDown_inTime

/-- The failure after the rejected notice is suppressed, and the recovery is told of an episode
that nobody was told of. -/
theorem unheard_episode : (notifyWatch standardNotices).Steps NotifyLog.inTime
      (NotifyLog.empty, NotifyState.empty) busDown ∧
    ((notifier standardNotices).outputs NotifyState.empty busDown).map (·.action) =
      [.send ⟨⟨"monitor"⟩, .wake⟩ "Display monitor failed to wake"
          "5 consecutive wake attempts have failed for display 'monitor'." .critical none,
        .logSuppressed ⟨⟨"monitor"⟩, .wake⟩ .cooldown,
        .send ⟨⟨"monitor"⟩, .wake⟩ "Display monitor recovered"
          "Display 'monitor' succeeded its wake command after prior failures." .normal none] ∧
    ¬ (notifyWatch standardNotices).Steps (fun x t => ∀ key, HonestTo standardNotices
        (x.1.episode key) (t.cause standardNotices key) t.now (x.2.episodes key)
        (((notifier standardNotices).next x.2 t).1.episodes key)
        (performedOf key ((notifier standardNotices).next x.2 t).2))
      (NotifyLog.empty, NotifyState.empty) busDown := by
  refine ⟨busDown_inTime, by decide +kernel, fun h => ?_⟩
  -- the failure of the second turn
  obtain ⟨p, hp, hnotice⟩ := (h.2.1 ⟨⟨"monitor"⟩, .wake⟩).retried (by decide +kernel)
    (by decide +kernel)
  have hnone : ∀ p ∈ performedOf ⟨⟨"monitor"⟩, .wake⟩ ((notifier standardNotices).next
      ((notifyWatch standardNotices).next (NotifyLog.empty, NotifyState.empty)
        { now := 0, input := .reconcile failingSnapshot [], replies := [.rejected] }).1.2
        { now := 60, input := .event (.wakeRetry ⟨"monitor"⟩ 6), replies := [.accepted 7 61] }).2,
      isFailureNotice p = false := by decide +kernel
  rw [hnone p hp] at hnotice
  cases hnotice

end Dormant
