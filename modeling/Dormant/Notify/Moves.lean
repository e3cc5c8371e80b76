import Dormant.Notify.Notifier

/-!
# What a turn of the notifier does to an episode

`Move` says what one turn does to one episode, with the actions for it: whichever display a
snapshot lists and whatever order the episodes are walked in, each episode makes one move.
-/

namespace Dormant
set_option autoImplicit false

/-- What an input is to an episode. -/
inductive Cause where
  | failure
  | recovery
  | other
  deriving DecidableEq, Repr

/-- A qualifying failure of the episode's display, a recovery of it, or anything else. -/
def NotifyTurn.cause (t : NotifyTurn) (cfg : NotificationsConfig) (key : EpisodeKey) : Cause :=
  match t.input with
  | .event (.wakeRetry display attempt) =>
    if key = ⟨display, .wake⟩ ∧ ¬ attempt < cfg.wakeAttemptThreshold then .failure else .other
  | .event (.blankFailure display _ _) => if key = ⟨display, .blank⟩ then .failure else .other
  | .event (.wakeRecovered display _) => if key = ⟨display, .wake⟩ then .recovery else .other
  | .event (.blankRecovered display) => if key = ⟨display, .blank⟩ then .recovery else .other
  | _ => .other

/-- What becomes of an episode, and the actions for it. -/
inductive Move (cfg : NotificationsConfig) (now : ℕ) (key : EpisodeKey) :
    Cause → Option Episode → Option Episode → List NotifyAction → Prop
  | quiet (ep : Option Episode) {cause : Cause} (hfailure : cause ≠ .failure)
      (hrecovery : cause = .recovery → ep = none) : Move cfg now key cause ep ep []
  | belowThreshold (ep : Option Episode) :
      Move cfg now key .other ep ep [.logSuppressed key .belowThreshold]
  | cooling (ep : Episode) (h : ep.cooling cfg now = true) :
      Move cfg now key .failure (some ep) (some ep) [.logSuppressed key .cooldown]
  | resent (ep : Episode) (h : ep.cooling cfg now = false) (summary body : String) :
      Move cfg now key .failure (some ep) (some ep)
        [.send key summary body .critical ep.dbusId]
  | opened {cause : Cause} (hcause : cause ≠ .recovery) (sent : Option ℕ) (summary body : String) :
      Move cfg now key cause none (some { dbusId := none, lastSent := sent, notified := true })
        [.send key summary body .critical none]
  | recovered (ep : Episode) (summary body : String) :
      Move cfg now key .recovery (some ep) none (NotifyState.closing key ep ++
        if cfg.notifyRecovery then [.send key summary body .normal none] else [])
  | closed (ep : Episode) : Move cfg now key .other (some ep) none (NotifyState.closing key ep)

/-- The actions for an episode. -/
def ofKey (key : EpisodeKey) (actions : List NotifyAction) : List NotifyAction :=
  actions.filter (·.key = key)

section Moves
variable {cfg : NotificationsConfig} {now : ℕ} {key : EpisodeKey} {st : NotifyState}

theorem NotifyState.put_other {other : EpisodeKey} (h : key ≠ other) (ep : Option Episode) :
    (st.put other ep).episodes key = st.episodes key := by
  unfold NotifyState.put
  exact Function.update_of_ne h _ _

theorem NotifyState.put_same (ep : Option Episode) : (st.put key ep).episodes key = ep := by
  unfold NotifyState.put
  exact Function.update_self _ _ _

theorem ofKey_closing_same (key : EpisodeKey) (ep : Episode) :
    ofKey key (NotifyState.closing key ep) = NotifyState.closing key ep := by
  unfold ofKey NotifyState.closing
  cases ep.dbusId <;> simp [NotifyAction.key]

theorem ofKey_closing_other {other : EpisodeKey} (h : key ≠ other) (ep : Episode) :
    ofKey key (NotifyState.closing other ep) = [] := by
  unfold ofKey NotifyState.closing
  cases ep.dbusId <;> simp [NotifyAction.key, Ne.symm h]

/-- A transition that concerns one episode leaves the others alone. -/
def Within (key : EpisodeKey) (st : NotifyState) (r : NotifyState × List NotifyAction) : Prop :=
  r.1.episodes key = st.episodes key ∧ ofKey key r.2 = []

theorem within_sendWithCooldown {other : EpisodeKey} (h : key ≠ other) (st : NotifyState)
    (message : String × String) :
    Within key st (st.sendWithCooldown cfg now other .critical message) := by
  have hopened : Within key st
      (st.put other (some { dbusId := none, lastSent := none, notified := true }),
        [.send other message.1 message.2 .critical none]) :=
    ⟨NotifyState.put_other h _, by simp [ofKey, NotifyAction.key, Ne.symm h]⟩
  unfold NotifyState.sendWithCooldown
  dsimp only
  split
  · split
    · split <;> exact ⟨rfl, by simp [ofKey, NotifyAction.key, Ne.symm h]⟩
    · exact hopened
  · exact hopened

theorem move_sendWithCooldown (hnotified : ∀ ep ∈ st.episodes key, ep.notified = true)
    (message : String × String) :
    Move cfg now key .failure (st.episodes key)
      ((st.sendWithCooldown cfg now key .critical message).1.episodes key)
      (ofKey key (st.sendWithCooldown cfg now key .critical message).2) := by
  unfold NotifyState.sendWithCooldown
  cases hep : st.episodes key with
  | none =>
    simp only [NotifyState.put_same]
    have hone : ofKey key [.send key message.1 message.2 .critical none] =
        [.send key message.1 message.2 .critical none] := by simp [ofKey, NotifyAction.key]
    rw [hone]
    exact .opened (by simp) none _ _
  | some ep =>
    simp only [hnotified ep hep, if_true]
    cases hcool : ep.cooling cfg now with
    | true =>
      simp only [if_true, hep]
      have hone : ofKey key [.logSuppressed key .cooldown] = [.logSuppressed key .cooldown] := by
        simp [ofKey, NotifyAction.key]
      rw [hone]
      exact .cooling ep hcool
    | false =>
      simp only [Bool.false_eq_true, if_false, hep]
      have hone : ofKey key [.send key message.1 message.2 .critical ep.dbusId] =
          [.send key message.1 message.2 .critical ep.dbusId] := by simp [ofKey, NotifyAction.key]
      rw [hone]
      exact .resent ep hcool _ _

theorem within_decideRecovered {other : EpisodeKey} (h : key ≠ other) (st : NotifyState) :
    Within key st (st.decideRecovered cfg other) := by
  unfold NotifyState.decideRecovered
  split
  · exact ⟨rfl, rfl⟩
  · rename_i ep hep
    refine ⟨NotifyState.put_other h _, ?_⟩
    have hclosing := ofKey_closing_other h ep
    unfold ofKey at hclosing ⊢
    rw [List.filter_append, hclosing]
    split <;> simp [NotifyAction.key, Ne.symm h]

theorem move_decideRecovered (st : NotifyState) :
    Move cfg now key .recovery (st.episodes key) ((st.decideRecovered cfg key).1.episodes key)
      (ofKey key (st.decideRecovered cfg key).2) := by
  unfold NotifyState.decideRecovered
  cases hep : st.episodes key with
  | none =>
    dsimp only
    rw [hep]
    exact .quiet none (by simp) (fun _ => rfl)
  | some ep =>
    dsimp only
    rw [NotifyState.put_same]
    have hall : ofKey key (NotifyState.closing key ep ++ if cfg.notifyRecovery then
        [.send key (recoveryMessage key).1 (recoveryMessage key).2 .normal none] else []) =
          NotifyState.closing key ep ++ if cfg.notifyRecovery then
            [.send key (recoveryMessage key).1 (recoveryMessage key).2 .normal none] else [] := by
      have hclosing := ofKey_closing_same key ep
      unfold ofKey at hclosing ⊢
      rw [List.filter_append, hclosing]
      split <;> simp [NotifyAction.key]
    rw [hall]
    exact .recovered ep _ _

theorem Within.quiet {r : NotifyState × List NotifyAction} {cause : Cause}
    (h : Within key st r) (hcause : cause = .other) :
    Move cfg now key cause (st.episodes key) (r.1.episodes key) (ofKey key r.2) := by
  rw [h.1, h.2, hcause]
  exact .quiet _ (by simp) (by simp)

theorem move_decide (hnotified : ∀ ep ∈ st.episodes key, ep.notified = true) (t : NotifyTurn)
    {event : DaemonEvent} (ht : t.input = .event event) :
    Move cfg now key (t.cause cfg key) (st.episodes key) ((st.decide cfg now event).1.episodes key)
      (ofKey key (st.decide cfg now event).2) := by
  unfold NotifyTurn.cause
  rw [ht]
  cases event with
  | wakeRetry display attempt =>
    simp only [NotifyState.decide, NotifyState.decideWakeRetry]
    by_cases hbelow : attempt < cfg.wakeAttemptThreshold
    · rw [if_pos hbelow, if_neg fun h => h.2 hbelow]
      by_cases hkey : key = ⟨display, .wake⟩
      · subst hkey
        have hone : ofKey ⟨display, .wake⟩ [.logSuppressed ⟨display, .wake⟩ .belowThreshold] =
            [.logSuppressed ⟨display, .wake⟩ .belowThreshold] := by
          simp [ofKey, NotifyAction.key]
        dsimp only
        rw [hone]
        exact .belowThreshold _
      · exact Within.quiet (r := (st, _)) ⟨rfl, by simp [ofKey, NotifyAction.key, Ne.symm hkey]⟩ rfl
    · rw [if_neg hbelow]
      by_cases hkey : key = ⟨display, .wake⟩
      · subst hkey
        rw [if_pos ⟨rfl, hbelow⟩]
        exact move_sendWithCooldown hnotified _
      · rw [if_neg fun h => hkey h.1]
        exact (within_sendWithCooldown hkey st _).quiet rfl
  | blankFailure display controller detail =>
    dsimp only [NotifyState.decide, NotifyState.decideBlankFailure]
    by_cases hkey : key = ⟨display, .blank⟩
    · subst hkey
      rw [if_pos rfl]
      exact move_sendWithCooldown hnotified _
    · rw [if_neg hkey]
      exact (within_sendWithCooldown hkey st _).quiet rfl
  | wakeRecovered display attempts =>
    dsimp only [NotifyState.decide]
    by_cases hkey : key = ⟨display, .wake⟩
    · subst hkey
      rw [if_pos rfl]
      exact move_decideRecovered st
    · rw [if_neg hkey]
      exact (within_decideRecovered hkey st).quiet rfl
  | blankRecovered display =>
    dsimp only [NotifyState.decide]
    by_cases hkey : key = ⟨display, .blank⟩
    · subst hkey
      rw [if_pos rfl]
      exact move_decideRecovered st
    · rw [if_neg hkey]
      exact (within_decideRecovered hkey st).quiet rfl
  | _ => exact Within.quiet (r := (st, [])) ⟨rfl, rfl⟩ rfl

/-! ## Snapshots -/

theorem ofKey_append (key : EpisodeKey) (as bs : List NotifyAction) :
    ofKey key (as ++ bs) = ofKey key as ++ ofKey key bs :=
  List.filter_append as bs

theorem Within.andThen {r : NotifyState × List NotifyAction}
    {f : NotifyState → NotifyState × List NotifyAction} (h : Within key st r)
    (hf : ∀ st, Within key st (f st)) : Within key st (NotifyState.andThen r f) := by
  obtain ⟨hstate, hactions⟩ := h
  obtain ⟨hstate', hactions'⟩ := hf r.1
  refine ⟨hstate'.trans hstate, ?_⟩
  unfold NotifyState.andThen
  rw [ofKey_append, hactions, hactions']
  rfl

/-- A transition that leaves the episode alone, before or after a move of it. -/
theorem Move.andThen {cause : Cause} {before : Option Episode}
    {r : NotifyState × List NotifyAction} {f : NotifyState → NotifyState × List NotifyAction}
    (h : Move cfg now key cause before (r.1.episodes key) (ofKey key r.2))
    (hf : ∀ st, Within key st (f st)) :
    Move cfg now key cause before ((NotifyState.andThen r f).1.episodes key)
      (ofKey key (NotifyState.andThen r f).2) := by
  obtain ⟨hstate, hactions⟩ := hf r.1
  unfold NotifyState.andThen
  rw [ofKey_append, hactions, List.append_nil, hstate]
  exact h

theorem Within.move {cause : Cause} {r : NotifyState × List NotifyAction}
    {f : NotifyState → NotifyState × List NotifyAction} (h : Within key st r)
    (hf : Move cfg now key cause (r.1.episodes key) ((f r.1).1.episodes key)
      (ofKey key (f r.1).2)) :
    Move cfg now key cause (st.episodes key) ((NotifyState.andThen r f).1.episodes key)
      (ofKey key (NotifyState.andThen r f).2) := by
  unfold NotifyState.andThen
  rw [ofKey_append, h.2, List.nil_append, ← h.1]
  exact hf

theorem within_closeEpisode {other : EpisodeKey} (h : key ≠ other) (st : NotifyState) :
    Within key st (st.closeEpisode other) := by
  unfold NotifyState.closeEpisode
  split
  · exact ⟨rfl, rfl⟩
  · exact ⟨NotifyState.put_other h _, ofKey_closing_other h _⟩

theorem move_closeEpisode (st : NotifyState) :
    Move cfg now key .other (st.episodes key) ((st.closeEpisode key).1.episodes key)
      (ofKey key (st.closeEpisode key).2) := by
  unfold NotifyState.closeEpisode
  cases hep : st.episodes key with
  | none =>
    dsimp only
    rw [hep]
    exact .quiet none (by simp) (by simp)
  | some ep =>
    dsimp only
    rw [NotifyState.put_same, ofKey_closing_same]
    exact .closed ep

theorem within_reconcileOne {other : EpisodeKey} (h : key ≠ other) (st : NotifyState)
    (failing : Bool) (message : String × String) :
    Within key st (st.reconcileOne now other failing message) := by
  unfold NotifyState.reconcileOne
  split
  · exact ⟨NotifyState.put_other h _, by simp [ofKey, NotifyAction.key, Ne.symm h]⟩
  · split
    · exact within_closeEpisode h st
    · exact ⟨rfl, rfl⟩

theorem move_reconcileOne (st : NotifyState) (failing : Bool) (message : String × String) :
    Move cfg now key .other (st.episodes key)
      ((st.reconcileOne now key failing message).1.episodes key)
      (ofKey key (st.reconcileOne now key failing message).2) := by
  unfold NotifyState.reconcileOne
  split
  · rename_i hopen
    have hnone : st.episodes key = none := by
      rw [Bool.and_eq_true, Option.isNone_iff_eq_none] at hopen
      exact hopen.2
    dsimp only
    rw [NotifyState.put_same, hnone]
    have hone : ofKey key [.send key message.1 message.2 .critical none] =
        [.send key message.1 message.2 .critical none] := by simp [ofKey, NotifyAction.key]
    rw [hone]
    exact .opened (by simp) _ _ _
  · split
    · exact move_closeEpisode st
    · exact .quiet _ (by simp) (by simp)

theorem within_reconcileDisplay {display : DisplayId} (h : key.display ≠ display)
    (st : NotifyState) (dsnap : DisplaySnapshot) :
    Within key st (st.reconcileDisplay cfg now display dsnap) := by
  have hne (kind : FailKind) : key ≠ ⟨display, kind⟩ := by
    rintro rfl
    exact h rfl
  exact (within_reconcileOne (hne .wake) st _ _).andThen fun st =>
    within_reconcileOne (hne .blank) st _ _

theorem move_reconcileDisplay (st : NotifyState) (dsnap : DisplaySnapshot) :
    Move cfg now key .other (st.episodes key)
      ((st.reconcileDisplay cfg now key.display dsnap).1.episodes key)
      (ofKey key (st.reconcileDisplay cfg now key.display dsnap).2) := by
  obtain ⟨display, kind⟩ := key
  cases kind with
  | wake =>
    exact (move_reconcileOne st _ _).andThen fun st => within_reconcileOne (by simp) st _ _
  | blank =>
    exact (within_reconcileOne (by simp) st _ _).move (move_reconcileOne _ _ _)

theorem Within.foldl {α : Type} {f : α → NotifyState → NotifyState × List NotifyAction}
    {items : List α} (hf : ∀ a ∈ items, ∀ st, Within key st (f a st))
    {r : NotifyState × List NotifyAction} (h : Within key st r) :
    Within key st (items.foldl (fun r a => NotifyState.andThen r (f a)) r) := by
  induction items generalizing r with
  | nil => exact h
  | cons a items ih =>
    exact ih (fun b hb => hf b (List.mem_cons_of_mem a hb)) (h.andThen (hf a List.mem_cons_self))

theorem Move.foldl {α : Type} {f : α → NotifyState → NotifyState × List NotifyAction}
    {items : List α} (hf : ∀ a ∈ items, ∀ st, Within key st (f a st)) {cause : Cause}
    {before : Option Episode} {r : NotifyState × List NotifyAction}
    (h : Move cfg now key cause before (r.1.episodes key) (ofKey key r.2)) :
    let r' := items.foldl (fun r a => NotifyState.andThen r (f a)) r
    Move cfg now key cause before (r'.1.episodes key) (ofKey key r'.2) := by
  induction items generalizing r with
  | nil => exact h
  | cons a items ih =>
    exact ih (fun b hb => hf b (List.mem_cons_of_mem a hb)) (h.andThen (hf a List.mem_cons_self))

/-- The displays of a snapshot, each of which is looked at once. -/
theorem move_displays {displays : List (DisplayId × DisplaySnapshot)}
    (hnodup : (displays.map Prod.fst).Nodup) (key : EpisodeKey) (st : NotifyState)
    {f : DisplayId × DisplaySnapshot → NotifyState → NotifyState × List NotifyAction}
    (hwithin : ∀ d st, key.display ≠ d.1 → Within key st (f d st))
    (hmove : ∀ d st, key.display = d.1 →
      Move cfg now key .other (st.episodes key) ((f d st).1.episodes key) (ofKey key (f d st).2)) :
    let r := displays.foldl (fun r d => NotifyState.andThen r (f d)) (st, [])
    (key.display ∉ displays.map Prod.fst ∧ Within key st r) ∨
      (key.display ∈ displays.map Prod.fst ∧
        Move cfg now key .other (st.episodes key) (r.1.episodes key) (ofKey key r.2)) := by
  have hstart : Within key st (st, []) := ⟨rfl, rfl⟩
  by_cases hmem : key.display ∈ displays.map Prod.fst
  · right
    refine ⟨hmem, ?_⟩
    obtain ⟨d, hd, hdisplay⟩ := List.mem_map.mp hmem
    obtain ⟨before, after, rfl⟩ := List.append_of_mem hd
    rw [List.map_append, List.map_cons, List.nodup_append] at hnodup
    obtain ⟨-, hafter, hapart⟩ := hnodup
    have hbefore' : ∀ other ∈ before, key.display ≠ other.1 := fun other ho heq =>
      hapart other.1 (List.mem_map_of_mem ho) d.1 List.mem_cons_self (heq.symm.trans hdisplay.symm)
    have hafter' : ∀ other ∈ after, key.display ≠ other.1 := fun other ho heq =>
      (List.nodup_cons.mp hafter).1 (List.mem_map.mpr ⟨other, ho, heq.symm.trans hdisplay.symm⟩)
    rw [List.foldl_append, List.foldl_cons]
    have hpassed := hstart.foldl fun other ho st => hwithin other st (hbefore' other ho)
    have hmoved := hpassed.move (hmove d _ hdisplay.symm)
    exact hmoved.foldl fun other ho st => hwithin other st (hafter' other ho)
  · left
    refine ⟨hmem, hstart.foldl fun other ho st => hwithin other st ?_⟩
    intro heq
    exact hmem (List.mem_map.mpr ⟨other, ho, heq.symm⟩)

/-- An episode that is closed stays closed, whatever else is closed. -/
theorem closed_foldl (keys : List EpisodeKey) {cause : Cause} {before : Option Episode}
    {r : NotifyState × List NotifyAction} (hnone : r.1.episodes key = none)
    (h : Move cfg now key cause before none (ofKey key r.2)) :
    let r' := keys.foldl (fun r key => NotifyState.andThen r fun st => st.closeEpisode key) r
    Move cfg now key cause before (r'.1.episodes key) (ofKey key r'.2) := by
  induction keys generalizing r with
  | nil =>
    dsimp only [List.foldl_nil]
    rw [hnone]
    exact h
  | cons other keys ih =>
    have hstep : (r.1.closeEpisode other).1.episodes key = none ∧
        ofKey key (r.1.closeEpisode other).2 = [] := by
      by_cases hkey : key = other
      · subst hkey
        unfold NotifyState.closeEpisode
        rw [hnone]
        exact ⟨hnone, rfl⟩
      · obtain ⟨hstate, hactions⟩ := within_closeEpisode hkey r.1
        exact ⟨hstate.trans hnone, hactions⟩
    refine ih hstep.1 ?_
    unfold NotifyState.andThen
    rw [ofKey_append, hstep.2, List.append_nil]
    exact h

theorem move_stale {keys : List EpisodeKey} {r : NotifyState × List NotifyAction}
    (h : Within key st r) :
    let r' := keys.foldl (fun r key => NotifyState.andThen r fun st => st.closeEpisode key) r
    Move cfg now key .other (st.episodes key) (r'.1.episodes key) (ofKey key r'.2) := by
  induction keys generalizing r with
  | nil => exact h.quiet rfl
  | cons other keys ih =>
    by_cases hkey : key = other
    · subst hkey
      have hclose : Move cfg now key .other (r.1.episodes key)
          ((r.1.closeEpisode key).1.episodes key) (ofKey key (r.1.closeEpisode key).2) :=
        move_closeEpisode r.1
      have hmove := h.move (f := fun st => st.closeEpisode key) hclose
      have hnone : (r.1.closeEpisode key).1.episodes key = none := by
        unfold NotifyState.closeEpisode
        split
        · assumption
        · exact NotifyState.put_same none
      have hclosed : (NotifyState.andThen r fun st => st.closeEpisode key).1.episodes key = none :=
        hnone
      rw [hclosed] at hmove
      exact closed_foldl keys hclosed hmove
    · exact ih (h.andThen fun st => within_closeEpisode hkey st)

theorem move_reconcile (snapshot : StateSnapshot) (walk : List EpisodeKey) (st : NotifyState) :
    Move cfg now key .other (st.episodes key)
      ((st.reconcile cfg now snapshot walk).1.episodes key)
      (ofKey key (st.reconcile cfg now snapshot walk).2) := by
  unfold NotifyState.reconcile
  have hdisplays := move_displays snapshot.nodup key st
    (f := fun d st => st.reconcileDisplay cfg now d.1 d.2)
    (fun d st hne => within_reconcileDisplay hne st d.2)
    (fun d st heq => by rw [← heq]; exact move_reconcileDisplay st d.2)
  rcases hdisplays with ⟨-, hwithin⟩ | ⟨hpresent, hmove⟩
  · exact move_stale hwithin
  · refine hmove.foldl (f := fun key st => st.closeEpisode key) fun other ho st => ?_
    apply within_closeEpisode
    rintro rfl
    simp only [NotifyState.staleKeys, List.mem_filter, Bool.and_eq_true, Bool.not_eq_true',
      decide_eq_false_iff_not] at ho
    exact ho.2.2 hpresent

/-- What a turn of the notifier does to an episode. -/
theorem move_decided (hnotified : ∀ ep ∈ st.episodes key, ep.notified = true) (t : NotifyTurn) :
    Move cfg t.now key (t.cause cfg key) (st.episodes key) ((t.decided cfg st).1.episodes key)
      (ofKey key (t.decided cfg st).2) := by
  unfold NotifyTurn.decided
  cases hinput : t.input with
  | event event => exact move_decide hnotified t hinput
  | reconcile snapshot walk =>
    have hcause : t.cause cfg key = .other := by
      unfold NotifyTurn.cause
      rw [hinput]
    rw [hcause]
    exact move_reconcile snapshot walk st

end Moves

/-! ## What the sink says -/

/-- The performed actions for an episode. -/
def performedOf (key : EpisodeKey) (ps : List Performed) : List Performed :=
  ps.filter (·.action.key = key)

/-- What is written back of an action to the episode it is for. -/
def Performed.writeBack (ep : Option Episode) (p : Performed) : Option Episode :=
  match p.action, p.reply with
  | .send _ _ _ _ _, some (.accepted id instant) =>
    ep.map fun ep => { ep with lastSent := some instant, dbusId := some id }
  | _, _ => ep

section Sink
variable {key : EpisodeKey} {st : NotifyState}

theorem perform_actions (actions : List NotifyAction) (replies : List SinkReply) :
    (perform actions replies).map (·.action) = actions := by
  induction actions generalizing replies with
  | nil => rfl
  | cons action actions ih => cases action <;> simp [perform, ih]

theorem performedOf_actions (key : EpisodeKey) (actions : List NotifyAction)
    (replies : List SinkReply) :
    (performedOf key (perform actions replies)).map (·.action) = ofKey key actions := by
  have hmap := perform_actions actions replies
  unfold performedOf ofKey
  rw [← hmap, List.filter_map]
  simp [hmap, Function.comp_def]

/-- A notification has a reply, of the ones that the sink gave. -/
theorem perform_replies {actions : List NotifyAction} {replies : List SinkReply} {p : Performed}
    (hp : p ∈ perform actions replies) {key : EpisodeKey} {summary body : String}
    {urgency : Urgency} {replaces : Option UInt32}
    (hsend : p.action = .send key summary body urgency replaces) :
    ∃ reply, p.reply = some reply ∧
      (reply = .rejected ∨ ∃ id instant, reply = .accepted id instant ∧ reply ∈ replies) := by
  induction actions generalizing replies with
  | nil => cases hp
  | cons action actions ih =>
    have hrest (hp : p ∈ perform actions replies.tail) :
        ∃ reply, p.reply = some reply ∧
          (reply = .rejected ∨ ∃ id instant, reply = .accepted id instant ∧ reply ∈ replies) := by
      obtain ⟨reply, hreply, hwhich⟩ := ih hp
      refine ⟨reply, hreply, hwhich.imp_right ?_⟩
      rintro ⟨id, instant, heq, hmem⟩
      exact ⟨id, instant, heq, List.mem_of_mem_tail hmem⟩
    cases action with
    | send key summary body urgency replaces =>
      rcases List.mem_cons.mp hp with rfl | hp
      · refine ⟨_, rfl, ?_⟩
        rcases replies with _ | ⟨⟨id, instant⟩ | _, replies⟩
        · exact .inl rfl
        · exact .inr ⟨id, instant, rfl, List.mem_cons_self⟩
        · exact .inl rfl
      · exact hrest hp
    | close key id =>
      rcases List.mem_cons.mp hp with rfl | hp
      · cases hsend
      · exact ih hp
    | logSuppressed key reason =>
      rcases List.mem_cons.mp hp with rfl | hp
      · cases hsend
      · exact ih hp

theorem noteReply_episodes (p : Performed) : (st.noteReply p).episodes key =
    if p.action.key = key then p.writeBack (st.episodes key) else st.episodes key := by
  obtain ⟨action, reply⟩ := p
  cases action with
  | close other id => simp [NotifyState.noteReply, Performed.writeBack]
  | logSuppressed other reason => simp [NotifyState.noteReply, Performed.writeBack]
  | send other summary body urgency replaces =>
    rcases reply with _ | ⟨⟨id, instant⟩ | _⟩
    · simp [NotifyState.noteReply, Performed.writeBack]
    · simp only [NotifyState.noteReply, Performed.writeBack, NotifyAction.key]
      by_cases hkey : other = key
      · subst hkey
        cases hep : st.episodes other with
        | none => simp [NotifyState.recordSent, NotifyState.recordDbusId, hep]
        | some ep =>
          simp [NotifyState.recordSent, NotifyState.recordDbusId, NotifyState.put, hep]
      · have hsent : (st.recordSent other instant).episodes key = st.episodes key := by
          unfold NotifyState.recordSent
          split
          · exact NotifyState.put_other (Ne.symm hkey) _
          · rfl
        have hid : ((st.recordSent other instant).recordDbusId other id).episodes key =
            (st.recordSent other instant).episodes key := by
          unfold NotifyState.recordDbusId
          split
          · exact NotifyState.put_other (Ne.symm hkey) _
          · rfl
        rw [hid, hsent]
        exact (if_neg hkey).symm
    · simp [NotifyState.noteReply, Performed.writeBack]

theorem noteReplies_episodes (ps : List Performed) :
    (ps.foldl NotifyState.noteReply st).episodes key =
    (performedOf key ps).foldl (fun ep p => p.writeBack ep) (st.episodes key) := by
  induction ps generalizing st with
  | nil => rfl
  | cons p ps ih =>
    rw [List.foldl_cons, ih, noteReply_episodes]
    unfold performedOf
    by_cases hkey : p.action.key = key <;> simp [hkey]

end Sink

end Dormant
