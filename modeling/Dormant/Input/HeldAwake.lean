import Mathlib.Data.List.Nodup
import Dormant.Input.Producers

/-!
# Rules that are held awake

What the engine hears of a rule while the producers change. The hold that follows an unavailable
source, and a change that a notified source sends, are sent once and no one remembers whether the
channel took them.
-/

namespace Dormant
set_option autoImplicit false

/-! ## The channel -/

namespace Inhibitors
variable {c : Inhibitors} {rules : List ActivityRule} {inhibited : ActivityRule → Bool}
variable {room : RuleId → Bool} {id : RuleId}

/-- What is remembered as sent is the last value that the channel took. -/
def Faithful (c : Inhibitors) : Prop :=
  ∀ id value, c.lastSent id = some value → c.delivered id = some value

theorem faithful_forget : c.forget.Faithful := by
  intro id value h
  cases h

theorem publish_cases (c : Inhibitors) (id : RuleId) (value free : Bool) :
    (c.lastSent id = some value ∨ free = false) ∧ c.publish id value free = c ∨
      free = true ∧ c.publish id value free =
        { lastSent := Function.update c.lastSent id (some value)
          delivered := Function.update c.delivered id (some value) } := by
  unfold publish
  by_cases hsent : c.lastSent id = some value
  · exact .inl ⟨.inl hsent, if_pos hsent⟩
  · rw [if_neg hsent]
    cases free with
    | false => exact .inl ⟨.inr rfl, rfl⟩
    | true => exact .inr ⟨rfl, rfl⟩

theorem Faithful.publish (h : c.Faithful) (id : RuleId) (value free : Bool) :
    (c.publish id value free).Faithful := by
  rcases publish_cases c id value free with ⟨-, heq⟩ | ⟨-, heq⟩
  · rw [heq]
    exact h
  · rw [heq]
    intro id' value' hsent
    dsimp only at hsent ⊢
    by_cases hid : id' = id
    · subst hid
      rw [Function.update_self] at hsent ⊢
      exact hsent
    · rw [Function.update_of_ne hid] at hsent ⊢
      exact h id' value' hsent

theorem Faithful.publishAll (h : c.Faithful) (rules : List ActivityRule)
    (inhibited : ActivityRule → Bool) (room : RuleId → Bool) :
    (c.publishAll rules inhibited room).Faithful := by
  induction rules generalizing c with
  | nil => exact h
  | cons rule rules ih => exact ih (h.publish _ _ _)

theorem publish_other {id' : RuleId} (hid : id' ≠ id) (value free : Bool) :
    (c.publish id value free).delivered id' = c.delivered id' := by
  rcases publish_cases c id value free with ⟨-, heq⟩ | ⟨-, heq⟩
  · rw [heq]
  · rw [heq]
    exact Function.update_of_ne hid _ _

theorem publish_full (id : RuleId) (value : Bool) {free : Bool} (hfull : free = false) :
    c.publish id value free = c := by
  rcases publish_cases c id value free with ⟨-, heq⟩ | ⟨hroom, -⟩
  · exact heq
  · exact absurd (hroom.symm.trans hfull) (by decide)

theorem Faithful.publish_room (h : c.Faithful) (value : Bool) {free : Bool}
    (hroom : free = true) : (c.publish id value free).delivered id = some value := by
  rcases publish_cases c id value free with ⟨hsent | hfull, heq⟩ | ⟨-, heq⟩
  · rw [heq]
    exact h id value hsent
  · exact absurd (hroom.symm.trans hfull) (by decide)
  · rw [heq]
    exact Function.update_self _ _ _

/-- Without room for a rule, its value stays. -/
theorem publishAll_full (hfull : room id = false) :
    (c.publishAll rules inhibited room).delivered id = c.delivered id := by
  induction rules generalizing c with
  | nil => rfl
  | cons rule rules ih =>
    refine ih.trans ?_
    by_cases hid : id = rule.rule
    · subst hid
      exact congrFun (congrArg delivered (publish_full _ _ hfull)) _
    · exact publish_other hid _ _

theorem publishAll_other (hid : id ∉ rules.map ActivityRule.rule) :
    (c.publishAll rules inhibited room).delivered id = c.delivered id := by
  induction rules generalizing c with
  | nil => rfl
  | cons rule rules ih =>
    rw [List.map_cons, List.mem_cons, not_or] at hid
    exact (ih hid.2).trans (publish_other hid.1 _ _)

/-- With room for a rule, its value is the published one. -/
theorem Faithful.publishAll_room (h : c.Faithful) {rule : ActivityRule}
    (hnodup : (rules.map ActivityRule.rule).Nodup) (hmem : rule ∈ rules)
    (hroom : room rule.rule = true) :
    (c.publishAll rules inhibited room).delivered rule.rule = some (inhibited rule) := by
  induction rules generalizing c with
  | nil => cases hmem
  | cons head rules ih =>
    rw [List.map_cons, List.nodup_cons] at hnodup
    rcases List.mem_cons.mp hmem with heq | htail
    · subst heq
      exact (publishAll_other hnodup.1).trans (h.publish_room _ hroom)
    · exact ih (h.publish _ _ _) hnodup.2 htail

theorem holdAwake_full (hfull : room id = false) :
    (c.holdAwake rules room).delivered id = c.delivered id :=
  publishAll_full (c := c.forget) hfull

theorem holdAwake_room {rule : ActivityRule} (hnodup : (rules.map ActivityRule.rule).Nodup)
    (hmem : rule ∈ rules) (hroom : room rule.rule = true) :
    (c.holdAwake rules room).delivered rule.rule = some true :=
  (faithful_forget (c := c)).publishAll_room hnodup hmem hroom

/-- A hold leaves a rule awake that has room, or is awake already. -/
theorem holdAwake_awake {rule : ActivityRule} (hnodup : (rules.map ActivityRule.rule).Nodup)
    (hmem : rule ∈ rules) (h : room rule.rule = true ∨ c.delivered rule.rule = some true) :
    (c.holdAwake rules room).delivered rule.rule = some true := by
  cases hroom : room rule.rule with
  | true => exact holdAwake_room hnodup hmem hroom
  | false =>
    rw [hroom] at h
    exact (holdAwake_full hroom).trans (h.resolve_left Bool.false_ne_true)

theorem trySend_other {id' : RuleId} (hid : id' ≠ id) (value free : Bool) :
    (c.trySend id value free).delivered id' = c.delivered id' := by
  unfold trySend
  split
  · exact Function.update_of_ne hid _ _
  · rfl

theorem trySendAll_full {value : Bool} (hfull : room id = false) :
    (c.trySendAll rules value room).delivered id = c.delivered id := by
  induction rules generalizing c with
  | nil => rfl
  | cons rule rules ih =>
    refine ih.trans ?_
    by_cases hid : id = rule.rule
    · subst hid
      exact congrFun (congrArg delivered (if_neg (Bool.eq_false_iff.mp hfull))) _
    · exact trySend_other hid _ _

theorem trySend_keeps {value : Bool} (h : c.delivered id = some value) (id' : RuleId)
    (free : Bool) : (c.trySend id' value free).delivered id = some value := by
  by_cases hid : id = id'
  · subst hid
    unfold trySend
    split
    · exact Function.update_self _ _ _
    · exact h
  · exact (trySend_other hid _ _).trans h

theorem trySendAll_keeps {value : Bool} (h : c.delivered id = some value) :
    (c.trySendAll rules value room).delivered id = some value := by
  induction rules generalizing c with
  | nil => exact h
  | cons rule rules ih => exact ih (trySend_keeps h _ _)

theorem trySendAll_room {value : Bool} {rule : ActivityRule} (hmem : rule ∈ rules)
    (hroom : room rule.rule = true) :
    (c.trySendAll rules value room).delivered rule.rule = some value := by
  induction rules generalizing c with
  | nil => cases hmem
  | cons head rules ih =>
    rcases List.mem_cons.mp hmem with heq | htail
    · subst heq
      have hsend : c.trySend rule.rule value (room rule.rule) =
          { c with delivered := Function.update c.delivered rule.rule (some value) } :=
        if_pos hroom
      have hsent : (c.trySend rule.rule value (room rule.rule)).delivered rule.rule =
          some value := by
        rw [hsend]
        exact Function.update_self _ _ _
      have hkept : ((c.trySend rule.rule value (room rule.rule)).trySendAll rules value
          room).delivered rule.rule = some value := trySendAll_keeps hsent
      exact hkept
    · exact ih htail

end Inhibitors

/-! ## What the producers say -/

def InputEvent.room : InputEvent → RuleId → Bool
  | .startFailed _ room | .changed _ room | .tick _ room | .stale _ room | .joined _ room
  | .stockFactory _ room | .polls _ room | .notifies _ room => room
  | _ => fun _ => false

namespace InputSupervisor

/-- The values that the producer that runs has in a step. -/
def tells (s : InputSupervisor) : InputEvent → Option (ActivityRule → Bool)
  | .changed now _ =>
    if s.point = .filtered ∧ s.unseen = true ∧ s.watch.available = true then
      some (s.watch.inhibits now) else none
  | .tick now _ =>
    if s.point = .filtered ∧ s.watch.available = true then some (s.watch.inhibits now) else none
  | .polls inhibited _ => if s.runs (.stock .polling) then some inhibited else none
  | .notifies inhibited _ => if s.runs (.stock .notified) then some fun _ => inhibited else none
  | _ => none

/-- The filtered source becomes unavailable in a step. -/
def losesFiltered (s : InputSupervisor) : InputEvent → Bool
  | .startFailed _ _ => s.point == .startingFiltered
  | .changed _ _ =>
    s.point == .filtered && if s.unseen then !s.watch.available else !s.runs .filtered
  | .stale _ _ => s.point == .filtered
  | .joined _ _ => s.point == .filtered && !s.runs .filtered
  | _ => false

/-- A step asks for another producer. -/
def changesProducer (s : InputSupervisor) : InputEvent → Bool
  | .started => s.point == .startingFiltered
  | .stockFactory _ _ => s.point == .choosingStock
  | _ => false

/-- The value that a step sends without a memory of it. -/
def sendsOnce (s : InputSupervisor) (e : InputEvent) : Option Bool :=
  if s.losesFiltered e then some true
  else
    match e with
    | .notifies inhibited _ => if s.runs (.stock .notified) then some inhibited else none
    | _ => none

/-- What is sent once finds room, or the engine has that value. -/
def Taken (rules : List ActivityRule) (s : InputSupervisor) (e : InputEvent) : Prop :=
  ∀ value ∈ s.sendsOnce e, ∀ rule ∈ rules,
    e.room rule.rule = true ∨ s.inhibitors.delivered rule.rule = some value

instance (rules : List ActivityRule) (s : InputSupervisor) : DecidablePred (s.Taken rules) :=
  fun e => show Decidable (∀ value ∈ s.sendsOnce e, ∀ rule ∈ rules,
    e.room rule.rule = true ∨ s.inhibitors.delivered rule.rule = some value)
  from Option.decidableForallMem _

/-- The producer that runs remembers what it sends. -/
def Remembers (s : InputSupervisor) : Prop := s.point = .filtered ∨ s.runs (.stock .polling) = true

/-- What a step sends. -/
inductive Sends (rules : List ActivityRule) (s : InputSupervisor) (e : InputEvent)
    (s' : InputSupervisor) : Prop
  | nothing (htells : s.tells e = none) (hloses : s.losesFiltered e = false)
      (hchanges : s.changesProducer e = false) (hinhibitors : s'.inhibitors = s.inhibitors)
      (hremembers : s'.Remembers → s.Remembers)
      (hruns : s'.runs (.stock .notified) = true → s.runs (.stock .notified) = true)
  | forgets (htells : s.tells e = none) (hloses : s.losesFiltered e = false)
      (hchanges : s.changesProducer e = true) (hinhibitors : s'.inhibitors = s.inhibitors.forget)
  | holds (htells : s.tells e = none) (hloses : s.losesFiltered e = true)
      (hinhibitors : s'.inhibitors = s.inhibitors.holdAwake rules e.room)
      (hremembers : ¬ s'.Remembers)
  | holdsOn (htells : s.tells e = none) (hloses : s.losesFiltered e = false)
      (hchanges : s.changesProducer e = true)
      (hinhibitors : s'.inhibitors = s.inhibitors.holdAwake rules e.room)
      (hremembers : ¬ s'.Remembers)
  | publishes (inhibited : ActivityRule → Bool) (htells : s.tells e = some inhibited)
      (hloses : s.losesFiltered e = false) (hremembers : s.Remembers)
      (hinhibitors : s'.inhibitors = s.inhibitors.publishAll rules inhibited e.room)
      (hruns : s'.runs (.stock .notified) = false)
  | notifies (inhibited : Bool) (htells : s.tells e = some fun _ => inhibited)
      (hloses : s.losesFiltered e = false) (honce : s.sendsOnce e = some inhibited)
      (hinhibitors : s'.inhibitors = s.inhibitors.trySendAll rules inhibited e.room)
      (hremembers : ¬ s'.Remembers)

variable {rules : List ActivityRule} {s s' : InputSupervisor} {e : InputEvent}

theorem runs_congr (hkinds : s'.kinds = s.kinds) (kind : ProducerKind) :
    s'.runs kind = s.runs kind := by
  rw [Bool.eq_iff_iff, runs_iff, runs_iff, hkinds]

/-- The step sends nothing, and the same producers go on, or fewer. -/
theorem sends_nothing (htells : s.tells e = none) (hloses : s.losesFiltered e = false)
    (hchanges : s.changesProducer e = false) (hinhibitors : s'.inhibitors = s.inhibitors)
    (hpoint : s'.point = .filtered → s.point = .filtered) (hsub : s'.kinds ⊆ s.kinds) :
    Sends rules s e s' := by
  have hruns (kind : ProducerKind) (h : s'.runs kind = true) : s.runs kind = true :=
    runs_iff.mpr (hsub (runs_iff.mp h))
  exact .nothing htells hloses hchanges hinhibitors (Or.imp hpoint (hruns _)) (hruns _)

theorem not_remembers_of_nil (hkinds : s.kinds = []) (hpoint : s.point ≠ .filtered) :
    ¬ s.Remembers := by
  rintro (hfiltered | hruns)
  · exact hpoint hfiltered
  · rw [runs_iff, hkinds] at hruns
    cases hruns

/-- Where the filtered source may run, no stock source does. -/
theorem Placed.runs_stock (h : s.Placed) (hpoint : s.point = .filtered ∨ s.point = .joiningFiltered)
    (source : StockSource) : s.runs (.stock source) = false := by
  refine Bool.eq_false_iff.mpr fun hruns => ?_
  have hallows := h.allowed _ (runs_iff.mp hruns)
  rcases hpoint with hpoint | hpoint <;>
  · rw [hpoint] at hallows
    cases hallows

theorem sends_filteredBroken (h : s.Placed) (hpoint : s.point = .filtered)
    (htells : s.tells e = none) (hloses : s.losesFiltered e = true)
    (hinhibitors : s'.inhibitors = s.inhibitors.holdAwake rules e.room)
    (hjoins : s'.point = .joiningFiltered)
    (hproducers : s'.producers = (s.cancelKind fun kind => kind == .filtered).producers) :
    Sends rules s e s' := by
  refine .holds htells hloses hinhibitors ?_
  rintro (hfiltered | hruns)
  · cases hjoins.symm.trans hfiltered
  · rw [runs_congr (kinds_cancelKind hproducers), h.runs_stock (.inl hpoint)] at hruns
    cases hruns

theorem sends_cancels (htells : s.tells e = none) (hloses : s.losesFiltered e = false)
    (hchanges : s.changesProducer e = false) (hinhibitors : s'.inhibitors = s.inhibitors)
    (hpoint : s'.point = .filtered → s.point = .filtered) (p : ProducerKind → Bool)
    (hproducers : s'.producers = (s.cancelKind p).producers) : Sends rules s e s' := by
  refine sends_nothing htells hloses hchanges hinhibitors hpoint ?_
  rw [kinds_cancelKind hproducers]
  exact List.Subset.refl _

theorem sends_same (htells : s.tells e = none) (hloses : s.losesFiltered e = false)
    (hchanges : s.changesProducer e = false) : Sends rules s e s :=
  sends_nothing htells hloses hchanges rfl id (List.Subset.refl _)

/-- The supervisor goes on to where no producer runs, without a word. -/
theorem sends_moves (htells : s.tells e = none) (hloses : s.losesFiltered e = false)
    (hchanges : s.changesProducer e = false) (hinhibitors : s'.inhibitors = s.inhibitors)
    (hpoint : s'.point ≠ .filtered) (hkinds : s'.kinds = s.kinds) : Sends rules s e s' := by
  refine sends_nothing htells hloses hchanges hinhibitors (fun h => absurd h hpoint) ?_
  rw [hkinds]
  exact List.Subset.refl _

theorem afterFiltered_frame (s : InputSupervisor) :
    s.afterFiltered.point ≠ .filtered ∧ s.afterFiltered.kinds = s.kinds ∧
      s.afterFiltered.inhibitors = s.inhibitors := by
  unfold afterFiltered
  split <;> exact ⟨(by intro h; cases h), rfl, rfl⟩

theorem afterStock_frame (s : InputSupervisor) :
    s.afterStock.point ≠ .filtered ∧ s.afterStock.kinds = s.kinds ∧
      s.afterStock.inhibitors = s.inhibitors := by
  unfold afterStock
  split <;> exact ⟨(by intro h; cases h), rfl, rfl⟩

theorem sends_publish (h : s.Placed) (hpoint : s.point = .filtered) {now : ℕ}
    (htells : s.tells e = some (s.watch.inhibits now)) (hloses : s.losesFiltered e = false)
    (hinhibitors : s'.inhibitors = s.inhibitors.publishAll rules (s.watch.inhibits now) e.room)
    (hkinds : s'.kinds = s.kinds) : Sends rules s e s' := by
  refine .publishes _ htells hloses (.inl hpoint) hinhibitors ?_
  rw [runs_congr hkinds]
  exact h.runs_stock (.inl hpoint) .notified

theorem sends_changed (h : s.Placed) (now : ℕ) (room : RuleId → Bool) :
    Sends rules s (.changed now room) (s.next rules (.changed now room)).1 := by
  have htells : s.tells (.changed now room) =
      if s.point = .filtered ∧ s.unseen = true ∧ s.watch.available = true then
        some (s.watch.inhibits now) else none := rfl
  have hloses : s.losesFiltered (.changed now room) = (s.point == .filtered &&
      if s.unseen then !s.watch.available else !s.runs .filtered) := rfl
  dsimp only [next]
  by_cases hpoint : s.point = .filtered
  · rw [if_pos hpoint]
    rw [hpoint, beq_self_eq_true, Bool.true_and] at hloses
    by_cases hunseen : s.unseen = true
    · rw [if_pos hunseen] at hloses ⊢
      by_cases havailable : s.watch.available = true
      · rw [if_pos ⟨hpoint, hunseen, havailable⟩] at htells
        rw [havailable] at hloses
        rw [if_pos havailable]
        exact sends_publish h hpoint htells hloses rfl rfl
      · rw [if_neg fun hall => havailable hall.2.2] at htells
        rw [Bool.eq_false_iff.mpr havailable] at hloses
        rw [if_neg havailable]
        exact sends_filteredBroken h hpoint htells hloses rfl rfl rfl
    · rw [if_neg fun hall => hunseen hall.2.1] at htells
      rw [if_neg hunseen] at hloses ⊢
      by_cases hruns : s.runs .filtered = true
      · rw [hruns] at hloses
        rw [if_pos hruns]
        exact sends_same htells hloses rfl
      · rw [Bool.eq_false_iff.mpr hruns] at hloses
        rw [if_neg hruns]
        exact sends_filteredBroken h hpoint htells hloses rfl rfl rfl
  · rw [if_neg fun hall => hpoint hall.1] at htells
    rw [if_neg hpoint]
    exact sends_same htells (by rw [hloses, beq_false_of_ne hpoint]; rfl) rfl

theorem sends_joined (h : s.Placed) (now : ℕ) (room : RuleId → Bool) :
    Sends rules s (.joined now room) (s.next rules (.joined now room)).1 := by
  have hloses : s.losesFiltered (.joined now room) =
      (s.point == .filtered && !s.runs .filtered) := rfl
  dsimp only [next]
  cases hpoint : s.point with
  | filtered =>
    rw [hpoint, beq_self_eq_true, Bool.true_and] at hloses
    dsimp only
    by_cases hruns : s.runs .filtered = true
    · rw [hruns] at hloses
      rw [if_pos hruns]
      exact sends_same rfl hloses rfl
    · rw [Bool.eq_false_iff.mpr hruns] at hloses
      rw [if_neg hruns]
      exact sends_filteredBroken h hpoint rfl hloses rfl rfl rfl
  | joiningFiltered =>
    rw [hpoint] at hloses
    dsimp only
    split
    · exact sends_same rfl hloses rfl
    · obtain ⟨hleft, hkinds, hinhibitors⟩ := afterFiltered_frame s
      exact sends_moves rfl hloses rfl hinhibitors hleft hkinds
  | stock =>
    rw [hpoint] at hloses
    dsimp only
    split
    · exact sends_same rfl hloses rfl
    · exact sends_moves rfl hloses rfl rfl (by intro hfiltered; cases hfiltered) rfl
  | joiningStock recovered =>
    rw [hpoint] at hloses
    dsimp only
    split
    · exact sends_same rfl hloses rfl
    · split
      · obtain ⟨hleft, hkinds, hinhibitors⟩ := afterStock_frame s
        exact sends_moves rfl hloses rfl hinhibitors hleft hkinds
      · exact sends_moves rfl hloses rfl rfl (by intro hfiltered; cases hfiltered) rfl
  | startingFiltered | choosingStock | withoutStock | afterProbe | stopped =>
    rw [hpoint] at hloses
    exact sends_same rfl hloses rfl

theorem sends_next (h : s.Placed) (e : InputEvent) : Sends rules s e (s.next rules e).1 := by
  cases e with
  | cancel => exact sends_cancels rfl rfl rfl rfl id (fun _ => true) rfl
  | stopped =>
    dsimp only [next]
    split
    · exact sends_moves rfl rfl rfl rfl (by intro hfiltered; cases hfiltered) rfl
    · exact sends_same rfl rfl rfl
  | started =>
    dsimp only [next]
    by_cases hpoint : s.point = .startingFiltered
    · rw [if_pos hpoint]
      exact .forgets rfl rfl (beq_iff_eq.mpr hpoint) rfl
    · rw [if_neg hpoint]
      exact sends_same rfl rfl (beq_false_of_ne hpoint)
  | startFailed now room =>
    dsimp only [next]
    by_cases hpoint : s.point = .startingFiltered
    · rw [if_pos hpoint]
      obtain ⟨hleft, hkinds, hinhibitors⟩ :=
        afterFiltered_frame (s.publishUnavailable rules now room).1
      refine .holds rfl (beq_iff_eq.mpr hpoint) hinhibitors (not_remembers_of_nil ?_ hleft)
      refine hkinds.trans (h.kinds_eq_nil ?_)
      rw [hpoint]
      exact fun _ hallows => hallows
    · rw [if_neg hpoint]
      exact sends_same rfl (beq_false_of_ne hpoint) rfl
  | reports activity =>
    dsimp only [next]
    split
    · exact sends_nothing rfl rfl rfl rfl id (List.Subset.refl _)
    · exact sends_same rfl rfl rfl
  | exits kind =>
    exact sends_nothing rfl rfl rfl rfl id ((List.eraseP_sublist).map _).subset
  | changed now room => exact sends_changed h now room
  | tick now room =>
    dsimp only [next]
    by_cases hpublish : s.point = .filtered ∧ s.watch.available = true
    · rw [if_pos hpublish]
      exact sends_publish h hpublish.1 (if_pos hpublish) rfl rfl rfl
    · rw [if_neg hpublish]
      exact sends_same (if_neg hpublish) rfl rfl
  | stale now room =>
    dsimp only [next]
    by_cases hpoint : s.point = .filtered
    · rw [if_pos hpoint]
      exact sends_filteredBroken h hpoint rfl (beq_iff_eq.mpr hpoint) rfl rfl rfl
    · rw [if_neg hpoint]
      exact sends_same rfl (beq_false_of_ne hpoint) rfl
  | joined now room => exact sends_joined h now room
  | stockFactory source room =>
    dsimp only [next]
    by_cases hpoint : s.point = .choosingStock
    · rw [if_pos hpoint]
      cases source with
      | none =>
        refine .holdsOn rfl rfl (beq_iff_eq.mpr hpoint) rfl (not_remembers_of_nil ?_ ?_)
        · refine h.kinds_eq_nil ?_
          rw [hpoint]
          exact fun _ hallows => hallows
        · intro hfiltered
          cases hfiltered
      | some source => exact .forgets rfl rfl (beq_iff_eq.mpr hpoint) rfl
    · rw [if_neg hpoint]
      exact sends_same rfl rfl (beq_false_of_ne hpoint)
  | slept =>
    dsimp only [next]
    cases hpoint : s.point with
    | withoutStock =>
      exact sends_moves rfl rfl rfl rfl (by intro hfiltered; cases hfiltered) rfl
    | afterProbe =>
      exact sends_cancels rfl rfl rfl rfl (by intro hfiltered; cases hfiltered)
        (fun kind => kind != .filtered) rfl
    | startingFiltered | filtered | joiningFiltered | choosingStock | stock | stopped =>
      exact sends_same rfl rfl rfl
    | joiningStock recovered => exact sends_same rfl rfl rfl
  | polls inhibited room =>
    dsimp only [next]
    by_cases hruns : s.runs (.stock .polling) = true
    · rw [if_pos hruns]
      refine .publishes inhibited (if_pos hruns) rfl (.inr hruns) rfl ?_
      refine Bool.eq_false_iff.mpr fun hnotified => ?_
      cases h.eq_of_runs hruns hnotified
    · rw [if_neg hruns]
      exact sends_same (if_neg hruns) rfl rfl
  | notifies inhibited room =>
    dsimp only [next]
    by_cases hruns : s.runs (.stock .notified) = true
    · rw [if_pos hruns]
      refine .notifies inhibited (if_pos hruns) rfl (if_pos hruns) rfl ?_
      rintro (hfiltered | hpolling)
      · rw [h.runs_stock (.inl hfiltered)] at hruns
        cases hruns
      · cases h.eq_of_runs hruns hpolling
    · rw [if_neg hruns]
      exact sends_same (if_neg hruns) rfl rfl
  | probed ok =>
    dsimp only [next]
    split
    · split
      · exact sends_cancels rfl rfl rfl rfl (by intro hfiltered; cases hfiltered)
          (fun kind => kind != .filtered) rfl
      · exact sends_moves rfl rfl rfl rfl (by intro hfiltered; cases hfiltered) rfl
    · exact sends_same rfl rfl rfl

end InputSupervisor

/-! ## What the engine hears -/

/-- The rules whose last word is a lost filtered source, and the latest values of the producer. -/
structure Attention where
  unattended : RuleId → Bool
  latest : ActivityRule → Option Bool

namespace Attention

def start : Attention := ⟨fun _ => false, fun _ => none⟩

/-- A rule is attended when a producer delivers its own value, now or before this step. -/
def after (a : Attention) (s : InputSupervisor) (e : InputEvent) : Attention where
  unattended id := s.losesFiltered e || (a.unattended id && !((s.tells e).isSome && e.room id))
  latest rule :=
    match s.tells e with
    | some inhibited => some (inhibited rule)
    | none => if s.losesFiltered e || s.changesProducer e then none else a.latest rule

end Attention

def attended (rules : List ActivityRule) :
    Runs.System (Attention × InputSupervisor) InputEvent FilteredActivity :=
  (supervisors rules).observed fun a s e _ => a.after s e

/-- An unattended rule is inhibited. -/
def HeldAwake (rules : List ActivityRule) (x : Attention × InputSupervisor) : Prop :=
  ∀ rule ∈ rules, x.1.unattended rule.rule = true →
    x.2.inhibitors.delivered rule.rule = some true

/-- The engine's value is the latest of the producer. -/
def Current (x : Attention × InputSupervisor) (rule : ActivityRule) : Prop :=
  ∀ value, x.1.latest rule = some value → x.2.inhibitors.delivered rule.rule = some value

/-- In a step with room, the engine's value becomes the one that the producer has, and it stays
current. A notified source says a value only once, and it is current all the time. -/
structure Follows (rules : List ActivityRule) (x : Attention × InputSupervisor) (e : InputEvent) :
    Prop where
  becomes : ∀ rule ∈ rules, ∀ inhibited, x.2.tells e = some inhibited → e.room rule.rule = true →
    ((attended rules).next x e).1.2.inhibitors.delivered rule.rule = some (inhibited rule)
  stays : ∀ rule ∈ rules, Current x rule → (x.2.tells e = none ∨ e.room rule.rule = true) →
    Current ((attended rules).next x e).1 rule
  notified : x.2.runs (.stock .notified) = true → ∀ rule ∈ rules, Current x rule

instance (rules : List ActivityRule) : DecidablePred (HeldAwake rules) := fun x =>
  inferInstanceAs (Decidable (∀ rule ∈ rules, x.1.unattended rule.rule = true →
    x.2.inhibitors.delivered rule.rule = some true))

structure Attentive (rules : List ActivityRule) (x : Attention × InputSupervisor) : Prop where
  placed : x.2.Placed
  faithful : x.2.Remembers → x.2.inhibitors.Faithful
  held : HeldAwake rules x
  notified : x.2.runs (.stock .notified) = true → ∀ rule ∈ rules, Current x rule

section
variable {rules : List ActivityRule} {x : Attention × InputSupervisor} {e : InputEvent}
variable {s' : InputSupervisor}

open InputSupervisor

theorem attentive_start (rules : List ActivityRule) (globalEdgeSeq : ℕ) :
    Attentive rules (.start, .new globalEdgeSeq) where
  placed := placed_new globalEdgeSeq
  faithful _ := Inhibitors.faithful_forget (c := ⟨fun _ => none, fun _ => none⟩)
  held rule _ hunattended := by cases hunattended
  notified _ rule _ value hlatest := by cases hlatest

/-- A value that no producer delivers leaves an unattended rule as it was. -/
theorem unattended_of_after {id : RuleId} (hloses : x.2.losesFiltered e = false)
    (h : (x.1.after x.2 e).unattended id = true) :
    x.1.unattended id = true ∧ ((x.2.tells e).isSome = true → e.room id = false) := by
  have hand : (x.2.losesFiltered e || (x.1.unattended id &&
    !((x.2.tells e).isSome && e.room id))) = true := h
  rw [hloses, Bool.false_or, Bool.and_eq_true, Bool.not_eq_true'] at hand
  refine ⟨hand.1, fun hsome => ?_⟩
  rw [hsome, Bool.true_and] at hand
  exact hand.2

theorem latest_of_none {rule : ActivityRule} (htells : x.2.tells e = none)
    (h : (x.2.losesFiltered e || x.2.changesProducer e) = true) :
    (x.1.after x.2 e).latest rule = none := by
  unfold Attention.after
  rw [htells]
  exact if_pos h

theorem latest_of_same {rule : ActivityRule} (htells : x.2.tells e = none)
    (hloses : x.2.losesFiltered e = false) (hchanges : x.2.changesProducer e = false) :
    (x.1.after x.2 e).latest rule = x.1.latest rule := by
  unfold Attention.after
  rw [htells, hloses, hchanges]
  rfl

theorem latest_of_tells {rule : ActivityRule} {inhibited : ActivityRule → Bool}
    (htells : x.2.tells e = some inhibited) :
    (x.1.after x.2 e).latest rule = some (inhibited rule) := by
  unfold Attention.after
  rw [htells]

theorem current_of_none {rule : ActivityRule} {a : Attention} (h : a.latest rule = none) :
    Current (a, s') rule := by
  intro value hvalue
  cases h.symm.trans hvalue

theorem current_of_some {rule : ActivityRule} {a : Attention} {value : Bool}
    (h : a.latest rule = some value) (hdelivered : s'.inhibitors.delivered rule.rule = some value) :
    Current (a, s') rule := by
  intro value' hvalue
  cases h.symm.trans hvalue
  exact hdelivered

theorem Attentive.next (h : Attentive rules x) (hnodup : (rules.map ActivityRule.rule).Nodup)
    (htaken : x.2.Taken rules e) : Attentive rules ((attended rules).next x e).1 := by
  have hplaced : (x.2.next rules e).1.Placed := h.placed.next e
  have hsends : Sends rules x.2 e (x.2.next rules e).1 := sends_next h.placed e
  change Attentive rules (x.1.after x.2 e, (x.2.next rules e).1)
  generalize (x.2.next rules e).1 = s' at hplaced hsends
  cases hsends with
  | nothing htells hloses hchanges hinhibitors hremembers hruns =>
    refine ⟨hplaced, ?_, ?_, ?_⟩
    · intro hs'
      rw [hinhibitors]
      exact h.faithful (hremembers hs')
    · intro rule hmem hunattended
      dsimp only
      rw [hinhibitors]
      exact h.held rule hmem (unattended_of_after hloses hunattended).1
    · intro hs' rule hmem value hlatest
      dsimp only
      rw [hinhibitors]
      exact h.notified (hruns hs') rule hmem value
        ((latest_of_same htells hloses hchanges).symm.trans hlatest)
  | forgets htells hloses hchanges hinhibitors =>
    refine ⟨hplaced, ?_, ?_, ?_⟩
    · intro _
      rw [hinhibitors]
      exact Inhibitors.faithful_forget
    · intro rule hmem hunattended
      dsimp only
      rw [hinhibitors]
      exact h.held rule hmem (unattended_of_after hloses hunattended).1
    · intro _ rule _
      exact current_of_none (latest_of_none htells (by rw [hchanges, Bool.or_true]))
  | holds htells hloses hinhibitors hremembers =>
    refine ⟨hplaced, fun hs' => absurd hs' hremembers, ?_, ?_⟩
    · intro rule hmem _
      dsimp only
      rw [hinhibitors]
      exact Inhibitors.holdAwake_awake hnodup hmem (htaken true (if_pos hloses) rule hmem)
    · intro _ rule _
      exact current_of_none (latest_of_none htells (by rw [hloses, Bool.true_or]))
  | holdsOn htells hloses hchanges hinhibitors hremembers =>
    refine ⟨hplaced, fun hs' => absurd hs' hremembers, ?_, ?_⟩
    · intro rule hmem hunattended
      dsimp only
      rw [hinhibitors]
      exact Inhibitors.holdAwake_awake hnodup hmem
        (.inr (h.held rule hmem (unattended_of_after hloses hunattended).1))
    · intro _ rule _
      exact current_of_none (latest_of_none htells (by rw [hchanges, Bool.or_true]))
  | publishes inhibited htells hloses hremembers hinhibitors hruns =>
    refine ⟨hplaced, ?_, ?_, ?_⟩
    · intro _
      rw [hinhibitors]
      exact (h.faithful hremembers).publishAll _ _ _
    · intro rule hmem hunattended
      obtain ⟨hbefore, hfull⟩ := unattended_of_after hloses hunattended
      dsimp only
      rw [hinhibitors, Inhibitors.publishAll_full (hfull (by rw [htells]; rfl))]
      exact h.held rule hmem hbefore
    · intro hs'
      exact absurd (hruns.symm.trans hs') Bool.false_ne_true
  | notifies inhibited htells hloses honce hinhibitors hremembers =>
    refine ⟨hplaced, fun hs' => absurd hs' hremembers, ?_, ?_⟩
    · intro rule hmem hunattended
      obtain ⟨hbefore, hfull⟩ := unattended_of_after hloses hunattended
      dsimp only
      rw [hinhibitors, Inhibitors.trySendAll_full (hfull (by rw [htells]; rfl))]
      exact h.held rule hmem hbefore
    · intro _ rule hmem
      refine current_of_some (latest_of_tells htells) ?_
      rw [hinhibitors]
      rcases htaken inhibited honce rule hmem with hroom | hsame
      · exact Inhibitors.trySendAll_room hmem hroom
      · exact Inhibitors.trySendAll_keeps hsame

theorem Attentive.becomes (h : Attentive rules x) (hnodup : (rules.map ActivityRule.rule).Nodup)
    {rule : ActivityRule} (hmem : rule ∈ rules) {inhibited : ActivityRule → Bool}
    (htells : x.2.tells e = some inhibited) (hroom : e.room rule.rule = true) :
    (x.2.next rules e).1.inhibitors.delivered rule.rule = some (inhibited rule) := by
  have hsends : Sends rules x.2 e (x.2.next rules e).1 := sends_next h.placed e
  generalize (x.2.next rules e).1 = s' at hsends
  cases hsends with
  | nothing hnone | forgets hnone | holds hnone | holdsOn hnone => cases hnone.symm.trans htells
  | publishes inhibited' htells' _ hremembers hinhibitors _ =>
    cases htells'.symm.trans htells
    rw [hinhibitors]
    exact (h.faithful hremembers).publishAll_room hnodup hmem hroom
  | notifies inhibited' htells' _ _ hinhibitors _ =>
    cases htells'.symm.trans htells
    rw [hinhibitors]
    exact Inhibitors.trySendAll_room hmem hroom

theorem Attentive.follows (h : Attentive rules x) (hnodup : (rules.map ActivityRule.rule).Nodup) :
    Follows rules x e where
  becomes rule hmem _ htells hroom := h.becomes hnodup hmem htells hroom
  stays rule hmem hcurrent hroom := by
    have hsends : Sends rules x.2 e (x.2.next rules e).1 := sends_next h.placed e
    change Current (x.1.after x.2 e, (x.2.next rules e).1) rule
    cases htells : x.2.tells e with
    | some inhibited =>
      have hopen : e.room rule.rule = true :=
        hroom.resolve_left (by rw [htells]; exact Option.some_ne_none _)
      exact current_of_some (latest_of_tells htells) (h.becomes hnodup hmem htells hopen)
    | none =>
      generalize (x.2.next rules e).1 = s' at hsends
      cases hsends with
      | nothing _ hloses hchanges hinhibitors =>
        intro value hlatest
        dsimp only
        rw [hinhibitors]
        exact hcurrent value ((latest_of_same htells hloses hchanges).symm.trans hlatest)
      | forgets _ _ hchanges | holdsOn _ _ hchanges =>
        exact current_of_none (latest_of_none htells (by rw [hchanges, Bool.or_true]))
      | holds _ hloses =>
        exact current_of_none (latest_of_none htells (by rw [hloses, Bool.true_or]))
      | publishes _ hsome | notifies _ hsome => cases htells.symm.trans hsome
  notified := h.notified

end

/-- In every run, at most one producer runs. In every run in which each hold and each value of a
notified source finds room in the channel, or is the value that the engine has, a rule stays
inhibited from the loss of the filtered source to the first value of another producer, and the
engine follows the producer that runs. -/
theorem unattended_is_held (rules : List ActivityRule)
    (hnodup : (rules.map ActivityRule.rule).Nodup) (globalEdgeSeq : ℕ) (events : List InputEvent) :
    (supervisors rules).Throughout (fun s => (s.producers.filter (!·.cancelled)).length ≤ 1)
        (.new globalEdgeSeq) events ∧
      ((supervisors rules).Steps (InputSupervisor.Taken rules) (.new globalEdgeSeq) events →
        (attended rules).Throughout (HeldAwake rules) (.start, .new globalEdgeSeq) events ∧
          (attended rules).Steps (Follows rules) (.start, .new globalEdgeSeq) events) := by
  constructor
  · have hall : (supervisors rules).Steps (fun _ _ => True) (.new globalEdgeSeq) events :=
      .of_forall (fun _ _ => trivial) _ _
    refine hall.throughout InputSupervisor.Placed (fun s e h _ => h.next e) (fun s h => ?_)
      (InputSupervisor.placed_new globalEdgeSeq)
    have hsingle := h.single
    rw [InputSupervisor.kinds, List.length_map] at hsingle
    exact Nat.le_trans (List.length_filter_le _ _) hsingle
  · intro htaken
    have hsteps : (attended rules).Steps (fun x e => x.2.Taken rules e)
        (.start, .new globalEdgeSeq) events :=
      (Runs.System.steps_observed _ _ events).mpr htaken
    have hstep (x : Attention × InputSupervisor) (e : InputEvent) (h : Attentive rules x)
        (hx : x.2.Taken rules e) : Attentive rules ((attended rules).next x e).1 :=
      h.next hnodup hx
    exact ⟨hsteps.throughout _ hstep (fun x h => h.held) (attentive_start rules globalEdgeSeq),
      hsteps.derive _ hstep (fun x e h _ => h.follows hnodup) (attentive_start rules globalEdgeSeq)⟩

/-! ## A keyboard that fails -/

def studyRule : ActivityRule := ⟨⟨"study"⟩, 60⟩

/-- The user is away, and the source ends while the channel has room or not. -/
def awayThenFailed (room : Bool) : List InputEvent :=
  [.started, .reports ⟨some 0, 0, true, 0⟩, .changed 100 fun _ => true, .exits .filtered,
    .changed 100 fun _ => room]

/-- The notified stock source takes over, and the user is back. -/
def thenBack (room : Bool) : List InputEvent :=
  [.joined 100 fun _ => true, .stockFactory (some .notified) fun _ => true,
    .notifies false fun _ => true, .notifies true fun _ => room, .probed false]

/-- A full channel loses the hold, and the value of a notified source. -/
theorem hold_lost :
    ¬ (attended [studyRule]).Throughout (HeldAwake [studyRule]) (.start, .new 0)
        (awayThenFailed false) ∧
      (((attended [studyRule]).run (.start, .new 0)
          (awayThenFailed true ++ thenBack false)).1.latest studyRule = some true ∧
        ((attended [studyRule]).run (.start, .new 0)
          (awayThenFailed true ++ thenBack false)).2.inhibitors.delivered studyRule.rule =
            some false) := by
  refine ⟨?_, ?_, ?_⟩ <;> decide +kernel

theorem unattended_is_held_study :
    (attended [studyRule]).Throughout (HeldAwake [studyRule]) (.start, .new 0)
        (awayThenFailed true ++ thenBack true) ∧
      (attended [studyRule]).Steps (Follows [studyRule]) (.start, .new 0)
        (awayThenFailed true ++ thenBack true) :=
  (unattended_is_held [studyRule] (List.nodup_singleton _) 0 _).2 (by decide +kernel)

end Dormant
