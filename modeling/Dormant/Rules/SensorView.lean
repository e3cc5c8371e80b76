import Dormant.Rules.Presence

/-!
# One sensor

`SensorView` is what the engine keeps of one sensor, and `Step` what an event of the engine does to
it. `Tracked` ties a view to the instants at which the sensor was heard of; from it follow when a
sweep may find the sensor stale, and when it has to.
-/

namespace Dormant
set_option autoImplicit false

/-- What the engine keeps of one sensor: its hold, if it has one, the state that the zone engine
has of it, when it was seen last, since when its `online` is on lease, and its hold timers. -/
@[ext]
structure SensorView where
  filtered : Bool
  armed : Option ℕ
  waits : Option PresenceEvent
  state : Option SensorState
  seen : Option ℕ
  online : Option ℕ
  timers : Set ℕ

/-- What an event of the engine is to one sensor. -/
inductive Occurrence where
  | nothing
  | event (ev : PresenceEvent)
  | online
  | offline (ev : PresenceEvent)
  | swept (ev : PresenceEvent)
  | expired (deadline : ℕ)

namespace SensorView
variable (hold : Option ℕ) (staleTimeout now : ℕ)

/-- An event goes on to the zone engine. -/
def take (v : SensorView) (ev : PresenceEvent) : SensorView where
  filtered := v.filtered
  armed := if ev.state = .present then hold.map (now + ·) else v.armed
  waits := none
  state := v.state.map fun _ => ev.state
  seen := some now
  online := if ev.state = .unavailable then none else v.online
  timers := { d | (ev.state = .present ∧ hold.map (now + ·) = some d) ∨ d ∈ v.timers }

/-- An absence is kept back while the hold is armed. -/
def receive (v : SensorView) (ev : PresenceEvent) : SensorView :=
  if ev.state = .absent ∧ v.armed.isSome then { v with waits := some ev } else v.take hold now ev

/-- The hold is over. -/
def disarm (v : SensorView) : SensorView := { v with armed := none, waits := none }

/-- What a view receives is what its hold lets through. -/
theorem receive_filter {v : SensorView} {kept : HoldState} (hfiltered : v.filtered = true)
    (harmed : v.armed = kept.armedUntil)
    (hidle : kept.armedUntil = none → kept.pendingAbsent = none) (holdTime : ℕ)
    (ev : PresenceEvent) : v.receive (some holdTime) now ev =
      { filtered := true
        armed := (kept.filter (some holdTime) now ev).hold.armedUntil
        waits := (kept.filter (some holdTime) now ev).hold.pendingAbsent
        state := if (kept.filter (some holdTime) now ev).passes then v.state.map fun _ => ev.state
          else v.state
        seen := if (kept.filter (some holdTime) now ev).passes then some now else v.seen
        online := if ev.state = .unavailable then none else v.online
        timers :=
          { d | (kept.filter (some holdTime) now ev).deadline = some d ∨ d ∈ v.timers } } := by
  unfold receive take HoldState.filter
  cases hs : ev.state with
  | present => simp [hfiltered]
  | absent =>
    cases ha : kept.armedUntil with
    | none => simp [harmed, ha, hfiltered, hidle ha]
    | some deadline => simp [harmed, ha, ← hfiltered]
  | unavailable => simp [hfiltered, harmed]

inductive Step (v : SensorView) : Occurrence → SensorView → Prop
  | idle : Step v .nothing v
  | event (ev : PresenceEvent) : Step v (.event ev) (v.receive hold now ev)
  | online : Step v .online { v with online := some now }
  | offline (ev : PresenceEvent) (h : ev.state = .unavailable) :
      Step v (.offline ev) (v.take hold now ev)
  /-- The sensor is unavailable already, or on lease, or fresh. -/
  | spared (ev : PresenceEvent)
      (h : v.state = some .unavailable ∨ (∃ lease ∈ v.online, now ≤ lease + staleTimeout) ∨
        v.online = none ∧ ∀ seen ∈ v.seen, now ≤ seen + staleTimeout) : Step v (.swept ev) v
  | lapsed (ev : PresenceEvent) (lease : ℕ) (h : v.online = some lease)
      (hlapsed : lease + staleTimeout < now) (hfresh : ∀ seen ∈ v.seen, now ≤ seen + staleTimeout) :
      Step v (.swept ev) { v with online := none }
  | stale (ev : PresenceEvent) (hev : ev.state = .unavailable)
      (hstate : v.state ≠ some .unavailable)
      (hlapsed : ∀ lease ∈ v.online, lease + staleTimeout < now) (seen : ℕ)
      (hseen : v.seen = some seen) (hstale : seen + staleTimeout < now) :
      Step v (.swept ev) (v.take hold now ev)
  /-- The timer of an earlier arm, or of no arm at all. -/
  | leftover (deadline : ℕ) (v' : SensorView) (h : v' = { v with timers := v'.timers })
      (hless : v'.timers ⊆ v.timers) (hkept : ∀ d ∈ v.timers, d ≠ deadline → d ∈ v'.timers)
      (hd : ∀ armed ∈ v.armed, deadline < armed) : Step v (.expired deadline) v'
  | ended (deadline armed : ℕ) (timers : Set ℕ) (hless : timers ⊆ v.timers)
      (harmed : v.armed = some armed) (hd : armed ≤ deadline) (hwaits : v.waits = none) :
      Step v (.expired deadline) { v.disarm with timers := timers }
  | released (deadline armed : ℕ) (ev : PresenceEvent) (timers : Set ℕ) (hless : timers ⊆ v.timers)
      (harmed : v.armed = some armed) (hd : armed ≤ deadline) (hwaits : v.waits = some ev)
      (hdue : deadline ∈ v.timers) :
      Step v (.expired deadline) ({ v.disarm with timers := timers }.take hold now ev)

end SensorView

/-- What is remembered of a sensor along a run: the instant of the last event of any kind, of the
last presence event of the sensor, held ones included, and of its last `online`. -/
structure SensorLog where
  clock : ℕ
  lastEvent : Option ℕ
  lastOnline : Option ℕ

def SensorLog.empty : SensorLog := { clock := 0, lastEvent := none, lastOnline := none }

def SensorLog.note (now : ℕ) (l : SensorLog) (o : Occurrence) : SensorLog where
  clock := now
  lastEvent :=
    match o with
    | .event _ => some now
    | _ => l.lastEvent
  lastOnline :=
    match o with
    | .online => some now
    | _ => l.lastOnline

namespace SensorView

/-- What the log says of a view, when no hold timer fires more than `late` after its deadline. -/
structure Tracked (hold : Option ℕ) (staleTimeout late : ℕ) (l : SensorLog) (v : SensorView) :
    Prop where
  filtered : v.filtered = hold.isSome
  known : v.state ≠ none
  armed : ∀ d ∈ v.armed, d ∈ v.timers ∧ ∃ seen ∈ v.seen, d ≤ seen + hold.getD 0
  waits : ∀ ev ∈ v.waits, ev.state = .absent ∧ v.armed ≠ none
  timers : ∀ d ∈ v.timers, ∃ event ∈ l.lastEvent, d ≤ event + hold.getD 0
  fresh : v.state ≠ some .unavailable → ∃ event ∈ l.lastEvent, ∃ seen ∈ v.seen,
    seen ≤ event + hold.getD 0 + late
  heard : ∀ event ∈ l.lastEvent, event ≤ l.clock ∧
    (v.waits = none → ∃ seen ∈ v.seen, event ≤ seen)
  past : ∀ seen ∈ v.seen, seen ≤ l.clock
  lease : ∀ lease ∈ v.online, l.lastOnline = some lease
  online : ∀ lease ∈ l.lastOnline, lease ≤ l.clock ∧
    (v.online = some lease ∨ lease + staleTimeout < l.clock ∨ ∃ seen ∈ v.seen, lease ≤ seen)

variable {hold : Option ℕ} {staleTimeout late now : ℕ} {l : SensorLog} {v v' : SensorView}
  {o : Occurrence}

theorem Tracked.later (h : Tracked hold staleTimeout late l v) (hclock : l.clock ≤ now) :
    Tracked hold staleTimeout late (l.note now .nothing) v := by
  refine { h with heard := ?_, past := ?_, online := ?_ }
  · intro event hevent
    obtain ⟨hpast, hseen⟩ := h.heard event hevent
    exact ⟨hpast.trans hclock, hseen⟩
  · intro seen hseen
    exact (h.past seen hseen).trans hclock
  · intro lease hlease
    obtain ⟨hpast, hwhich⟩ := h.online lease hlease
    refine ⟨hpast.trans hclock, ?_⟩
    rcases hwhich with hon | hlapsed | hseen
    · exact .inl hon
    · exact .inr (.inl (hlapsed.trans_le hclock))
    · exact .inr (.inr hseen)

theorem Tracked.shrink (h : Tracked hold staleTimeout late l v) (armed : Option ℕ) {timers : Set ℕ}
    (hless : timers ⊆ v.timers) (harmed : ∀ d ∈ armed, v.armed = some d ∧ d ∈ timers)
    (hwaits : v.waits ≠ none → armed = v.armed) :
    Tracked hold staleTimeout late l { v with armed := armed, timers := timers } := by
  refine { h with armed := ?_, waits := ?_, timers := ?_ }
  · intro d hd
    obtain ⟨hwas, hmem⟩ := harmed d hd
    exact ⟨hmem, (h.armed d hwas).2⟩
  · intro ev hev
    obtain ⟨habsent, hwas⟩ := h.waits ev hev
    refine ⟨habsent, ?_⟩
    have hsame := hwaits (by rw [hev]; simp)
    rw [hsame]
    exact hwas
  · intro d hd
    exact h.timers d (hless hd)

/-- An event that goes on. If it is not of this instant, it is not a Present. -/
theorem Tracked.take (h : Tracked hold staleTimeout late l v) (hclock : l.clock ≤ now)
    (l' : SensorLog) (hnow : l'.clock = now) (honline : l'.lastOnline = l.lastOnline)
    {ev : PresenceEvent} (hevent : l'.lastEvent = some now ∨
      l'.lastEvent = l.lastEvent ∧ ev.state ≠ .present ∧
        (ev.state = .unavailable ∨ ∃ event ∈ l.lastEvent, now ≤ event + hold.getD 0 + late)) :
    Tracked hold staleTimeout late l' (v.take hold now ev) := by
  refine ⟨h.filtered, ?_, ?_, by simp [SensorView.take], ?_, ?_, ?_, ?_, ?_, ?_⟩
  · simp [SensorView.take, h.known]
  · intro d hd
    dsimp only [SensorView.take] at hd ⊢
    by_cases hp : ev.state = .present
    · rw [if_pos hp] at hd
      refine ⟨.inl ⟨hp, hd⟩, now, rfl, ?_⟩
      obtain ⟨holdTime, rfl, rfl⟩ := Option.map_eq_some_iff.mp hd
      exact le_refl _
    · rw [if_neg hp] at hd
      obtain ⟨hmem, seen, hseen, hle⟩ := h.armed d hd
      have hpast := h.past seen hseen
      exact ⟨.inr hmem, now, rfl, by omega⟩
  · intro d hd
    rcases hd with ⟨hp, hd⟩ | hd
    · rcases hevent with hevent | ⟨-, hnot, -⟩
      · refine ⟨now, hevent, ?_⟩
        obtain ⟨holdTime, rfl, rfl⟩ := Option.map_eq_some_iff.mp hd
        exact le_refl _
      · exact absurd hp hnot
    · obtain ⟨event, hmem, hle⟩ := h.timers d hd
      have hpast := (h.heard event hmem).1
      rcases hevent with hevent | ⟨hevent, -⟩
      · exact ⟨now, hevent, by omega⟩
      · exact ⟨event, hevent.trans hmem, hle⟩
  · intro hstate
    have hne : ev.state ≠ .unavailable := by
      intro heq
      obtain ⟨state, hsome⟩ := Option.ne_none_iff_exists'.mp h.known
      simp [SensorView.take, heq, hsome] at hstate
    rcases hevent with hevent | ⟨hevent, -, hsoon⟩
    · exact ⟨now, hevent, now, rfl, by omega⟩
    · rcases hsoon with heq | ⟨event, hmem, hle⟩
      · exact absurd heq hne
      · exact ⟨event, hevent.trans hmem, now, rfl, hle⟩
  · intro event hmem
    have hle : event ≤ now := by
      rcases hevent with hevent | ⟨hevent, -⟩
      · rw [hevent] at hmem
        exact (Option.some.inj hmem).ge
      · rw [hevent] at hmem
        exact (h.heard event hmem).1.trans hclock
    rw [hnow]
    exact ⟨hle, fun _ => ⟨now, rfl, hle⟩⟩
  · intro seen hseen
    rw [hnow]
    exact (Option.some.inj hseen).ge
  · intro lease hlease
    dsimp only [SensorView.take] at hlease
    rw [honline]
    split at hlease
    · cases hlease
    · exact h.lease lease hlease
  · intro lease hlease
    rw [honline] at hlease
    have hle := (h.online lease hlease).1.trans hclock
    rw [hnow]
    exact ⟨hle, .inr (.inr ⟨now, rfl, hle⟩)⟩

/-- An absence that is kept back. -/
theorem Tracked.keep (h : Tracked hold staleTimeout late l v) (hclock : l.clock ≤ now)
    {ev : PresenceEvent} (habsent : ev.state = .absent) (harmed : v.armed.isSome) :
    Tracked hold staleTimeout late (l.note now (.event ev)) { v with waits := some ev } := by
  obtain ⟨d, hd⟩ := Option.isSome_iff_exists.mp harmed
  obtain ⟨-, seen, hseen, -⟩ := h.armed d hd
  have hpast := h.past seen hseen
  have hlater := h.later hclock
  refine { hlater with waits := ?_, timers := ?_, fresh := ?_, heard := ?_ }
  · intro ev' hev
    obtain rfl := Option.some.inj hev
    exact ⟨habsent, by simp [hd]⟩
  · intro d hd
    obtain ⟨event, hmem, hle⟩ := h.timers d hd
    have hevent := (h.heard event hmem).1
    exact ⟨now, rfl, by omega⟩
  · intro hstate
    exact ⟨now, rfl, seen, hseen, by omega⟩
  · intro event hmem
    obtain rfl : now = event := Option.some.inj hmem
    exact ⟨le_refl _, by simp⟩

theorem Tracked.assert (h : Tracked hold staleTimeout late l v) (hclock : l.clock ≤ now) :
    Tracked hold staleTimeout late (l.note now .online) { v with online := some now } := by
  refine { h.later hclock with lease := ?_, online := ?_ }
  · intro lease hlease
    exact hlease
  · intro lease hlease
    obtain rfl : now = lease := Option.some.inj hlease
    exact ⟨le_refl _, .inl rfl⟩

theorem Tracked.lapse (h : Tracked hold staleTimeout late l v) (hclock : l.clock ≤ now) {lease : ℕ}
    (hon : v.online = some lease) (hlapsed : lease + staleTimeout < now) :
    Tracked hold staleTimeout late (l.note now .nothing) { v with online := none } := by
  refine { h.later hclock with lease := by simp, online := ?_ }
  intro lease' hlease
  have hlast := h.lease lease hon
  obtain rfl : lease = lease' := Option.some.inj (hlast.symm.trans hlease)
  exact ⟨(h.online lease hlease).1.trans hclock, .inr (.inl hlapsed)⟩

theorem tracked_step (h : Tracked hold staleTimeout late l v) (hclock : l.clock ≤ now)
    (hlate : ∀ deadline, o = .expired deadline → now ≤ deadline + late)
    (hstep : Step hold staleTimeout now v o v') :
    Tracked hold staleTimeout late (l.note now o) v' := by
  cases hstep with
  | idle => exact h.later hclock
  | event ev =>
    unfold receive
    split
    · rename_i hkept
      exact h.keep hclock hkept.1 hkept.2
    · exact h.take hclock (l.note now (.event ev)) rfl rfl (.inl rfl)
  | online => exact h.assert hclock
  | offline ev hev =>
    exact h.take hclock (l.note now (.offline ev)) rfl rfl (.inr ⟨rfl, by simp [hev], .inl hev⟩)
  | spared ev hspared => exact h.later hclock
  | lapsed ev lease hon hlapsed hfresh => exact h.lapse hclock hon hlapsed
  | stale ev hev hstate hlapsed seen hseen hstale =>
    exact h.take hclock (l.note now (.swept ev)) rfl rfl (.inr ⟨rfl, by simp [hev], .inl hev⟩)
  | leftover deadline v' heq hless hkept hd =>
    rw [heq]
    refine (h.later hclock).shrink v.armed hless (fun d hmem => ⟨hmem, ?_⟩) fun _ => rfl
    exact hkept d (h.armed d hmem).1 (hd d hmem).ne'
  | ended deadline armed timers hless harmed hd hwaits =>
    have hshrunk := (h.later hclock).shrink none hless (by simp)
      (fun hne => absurd hwaits hne)
    unfold disarm
    rw [hwaits] at hshrunk
    exact hshrunk
  | released deadline armed ev timers hless harmed hd hwaits hdue =>
    obtain ⟨habsent, -⟩ := h.waits ev hwaits
    obtain ⟨event, hmem, hle⟩ := h.timers deadline hdue
    have hsoon := hlate deadline rfl
    have htaken : Tracked hold staleTimeout late (l.note now (.expired deadline))
        (v.take hold now ev) :=
      h.take hclock (l.note now (.expired deadline)) rfl rfl
        (.inr ⟨rfl, by simp [habsent], .inr ⟨event, hmem, by omega⟩⟩)
    have hless' : timers ⊆ (v.take hold now ev).timers := fun d hd => .inr (hless hd)
    have hshrunk := htaken.shrink none hless' (by simp) (fun hne => absurd rfl hne)
    have hsame : ({ v.disarm with timers := timers }.take hold now ev) =
        { v.take hold now ev with armed := none, timers := timers } := by
      simp [SensorView.take, disarm, habsent]
    rw [hsame]
    exact hshrunk

/-- A sweep finds a sensor stale only when nothing was heard of it within its timeout, if no
hold timer is overdue. -/
theorem Tracked.silent (h : Tracked hold staleTimeout late l v) (hclock : l.clock ≤ now)
    (hhold : hold.getD 0 ≤ staleTimeout) (hfired : ∀ d ∈ v.timers, now ≤ d) {ev : PresenceEvent}
    (hstep : Step hold staleTimeout now v (.swept ev) v') (hbefore : v.state ≠ some .unavailable)
    (hafter : v'.state = some .unavailable) :
    (∀ event ∈ l.lastEvent, event + staleTimeout < now) ∧
      ∀ lease ∈ l.lastOnline, lease + staleTimeout < now := by
  cases hstep with
  | spared ev hspared => exact absurd hafter hbefore
  | lapsed ev lease hon hlapsed hfresh => exact absurd hafter hbefore
  | stale ev hev hstate hlapsed seen hseen hstale =>
    constructor
    · intro event hmem
      cases hw : v.waits with
      | none =>
        obtain ⟨seen', hseen', hle⟩ := (h.heard event hmem).2 hw
        obtain rfl : seen = seen' := Option.some.inj (hseen.symm.trans hseen')
        omega
      | some pending =>
        -- the hold that keeps the absence back ends before the sensor is stale
        obtain ⟨d, hd⟩ := Option.ne_none_iff_exists'.mp (h.waits pending hw).2
        obtain ⟨hpending, seen', hseen', hle⟩ := h.armed d hd
        obtain rfl : seen = seen' := Option.some.inj (hseen.symm.trans hseen')
        have hdue := hfired d hpending
        omega
    · intro lease hmem
      rcases (h.online lease hmem).2 with hon | hpast | ⟨seen', hseen', hle⟩
      · exact hlapsed lease hon
      · omega
      · obtain rfl : seen = seen' := Option.some.inj (hseen.symm.trans hseen')
        omega

theorem Tracked.swept (h : Tracked hold staleTimeout late l v) {ev : PresenceEvent}
    (hstep : Step hold staleTimeout now v (.swept ev) v')
    (hevent : ∀ event ∈ l.lastEvent, event + staleTimeout + hold.getD 0 + late < now)
    (honline : ∀ lease ∈ l.lastOnline, lease + staleTimeout < now) :
    v'.state = some .unavailable := by
  have hgone (hfresh : ∀ seen ∈ v.seen, now ≤ seen + staleTimeout) :
      v.state = some .unavailable := by
    by_contra hne
    obtain ⟨event, hmem, seen, hseen, hle⟩ := h.fresh hne
    have hold' := hevent event hmem
    have hnew := hfresh seen hseen
    omega
  cases hstep with
  | spared ev hspared =>
    rcases hspared with hstate | ⟨lease, hlease, hle⟩ | ⟨-, hfresh⟩
    · exact hstate
    · have hlapsed := honline lease (h.lease lease hlease)
      omega
    · exact hgone hfresh
  | lapsed ev lease hon hlapsed hfresh => exact hgone hfresh
  | stale ev hev hstate hlapsed seen hseen hstale =>
    obtain ⟨state, hknown⟩ := Option.ne_none_iff_exists'.mp h.known
    simp [SensorView.take, hknown, hev]

end SensorView

end Dormant
