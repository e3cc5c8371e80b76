import Dormant.Wear.OneOwner
import Mathlib.Data.Rat.Encodable
import Mathlib.Logic.Equiv.List
import Mathlib.Tactic.DeriveEncodable

/-!
# What a run leaves in the ledger files

After the final persist each file holds what its ledger was loaded with and every attribution under
its identity, and no write took hours away: in the runs where a display has one identity and an
identity one display. A rename in a run gives an identity a second display.
-/

namespace Dormant.TrackerShell
set_option autoImplicit false

open Files LedgerStore WearLedger

def Event.panels : Event → List Panel
  | .turn t => t.executors
  | .flush _ => []

/-- A file that was there at the start holds its wear and what was attributed since. A ledger whose
file was not there may be loaded with that of a legacy file. -/
structure Kept (fromStr : String → Option WearLedger) (dir : WearDir) (s : Shell)
    (p : Panel) : Prop where
  file : ∀ place, fileWear fromStr s.dir p.identitySource place =
    s.loaded p.identitySource place + attributed s.attributions p.identitySource place
  loaded : (dir (canonical p)).isSome ∨ dir (legacy p) = none →
    ∀ place, s.loaded p.identitySource place = fileWear fromStr dir p.identitySource place

/-- No write replaced a larger total by a smaller one. -/
def Ordered (fromStr : String → Option WearLedger) (writes : List Write) : Prop :=
  ∀ write ∈ writes, ∀ file, write.replaced.bind (parse fromStr) = some file →
    file.totalOnHours ≤ write.ledger.totalOnHours

/-- The run does not panic, and the final persist, which goes over the ledgers in this order, leaves
all wear in the files. -/
def WearKept (fromStr : String → Option WearLedger) (toStr : WearLedger → Option String)
    (pid seq : ℕ) (dir : WearDir) (events : List Event) (order : List DisplayId) : Prop :=
  ∃ s, (start fromStr dir).run fromStr toStr pid seq events = some s ∧
    ((∀ p ∈ events.flatMap Event.panels,
        (s.tracker p.display).ledger.isSome → p.display ∈ order) →
      (∀ p ∈ events.flatMap Event.panels, Kept fromStr dir (s.flush toStr pid seq order) p) ∧
        Ordered fromStr (s.flush toStr pid seq order).writes)

section
variable {fromStr : String → Option WearLedger} {toStr : WearLedger → Option String}
variable {pid seq : ℕ} {rows cols : UInt16} {dir : WearDir} {panels : List Panel} {s : Shell}
variable {p : Panel}

/-! ## Turns -/

variable (toStr pid seq) in
theorem persistOne_eq (s : Shell) (display : DisplayId) :
    ∃ dir writes, s.persistOne toStr pid seq display = { s with dir, writes } := by
  unfold Shell.persistOne
  split
  · exact ⟨s.dir, s.writes, rfl⟩
  · split
    · exact ⟨s.dir, s.writes, rfl⟩
    · exact ⟨_, _, rfl⟩

theorem Noted.applyAction {t : Turn} (h : Noted s) (action : TrackerAction) :
    Noted (s.applyAction toStr pid seq t action) := by
  cases action with
  | persist display =>
    obtain ⟨dir, writes, heq⟩ := persistOne_eq toStr pid seq s display
    rw [Shell.applyAction, heq]
    exact h
  | seed display =>
    rw [Shell.applyAction, Shell.seedOne]
    split
    · split <;> exact h
    · exact h
  | _ => exact h

theorem Inv.applyActions (hone : OneOwner fromStr rows cols dir panels)
    (hround : RoundTrips fromStr toStr) {t : Turn} (actions : List TrackerAction)
    (h : Inv fromStr rows cols dir panels s) (hnoted : Noted s) :
    Inv fromStr rows cols dir panels
        (actions.foldl (fun s action => s.applyAction toStr pid seq t action) s) ∧
      Noted (actions.foldl (fun s action => s.applyAction toStr pid seq t action) s) := by
  induction actions generalizing s with
  | nil => exact ⟨h, hnoted⟩
  | cons action actions ih =>
    exact ih (h.applyAction hone hround action) (hnoted.applyAction action)

theorem Inv.turn (hone : OneOwner fromStr rows cols dir panels)
    (hround : RoundTrips fromStr toStr) {t : Turn}
    (hgrid : t.cfg.gridRows = rows ∧ t.cfg.gridCols = cols)
    (hall : ∀ p ∈ t.executors, p ∈ panels) (h : Inv fromStr rows cols dir panels s)
    (hnoted : Noted s) :
    ∃ s', s.turn fromStr toStr pid seq t = some s' ∧ Inv fromStr rows cols dir panels s' ∧
      Noted s' := by
  unfold Shell.turn
  split
  · obtain ⟨hinv, hnoted'⟩ := h.generation pid seq hone hgrid hall hnoted
    have hgridded := hinv.gridded
    rw [← hgrid.1, ← hgrid.2] at hgridded
    obtain ⟨r, htick, hgrows, hidle⟩ := tickWithGrids_grows t.tick _ hgridded
    rw [hgrid.1, hgrid.2] at hgrows
    have hticked := hinv.ticked hone hnoted' hgrows hidle
    dsimp only
    rw [htick]
    exact ⟨_, rfl, hticked.applyActions hone hround r.2 hnoted'⟩
  · exact ⟨s, rfl, h, hnoted⟩

theorem Inv.flush (hone : OneOwner fromStr rows cols dir panels)
    (hround : RoundTrips fromStr toStr) (order : List DisplayId)
    (h : Inv fromStr rows cols dir panels s) :
    Inv fromStr rows cols dir panels (s.flush toStr pid seq order) := by
  unfold Shell.flush
  induction order generalizing s with
  | nil => exact h
  | cons display order ih => exact ih (h.persistOne hone hround display)

variable (toStr pid seq) in
theorem flush_eq (s : Shell) (order : List DisplayId) :
    ∃ dir writes, s.flush toStr pid seq order = { s with dir, writes } := by
  unfold Shell.flush
  induction order generalizing s with
  | nil => exact ⟨s.dir, s.writes, rfl⟩
  | cons display order ih =>
    obtain ⟨dir, writes, heq⟩ := persistOne_eq toStr pid seq s display
    obtain ⟨dir', writes', hrest⟩ := ih { s with dir, writes }
    refine ⟨dir', writes', ?_⟩
    rw [List.foldl_cons, heq, hrest]

variable (pid seq) in
theorem Inv.step (hone : OneOwner fromStr rows cols dir panels)
    (hround : RoundTrips fromStr toStr) {event : Event}
    (hgrid : ∀ t, event = .turn t → t.cfg.gridRows = rows ∧ t.cfg.gridCols = cols)
    (hall : ∀ p ∈ event.panels, p ∈ panels) (h : Inv fromStr rows cols dir panels s)
    (hnoted : Noted s) :
    ∃ s', s.step fromStr toStr pid seq event = some s' ∧ Inv fromStr rows cols dir panels s' ∧
      Noted s' := by
  cases event with
  | turn t => exact h.turn hone hround (hgrid t rfl) hall hnoted
  | flush order =>
    refine ⟨_, rfl, h.flush hone hround order, ?_⟩
    obtain ⟨dir, writes, heq⟩ := flush_eq toStr pid seq s order
    rw [heq]
    exact hnoted

variable (pid seq) in
theorem Inv.run (hone : OneOwner fromStr rows cols dir panels)
    (hround : RoundTrips fromStr toStr) {events : List Event}
    (hgrid : ∀ t, Event.turn t ∈ events → t.cfg.gridRows = rows ∧ t.cfg.gridCols = cols)
    (hall : ∀ event ∈ events, ∀ p ∈ event.panels, p ∈ panels)
    (h : Inv fromStr rows cols dir panels s) (hnoted : Noted s) :
    ∃ s', s.run fromStr toStr pid seq events = some s' ∧ Inv fromStr rows cols dir panels s' := by
  induction events generalizing s with
  | nil => exact ⟨s, rfl, h⟩
  | cons event events ih =>
    obtain ⟨s', hstep, hinv, hnoted'⟩ := h.step pid seq hone hround
      (fun t ht => hgrid t (ht ▸ List.mem_cons_self ..)) (hall event (List.mem_cons_self ..)) hnoted
    obtain ⟨s'', hrun, hinv'⟩ := ih (fun t ht => hgrid t (List.mem_cons_of_mem _ ht))
      (fun event hevent => hall event (List.mem_cons_of_mem _ hevent)) hinv hnoted'
    refine ⟨s'', ?_, hinv'⟩
    rw [Shell.run, List.foldlM_cons, hstep]
    exact hrun

/-! ## The final persist -/

/-- The file of a display holds its ledger. -/
def Written (fromStr : String → Option WearLedger) (s : Shell) (p : Panel) : Prop :=
  (s.dir (canonical p)).bind (parse fromStr) = (s.tracker p.display).ledger

theorem Owned.written (hround : RoundTrips fromStr toStr)
    (howned : Owned fromStr rows cols dir s p) :
    Written fromStr (s.persistOne toStr pid seq p.display) p := by
  obtain ⟨ledger, hledger, -⟩ := howned.held
  rw [howned.persistOne hledger]
  exact (persistLedger_reads pid seq hround s.dir (ledgerIdentityKey p.identitySource)
    ledger).trans hledger.symm

/-- A later write is of the same ledger, or to another file. -/
theorem Written.persistOne (hone : OneOwner fromStr rows cols dir panels)
    (hround : RoundTrips fromStr toStr) (h : Inv fromStr rows cols dir panels s) (hp : p ∈ panels)
    (howned : Owned fromStr rows cols dir s p) (display : DisplayId)
    (hwritten : Written fromStr s p) :
    Written fromStr (s.persistOne toStr pid seq display) p := by
  cases hkey : s.storageKey display with
  | none =>
    rw [persistOne_none (h.absent display hkey).1]
    exact hwritten
  | some key =>
    obtain ⟨q, hq, rfl⟩ := h.known display key hkey
    by_cases hdisplay : p.display = q.display
    · rw [← hdisplay]
      exact howned.written hround
    · have hownedOther := h.owned hq (Option.isSome_of_eq_some hkey)
      obtain ⟨ledger, hledger, -⟩ := hownedOther.held
      have hne : p.identitySource ≠ q.identitySource :=
        fun heq => hdisplay ((hone.steady p hp q hq).mpr heq)
      have hfile : (persistLedger toStr s.dir (ledgerIdentityKey q.identitySource) ledger
          (writeSucceeds pid seq)) (canonical p) = s.dir (canonical p) :=
        persistLedger_other toStr (canonical_ne hne) (ledgerName_ne_tmpFilename _ _)
      rw [hownedOther.persistOne hledger]
      unfold Written
      dsimp only
      rw [hfile]
      exact hwritten

theorem Inv.written_flush (hone : OneOwner fromStr rows cols dir panels)
    (hround : RoundTrips fromStr toStr) (hp : p ∈ panels) {order : List DisplayId}
    (hwritten : Written fromStr s p ∨ p.display ∈ order)
    (h : Inv fromStr rows cols dir panels s) (howned : Owned fromStr rows cols dir s p) :
    Written fromStr (s.flush toStr pid seq order) p := by
  unfold Shell.flush
  induction order generalizing s with
  | nil => exact hwritten.resolve_right List.not_mem_nil
  | cons display order ih =>
    have hinv : Inv fromStr rows cols dir panels (s.persistOne toStr pid seq display) :=
      h.persistOne hone hround display
    obtain ⟨dir', writes, heq⟩ := persistOne_eq toStr pid seq s display
    have howned' : Owned fromStr rows cols dir (s.persistOne toStr pid seq display) p := by
      refine hinv.owned hp ?_
      rw [heq]
      exact Option.isSome_of_eq_some howned.key
    refine ih ?_ hinv howned'
    obtain hwritten | hmem := hwritten
    · exact .inl (hwritten.persistOne hone hround h hp howned display)
    · obtain rfl | hmem := List.mem_cons.mp hmem
      · exact .inl (howned.written hround)
      · exact .inr hmem

theorem Inv.kept (h : Inv fromStr rows cols dir panels s) (hp : p ∈ panels)
    (hwritten : (s.storageKey p.display).isSome → Written fromStr s p) : Kept fromStr dir s p := by
  cases hkey : s.storageKey p.display with
  | some key =>
    have howned := h.owned hp (Option.isSome_of_eq_some hkey)
    obtain ⟨ledger, hledger, -, hwear, -⟩ := howned.held
    refine ⟨fun place => ?_, howned.found⟩
    have hfile : (s.dir (canonical p)).bind (parse fromStr) = some ledger :=
      (hwritten (Option.isSome_of_eq_some hkey)).trans hledger
    unfold canonical at hfile
    rw [fileWear, hfile]
    exact hwear place
  | none =>
    have hfresh := h.fresh hp hkey
    have hfile := hfresh.canonical_eq
    unfold canonical at hfile
    refine ⟨fun place => ?_, fun _ place => congrFun hfresh.loaded_eq place⟩
    rw [hfresh.idle, add_zero, hfresh.loaded_eq, fileWear, fileWear, hfile]

/-- What is written can be read, and the grid is the same in all turns. -/
theorem run_keeps_wear {events : List Event} (hround : RoundTrips fromStr toStr)
    (hgrid : ∀ t, Event.turn t ∈ events → t.cfg.gridRows = rows ∧ t.cfg.gridCols = cols)
    (hone : OneOwner fromStr rows cols dir (events.flatMap Event.panels))
    (order : List DisplayId) : WearKept fromStr toStr pid seq dir events order := by
  have hall : ∀ event ∈ events, ∀ p ∈ event.panels, p ∈ events.flatMap Event.panels :=
    fun event hevent p hp => List.mem_flatMap.mpr ⟨event, hevent, hp⟩
  have hnoted : Noted (start fromStr dir) := by
    intro display hkey
    cases hkey
  have hstart : Inv fromStr rows cols dir (events.flatMap Event.panels) (start fromStr dir) :=
    inv_start
  obtain ⟨s, hrun, hinv⟩ := hstart.run pid seq hone hround hgrid hall hnoted
  refine ⟨s, hrun, fun horder => ?_⟩
  have hflushed : Inv fromStr rows cols dir (events.flatMap Event.panels)
      (s.flush toStr pid seq order) := hinv.flush hone hround order
  refine ⟨fun p hp => hflushed.kept hp fun hkey => ?_, hflushed.ordered⟩
  obtain ⟨dir', writes, heq⟩ := flush_eq toStr pid seq s order
  rw [heq] at hkey
  have howned : Owned fromStr rows cols dir s p := hinv.owned hp hkey
  obtain ⟨ledger, hledger, -⟩ := howned.held
  exact hinv.written_flush hone hround hp
    (.inr (horder p hp (Option.isSome_of_eq_some hledger))) howned

end

/-! ## A text for each ledger -/

instance encodableChar : Encodable Char :=
  Encodable.ofLeftInjection Char.toNat (fun n => some (Char.ofNat n)) fun c => by simp

instance encodableString : Encodable String :=
  Encodable.ofLeftInjection String.toList (fun l => some (String.ofList l)) fun text => by simp

instance encodableUInt16 : Encodable UInt16 :=
  Encodable.ofLeftInjection UInt16.toNat (fun n => some (UInt16.ofNat n)) fun n => by simp

instance encodableUInt32 : Encodable UInt32 :=
  Encodable.ofLeftInjection UInt32.toNat (fun n => some (UInt32.ofNat n)) fun n => by simp

instance encodableUInt64 : Encodable UInt64 :=
  Encodable.ofLeftInjection UInt64.toNat (fun n => some (UInt64.ofNat n)) fun n => by simp

deriving instance Encodable for PanelType, WearIdentity, WearLedger

/-- The number of the ledger, one character for each unit of it. -/
def ledgerText (ledger : WearLedger) : Option String :=
  some (String.ofList (List.replicate (Encodable.encode ledger) '1'))

def ledgerOf (text : String) : Option WearLedger := Encodable.decode text.toList.length

theorem roundTrips : RoundTrips ledgerOf ledgerText := by
  intro ledger
  refine ⟨_, rfl, ?_⟩
  rw [ledgerOf, String.toList_ofList, List.length_replicate, Encodable.encodek]

/-! ## A rename -/

/-- The clock is that of a machine that has not got the time yet, so nothing is persisted before the
end. -/
def deskTurn (executors : List Panel) (displays : List DisplayId)
    (hdisplays : displays.Nodup) : Turn where
  cfg := squareConfig
  panelTypes := fun _ => .unknown
  executors := executors
  tick := {
    nowEpochS := 30
    monotonicSpan := 60000000000
    displays := displays.map fun display => (display, ⟨⟨.active, none⟩, none, none, none, none⟩)
    nodup := by
      rw [List.map_map]
      exact (List.map_id' displays).symm ▸ hdisplays }
  usageHours := fun _ => none

/-- The display `left` is renamed to `right`, and its panel is the same. -/
def renameEvents : List Event :=
  [.turn (deskTurn [⟨⟨"left"⟩, "x", 100⟩] [⟨"left"⟩] (by decide)),
    .turn (deskTurn [⟨⟨"right"⟩, "x", 100⟩] [⟨"right"⟩] (by decide))]

/-- Both displays have a ledger for the file, and each ledger has the minute of its own turn. -/
def TwoLedgers (s : Shell) : Prop :=
  (∀ display ∈ [(⟨"left"⟩ : DisplayId), ⟨"right"⟩],
    s.storageKey display = some (ledgerIdentityKey "x") ∧ s.persistReadonly display = false ∧
      (s.tracker display).ledger.map (·.totalOnHours) = some (1 / 60)) ∧
  s.loaded "x" .total = 0 ∧ attributed s.attributions "x" .total = 1 / 30

instance : DecidablePred TwoLedgers := fun _ => inferInstanceAs (Decidable (_ ∧ _))

theorem renamed_run : ((start ledgerOf (fun _ => none)).run ledgerOf ledgerText 0 0
    renameEvents).any (decide <| TwoLedgers ·) = true := by
  decide +kernel

theorem TwoLedgers.fileWear_flush {s : Shell} (h : TwoLedgers s) :
    fileWear ledgerOf (s.flush ledgerText 0 0 [⟨"left"⟩, ⟨"right"⟩]).dir "x" .total = 1 / 60 := by
  obtain ⟨hkey, hwritable, htotal⟩ := h.1 ⟨"right"⟩ (by decide)
  obtain ⟨ledger, hledger, hhours⟩ := Option.map_eq_some_iff.mp htotal
  obtain ⟨dir, writes, heq⟩ := persistOne_eq ledgerText 0 0 s ⟨"left"⟩
  have hreads := persistLedger_reads 0 0 roundTrips dir (ledgerIdentityKey "x") ledger
  have hflush : (s.flush ledgerText 0 0 [⟨"left"⟩, ⟨"right"⟩]).dir =
      persistLedger ledgerText dir (ledgerIdentityKey "x") ledger (writeSucceeds 0 0) := by
    rw [Shell.flush, List.foldl_cons, heq, List.foldl_cons, Shell.persistOne]
    dsimp only
    rw [hwritable, if_neg Bool.false_ne_true, hledger, hkey]
    rfl
  rw [fileWear, hflush, hreads]
  exact hhours

/-- The minute of the first display is lost. -/
theorem rename_loses_wear : RoundTrips ledgerOf ledgerText ∧
    ¬ WearKept ledgerOf ledgerText 0 0 (fun _ => none) renameEvents
      [⟨"left"⟩, ⟨"right"⟩] := by
  refine ⟨roundTrips, ?_⟩
  rintro ⟨s, hrun, hkept⟩
  have htwo : TwoLedgers s := by
    have hany := renamed_run
    rw [hrun] at hany
    exact of_decide_eq_true hany
  have horder : ∀ p ∈ renameEvents.flatMap Event.panels,
      (s.tracker p.display).ledger.isSome → p.display ∈ [(⟨"left"⟩ : DisplayId), ⟨"right"⟩] := by
    have hpanels : ∀ p ∈ renameEvents.flatMap Event.panels,
        p.display ∈ [(⟨"left"⟩ : DisplayId), ⟨"right"⟩] := by
      decide
    exact fun p hp _ => hpanels p hp
  have hfile := ((hkept horder).1 ⟨⟨"left"⟩, "x", 100⟩ (List.mem_cons_self ..)).file .total
  obtain ⟨dir, writes, heq⟩ := flush_eq ledgerText 0 0 s [⟨"left"⟩, ⟨"right"⟩]
  have hloaded : (s.flush ledgerText 0 0 [⟨"left"⟩, ⟨"right"⟩]).loaded "x" .total = 0 := by
    rw [heq]
    exact htwo.2.1
  have hattributed : attributed (s.flush ledgerText 0 0 [⟨"left"⟩, ⟨"right"⟩]).attributions "x"
      .total = 1 / 30 := by
    rw [heq]
    exact htwo.2.2
  rw [hloaded, hattributed, htwo.fileWear_flush] at hfile
  norm_num at hfile

/-- Two panels, one of which is gone in the second turn. -/
def removalEvents : List Event :=
  [.turn (deskTurn [⟨⟨"left"⟩, "x", 100⟩, ⟨⟨"right"⟩, "y", 100⟩] [⟨"left"⟩, ⟨"right"⟩] (by decide)),
    .turn (deskTurn [⟨⟨"right"⟩, "y", 100⟩] [⟨"right"⟩] (by decide))]

theorem removal_keeps_wear : WearKept ledgerOf ledgerText 0 0 (fun _ => none) removalEvents
    [⟨"left"⟩, ⟨"right"⟩] := by
  have hgrid : ∀ t, Event.turn t ∈ removalEvents → t.cfg.gridRows = 2 ∧ t.cfg.gridCols = 2 := by
    intro t ht
    simp only [removalEvents, List.mem_cons, Event.turn.injEq, List.not_mem_nil, or_false] at ht
    obtain rfl | rfl := ht
    · exact ⟨rfl, rfl⟩
    · exact ⟨rfl, rfl⟩
  have habsent (name : Name) : Readable ledgerOf 2 2 (fun _ => none) name := by
    intro bytes hbytes
    cases hbytes
  have hone : OneOwner ledgerOf 2 2 (fun _ => none) (removalEvents.flatMap Event.panels) := {
    steady := by decide
    apart := by decide
    readable := fun _ _ => ⟨habsent _, habsent _⟩ }
  exact run_keeps_wear roundTrips hgrid hone _

end Dormant.TrackerShell
