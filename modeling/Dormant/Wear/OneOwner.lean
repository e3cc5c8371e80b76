import Dormant.Wear.Growth
import Dormant.Wear.Loads

/-!
# One display for each ledger file

A ledger is in memory for a display and on disk for the identity of a panel. As long as a display
keeps one identity and an identity one display, what is in memory is ahead of the file, and no wear
is lost. A second display of an identity has a ledger of its own for the same file, and the one that
is written last remains.
-/

namespace Dormant.TrackerShell
set_option autoImplicit false

open Files LedgerStore WearLedger

/-! ## The invariant -/

def canonical (p : Panel) : Name := ledgerName (ledgerIdentityKey p.identitySource)

def legacy (p : Panel) : Name := ledgerName (sanitizeIdentityKey p.identitySource)

/-- A display has one identity and an identity one display, no storage key is the legacy key of
another panel, and no file is one that the tracker refuses. -/
structure OneOwner (fromStr : String → Option WearLedger) (rows cols : UInt16) (dir : WearDir)
    (panels : List Panel) : Prop where
  steady : ∀ p ∈ panels, ∀ q ∈ panels,
    p.display = q.display ↔ p.identitySource = q.identitySource
  apart : ∀ p ∈ panels, ∀ q ∈ panels,
    sanitizeIdentityKey p.identitySource ≠ ledgerIdentityKey q.identitySource
  readable : ∀ p ∈ panels, Readable fromStr rows cols dir (canonical p) ∧
    Readable fromStr rows cols dir (legacy p)

section
variable {fromStr : String → Option WearLedger} {toStr : WearLedger → Option String}
variable {pid seq : ℕ} {rows cols : UInt16} {dir : WearDir} {panels : List Panel} {s : Shell}
variable {p q : Panel}

/-- The ledger of a display that is resolved: what it was loaded with and all that was attributed,
ahead of the file. -/
structure Owned (fromStr : String → Option WearLedger) (rows cols : UInt16) (dir : WearDir)
    (s : Shell) (p : Panel) : Prop where
  key : s.storageKey p.display = some (ledgerIdentityKey p.identitySource)
  writable : s.persistReadonly p.display = false
  held : ∃ ledger, (s.tracker p.display).ledger = some ledger ∧ ledger.HasGrid rows cols ∧
    (∀ place, wearAt ledger place =
      s.loaded p.identitySource place + attributed s.attributions p.identitySource place) ∧
    ∀ file, (s.dir (canonical p)).bind (parse fromStr) = some file →
      file.totalOnHours ≤ ledger.totalOnHours
  named : ∀ identity, s.identities p.display = some identity → identity = p.identitySource
  found : (dir (canonical p)).isSome ∨ dir (legacy p) = none →
    ∀ place, s.loaded p.identitySource place = fileWear fromStr dir p.identitySource place

structure Fresh (fromStr : String → Option WearLedger) (dir : WearDir) (s : Shell) (p : Panel) :
    Prop where
  key : s.storageKey p.display = none
  canonical_eq : s.dir (canonical p) = dir (canonical p)
  legacy_eq : s.dir (legacy p) = dir (legacy p) ∨ s.dir (legacy p) = none
  loaded_eq : s.loaded p.identitySource = fileWear fromStr dir p.identitySource
  idle : ∀ place, attributed s.attributions p.identitySource place = 0

structure Inv (fromStr : String → Option WearLedger) (rows cols : UInt16) (dir : WearDir)
    (panels : List Panel) (s : Shell) : Prop where
  panel : ∀ p ∈ panels, Owned fromStr rows cols dir s p ∨ Fresh fromStr dir s p
  known : ∀ display key, s.storageKey display = some key → ∃ p ∈ panels, p.display = display
  absent : ∀ display, s.storageKey display = none →
    (s.tracker display).ledger = none ∧ s.identities display = none ∧
      s.persistReadonly display = false
  ordered : ∀ write ∈ s.writes, ∀ file, write.replaced.bind (parse fromStr) = some file →
    file.totalOnHours ≤ write.ledger.totalOnHours

theorem inv_start : Inv fromStr rows cols dir panels (start fromStr dir) where
  panel := fun _ _ => .inr ⟨rfl, rfl, .inl rfl, rfl, fun _ => rfl⟩
  known := by
    intro display key h
    cases h
  absent := fun _ _ => ⟨rfl, rfl, rfl⟩
  ordered := by
    intro write h
    cases h

theorem Inv.owned (h : Inv fromStr rows cols dir panels s) (hp : p ∈ panels)
    (hkey : (s.storageKey p.display).isSome) : Owned fromStr rows cols dir s p := by
  obtain howned | hfresh := h.panel p hp
  · exact howned
  · rw [hfresh.key] at hkey
    cases hkey

theorem Inv.fresh (h : Inv fromStr rows cols dir panels s) (hp : p ∈ panels)
    (hkey : s.storageKey p.display = none) : Fresh fromStr dir s p := by
  obtain howned | hfresh := h.panel p hp
  · rw [howned.key] at hkey
    cases hkey
  · exact hfresh

/-! ## Loading keeps it -/

theorem Readable.congr {d d' : WearDir} {name : Name}
    (hsame : d' name = d name ∨ d' name = none) (h : Readable fromStr rows cols d name) :
    Readable fromStr rows cols d' name := by
  intro bytes hbytes
  obtain hsame | hsame := hsame
  · rw [hsame] at hbytes
    exact h bytes hbytes
  · rw [hsame] at hbytes
    cases hbytes

theorem canonical_ne (hne : p.identitySource ≠ q.identitySource) : canonical p ≠ canonical q :=
  fun heq => hne (ledgerIdentityKey_inj (ledgerName_inj heq))

/-- The files of another panel, after a load. -/
theorem load_other (hone : OneOwner fromStr rows cols dir panels) (hp : p ∈ panels)
    (hq : q ∈ panels) (hne : q.identitySource ≠ p.identitySource) {d : WearDir} {args : LoadArgs}
    {o : LoadOutcomes} :
    (LedgerStore.loadOrCreateLedger fromStr d (ledgerIdentityKey p.identitySource)
        (sanitizeIdentityKey p.identitySource) args o).2 (canonical q) = d (canonical q) ∧
      ((LedgerStore.loadOrCreateLedger fromStr d (ledgerIdentityKey p.identitySource)
          (sanitizeIdentityKey p.identitySource) args o).2 (legacy q) = d (legacy q) ∨
        (LedgerStore.loadOrCreateLedger fromStr d (ledgerIdentityKey p.identitySource)
          (sanitizeIdentityKey p.identitySource) args o).2 (legacy q) = none) := by
  constructor
  · refine loadOrCreateLedger_other fromStr (canonical_ne hne)
      (fun _ _ => ledgerName_ne_tmpFilename _ _ _ _)
      (fun heq => hone.apart p hp q hq (ledgerName_inj heq).symm)
      (ledgerName_ne_migratedName _ _) fun _ => ledgerName_ne_corruptName _ _ _
  · by_cases hshared : sanitizeIdentityKey q.identitySource = sanitizeIdentityKey p.identitySource
    · unfold legacy
      rw [hshared]
      exact load_legacy (sanitized_ne_key _)
    · left
      exact loadOrCreateLedger_other fromStr
        (fun heq => hone.apart q hq p hp (ledgerName_inj heq))
        (fun _ _ => ledgerName_ne_tmpFilename _ _ _ _) (fun heq => hshared (ledgerName_inj heq))
        (ledgerName_ne_migratedName _ _) fun _ => ledgerName_ne_corruptName _ _ _

theorem Owned.congr (hdisplay : q.display = p.display)
    (hidentity : q.identitySource = p.identitySource)
    (h : Owned fromStr rows cols dir s p) : Owned fromStr rows cols dir s q := by
  obtain ⟨hkey, hwritable, hheld, hnamed, hfound⟩ := h
  unfold canonical legacy at *
  constructor
  · rwa [hdisplay, hidentity]
  · rwa [hdisplay]
  · unfold canonical
    rwa [hdisplay, hidentity]
  · rwa [hdisplay, hidentity]
  · unfold canonical legacy
    rwa [hidentity]

/-- What a load changes of another panel. -/
structure Apart (s s' : Shell) (q : Panel) : Prop where
  tracker : s'.tracker q.display = s.tracker q.display
  key : s'.storageKey q.display = s.storageKey q.display
  readonly : s'.persistReadonly q.display = s.persistReadonly q.display
  loaded : s'.loaded q.identitySource = s.loaded q.identitySource
  canonical : s'.dir (canonical q) = s.dir (canonical q)
  legacy : s'.dir (legacy q) = s.dir (legacy q) ∨ s'.dir (legacy q) = none
  identities : s'.identities = s.identities
  attributions : s'.attributions = s.attributions

theorem Apart.owned {s' : Shell} (h : Apart s s' q) (howned : Owned fromStr rows cols dir s q) :
    Owned fromStr rows cols dir s' q where
  key := h.key.trans howned.key
  writable := h.readonly.trans howned.writable
  held := by
    rw [h.tracker, h.loaded, h.canonical, h.attributions]
    exact howned.held
  named := by
    rw [h.identities]
    exact howned.named
  found := by
    rw [h.loaded]
    exact howned.found

theorem Apart.fresh {s' : Shell} (h : Apart s s' q) (hfresh : Fresh fromStr dir s q) :
    Fresh fromStr dir s' q where
  key := h.key.trans hfresh.key
  canonical_eq := h.canonical.trans hfresh.canonical_eq
  legacy_eq := by
    obtain hlegacy | hlegacy := h.legacy
    · rw [hlegacy]
      exact hfresh.legacy_eq
    · exact .inr hlegacy
  loaded_eq := h.loaded.trans hfresh.loaded_eq
  idle := by
    rw [h.attributions]
    exact hfresh.idle

theorem Inv.loadPanel (hone : OneOwner fromStr rows cols dir panels) {t : Turn}
    (hgrid : t.cfg.gridRows = rows ∧ t.cfg.gridCols = cols) (hp : p ∈ panels)
    (h : Inv fromStr rows cols dir panels s) :
    Inv fromStr rows cols dir panels (s.loadPanel fromStr pid seq t p) := by
  cases hkey : s.storageKey p.display with
  | some key =>
    have hsame : s.loadPanel fromStr pid seq t p = s := by
      rw [Shell.loadPanel, hkey]
    rw [hsame]
    exact h
  | none =>
    have hfresh := h.fresh hp hkey
    have hloads : Loads fromStr rows cols s.dir p.identitySource
        (s.loadResult fromStr pid seq t p) :=
      loads hgrid.1 hgrid.2 ((hone.readable p hp).1.congr (.inl hfresh.canonical_eq))
        ((hone.readable p hp).2.congr hfresh.legacy_eq)
    unfold Shell.loadPanel
    rw [hkey]
    dsimp only
    refine ⟨fun q hq => ?_, ?_, ?_, h.ordered⟩
    · by_cases hdisplay : q.display = p.display
      · left
        refine Owned.congr hdisplay ((hone.steady q hq p hp).mp hdisplay) ?_
        constructor
        · exact Function.update_self ..
        · dsimp only
          rw [Function.update_self, hloads.writable, (h.absent p.display hkey).2.2]
          rfl
        · dsimp only
          rw [Function.update_self, Function.update_self]
          refine ⟨_, rfl, hloads.grid, fun place => ?_, hloads.behind⟩
          rw [hfresh.idle, add_zero]
        · dsimp only
          intro identity hidentity
          rw [(h.absent p.display hkey).2.1] at hidentity
          cases hidentity
        · dsimp only
          intro hcase place
          rw [Function.update_self]
          have hwear : fileWear fromStr s.dir p.identitySource place =
              fileWear fromStr dir p.identitySource place := by
            unfold fileWear
            rw [show ledgerName (ledgerIdentityKey p.identitySource) = canonical p from rfl,
              hfresh.canonical_eq]
          rw [← hwear]
          refine hloads.found (hcase.imp (fun hsome => ?_) fun hnone => ?_) place
          · exact (congrArg Option.isSome hfresh.canonical_eq).trans hsome
          · obtain hlegacy | hlegacy := hfresh.legacy_eq
            · exact hlegacy.trans hnone
            · exact hlegacy
      · have hne : q.identitySource ≠ p.identitySource :=
          fun heq => hdisplay ((hone.steady q hq p hp).mpr heq)
        refine (fun hapart : Apart s _ q =>
          (h.panel q hq).imp hapart.owned hapart.fresh) ?_
        exact {
          tracker := Function.update_of_ne hdisplay ..
          key := Function.update_of_ne hdisplay ..
          readonly := Function.update_of_ne hdisplay ..
          loaded := Function.update_of_ne hne ..
          canonical := (load_other hone hp hq hne).1
          legacy := (load_other hone hp hq hne).2
          identities := rfl
          attributions := rfl }
    · intro display key hdisplay
      by_cases heq : display = p.display
      · exact ⟨p, hp, heq.symm⟩
      · dsimp only at hdisplay
        rw [Function.update_of_ne heq] at hdisplay
        exact h.known display key hdisplay
    · intro display hdisplay
      dsimp only at hdisplay ⊢
      have heq : display ≠ p.display := by
        rintro rfl
        rw [Function.update_self] at hdisplay
        cases hdisplay
      rw [Function.update_of_ne heq] at hdisplay
      rw [Function.update_of_ne heq, Function.update_of_ne heq]
      exact h.absent display hdisplay

theorem loadPanel_key {t : Turn} {display : DisplayId} :
    ((s.loadPanel fromStr pid seq t p).storageKey display).isSome ↔
      (s.storageKey display).isSome ∨ p.display = display := by
  unfold Shell.loadPanel
  cases hkey : s.storageKey p.display with
  | some key =>
    refine (or_iff_left_of_imp ?_).symm
    rintro rfl
    rw [hkey]
    rfl
  | none =>
    dsimp only
    by_cases heq : p.display = display
    · subst heq
      rw [Function.update_self]
      simp
    · rw [Function.update_of_ne (Ne.symm heq)]
      simp [heq]

theorem loadPanel_identities {t : Turn} :
    (s.loadPanel fromStr pid seq t p).identities = s.identities := by
  unfold Shell.loadPanel
  split <;> rfl

theorem loadPanels_key {t : Turn} {executors : List Panel} {display : DisplayId} :
    ((executors.foldl (fun s p => s.loadPanel fromStr pid seq t p) s).storageKey display).isSome ↔
      (s.storageKey display).isSome ∨ ∃ p ∈ executors, p.display = display := by
  induction executors generalizing s with
  | nil => simp
  | cons p executors ih =>
    rw [List.foldl_cons, ih, loadPanel_key, List.exists_mem_cons_iff, or_assoc]

theorem loadPanels_identities {t : Turn} {executors : List Panel} :
    (executors.foldl (fun s p => s.loadPanel fromStr pid seq t p) s).identities =
      s.identities := by
  induction executors generalizing s with
  | nil => rfl
  | cons p executors ih => exact ih.trans loadPanel_identities

theorem Inv.loadPanels (hone : OneOwner fromStr rows cols dir panels) {t : Turn}
    (hgrid : t.cfg.gridRows = rows ∧ t.cfg.gridCols = cols) {executors : List Panel}
    (hall : ∀ p ∈ executors, p ∈ panels) (h : Inv fromStr rows cols dir panels s) :
    Inv fromStr rows cols dir panels
      (executors.foldl (fun s p => s.loadPanel fromStr pid seq t p) s) := by
  induction executors generalizing s with
  | nil => exact h
  | cons p executors ih =>
    exact ih (fun q hq => hall q (List.mem_cons_of_mem _ hq))
      (h.loadPanel hone hgrid (hall p (List.mem_cons_self ..)))

/-- A change of a ledger that touches no wear. -/
inductive Retouched : Option WearLedger → Option WearLedger → Prop
  | absent : Retouched none none
  | present {ledger ledger' : WearLedger} (grid : ledger.SameGrid ledger')
    (wear : ∀ place, wearAt ledger' place = wearAt ledger place) :
      Retouched (some ledger) (some ledger')

theorem Retouched.refl (ledger : Option WearLedger) : Retouched ledger ledger := by
  cases ledger with
  | none => exact .absent
  | some ledger => exact .present (.refl _) fun _ => rfl

theorem Inv.retouch {tracker : TrackerState}
    (hledgers : ∀ display, Retouched (s.tracker display).ledger (tracker display).ledger)
    (h : Inv fromStr rows cols dir panels s) :
    Inv fromStr rows cols dir panels { s with tracker } where
  panel := by
    intro p hp
    refine (h.panel p hp).imp (fun howned => ?_) fun hfresh => ?_
    · obtain ⟨ledger, hledger, hgrid, hwear, hbehind⟩ := howned.held
      have hretouched := hledgers p.display
      rw [hledger] at hretouched
      refine ⟨howned.key, howned.writable, ?_, howned.named, howned.found⟩
      dsimp only
      generalize hnew : (tracker p.display).ledger = new at hretouched
      cases hretouched with
      | present grid wear =>
        rename_i ledger'
        refine ⟨ledger', rfl, grid.hasGrid_iff.mpr hgrid, fun place => ?_, fun file hfile => ?_⟩
        · rw [wear, hwear]
        · exact (hbehind file hfile).trans (wear .total).ge
    · exact ⟨hfresh.key, hfresh.canonical_eq, hfresh.legacy_eq, hfresh.loaded_eq, hfresh.idle⟩
  known := h.known
  absent := by
    intro display hdisplay
    obtain ⟨hledger, hrest⟩ := h.absent display hdisplay
    refine ⟨?_, hrest⟩
    have hretouched := hledgers display
    rw [hledger] at hretouched
    dsimp only
    generalize (tracker display).ledger = new at hretouched
    cases hretouched
    rfl
  ordered := h.ordered

theorem refreshed_retouched (s : Shell) (t : Turn) (display : DisplayId) :
    Retouched (s.tracker display).ledger (s.refreshed t display).ledger := by
  unfold Shell.refreshed
  cases s.storageKey display with
  | none => exact .refl _
  | some key =>
    cases hledger : (s.tracker display).ledger with
    | none =>
      simp only [hledger]
      exact .absent
    | some ledger =>
      simp only [hledger]
      split
      · rw [hledger]
        exact .refl _
      · refine .present ⟨rfl, rfl, rfl⟩ fun place => ?_
        cases place <;> rfl

theorem Inv.identity (h : Inv fromStr rows cols dir panels s) {display : DisplayId}
    {identity : String} (hidentity : s.identities display = some identity) :
    ∃ q ∈ panels, q.display = display ∧ q.identitySource = identity ∧
      Owned fromStr rows cols dir s q := by
  cases hkey : s.storageKey display with
  | none =>
    rw [(h.absent display hkey).2.1] at hidentity
    cases hidentity
  | some key =>
    obtain ⟨q, hq, rfl⟩ := h.known display key hkey
    have howned : Owned fromStr rows cols dir s q := h.owned hq (Option.isSome_of_eq_some hkey)
    exact ⟨q, hq, rfl, (howned.named identity hidentity).symm, howned⟩

/-! ## The identities of a generation -/

/-- A display that is resolved was in a generation. -/
def Noted (s : Shell) : Prop :=
  ∀ display, (s.storageKey display).isSome → (s.identities display).isSome

theorem find?_executor {executors : List Panel} {display : DisplayId}
    (h : executors.find? (·.display = display) = some p) : p ∈ executors ∧ p.display = display := by
  have hdisplay := List.find?_some h
  exact ⟨List.mem_of_find?_eq_some h, of_decide_eq_true hdisplay⟩

theorem Inv.noteIdentities (hone : OneOwner fromStr rows cols dir panels) {t : Turn}
    (hall : ∀ p ∈ t.executors, p ∈ panels)
    (hkeys : ∀ p ∈ t.executors, (s.storageKey p.display).isSome)
    (h : Inv fromStr rows cols dir panels s) :
    Inv fromStr rows cols dir panels (s.noteIdentities t) where
  panel := by
    intro p hp
    refine (h.panel p hp).imp (fun howned => ?_) fun hfresh => ?_
    · refine ⟨howned.key, howned.writable, howned.held, fun identity hidentity => ?_, howned.found⟩
      dsimp only [Shell.noteIdentities] at hidentity
      split at hidentity
      · rename_i q hq
        cases hidentity
        obtain ⟨hmem, hdisplay⟩ := find?_executor hq
        exact (hone.steady q (hall q hmem) p hp).mp hdisplay
      · exact howned.named identity hidentity
    · exact ⟨hfresh.key, hfresh.canonical_eq, hfresh.legacy_eq, hfresh.loaded_eq, hfresh.idle⟩
  known := h.known
  absent := by
    intro display hdisplay
    obtain ⟨hledger, hidentity, hwritable⟩ := h.absent display hdisplay
    refine ⟨hledger, ?_, hwritable⟩
    dsimp only [Shell.noteIdentities]
    split
    · rename_i q hq
      obtain ⟨hmem, rfl⟩ := find?_executor hq
      have hkey : (s.storageKey q.display).isSome := hkeys q hmem
      rw [show s.storageKey q.display = none from hdisplay] at hkey
      cases hkey
    · exact hidentity
  ordered := h.ordered

theorem noted_noteIdentities {t : Turn}
    (h : ∀ display, (s.storageKey display).isSome →
      (s.identities display).isSome ∨ ∃ p ∈ t.executors, p.display = display) :
    Noted (s.noteIdentities t) := by
  intro display hkey
  dsimp only [Shell.noteIdentities]
  split
  · rfl
  · rename_i hnone
    obtain hidentity | ⟨p, hp, hdisplay⟩ := h display hkey
    · exact hidentity
    · exact absurd (decide_eq_true hdisplay) (List.find?_eq_none.mp hnone p hp)

variable (pid seq) in
theorem Inv.generation (hone : OneOwner fromStr rows cols dir panels) {t : Turn}
    (hgrid : t.cfg.gridRows = rows ∧ t.cfg.gridCols = cols)
    (hall : ∀ p ∈ t.executors, p ∈ panels) (hnoted : Noted s)
    (h : Inv fromStr rows cols dir panels s) :
    Inv fromStr rows cols dir panels
        ((s.ensureLedgersLoaded fromStr pid seq t).noteIdentities t) ∧
      Noted ((s.ensureLedgersLoaded fromStr pid seq t).noteIdentities t) := by
  have hloaded : Inv fromStr rows cols dir panels (s.ensureLedgersLoaded fromStr pid seq t) :=
    (h.loadPanels hone hgrid hall).retouch (refreshed_retouched _ t)
  have hkey (display : DisplayId) :
      ((s.ensureLedgersLoaded fromStr pid seq t).storageKey display).isSome ↔
        (s.storageKey display).isSome ∨ ∃ p ∈ t.executors, p.display = display := loadPanels_key
  have hidentities : (s.ensureLedgersLoaded fromStr pid seq t).identities = s.identities :=
    loadPanels_identities
  refine ⟨hloaded.noteIdentities hone hall fun p hp => (hkey p.display).mpr (.inr ⟨p, hp, rfl⟩),
    noted_noteIdentities fun display hdisplay => ?_⟩
  rw [hidentities]
  exact ((hkey display).mp hdisplay).imp_left (hnoted display)

/-! ## Ticks keep it -/

theorem Inv.gridded (h : Inv fromStr rows cols dir panels s) : Gridded rows cols s.tracker := by
  intro display ledger hledger
  cases hkey : s.storageKey display with
  | none =>
    rw [(h.absent display hkey).1] at hledger
    cases hledger
  | some key =>
    obtain ⟨p, hp, rfl⟩ := h.known display key hkey
    obtain ⟨ledger', hledger', hgrid, -⟩ := (h.owned hp (Option.isSome_of_eq_some hkey)).held
    rw [hledger] at hledger'
    cases hledger'
    exact hgrid

theorem Inv.ticked (hone : OneOwner fromStr rows cols dir panels) {t : Turn}
    {tracker : TrackerState} (hnoted : Noted s)
    (hgrows : ∀ display, Grows rows cols (s.tracker display).ledger (tracker display).ledger)
    (hidle : ∀ display, display ∉ t.tick.displays.map Prod.fst →
      tracker display = s.tracker display)
    (h : Inv fromStr rows cols dir panels s) :
    Inv fromStr rows cols dir panels (s.ticked t tracker) where
  panel := by
    intro p hp
    refine (h.panel p hp).imp (fun howned => ?_) fun hfresh => ?_
    · obtain ⟨ledger, hledger, hgrid, hwear, hbehind⟩ := howned.held
      refine ⟨howned.key, howned.writable, ?_, howned.named, howned.found⟩
      have hgrow := hgrows p.display
      rw [hledger] at hgrow
      dsimp only [Shell.ticked]
      generalize hledger' : (tracker p.display).ledger = after at hgrow
      cases hgrow with
      | tracked hgrid' htotal =>
        rename_i ledger'
        have howner (other : DisplayId) :
            s.identities other = some p.identitySource ↔ other = p.display := by
          constructor
          · intro hother
            obtain ⟨q, hq, rfl, hidentity, -⟩ := h.identity hother
            exact (hone.steady q hq p hp).mpr hidentity
          · rintro rfl
            obtain ⟨identity, hidentity⟩ := Option.isSome_iff_exists.mp
              (hnoted p.display (Option.isSome_of_eq_some howned.key))
            rw [hidentity, howned.named identity hidentity]
        refine ⟨ledger', rfl, hgrid', fun place => ?_, fun file hfile =>
          (hbehind file hfile).trans htotal⟩
        rw [attributed_append, attributed_tick t.tick.nodup (fun display place =>
          trackedWear tracker display place - trackedWear s.tracker display place) howner]
        · have hbefore : trackedWear s.tracker p.display place = wearAt ledger place := by
            rw [trackedWear, hledger]
          have hafter : trackedWear tracker p.display place = wearAt ledger' place := by
            rw [trackedWear, hledger']
          rw [hbefore, hafter, hwear]
          ring
        · intro hdisplay place
          rw [trackedWear, trackedWear, hidle p.display hdisplay, sub_self]
    · refine ⟨hfresh.key, hfresh.canonical_eq, hfresh.legacy_eq, hfresh.loaded_eq, fun place => ?_⟩
      dsimp only [Shell.ticked]
      rw [attributed_append, hfresh.idle, attributed_none (fun display place =>
        trackedWear tracker display place - trackedWear s.tracker display place), add_zero]
      intro other hother
      obtain ⟨q, hq, -, hidentity, howned⟩ := h.identity hother
      have hkey := howned.key
      rw [(hone.steady q hq p hp).mpr hidentity, hfresh.key] at hkey
      cases hkey
  known := h.known
  absent := by
    intro display hdisplay
    obtain ⟨hledger, hrest⟩ := h.absent display hdisplay
    refine ⟨?_, hrest⟩
    have hgrow := hgrows display
    rw [hledger] at hgrow
    dsimp only [Shell.ticked]
    generalize (tracker display).ledger = after at hgrow
    cases hgrow
    rfl
  ordered := h.ordered

/-! ## Actions keep it -/

/-- A ledger that is written is read as it was. -/
def RoundTrips (fromStr : String → Option WearLedger) (toStr : WearLedger → Option String) : Prop :=
  ∀ ledger, ∃ text, toStr ledger = some text ∧ fromStr text = some ledger

variable (pid seq) in
theorem persistLedger_reads (hround : RoundTrips fromStr toStr) (d : WearDir) (key : Name)
    (ledger : WearLedger) :
    (persistLedger toStr d key ledger (writeSucceeds pid seq) (ledgerName key)).bind
      (parse fromStr) = some ledger := by
  obtain ⟨text, hto, hfrom⟩ := hround ledger
  obtain ⟨d', hwrite, hbytes⟩ := writeAtomicBytes_succeeds d pid seq key text.toByteArray
  unfold persistLedger
  rw [hto]
  dsimp only
  rw [hwrite]
  dsimp only
  rw [hbytes, Option.bind_some, parse_eq (fromUTF8?_toByteArray text), hfrom]

theorem Owned.persistOne {ledger : WearLedger} (howned : Owned fromStr rows cols dir s p)
    (hledger : (s.tracker p.display).ledger = some ledger) :
    s.persistOne toStr pid seq p.display = { s with
      dir := persistLedger toStr s.dir (ledgerIdentityKey p.identitySource) ledger
        (writeSucceeds pid seq)
      writes := s.writes ++ [⟨s.dir (canonical p), ledger⟩] } := by
  unfold Shell.persistOne
  rw [howned.writable, if_neg Bool.false_ne_true, hledger, howned.key]
  rfl

theorem persistOne_none {display : DisplayId} (hledger : (s.tracker display).ledger = none) :
    s.persistOne toStr pid seq display = s := by
  unfold Shell.persistOne
  rw [hledger]
  split <;> rfl

theorem Inv.persistOne (hone : OneOwner fromStr rows cols dir panels)
    (hround : RoundTrips fromStr toStr) (display : DisplayId)
    (h : Inv fromStr rows cols dir panels s) :
    Inv fromStr rows cols dir panels (s.persistOne toStr pid seq display) := by
  cases hkey : s.storageKey display with
  | none =>
    rw [persistOne_none (h.absent display hkey).1]
    exact h
  | some key =>
    obtain ⟨p, hp, rfl⟩ := h.known display key hkey
    have howned := h.owned hp (Option.isSome_of_eq_some hkey)
    obtain ⟨ledger, hledger, hgrid, hwear, hbehind⟩ := howned.held
    rw [howned.persistOne hledger]
    refine ⟨fun q hq => ?_, h.known, h.absent, fun write hwrite => ?_⟩
    · by_cases hdisplay : q.display = p.display
      · left
        refine Owned.congr hdisplay ((hone.steady q hq p hp).mp hdisplay) ?_
        refine ⟨howned.key, howned.writable, ⟨ledger, hledger, hgrid, hwear, ?_⟩, howned.named,
          howned.found⟩
        intro file hfile
        have hreads := persistLedger_reads pid seq hround s.dir
          (ledgerIdentityKey p.identitySource) ledger
        have hsame : some file = some ledger := hfile.symm.trans hreads
        cases hsame
        exact le_refl _
      · have hne : q.identitySource ≠ p.identitySource :=
          fun heq => hdisplay ((hone.steady q hq p hp).mpr heq)
        refine (fun hapart : Apart s _ q =>
          (h.panel q hq).imp hapart.owned hapart.fresh) ?_
        exact {
          tracker := rfl
          key := rfl
          readonly := rfl
          loaded := rfl
          canonical := persistLedger_other toStr (canonical_ne hne)
            (ledgerName_ne_tmpFilename _ _)
          legacy := .inl (persistLedger_other toStr
            (fun heq => hone.apart q hq p hp (ledgerName_inj heq)) (ledgerName_ne_tmpFilename _ _))
          identities := rfl
          attributions := rfl }
    · intro file hfile
      dsimp only at hwrite
      rw [List.mem_append, List.mem_singleton] at hwrite
      obtain hwrite | rfl := hwrite
      · exact h.ordered write hwrite file hfile
      · exact hbehind file hfile

theorem Inv.seedOne {t : Turn} (display : DisplayId) (h : Inv fromStr rows cols dir panels s) :
    Inv fromStr rows cols dir panels (s.seedOne t display) := by
  unfold Shell.seedOne
  split
  · split
    · rename_i hours ledger hhours hledger
      refine h.retouch fun other => ?_
      by_cases hother : other = display
      · subst hother
        rw [hledger, Function.update_self]
        refine .present ⟨rfl, rfl, rfl⟩ fun place => ?_
        cases place <;> rfl
      · rw [Function.update_of_ne hother]
        exact .refl _
    · exact h
  · exact h

theorem Inv.applyAction (hone : OneOwner fromStr rows cols dir panels)
    (hround : RoundTrips fromStr toStr) {t : Turn} (action : TrackerAction)
    (h : Inv fromStr rows cols dir panels s) :
    Inv fromStr rows cols dir panels (s.applyAction toStr pid seq t action) := by
  cases action with
  | persist display => exact h.persistOne hone hround display
  | seed display => exact h.seedOne display
  | _ => exact h

end

end Dormant.TrackerShell
