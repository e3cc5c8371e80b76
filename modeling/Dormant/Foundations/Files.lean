import Mathlib.Logic.Function.Basic

/-!
# Files in a directory

A directory maps names to bytes. A rename moves the bytes of one name to another in one step and
replaces what was there; it fails where there is nothing to move.
-/

namespace Files
set_option autoImplicit false

universe u v

abbrev Dir (Name : Type u) (Bytes : Type v) := Name → Option Bytes

variable {Name : Type u} {Bytes : Type v} [DecidableEq Name]

namespace Dir
variable (d : Dir Name Bytes)

def write (name : Name) (bytes : Bytes) : Dir Name Bytes := Function.update d name (some bytes)

def remove (name : Name) : Dir Name Bytes := Function.update d name none

def rename (source target : Name) : Option (Dir Name Bytes) :=
  (d source).map fun bytes => (d.remove source).write target bytes

variable {d} {name source target : Name} {bytes : Bytes}

@[simp] theorem write_self : d.write name bytes name = some bytes := Function.update_self ..

theorem write_other (h : target ≠ name) : d.write name bytes target = d target :=
  Function.update_of_ne h ..

@[simp] theorem remove_self : d.remove name name = none := Function.update_self ..

theorem remove_other (h : target ≠ name) : d.remove name target = d target :=
  Function.update_of_ne h ..

theorem rename_of_some (h : d source = some bytes) (target : Name) :
    d.rename source target = some ((d.remove source).write target bytes) := by
  rw [rename, h, Option.map_some]

theorem rename_eq_some {d' : Dir Name Bytes} : d.rename source target = some d' ↔
    ∃ bytes, d source = some bytes ∧ d' = (d.remove source).write target bytes := by
  rw [rename, Option.map_eq_some_iff]
  constructor
  · rintro ⟨bytes, h, rfl⟩
    exact ⟨bytes, h, rfl⟩
  · rintro ⟨bytes, h, rfl⟩
    exact ⟨bytes, h, rfl⟩

theorem rename_target {d' : Dir Name Bytes} (h : d.rename source target = some d') :
    d' target = d source := by
  obtain ⟨bytes, hbytes, rfl⟩ := rename_eq_some.mp h
  rw [write_self, hbytes]

theorem rename_source {d' : Dir Name Bytes} (h : d.rename source target = some d')
    (hne : source ≠ target) : d' source = none := by
  obtain ⟨bytes, -, rfl⟩ := rename_eq_some.mp h
  rw [write_other hne, remove_self]

theorem rename_other {d' : Dir Name Bytes} (h : d.rename source target = some d')
    (hsource : name ≠ source) (htarget : name ≠ target) : d' name = d name := by
  obtain ⟨bytes, -, rfl⟩ := rename_eq_some.mp h
  rw [write_other htarget, remove_other hsource]

/-- Some file has the bytes. -/
def Holds (d : Dir Name Bytes) (bytes : Bytes) : Prop := ∃ name, d name = some bytes

end Dir

end Files
