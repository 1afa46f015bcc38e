/-!
Descriptor tables of processes. A descriptor is a small number that stands for an
open stream of the machine; several may stand for one stream. Opening and
duplicating always take the lowest number that is free.
-/
namespace CommandShell

abbrev Handle := Nat

structure Descriptors where
  entries : List (Nat × Handle)
  deriving Repr, DecidableEq

namespace Descriptors

def empty : Descriptors := ⟨[]⟩

def get? (table : Descriptors) (fd : Nat) : Option Handle :=
  (table.entries.find? fun entry => entry.1 == fd).map (·.2)

def close (table : Descriptors) (fd : Nat) : Descriptors :=
  ⟨table.entries.filter fun entry => entry.1 != fd⟩

def set (table : Descriptors) (fd : Nat) (handle : Handle) : Descriptors :=
  ⟨(fd, handle) :: (table.close fd).entries⟩

def lowestFree (table : Descriptors) : Nat :=
  ((List.range (table.entries.length + 1)).find? fun fd => (table.get? fd).isNone).getD
    table.entries.length

def assign (table : Descriptors) (handle : Handle) : Nat × Descriptors :=
  (table.lowestFree, table.set table.lowestFree handle)

def duplicate (table : Descriptors) (fd : Nat) : Nat × Descriptors :=
  match table.get? fd with
  | some handle => table.assign handle
  | none => (fd, table)

def redirect (table : Descriptors) (source target : Nat) : Descriptors :=
  match table.get? source with
  | some handle => table.set target handle
  | none => table

def closeAll (table : Descriptors) (fds : List Nat) : Descriptors :=
  fds.foldl close table

theorem get?_close (table : Descriptors) (fd other : Nat) :
    (table.close fd).get? other = if other = fd then none else table.get? other := by
  obtain ⟨entries⟩ := table
  simp only [close, get?]
  induction entries with
  | nil => simp
  | cons entry rest ih =>
      by_cases hit : entry.1 = fd <;> by_cases same : entry.1 = other <;> grind

theorem get?_set (table : Descriptors) (fd : Nat) (handle : Handle) (other : Nat) :
    (table.set fd handle).get? other = if other = fd then some handle else table.get? other := by
  have rest := get?_close table fd other
  simp only [get?, set] at rest ⊢
  by_cases same : other = fd
  · subst same
    simp
  · simp only [same, if_false] at rest ⊢
    rw [List.find?_cons_of_neg (by simpa using Ne.symm same)]
    exact rest

end Descriptors

end CommandShell
