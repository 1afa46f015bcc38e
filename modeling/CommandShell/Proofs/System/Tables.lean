import CommandShell.Job.Wiring
import Mathlib.Data.List.Perm.Subperm

/-!
Tables of descriptors after opening, duplicating and closing, as look-ups. A number that is
handed out was free before. A stream that is put in the place of another by way of a
number of its own leaves no trace of that number.
-/
namespace CommandShell

namespace Descriptors

theorem exists_free (table : Descriptors) :
    ∃ fd ∈ List.range (table.entries.length + 1), table.get? fd = none := by
  -- There is one number more in the range than there are entries.
  by_contra taken
  have known : List.range (table.entries.length + 1) ⊆ table.entries.map (·.1) := by
    intro fd inside
    have found : table.get? fd ≠ none := fun free => taken ⟨fd, inside, free⟩
    obtain ⟨handle, hit⟩ := Option.ne_none_iff_exists'.mp found
    obtain ⟨entry, here, -⟩ := Option.map_eq_some_iff.mp hit
    have same : entry.1 = fd := by simpa using List.find?_some here
    exact List.mem_map.mpr ⟨entry, List.mem_of_find?_eq_some here, same⟩
  have short := (List.subperm_of_subset List.nodup_range known).length_le
  rw [List.length_range, List.length_map] at short
  exact absurd short (Nat.not_succ_le_self _)

theorem get?_lowestFree (table : Descriptors) : table.get? table.lowestFree = none := by
  obtain ⟨fd, inside, free⟩ := exists_free table
  unfold lowestFree
  cases found : (List.range (table.entries.length + 1)).find? fun fd => (table.get? fd).isNone with
  | none =>
      have used := List.find?_eq_none.mp found fd inside
      simp [free] at used
  | some lowest => simpa using List.find?_some found

theorem lowestFree_ne {table : Descriptors} {fd : Nat} (used : table.get? fd ≠ none) :
    table.lowestFree ≠ fd := by
  rintro rfl
  exact used (get?_lowestFree table)

theorem get?_assign (table : Descriptors) (handle : Handle) (other : Nat) :
    (table.assign handle).2.get? other =
      if other = table.lowestFree then some handle else table.get? other :=
  get?_set table table.lowestFree handle other

theorem get?_assign_assign (table : Descriptors) (first second : Handle) (other : Nat) :
    ((table.assign first).2.assign second).2.get? other =
      if other = table.lowestFree then some first
      else if other = (table.assign first).2.lowestFree then some second
      else table.get? other := by
  have lookFirst := get?_assign table first
  have distinct : (table.assign first).2.lowestFree ≠ table.lowestFree :=
    lowestFree_ne (by rw [lookFirst, if_pos rfl]; simp)
  rw [get?_assign, lookFirst]
  by_cases here : other = table.lowestFree
  · simp [here, distinct.symm]
  · simp [here]

theorem get?_redirect {table : Descriptors} {source target : Nat} {handle : Handle}
    (opened : table.get? source = some handle) (other : Nat) :
    (table.redirect source target).get? other =
      if other = target then some handle else table.get? other := by
  simp only [redirect, opened]
  exact get?_set table target handle other

theorem get?_closeAll (table : Descriptors) (fds : List Nat) (other : Nat) :
    (table.closeAll fds).get? other = if other ∈ fds then none else table.get? other := by
  induction fds generalizing table with
  | nil => rfl
  | cons fd rest ih =>
      have tail := ih (table.close fd)
      rw [get?_close] at tail
      unfold closeAll at tail ⊢
      rw [List.foldl_cons, tail]
      by_cases later : other ∈ rest <;> by_cases first : other = fd <;> simp [later, first]

theorem get?_replace (table : Descriptors) (handle : Handle) (target other : Nat) :
    (table.replace handle target).get? other =
      if other = target then some handle else table.get? other := by
  have fresh := get?_lowestFree table
  have own : (table.assign handle).2.get? table.lowestFree = some handle := by
    rw [get?_assign, if_pos rfl]
  unfold replace
  simp only [show (table.assign handle).1 = table.lowestFree from rfl]
  by_cases meant : table.lowestFree = target
  · rw [if_pos meant, get?_assign, meant]
  · rw [if_neg meant, get?_close, get?_redirect own, get?_assign]
    by_cases here : other = target
    · simp [here, Ne.symm meant]
    · by_cases mine : other = table.lowestFree <;> simp [here, mine, fresh, meant]

/-- Under each number `table` has what `base` has there, or something of `more`. -/
def Adds (base : Descriptors) (more : Handle → Prop) (table : Descriptors) : Prop :=
  ∀ fd handle, table.get? fd = some handle → base.get? fd = some handle ∨ more handle

namespace Adds

variable {base table : Descriptors} {more : Handle → Prop}

theorem closeAll (adds : base.Adds more table) (fds : List Nat) :
    base.Adds more (table.closeAll fds) := by
  intro fd handle found
  rw [get?_closeAll] at found
  split at found
  · cases found
  · exact adds fd handle found

theorem redirect (adds : base.Adds more table) {source : Nat} (free : base.get? source = none)
    (target : Nat) : base.Adds more (table.redirect source target) := by
  intro fd handle found
  cases opened : table.get? source with
  | none =>
      simp only [Descriptors.redirect, opened] at found
      exact adds fd handle found
  | some stream =>
      rw [get?_redirect opened] at found
      split at found
      · rcases adds source stream opened with used | added
        · rw [free] at used
          cases used
        · exact Or.inr (Option.some.inj found ▸ added)
      · exact adds fd handle found

end Adds

end Descriptors

end CommandShell
