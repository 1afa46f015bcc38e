import CommandShell.System.FileTree

/-!
Trees as maps from locations to nodes. Putting a node somewhere changes nothing elsewhere,
a walk ends at a node that stands there, and the file that writing to a path
means is never the root.
-/
namespace CommandShell

namespace FileTree

theorem find?_replaced (entries : List (Location × Node)) (location other : Location)
    (node : Node) :
    (entries.map fun entry => if entry.1 == location then (location, node) else entry).find?
        (fun entry => entry.1 == other) =
      if other = location ∧ (entries.any fun entry => entry.1 == location) = true then
        some (location, node)
      else entries.find? fun entry => entry.1 == other := by
  induction entries with
  | nil => simp
  | cons entry rest ih =>
      rw [List.map_cons, List.find?_cons, List.find?_cons, List.any_cons, ih]
      by_cases here : other = location
      · subst here
        cases first : entry.1 == other with
        | false => simp only [Bool.false_eq_true, if_false, first, Bool.false_or]
        | true => simp
      · cases first : entry.1 == location with
        | false => simp [here]
        | true =>
            have miss : (location == other) = false := beq_false_of_ne (Ne.symm here)
            rw [beq_iff_eq.mp first, miss]
            simp [here, miss]

theorem find?_put (tree : FileTree) (location other : Location) (node : Node) :
    (tree.put location node).entries.find? (fun entry => entry.1 == other) =
      if other = location then some (location, node)
      else tree.entries.find? fun entry => entry.1 == other := by
  unfold put
  by_cases known : (tree.entries.any fun entry => entry.1 == location) = true
  · simp only [known, if_true, find?_replaced, and_true]
  · have unknown : tree.entries.find? (fun entry => entry.1 == location) = none :=
      List.find?_eq_none.mpr fun entry inside hit => known (List.any_eq_true.mpr ⟨entry, inside, hit⟩)
    simp only [known, Bool.false_eq_true, if_false, List.find?_append]
    by_cases here : other = location
    · subst here
      simp [unknown]
    · simp [here, Ne.symm here]

theorem node?_put_ne (tree : FileTree) {location other : Location} (node : Node)
    (apart : other ≠ location) : (tree.put location node).node? other = tree.node? other := by
  unfold node?
  rw [find?_put, if_neg apart]

theorem node?_put_self (tree : FileTree) {location : Location} (node : Node)
    (below : location ≠ []) : (tree.put location node).node? location = some node := by
  unfold node?
  rw [find?_put, if_pos rfl, if_neg (by simpa using below)]
  rfl

/-- A walk ends at the node of its location. Only a folder need not be written down. -/
theorem walk_present {tree : FileTree} {errand : Errand} {links : Nat} {here location : Location}
    {steps : List Name} {node : Node}
    (arrived : tree.walk errand links here steps = .ok (.present location node)) :
    tree.node? location = some node ∨ ∃ mode, node = .folder mode := by
  fun_induction walk tree errand links here steps with
  | case1 =>
      -- No steps are left. A working folder need not have been written down.
      cases arrived
      cases known : tree.node? location with
      | none => exact Or.inr ⟨folderMode, rfl⟩
      | some node => exact Or.inl rfl
  | case2 _ _ _ _ _ ih => exact ih arrived
  | case3 _ _ _ _ _ _ ih => exact ih arrived
  | case4 => cases arrived
  | case5 => cases arrived
  | case6 => cases arrived
  | case7 => cases arrived
  | case8 _ _ _ _ _ _ _ _ _ _ ih => exact ih arrived
  | case9 _ _ _ _ _ _ _ _ _ known =>
      cases arrived
      exact Or.inl known
  | case10 => cases arrived
  | case11 => cases arrived
  | case12 _ _ _ _ _ _ _ _ _ _ _ _ ih => exact ih (by simpa using arrived)
  | case13 _ _ _ _ _ _ _ _ _ _ _ known =>
      cases arrived
      exact Or.inl known
  | case14 => cases arrived

theorem walk_absent {tree : FileTree} {errand : Errand} {links : Nat} {here folder : Location}
    {steps : List Name} {name : Name}
    (arrived : tree.walk errand links here steps = .ok (.absent folder name)) :
    tree.node? (folder ++ [name]) = none := by
  fun_induction walk tree errand links here steps with
  | case1 => cases arrived
  | case2 _ _ _ _ _ ih => exact ih arrived
  | case3 _ _ _ _ _ _ ih => exact ih arrived
  | case4 => cases arrived
  | case5 => cases arrived
  | case6 _ _ _ _ _ _ _ _ free =>
      cases arrived
      exact free
  | case7 => cases arrived
  | case8 _ _ _ _ _ _ _ _ _ _ ih => exact ih arrived
  | case9 => cases arrived
  | case10 => cases arrived
  | case11 => cases arrived
  | case12 _ _ _ _ _ _ _ _ _ _ _ _ ih => exact ih (by simpa using arrived)
  | case13 => cases arrived
  | case14 => cases arrived

theorem arrive_eq_ok {tree : FileTree} {cwd : Location} {errand : Errand} {path : Path}
    {arrival : Arrival} :
    tree.arrive cwd errand path = .ok arrival ↔
      (0 ∉ path ∧ path ≠ [] ∧ path.length ≤ longestPath) ∧
        tree.walk errand mostLinks (if path.isAbsolute then [] else cwd) path.steps =
          .ok arrival := by
  unfold arrive
  by_cases nul : 0 ∈ path
  · simp [nul]
  by_cases empty : path = []
  · simp [empty]
  by_cases long : longestPath < path.length
  · simp [nul, empty, long, Nat.not_le_of_lt long]
  · simp [nul, empty, long, Nat.le_of_not_lt long]

theorem arrive_present {tree : FileTree} {cwd location : Location} {errand : Errand} {path : Path}
    {node : Node} (arrived : tree.arrive cwd errand path = .ok (.present location node)) :
    tree.node? location = some node ∨ ∃ mode, node = .folder mode :=
  walk_present (arrive_eq_ok.mp arrived).2

/-- The file that writing to a path changes or makes. A device has none. -/
def writesAt? (tree : FileTree) (cwd : Location) (path : Path) : Option Location :=
  match tree.writeTarget cwd path with
  | .ok (.absent folder name) => some (folder ++ [name])
  | .ok (.present location (.file _ _)) => some location
  | _ => none

theorem writeTarget_eq_present {tree : FileTree} {cwd location : Location} {path : Path}
    {node : Node} (found : tree.writeTarget cwd path = .ok (.present location node)) :
    tree.arrive cwd .write path = .ok (.present location node) := by
  unfold writeTarget at found
  split at found
  · cases found
  · exact found

theorem writesAt?_ne_root {tree : FileTree} {cwd location : Location} {path : Path}
    (written : tree.writesAt? cwd path = some location) : location ≠ [] := by
  unfold writesAt? at written
  split at written
  · cases written
    simp
  · next other data mode found =>
      cases written
      rintro rfl
      rcases arrive_present (writeTarget_eq_present found) with known | ⟨mode, isFolder⟩
      · cases known
      · cases isFolder
  · cases written

end FileTree

end CommandShell
