import CommandShell.Proofs.System.Contents

/-!
What a path means from different folders. An absolute path means the same from everywhere. A
relative path that never goes up, in a tree without links, is the way that is written down, from
the folder where it begins: from each folder it means another file.
-/
namespace CommandShell

/-- From both folders the path leads to the same, whatever the tree and the errand. -/
def Path.SameFrom (path : Path) (first second : Location) : Prop :=
  ∀ (tree : FileTree) (errand : Errand),
    tree.arrive first errand path = tree.arrive second errand path

/-- Names that lead down and nowhere else. -/
def Path.Straight (path : Path) : Prop :=
  dotDot ∉ path.steps

instance (path : Path) : Decidable path.Straight :=
  inferInstanceAs (Decidable (dotDot ∉ path.steps))

def Path.IsName (path : Path) : Prop :=
  path.steps = [path] ∧ path.isAbsolute = false ∧ Path.isIdle path = false ∧ path ≠ dotDot ∧
    path.length ≤ longestName ∧ 0 ∉ path

instance (path : Path) : Decidable path.IsName :=
  inferInstanceAs (Decidable (_ ∧ _))

namespace Path.SameFrom

variable {path : Path} {first second : Location}

theorem of_anchored (anchored : path.isAbsolute = true ∨ first = second) :
    path.SameFrom first second := by
  intro tree errand
  rcases anchored with absolute | rfl
  · simp only [FileTree.arrive, absolute, if_true]
  · rfl

theorem writesAt? (same : path.SameFrom first second) (tree : FileTree) :
    tree.writesAt? first path = tree.writesAt? second path := by
  rw [FileTree.writesAt?, FileTree.writesAt?, FileTree.writeTarget, FileTree.writeTarget,
    same tree .write]

theorem readContent (same : path.SameFrom first second) (tree : FileTree) :
    tree.readContent first path = tree.readContent second path := by
  rw [FileTree.readContent, FileTree.readContent, FileTree.open?, FileTree.open?, same tree .use]

end Path.SameFrom

def Arrival.place : Arrival → Location
  | .present location _ => location
  | .absent folder name => folder ++ [name]

theorem Arrival.place_of_file {arrival : Arrival} {location : Location}
    (file : arrival.file? = some location) : arrival.place = location := by
  rcases arrival with ⟨there, node⟩ | ⟨folder, name⟩
  · cases node with
    | file data mode => exact Option.some.inj file
    | folder | link | void => cases file
  · exact Option.some.inj file

namespace FileTree

def Linkless (tree : FileTree) : Prop :=
  ∀ location target, tree.node? location ≠ some (.link target)

variable {tree : FileTree}

theorem Linkless.grown (linkless : tree.Linkless) {after : FileTree} (grown : tree.Grown after) :
    after.Linkless := by
  intro location target link
  have there := grown location
  rw [link] at there
  generalize known : tree.node? location = old at there
  cases there with
  | same => exact linkless location target known

theorem walk_straight (linkless : tree.Linkless) {errand : Errand} {links : Nat} {here : Location}
    {steps : List Name} {arrival : Arrival} (straight : dotDot ∉ steps)
    (arrived : tree.walk errand links here steps = .ok arrival) :
    arrival.place = here ++ steps.filter fun part => !Path.isIdle part := by
  fun_induction walk tree errand links here steps with
  | case1 =>
      cases arrived
      simp [Arrival.place]
  | case2 _ _ _ _ idle ih =>
      rw [ih (fun up => straight (List.mem_cons_of_mem _ up)) arrived]
      simp [idle]
  | case3 _ _ _ _ _ up =>
      exact absurd (List.mem_cons.mpr (.inl (beq_iff_eq.mp up).symm)) straight
  | case4 => cases arrived
  | case5 => cases arrived
  | case6 _ _ _ _ busy _ _ _ _ ends =>
      cases arrived
      simp [Arrival.place, busy, List.isEmpty_iff.mp ends]
  | case7 => cases arrived
  | case8 _ _ _ _ busy _ _ _ _ _ ih =>
      rw [ih (fun up => straight (List.mem_cons_of_mem _ up)) arrived]
      simp [busy]
  | case9 _ _ _ _ _ _ _ _ target link => exact absurd link (linkless _ target)
  | case10 => cases arrived
  | case11 => cases arrived
  | case12 _ _ _ _ _ _ _ target link => exact absurd link (linkless _ target)
  | case13 _ _ _ _ busy _ _ _ _ _ _ _ ends =>
      cases arrived
      simp [Arrival.place, busy, List.isEmpty_iff.mp ends]
  | case14 => cases arrived

theorem writesAt?_straight (linkless : tree.Linkless) {cwd location : Location} {path : Path}
    (straight : path.Straight) (leads : tree.writesAt? cwd path = some location) :
    location = (if path.isAbsolute then [] else cwd) ++
      path.steps.filter fun part => !Path.isIdle part := by
  cases target : tree.writeTarget cwd path with
  | error failure =>
      rw [writesAt?, target] at leads
      cases leads
  | ok arrival =>
      rw [writesAt?_eq target] at leads
      rw [← Arrival.place_of_file leads]
      exact walk_straight linkless straight (arrive_eq_ok.mp (writeTarget_eq_ok.mp target).1).2

theorem writesAt?_same_iff (linkless : tree.Linkless) {first cwd : Location} {path : Path}
    (straight : path.Straight) (leads : tree.writesAt? first path ≠ none) :
    tree.writesAt? cwd path = tree.writesAt? first path ↔
      path.isAbsolute = true ∨ cwd = first := by
  constructor
  · intro same
    obtain ⟨location, known⟩ := Option.ne_none_iff_exists'.mp leads
    have there := writesAt?_straight linkless straight known
    have here := writesAt?_straight linkless straight (same.trans known)
    -- Both locations end in the names of the path, so the folders in front are the same.
    by_cases absolute : path.isAbsolute = true
    · exact .inl absolute
    · rw [if_neg absolute] at there here
      exact .inr (List.append_cancel_right (here.symm.trans there))
  · exact fun anchored => (Path.SameFrom.of_anchored anchored).writesAt? tree

theorem writeTarget_free {cwd : Location} {path : Path} (name : path.IsName)
    (free : tree.node? (cwd ++ [path]) = none) :
    tree.writeTarget cwd path = .ok (.absent cwd path) := by
  obtain ⟨single, relative, busy, down, short, clean⟩ := name
  have walked : tree.walk .write mostLinks cwd [path] = .ok (.absent cwd path) := by
    rw [walk, if_neg (by simp [busy]), if_neg (by simpa using down), if_neg, if_neg (by omega),
      free]
    · rfl
    · rintro ⟨-, rest⟩
      cases rest
  have filled : path ≠ [] := by
    rintro rfl
    cases busy
  have whole : path.length ≤ longestPath := Nat.le_trans short (by decide)
  refine writeTarget_eq_ok.mpr ⟨arrive_eq_ok.mpr ⟨⟨clean, filled, whole⟩, ?_⟩, by simp⟩
  rw [relative, single]
  exact walked

end FileTree

end CommandShell
