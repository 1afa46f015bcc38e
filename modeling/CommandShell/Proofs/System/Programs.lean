import CommandShell.Command.Search
import CommandShell.Proofs.System.Files

/-!
Which files may be run, in trees that differ by what is written into a file or by a file that
is made. Neither gives a file the right to be run, or takes it away, so a search finds
the same programs in both.
-/
namespace CommandShell

/-- A node that cannot be run and that no walk goes through: none, or a file without
execute bits. -/
inductive NoProgram : Option Node → Prop
  | none : NoProgram none
  | file (data : Bytes) {mode : Nat} (barred : (mode &&& 0o111 != 0) = false) :
      NoProgram (some (.file data mode))

/-- Two nodes that are the same to somebody who looks for programs. -/
inductive Alike : Option Node → Option Node → Prop
  | same (node : Option Node) : Alike node node
  | file (old new : Bytes) (mode : Nat) : Alike (some (.file old mode)) (some (.file new mode))
  | neither {old new : Option Node} (before : NoProgram old) (after : NoProgram new) : Alike old new

theorem Alike.symm {old new : Option Node} (alike : Alike old new) : Alike new old := by
  cases alike with
  | same => exact .same _
  | file old new mode => exact .file new old mode
  | neither before after => exact .neither after before

theorem Alike.eq_some {node : Node} {new : Option Node} (alike : Alike (some node) new)
    (way : ∀ data mode, node ≠ .file data mode) : new = some node := by
  cases alike with
  | same => rfl
  | file old new mode => exact absurd rfl (way old mode)
  | neither before after =>
      cases before with
      | file data barred => exact absurd rfl (way data _)

theorem Alike.runs {data : Bytes} {mode : Nat} {new : Option Node}
    (alike : Alike (some (.file data mode)) new) (runs : (mode &&& 0o111 != 0) = true) :
    ∃ other, new = some (.file other mode) := by
  cases alike with
  | same => exact ⟨data, rfl⟩
  | file old new mode => exact ⟨new, rfl⟩
  | neither before after =>
      cases before with
      | file data barred =>
          rw [runs] at barred
          cases barred

namespace FileTree

/-- Two trees that are the same to somebody who looks for programs. -/
def SamePrograms (before after : FileTree) : Prop :=
  ∀ location, Alike (before.node? location) (after.node? location)

theorem samePrograms_put_file {tree : FileTree} {location : Location} {old : Bytes} {mode : Nat}
    (below : location ≠ []) (known : tree.node? location = some (.file old mode)) (new : Bytes) :
    tree.SamePrograms (tree.put location (.file new mode)) := by
  intro other
  by_cases here : other = location
  · subst here
    rw [node?_put_self tree _ below, known]
    exact .file old new mode
  · rw [node?_put_ne tree _ here]
    exact .same _

theorem samePrograms_put_new {tree : FileTree} {location : Location} (below : location ≠ [])
    (free : tree.node? location = none) (data : Bytes) :
    tree.SamePrograms (tree.put location (.file data newFileMode)) := by
  intro other
  by_cases here : other = location
  · subst here
    rw [node?_put_self tree _ below, free]
    exact .neither .none (.file data rfl)
  · rw [node?_put_ne tree _ here]
    exact .same _

/-- A walk that ends at a file that may be run ends there in a tree with the same programs
too. Everything on the way is a folder or a link, and those are the same. -/
theorem walk_samePrograms {before after : FileTree} (alike : before.SamePrograms after)
    {errand : Errand} {links : Nat} {here location : Location} {steps : List Name}
    {data : Bytes} {mode : Nat} (runs : (mode &&& 0o111 != 0) = true)
    (arrived : before.walk errand links here steps = .ok (.present location (.file data mode))) :
    ∃ other, after.walk errand links here steps = .ok (.present location (.file other mode)) := by
  -- Along the walk: only its end looks at a file, all other steps go through folders and links.
  fun_induction walk before errand links here steps with
  | case1 links place =>
      obtain ⟨rfl, node⟩ := Arrival.present.inj (Except.ok.inj arrived)
      have reached := alike place
      cases known : before.node? place with
      | none =>
          rw [known] at node
          cases node
      | some found =>
          rw [known] at node reached
          cases node
          obtain ⟨other, there⟩ := reached.runs runs
          refine ⟨other, ?_⟩
          rw [walk, there]
          rfl
  | case2 _ _ _ _ idle ih =>
      rw [walk, if_pos idle]
      exact ih arrived
  | case3 _ _ _ _ busy up ih =>
      rw [walk, if_neg busy, if_pos up]
      exact ih arrived
  | case4 => cases arrived
  | case5 => cases arrived
  | case6 => cases arrived
  | case7 => cases arrived
  | case8 _ here part _ busy down kept short mode folder ih =>
      have there := alike (here ++ [part])
      rw [folder] at there
      rw [walk, if_neg busy, if_neg down, if_neg kept, if_neg short,
        there.eq_some (by simp)]
      exact ih arrived
  | case9 => cases arrived
  | case10 => cases arrived
  | case11 => cases arrived
  | case12 here part rest busy down kept short target link follow left goes ih =>
      have there := alike (here ++ [part])
      rw [link] at there
      rw [walk, if_neg busy, if_neg down, if_neg kept, if_neg short,
        there.eq_some (by simp)]
      simp only [follow, goes, if_false]
      exact ih arrived
  | case13 _ here part rest busy down kept short node _ _ known ends =>
      cases arrived
      have there := alike (here ++ [part])
      rw [known] at there
      obtain ⟨other, found⟩ := there.runs runs
      refine ⟨other, ?_⟩
      rw [walk, if_neg busy, if_neg down, if_neg kept, if_neg short, found]
      simp only [ends, if_true]
  | case14 => cases arrived

theorem isExecutable_iff {tree : FileTree} {cwd : Location} {path : Path} :
    tree.isExecutable cwd path = true ↔ ∃ location data mode,
      tree.arrive cwd .use path = .ok (.present location (.file data mode)) ∧
        (mode &&& 0o111 != 0) = true := by
  unfold isExecutable open?
  constructor
  · intro runs
    split at runs
    · next location data mode found =>
        split at found
        · cases found
        · next arrived =>
            cases found
            exact ⟨location, data, mode, arrived, runs⟩
        · cases found
    · cases runs
  · rintro ⟨location, data, mode, arrived, runs⟩
    rw [arrived]
    exact runs

theorem SamePrograms.symm {before after : FileTree} (alike : before.SamePrograms after) :
    after.SamePrograms before :=
  fun location => (alike location).symm

theorem isExecutable_samePrograms {before after : FileTree} (alike : before.SamePrograms after)
    (cwd : Location) (path : Path) :
    before.isExecutable cwd path = after.isExecutable cwd path := by
  have onward : ∀ {first second : FileTree}, first.SamePrograms second →
      first.isExecutable cwd path = true → second.isExecutable cwd path = true := by
    intro first second alike runs
    obtain ⟨location, data, mode, arrived, bits⟩ := isExecutable_iff.mp runs
    obtain ⟨sound, walked⟩ := arrive_eq_ok.mp arrived
    obtain ⟨other, there⟩ := walk_samePrograms alike bits walked
    exact isExecutable_iff.mpr ⟨location, other, mode, arrive_eq_ok.mpr ⟨sound, there⟩, bits⟩
  exact Bool.eq_iff_iff.mpr ⟨onward alike, onward alike.symm⟩

theorem editFile_samePrograms {tree after : FileTree} {cwd : Location} {path : Path}
    {edit : Bytes → Bytes} (written : tree.editFile cwd path edit = .ok after) :
    tree.SamePrograms after := by
  unfold editFile at written
  split at written
  · cases written
  · next folder name target =>
      cases written
      unfold writeTarget at target
      split at target
      · cases target
      · exact samePrograms_put_new (by simp) (walk_absent (arrive_eq_ok.mp target).2) _
  · next location data mode target =>
      -- The root is a folder, so a file that is written to has a name.
      cases written
      have place : tree.writesAt? cwd path = some location := by simp [writesAt?, target]
      rcases arrive_present (writeTarget_eq_present target) with known | ⟨mode, isFolder⟩
      · exact samePrograms_put_file (writesAt?_ne_root place) known _
      · cases isFolder
  · cases written
    exact fun location => .same _

end FileTree

theorem FileTree.isFile_of_isExecutable {tree : FileTree} {cwd : Location} {path : Path}
    (runs : tree.isExecutable cwd path = true) : tree.isFile cwd path = true := by
  unfold isExecutable at runs
  unfold isFile
  split at runs
  · rfl
  · cases runs

theorem checkProgram_eq (tree : FileTree) (cwd : Location) (path : Path) :
    checkProgram tree cwd path =
      if tree.isExecutable cwd path then .found path
      else if tree.isFile cwd path then .notExecutable path
      else .notFound := by
  unfold checkProgram
  cases runs : tree.isExecutable cwd path with
  | true => simp [FileTree.isFile_of_isExecutable runs]
  | false => cases tree.isFile cwd path <;> rfl

theorem checkProgram_eq_found {tree : FileTree} {cwd : Location} {path other : Path} :
    checkProgram tree cwd path = .found other ↔ tree.isExecutable cwd path = true ∧ path = other := by
  rw [checkProgram_eq]
  cases tree.isExecutable cwd path with
  | true => simp
  | false => cases tree.isFile cwd path <;> simp

/-- The first program at some paths, else the first file. -/
def firstProgram (tree : FileTree) (cwd : Location) (paths : List Path) : SearchResult :=
  match paths.find? (tree.isExecutable cwd), paths.find? (tree.isFile cwd) with
  | some path, _ => .found path
  | none, some path => .notExecutable path
  | none, none => .notFound

theorem firstProgram_cons (tree : FileTree) (cwd : Location) (path : Path) (paths : List Path) :
    firstProgram tree cwd (path :: paths) =
      match checkProgram tree cwd path, firstProgram tree cwd paths with
      | .found here, _ => .found here
      | .notFound, later => later
      | .notExecutable _, .found later => .found later
      | .notExecutable here, _ => .notExecutable here := by
  unfold firstProgram
  rw [checkProgram_eq, List.find?_cons, List.find?_cons]
  cases tree.isExecutable cwd path with
  | true => rfl
  | false =>
      -- Whether there is a file here matters if none of the later ones can be run.
      cases tree.isFile cwd path with
      | true =>
          cases paths.find? (tree.isExecutable cwd) with
          | none => cases paths.find? (tree.isFile cwd) <;> rfl
          | some other => rfl
      | false =>
          cases paths.find? (tree.isExecutable cwd) with
          | none => cases paths.find? (tree.isFile cwd) <;> rfl
          | some other => rfl

theorem searchIn_eq (tree : FileTree) (cwd : Location) (name : Name) (folders : List Path) :
    searchIn tree cwd name folders = firstProgram tree cwd (folders.map (·.join name)) := by
  induction folders with
  | nil => rfl
  | cons folder rest ih =>
      rw [List.map_cons, firstProgram_cons, ← ih, searchIn]
      cases checkProgram tree cwd (folder.join name) with
      | found path => rfl
      | notFound => rfl
      | notExecutable path => cases searchIn tree cwd name rest <;> rfl

theorem searchIn_eq_found {tree : FileTree} {cwd : Location} {name : Name} {folders : List Path}
    {path : Path} :
    searchIn tree cwd name folders = .found path ↔
      (folders.map (·.join name)).find? (tree.isExecutable cwd) = some path := by
  rw [searchIn_eq, firstProgram]
  cases (folders.map (·.join name)).find? (tree.isExecutable cwd) with
  | some other => simp
  | none => cases (folders.map (·.join name)).find? (tree.isFile cwd) <;> simp

/-- A word is found as itself when it has a slash, else in the first folder that has a
program of that name. -/
theorem findCommand_eq_found {tree : FileTree} {cwd : Location} {search : Bytes} {name : Text}
    {path : Path} :
    findCommand tree cwd search name = .found path ↔
      name ≠ [] ∧ ((if name.contains '/' then [encode name]
        else (searchFolders search).map (·.join (encode name))).find?
          (tree.isExecutable cwd)) = some path := by
  unfold findCommand
  by_cases empty : name = []
  · simp [empty]
  · rw [if_neg (by simpa using empty)]
    by_cases direct : name.contains '/' = true
    · rw [if_pos direct, if_pos direct, checkProgram_eq_found]
      cases runs : tree.isExecutable cwd (encode name) <;> simp [empty, runs]
    · rw [if_neg direct, if_neg direct, searchIn_eq_found]
      simp only [empty, ne_eq, not_false_eq_true, true_and]

theorem findCommand_samePrograms {before after : FileTree} (alike : before.SamePrograms after)
    (cwd : Location) (search : Bytes) (name : Text) (path : Path) :
    findCommand before cwd search name = .found path ↔
      findCommand after cwd search name = .found path := by
  have runs : before.isExecutable cwd = after.isExecutable cwd :=
    funext (FileTree.isExecutable_samePrograms alike cwd)
  rw [findCommand_eq_found, findCommand_eq_found, runs]

theorem Path.mem_join {byte : UInt8} (folder : Path) {part : Path} (inside : byte ∈ part) :
    byte ∈ folder.join part := by
  unfold Path.join Path.push
  split
  · exact inside
  · split
    · exact List.mem_append_right _ inside
    · exact List.mem_append_right _ (List.mem_cons_of_mem _ inside)

theorem findCommand_clean {tree : FileTree} {cwd : Location} {search : Bytes} {name : Text}
    {path : Path} (found : findCommand tree cwd search name = .found path) :
    0 ∉ encode name := by
  intro nul
  obtain ⟨-, hit⟩ := findCommand_eq_found.mp found
  obtain ⟨location, data, mode, arrived, -⟩ := FileTree.isExecutable_iff.mp (List.find?_some hit)
  have sound := (FileTree.arrive_eq_ok.mp arrived).1.1
  have candidate := List.mem_of_find?_eq_some hit
  split at candidate
  · exact sound (List.mem_singleton.mp candidate ▸ nul)
  · obtain ⟨folder, -, rfl⟩ := List.mem_map.mp candidate
    exact sound (Path.mem_join folder nul)

end CommandShell
