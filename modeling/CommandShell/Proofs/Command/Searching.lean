import CommandShell.Proofs.System.Programs
import CommandShell.Proofs.Text.Lines
import Mathlib

/-!
Where a command name leads. A name is looked for at one path a folder, in the order of the search
path, and the first file there that may be run is the answer, however many files stand before it
that may not. Without one it is the first file, and nothing is found where there is no file at
all. A name with a slash is one path by itself. Folders at the end of a search path never
take the answer from those before them.
-/
namespace CommandShell

/-- The path of a name in a folder as a search path spells it. Nothing spells the working
folder. -/
def pathIn (name : Text) (folder : Bytes) : Path :=
  if folder = [] then dot ++ slash :: encode name
  else if Path.endsWithSlash folder then folder ++ encode name
  else folder ++ slash :: encode name

/-- The answer for a name that is looked for at some paths. -/
inductive Searched (tree : FileTree) (cwd : Location) (paths : List Path) : SearchResult → Prop
  | found (before after : List Path) (path : Path) (place : paths = before ++ path :: after)
      (runs : tree.isExecutable cwd path = true)
      (first : ∀ other ∈ before, tree.isExecutable cwd other = false) :
      Searched tree cwd paths (.found path)
  | denied (before after : List Path) (path : Path) (place : paths = before ++ path :: after)
      (file : tree.isFile cwd path = true)
      (first : ∀ other ∈ before, tree.isFile cwd other = false)
      (none : ∀ other ∈ paths, tree.isExecutable cwd other = false) :
      Searched tree cwd paths (.notExecutable path)
  | missing (none : ∀ other ∈ paths, tree.isFile cwd other = false) :
      Searched tree cwd paths .notFound

section

variable {tree : FileTree} {cwd : Location}

theorem firstProgram_searched (paths : List Path) :
    Searched tree cwd paths (firstProgram tree cwd paths) := by
  unfold firstProgram
  split
  · next path found =>
      obtain ⟨runs, before, after, place, first⟩ := List.find?_eq_some_iff_append.mp found
      exact .found before after path place runs (by simpa using first)
  · next path none found =>
      obtain ⟨file, before, after, place, first⟩ := List.find?_eq_some_iff_append.mp found
      exact .denied before after path place file (by simpa using first)
        (by simpa using List.find?_eq_none.mp none)
  · next none => exact .missing (by simpa using List.find?_eq_none.mp none)

theorem Searched.unique {paths : List Path} {result : SearchResult}
    (searched : Searched tree cwd paths result) : result = firstProgram tree cwd paths := by
  unfold firstProgram
  cases searched with
  | found before after path place runs first =>
      have found := List.find?_eq_some_iff_append.mpr
        ⟨runs, before, after, place, by simpa using first⟩
      rw [found]
  | denied before after path place file first none =>
      have found := List.find?_eq_some_iff_append.mpr
        ⟨file, before, after, place, by simpa using first⟩
      rw [found, List.find?_eq_none.mpr (by simpa using none)]
  | missing none =>
      have idle : ∀ path ∈ paths, ¬ tree.isExecutable cwd path = true := by
        intro path inside runs
        cases (none path inside).symm.trans (FileTree.isFile_of_isExecutable runs)
      rw [List.find?_eq_none.mpr idle, List.find?_eq_none.mpr (by simpa using none)]

theorem firstProgram_eq_iff {paths : List Path} {result : SearchResult} :
    firstProgram tree cwd paths = result ↔ Searched tree cwd paths result := by
  constructor
  · rintro rfl
    exact firstProgram_searched paths
  · intro searched
    exact searched.unique.symm

theorem Searched.extend {paths : List Path} {path : Path}
    (searched : Searched tree cwd paths (.found path)) (more : List Path) :
    Searched tree cwd (paths ++ more) (.found path) := by
  cases searched with
  | found before after _ place runs first =>
      exact .found before (after ++ more) path (by rw [place]; simp) runs first

end

theorem join_eq_pathIn {name : Text} (bare : '/' ∉ name) (folder : Bytes) :
    Path.join (if folder.isEmpty then dot else folder) (encode name) = pathIn name folder := by
  have relative : Path.isAbsolute (encode name) = false := by
    apply beq_false_of_ne
    intro first
    exact bare ((mem_encode '/' (by decide) name).mp (List.mem_of_mem_head? first))
  rw [Path.join, relative, if_neg Bool.false_ne_true, Path.push, pathIn]
  cases folder with
  | nil => rfl
  | cons byte rest => simp

/-- The paths at which a name is looked for. -/
def searchPaths (search : Bytes) (name : Text) : List Path :=
  if '/' ∈ name then [encode name] else (fields (· == colon) search).map (pathIn name)

theorem findCommand_eq (tree : FileTree) (cwd : Location) (search : Bytes) {name : Text}
    (named : name ≠ []) :
    findCommand tree cwd search name = firstProgram tree cwd (searchPaths search name) := by
  unfold findCommand searchPaths
  rw [if_neg (by simpa using named)]
  by_cases direct : '/' ∈ name
  · rw [if_pos (by simpa using direct), if_pos direct, firstProgram_cons]
    cases checkProgram tree cwd (encode name) <;> rfl
  · rw [if_neg (by simpa using direct), if_neg direct, searchIn_eq, searchFolders, List.map_map]
    congr 1
    exact List.map_congr_left fun folder _ => join_eq_pathIn direct folder

/-- Of the folders of a search path the first one with a file of that name that may be run has the
answer, else the first one with a file of that name, and nothing is found without one. A name with
a slash is judged at its own path whatever is searched. What is found stays found with
more folders behind. -/
theorem findCommand_searched (tree : FileTree) (cwd : Location) (search : Bytes) {name : Text}
    (named : name ≠ []) :
    ('/' ∉ name → ∀ result, findCommand tree cwd search name = result ↔
      Searched tree cwd ((fields (· == colon) search).map (pathIn name)) result) ∧
    ('/' ∈ name → ∀ result, findCommand tree cwd search name = result ↔
      Searched tree cwd [encode name] result) ∧
    ∀ path more, findCommand tree cwd search name = .found path →
      findCommand tree cwd (search ++ colon :: more) name = .found path := by
  refine ⟨fun bare result => ?_, fun direct result => ?_, fun path more found => ?_⟩
  · rw [findCommand_eq tree cwd search named, searchPaths, if_neg bare, firstProgram_eq_iff]
  · rw [findCommand_eq tree cwd search named, searchPaths, if_pos direct, firstProgram_eq_iff]
  · rw [findCommand_eq tree cwd _ named, firstProgram_eq_iff] at found ⊢
    by_cases direct : '/' ∈ name
    · rw [searchPaths, if_pos direct] at found ⊢
      exact found
    · rw [searchPaths, if_neg direct] at found ⊢
      rw [fields_append_separator rfl, List.map_append]
      exact found.extend _

/-- A tree in which `p` is a folder, a file of its own folder `a` without the right to be run,
and one of `b` with it. -/
def FileTree.manyNamed : FileTree :=
  ⟨[([encode "p".toList], .folder folderMode),
    ([encode "a".toList], .folder folderMode),
    ([encode "a".toList, encode "p".toList], .file [] newFileMode),
    ([encode "b".toList], .folder folderMode),
    ([encode "b".toList, encode "p".toList], .file [] 0o755)]⟩

/-- What can be run is found behind a folder and a file that cannot. -/
theorem later_program_found :
    "p".toList ≠ [] ∧ '/' ∉ "p".toList ∧
      findCommand .manyNamed [] (encode ":a:b".toList) "p".toList =
        .found (encode "b/p".toList) ∧
      findCommand .manyNamed [] (encode ":a:b".toList ++ colon :: encode "a".toList) "p".toList =
        .found (encode "b/p".toList) := by
  have named : "p".toList ≠ [] := by decide
  have bare : '/' ∉ "p".toList := by decide
  obtain ⟨search, -, longer⟩ :=
    findCommand_searched .manyNamed [] (encode ":a:b".toList) named
  have place : (fields (· == colon) (encode ":a:b".toList)).map (pathIn "p".toList) =
      [encode "./p".toList, encode "a/p".toList] ++ encode "b/p".toList :: [] := by decide
  have first : ∀ other ∈ [encode "./p".toList, encode "a/p".toList],
      FileTree.manyNamed.isExecutable [] other = false :=
    List.forall_mem_cons.mpr ⟨by cbv, List.forall_mem_singleton.mpr (by cbv)⟩
  have found := (search bare _).mpr (.found _ _ _ place (by cbv) first)
  exact ⟨named, bare, found, longer _ _ found⟩

end CommandShell
