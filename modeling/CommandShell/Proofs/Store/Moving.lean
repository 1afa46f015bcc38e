import CommandShell.Proofs.Alias.Persistence
import CommandShell.Proofs.History.Backing
import CommandShell.Proofs.Session.Visits
import CommandShell.Proofs.System.Places

/-!
Stores of a shell that changes its folder. A store keeps the path that it was loaded from as it is
written down, and looks it up again at each write, from the folder of that moment. A write goes
to the file of the start if the path is absolute, or if the shell is in its first folder
again. From elsewhere a relative path is no path to that file: the store goes on in
another file, or in none.
-/
namespace CommandShell

variable {σ : Type}

/-! Only a change of the folder changes the folder. -/

/-- What was read is a command to change the folder, alone in its pipeline. -/
def Shell.Moves (shell : Shell) (line : Text) (machine : Machine) : Prop :=
  ∃ stage background, shell.reading line machine = .ok ⟨[stage], background⟩ ∧
    Builtin.ofName? stage.name = some .changeFolder

theorem Builtin.folderAfter_other {command : Builtin} (other : command ≠ .changeFolder)
    (shell : Shell) (arguments : List Text) (machine : Machine) :
    command.folderAfter shell arguments machine = shell.cwd := by
  cases command with
  | changeFolder => exact absurd rfl other
  | _ => rfl

theorem Shell.Carried.cwd {shell : Shell} {line : Text} {machine : Machine}
    {left : Shell × Machine} (carried : shell.Carried line machine left)
    (still : ¬ shell.Moves line machine) : left.1.cwd = shell.cwd := by
  cases carried with
  | unread cause refused => rfl
  | apart pipeline table left read foreign => rfl
  | own stage background command done read named mutates runs =>
      have other : command ≠ .changeFolder := by
        rintro rfl
        exact still ⟨stage, background, read, named⟩
      cases runs with
      | refused trouble table left denied opened => rfl
      | ran table back left done granted opened runs =>
          have leaves := Builtin.run_leaves (shell.withDescriptors table) (stage.argv.drop 1) line
            left command
          rw [runs] at leaves
          have folder : done.shell.cwd = command.folderAfter (shell.withDescriptors table)
              (stage.argv.drop 1) left := congrArg Process.cwd leaves.process
          exact folder.trans (Builtin.folderAfter_other other _ _ _)

/-- The line of the turn is such a command. -/
def Moment.Moves (source : LineSource σ) (moment : Moment σ) : Prop :=
  ∃ line, (moment.read source).command = .ok (some line) ∧
    let after := (moment.reader source).remembering line (moment.read source).machine
    after.1.Moves line after.2

theorem Moment.next_cwd (loader : Loader) {source : LineSource σ} {moment : Moment σ}
    (still : ¬ moment.Moves source) :
    (moment.next loader source).shell.cwd = moment.shell.cwd := by
  rcases next_cases loader source moment with ⟨line, command, shell, -⟩ | ⟨shell, -⟩
  · have carried := (moment.reader source).execute_carried loader line (moment.read source).machine
    rw [shell]
    exact carried.cwd fun moves => still ⟨line, command, moves⟩
  · rw [shell]

theorem SessionStores.cwd {loader : Loader} {source : LineSource σ} {begun : Moment σ}
    {store : Store} {shell : Shell} {tree : FileTree}
    (stores : SessionStores loader source begun store shell tree)
    (still : ∀ moment, Visits loader source begun moment → ¬ moment.Moves source) :
    shell.cwd = begun.shell.cwd := by
  -- By induction on the turns that have been taken.
  have stays : ∀ moment, Visits loader source begun moment →
      moment.shell.cwd = begun.shell.cwd := by
    intro moment visits
    induction visits with
    | begin => rfl
    | turn before goesOn ih => exact (Moment.next_cwd loader (still _ before)).trans ih
  cases stores with
  | turn moment _ _ visits => exact stays moment visits
  | flush =>
      obtain ⟨moment, visits, last⟩ := begun.turns_last loader source
      rw [last]
      exact (Moment.next_cwd loader (still moment visits)).trans (stays moment visits)

/-- When the shell writes the store it writes the file of the start: the one to which the path
leads from the first folder, now and, if nothing has been taken away since, at the start. What is
written can be read from there. -/
structure WritesHome (begun : Moment σ) (store : Store) (path : Path) (shell : Shell)
    (tree : FileTree) : Prop where
  same : shell.storeAt? store tree = tree.writesAt? begun.shell.cwd path
  still : begun.machine.tree.Grown tree →
    begun.machine.tree.CanWrite begun.shell.cwd (some path) →
      shell.storeAt? store tree = begun.shell.storeAt? store begun.machine.tree
  read : ∀ content edit, tree.Holds shell.cwd path content → ∃ after,
    tree.editFile shell.cwd path edit = .ok after ∧
      after.readContent begun.shell.cwd path = .ok (edit (content.getD []))

section

variable {loader : Loader} {source : LineSource σ} {begun : Moment σ} {store : Store}
  {path : Path} {shell : Shell} {tree : FileTree}

theorem SessionStores.storeAt? (stores : SessionStores loader source begun store shell tree)
    (file : begun.shell.file? store = some path) :
    shell.storeAt? store tree = tree.writesAt? shell.cwd path := by
  rw [Shell.storeAt?, stores.file?, file, Option.bind_some]

theorem SessionStores.writesHome (stores : SessionStores loader source begun store shell tree)
    (file : begun.shell.file? store = some path)
    (anchored : path.isAbsolute = true ∨ shell.cwd = begun.shell.cwd) :
    WritesHome begun store path shell tree := by
  have alike := Path.SameFrom.of_anchored anchored
  have home : shell.storeAt? store tree = tree.writesAt? begun.shell.cwd path :=
    (stores.storeAt? file).trans (alike.writesAt? tree)
  constructor
  case same => exact home
  case still =>
    intro grown writable
    obtain ⟨arrival, target⟩ := writable path rfl
    rw [home, Shell.storeAt?, file, Option.bind_some]
    exact FileTree.writesAt?_grown grown target
  case read =>
    intro content edit holds
    obtain ⟨after, edited, held⟩ := holds.editFile edit
    refine ⟨after, edited, ?_⟩
    rw [← alike.readContent after, held.readContent]
    rfl

theorem session_flushed {location : Location}
    (leads : (begun.turns loader source).1.storeAt? .history (begun.turns loader source).2.tree =
      some location) :
    ∃ mode, (begun.session loader source).2.2.tree.node? location =
      some (.file (begun.turns loader source).1.history.log.fileContent mode) := by
  obtain ⟨path, file, target⟩ := Option.bind_eq_some_iff.mp leads
  have known : (begun.turns loader source).1.history.file = some path := file
  obtain ⟨after, old, mode, written, holds⟩ := FileTree.editFile_written target
    fun _ => (begun.turns loader source).1.history.log.fileContent
  have flushed : (begun.turns loader source).1.history.flush (begun.turns loader source).2.tree
      (begun.turns loader source).1.cwd = .ok after := by
    simp only [HistoryStore.flush, known]
    exact written
  refine ⟨mode, ?_⟩
  rw [Moment.session_eq, flushed]
  exact holds

/-- Every write of a store in a session goes to the file that it was loaded from, if the path is
absolute or the shell is in its first folder, as it is in a session without a change of the folder.
Else, where nothing but the folder decides which file a path means, it does not. -/
theorem writes_home_iff (file : begun.shell.file? store = some path)
    (stores : SessionStores loader source begun store shell tree) :
    ((∀ moment, Visits loader source begun moment → ¬ moment.Moves source) →
      shell.cwd = begun.shell.cwd) ∧
    (path.isAbsolute = true ∨ shell.cwd = begun.shell.cwd →
      WritesHome begun store path shell tree) ∧
    (path.Straight → tree.Linkless → tree.writesAt? begun.shell.cwd path ≠ none →
      (shell.storeAt? store tree = tree.writesAt? begun.shell.cwd path ↔
        path.isAbsolute = true ∨ shell.cwd = begun.shell.cwd)) := by
  refine ⟨stores.cwd, stores.writesHome file, fun straight linkless leads => ?_⟩
  rw [stores.storeAt? file]
  exact FileTree.writesAt?_same_iff linkless straight leads

end

/-! A session of one line, which leads from the first folder into another one. -/

theorem Moment.turns_script_ended (loader : Loader) (shell : Shell) (machine : Machine)
    (prompts : List Text) :
    (⟨shell, machine, ⟨[], none, prompts⟩⟩ : Moment Script).turns loader Script.source =
      (shell, machine) := by
  rw [turns_eq]
  rfl

theorem Moment.turns_script (loader : Loader) (shell : Shell) (machine : Machine) {line : Text}
    (whole : line.getLast? ≠ some backslash) (prompts : List Text) :
    (⟨shell, machine, ⟨[line], none, prompts⟩⟩ : Moment Script).turns loader Script.source =
      (shell.withAhead []).execute loader line machine := by
  have read : readCommand Script.source shell machine ⟨[line], none, prompts⟩ =
      ⟨.ok (some line), ⟨[], none, prompts ++ [shell.prompt machine]⟩, machine⟩ :=
    readCommand_whole rfl whole
  have command : (readCommand Script.source shell machine ⟨[line], none, prompts⟩).command =
      .ok (some line) := by rw [read]
  have carried : step loader Script.source shell machine ⟨[line], none, prompts⟩ = _ :=
    step_line command
  simp only [read] at carried
  rw [turns_eq, next, turn]
  simp only [carried]
  -- With or without the wish to stop there is no line left.
  split
  · rfl
  · exact turns_script_ended ..

theorem Builtin.runChangeFolder_entered (shell : Shell) (machine : Machine) {target : Text}
    {folder : Location} (entered : machine.tree.enter shell.cwd
      (resolveDir (Path.ofLocation shell.cwd) (encode target)) = .ok folder) :
    runChangeFolder shell [target] machine =
      ⟨.ok (), { shell with process := { shell.process with cwd := folder } }, machine⟩ := by
  have path : shell.folderTarget machine (some target) =
      resolveDir (Path.ofLocation shell.cwd) (encode target) := rfl
  simp only [runChangeFolder, Shell.changeFolder, List.head?_cons, path, entered]

theorem Shell.execute_changeFolder (loader : Loader) {shell : Shell} {machine : Machine}
    {line target : Text} {folder : Location} {mode : Nat} {background : Bool}
    (read : (shell.remembering line machine).1.reading line (shell.remembering line machine).2 =
      .ok ⟨[⟨["cd".toList, target], none, none⟩], background⟩)
    (entered : machine.tree.enter shell.cwd
      (resolveDir (Path.ofLocation shell.cwd) (encode target)) = .ok folder)
    (stands : machine.tree.node? folder = some (.folder mode)) :
    let left := shell.execute loader line machine
    left.1.cwd = folder ∧ machine.tree.Grown left.2.tree := by
  intro left
  have named : Builtin.ofName? (⟨["cd".toList, target], none, none⟩ : Stage).name =
      some .changeFolder := rfl
  have carried := shell.execute_carried loader line machine
  obtain ⟨done, runs, same⟩ := carried.of_own read named rfl
  -- The folder is entered on the tree in which the line has been remembered.
  have grown := (shell.remembering_remembers line machine).grown
  simp only [left, same]
  cases runs with
  | refused trouble table after denied => exact absurd ⟨granted_none _, granted_none _⟩ denied
  | ran table back after done granted opened runs =>
      have tree : after.tree = (shell.remembering line machine).2.tree := opened.kept rfl
      rw [← tree] at grown
      have goes := Builtin.runChangeFolder_entered
        ((shell.remembering line machine).1.withDescriptors table) after
        (FileTree.enter_grown grown entered stands)
      cases goes.symm.trans runs
      exact ⟨rfl, grown⟩

theorem Shell.start_eq {config : Configuration} {process : Process} {tree : FileTree}
    {history : HistoryStore} {aliases : AliasStore}
    (first : HistoryStore.load tree process.cwd config.historyFile config.historyCapacity =
      .ok history)
    (second : AliasStore.load tree process.cwd config.aliasFile config.aliasCapacity =
      .ok aliases) :
    Shell.start config process tree = ⟨config, history, aliases, false, process⟩ := by
  simp only [Shell.start, first, second]

namespace FileTree

/-- A tree with one folder in it, named `s`. -/
def oneFolder : FileTree :=
  ⟨[([[115]], .folder folderMode)]⟩

theorem oneFolder_linkless : oneFolder.Linkless := by
  intro location target link
  rw [node?] at link
  split at link
  · cases link
  · obtain ⟨entry, found, node⟩ := Option.map_eq_some_iff.mp link
    cases List.mem_singleton.mp (List.mem_of_find?_eq_some found)
    cases node

theorem oneFolder_entered :
    oneFolder.enter [] (resolveDir (Path.ofLocation []) (encode "s".toList)) = .ok [[115]] := by
  have path : resolveDir (Path.ofLocation []) (encode "s".toList) = [47, 115] := by decide
  have inside : oneFolder.walk .use mostLinks [[115]] [] =
      .ok (.present [[115]] (.folder folderMode)) := by
    rw [walk]
    rfl
  have walked : oneFolder.walk .use mostLinks [] [[115]] =
      .ok (.present [[115]] (.folder folderMode)) := by
    rw [walk]
    exact inside
  rw [path]
  exact enter_eq_ok.mpr ⟨folderMode, open?_eq_ok.mpr (arrive_eq_ok.mpr ⟨by decide, walked⟩)⟩

end FileTree

/-- The session keeps its history in a file that is missing yet. -/
def movingSession (historyFile : Path) : Moment Script :=
  let scope := JobScope.plain .idle .oneFolder []
  let config : Configuration :=
    { Configuration.defaults [] with historyFile := historyFile, aliasFile := [97] }
  ⟨Shell.start config scope.shell.process .oneFolder, scope.machine, ⟨["cd s".toList], none, []⟩⟩

theorem movingSession_ends {historyFile : Path} {name : Name}
    (missing : FileTree.oneFolder.writeTarget [] historyFile = .ok (.absent [] name)) :
    let begun := movingSession historyFile
    let ended := begun.turns .idle Script.source
    begun.shell.file? .history = some historyFile ∧ begun.shell.cwd = [] ∧
      ended.1.cwd = [[115]] ∧ FileTree.oneFolder.Grown ended.2.tree := by
  intro begun ended
  have free : FileTree.oneFolder.writeTarget [] [97] = .ok (.absent [] [97]) :=
    FileTree.writeTarget_free (by decide) rfl
  have started : begun.shell = ⟨_, _, _, false, _⟩ :=
    Shell.start_eq (HistoryStore.load_eq (.missing _ _ missing) rfl 100)
      (AliasStore.load_eq (.missing _ _ free) rfl 100)
  let ahead := (begun.shell.withAhead []).remembering "cd s".toList begun.machine
  have read : ahead.1.reading "cd s".toList ahead.2 =
      .ok ⟨[⟨["cd".toList, "s".toList], none, none⟩], false⟩ := by
    simp only [ahead, started]
    rfl
  have first : begun.shell.cwd = [] := by rw [started]; rfl
  have carried : ended = (begun.shell.withAhead []).execute .idle "cd s".toList begun.machine :=
    Moment.turns_script .idle begun.shell begun.machine (by decide) []
  have entered : begun.machine.tree.enter (begun.shell.withAhead []).cwd
      (resolveDir (Path.ofLocation (begun.shell.withAhead []).cwd) (encode "s".toList)) =
        .ok [[115]] := FileTree.oneFolder_entered
  obtain ⟨last, grown⟩ := Shell.execute_changeFolder .idle read entered rfl
  rw [← carried] at last grown
  exact ⟨by rw [started]; rfl, first, last, grown⟩

/-- The history is flushed from another folder, into the file of an absolute path. -/
theorem absolute_history_flushed_home :
    let begun := movingSession [47, 104]
    let ended := begun.turns .idle Script.source
    ended.1.cwd ≠ begun.shell.cwd ∧ WritesHome begun .history [47, 104] ended.1 ended.2.tree ∧
      ended.1.storeAt? .history ended.2.tree = some [[104]] := by
  intro begun ended
  have walked : FileTree.oneFolder.walk .write mostLinks [] [[104]] = .ok (.absent [] [104]) := by
    rw [FileTree.walk]
    rfl
  have missing : FileTree.oneFolder.writeTarget [] [47, 104] = .ok (.absent [] [104]) :=
    FileTree.writeTarget_eq_ok.mpr ⟨FileTree.arrive_eq_ok.mpr ⟨by decide, walked⟩, by simp⟩
  obtain ⟨file, first, last, grown⟩ := movingSession_ends missing
  have leads : ended.2.tree.writesAt? begun.shell.cwd [47, 104] = some [[104]] := by
    rw [first, FileTree.writesAt?_grown grown missing, FileTree.writesAt?_eq missing]
    rfl
  have stores : SessionStores .idle Script.source begun .history ended.1 ended.2.tree := .flush
  obtain ⟨-, home, same⟩ := writes_home_iff file stores
  refine ⟨by rw [last, first]; decide, home (.inl rfl), ?_⟩
  have linkless := FileTree.oneFolder_linkless.grown grown
  exact ((same (by decide) linkless (by rw [leads]; simp)).mpr (.inl rfl)).trans leads

/-- A relative path leads to another file from there. That file has not been there before, and the
history is flushed into it. -/
theorem relative_history_flushed_elsewhere :
    let begun := movingSession [104]
    let ended := begun.turns .idle Script.source
    begun.shell.file? .history = some [104] ∧
      SessionStores .idle Script.source begun .history ended.1 ended.2.tree ∧
      ended.1.storeAt? .history ended.2.tree = some [[115], [104]] ∧
      ended.2.tree.writesAt? begun.shell.cwd [104] = some [[104]] ∧
      begun.machine.tree.node? [[115], [104]] = none ∧
      ∃ mode, (begun.session .idle Script.source).2.2.tree.node? [[115], [104]] =
        some (.file ended.1.history.log.fileContent mode) := by
  intro begun ended
  have missing : FileTree.oneFolder.writeTarget [] [104] = .ok (.absent [] [104]) :=
    FileTree.writeTarget_free (by decide) rfl
  have away : FileTree.oneFolder.writeTarget [[115]] [104] = .ok (.absent [[115]] [104]) :=
    FileTree.writeTarget_free (by decide) rfl
  obtain ⟨file, first, last, grown⟩ := movingSession_ends missing
  have stores : SessionStores .idle Script.source begun .history ended.1 ended.2.tree := .flush
  have there : ended.1.storeAt? .history ended.2.tree = some [[115], [104]] := by
    rw [stores.storeAt? file, last, FileTree.writesAt?_grown grown away,
      FileTree.writesAt?_eq away]
    rfl
  have home : ended.2.tree.writesAt? begun.shell.cwd [104] = some [[104]] := by
    rw [first, FileTree.writesAt?_grown grown missing, FileTree.writesAt?_eq missing]
    rfl
  exact ⟨file, stores, there, home, rfl, session_flushed there⟩

end CommandShell
