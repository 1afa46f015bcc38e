import CommandShell.Proofs.Job.Stages

/-!
What a job does to the shell and to its files. The shell keeps its memory, since each process
works on a copy. A built-in command in such a process has no store file to write, so a
file changes only through a program, as the target of a stage, or because what the shell shows
goes there.
-/
namespace CommandShell

namespace JobScope

variable (scope : JobScope)

/-- A program of the job changes the file. -/
def ProgramChanges (location : Location) : Prop :=
  ∃ index stage path process started, scope.pipeline.stages[index]? = some stage ∧
    (scope.prepare stage).program = .external path ∧
      scope.start index stage = (.ok process, started) ∧
        (scope.loader path (stage.argv.map encode) process started).2.tree.node? location ≠
          started.tree.node? location

/-- The target of a stage leads to the file, or to the place where it is made. -/
def TargetNames (location : Location) : Prop :=
  ∃ index stage path, scope.pipeline.stages[index]? = some stage ∧ stage.output = some path ∧
    (scope.met index).tree.writesAt? scope.shell.cwd (encode path) = some location

/-- The shell's own output or error stream is the file. -/
def ShellShows (location : Location) : Prop :=
  ∃ fd handle, (fd = standardOutput ∨ fd = standardError) ∧
    scope.table.get? fd = some handle ∧ (scope.machine.stream handle).location? = some location

variable {scope}

theorem location_pipe {handle : Handle}
    (pipe : scope.machine.PipeHandle (scope.count - 1) handle) :
    (scope.opened.2.2.stream handle).location? = none := by
  obtain ⟨number, less, rfl | rfl⟩ := pipe
  · rw [(scope.opened_made.ends number less).1]
    rfl
  · rw [(scope.opened_made.ends number less).2]
    rfl

/-- As long as the shell's streams are what they were, they lead to no file that the shell
does not show. -/
theorem shell_apart (fits : scope.shell.Fits scope.machine) {location : Location}
    (hidden : ¬ scope.ShellShows location) {after : Machine}
    (grown : Machine.Extends scope.machine after) {fd : Nat} {handle : Handle}
    (shown : fd = standardOutput ∨ fd = standardError)
    (found : scope.table.get? fd = some handle) :
    handle < after.streams.length ∧ (after.stream handle).location? ≠ some location := by
  have old := fits fd handle found
  refine ⟨Nat.lt_of_lt_of_le old grown.length, ?_⟩
  rw [grown.location? old]
  exact fun here => hidden ⟨fd, handle, shown, found, here⟩

theorem child_apart (fits : scope.shell.Fits scope.machine) {location : Location}
    (hidden : ¬ scope.ShellShows location) (index : Nat) {fd : Nat} {handle : Handle}
    (shown : fd = standardOutput ∨ fd = standardError)
    (found : (scope.child index).descriptors.get? fd = some handle) :
    handle < scope.opened.2.2.streams.length ∧
      (scope.opened.2.2.stream handle).location? ≠ some location := by
  have made := scope.opened_made
  rcases scope.opened_open.adds_connect index fd handle found with own | pipe
  · exact shell_apart fits hidden made.grown shown own
  · refine ⟨made.streams ▸ pipe.bounds.2, ?_⟩
    rw [location_pipe pipe]
    exact fun here => nomatch here

theorem started_apart (fits : scope.shell.Fits scope.machine) (tame : scope.loader.Tame)
    {location : Location} (hidden : ¬ scope.ShellShows location) {index : Nat} {stage : Stage}
    (inside : index < scope.count)
    (unnamed : ∀ path ∈ stage.output,
      (scope.met index).tree.writesAt? scope.shell.cwd (encode path) ≠ some location)
    {process : Process} {started : Machine}
    (start : scope.start index stage = (.ok process, started)) {fd : Nat} {handle : Handle}
    (shown : fd = standardOutput ∨ fd = standardError)
    (found : process.descriptors.get? fd = some handle) :
    handle < started.streams.length ∧ (started.stream handle).location? ≠ some location := by
  have plugged := start_ok start
  have grown := scope.start_grown index stage
  rw [start] at grown
  have late := (met_pipes tame (Nat.le_of_lt inside)).trans grown
  have ofChild : ∀ own, (scope.child index).descriptors.get? fd = some own →
      own < started.streams.length ∧ (started.stream own).location? ≠ some location := by
    intro own had
    obtain ⟨old, apart⟩ := child_apart fits hidden index shown had
    exact ⟨Nat.lt_of_lt_of_le old late.length, late.location? old ▸ apart⟩
  rcases plugged.reach fd handle found with had | new
  · exact ofChild handle had
  · -- Only the number of an output with a target is not as in the child.
    by_cases written : fd = standardOutput → stage.output = none
    · refine ofChild handle ((plugged.others fd ?_ written).symm.trans found)
      rintro rfl
      rcases shown with contra | contra <;> cases contra
    · obtain ⟨rfl, given⟩ := Classical.not_imp.mp written
      obtain ⟨path, target⟩ := Option.ne_none_iff_exists'.mp given
      obtain ⟨own, opened, -, writes⟩ := plugged.output path target
      cases found.symm.trans opened
      exact ⟨new, writes.elsewhere (unnamed path target)⟩

theorem stageRun_elsewhere (fits : scope.shell.Fits scope.machine) (tame : scope.loader.Tame)
    {location : Location} (unchanged : ¬ scope.ProgramChanges location)
    (unnamed : ¬ scope.TargetNames location) (hidden : ¬ scope.ShellShows location)
    {index : Nat} {stage : Stage} (found : scope.pipeline.stages[index]? = some stage) :
    (scope.stageRun index stage).2.tree.node? location =
      (scope.met index).tree.node? location := by
  have inside : index < scope.count := (List.getElem?_eq_some_iff.mp found).1
  have own : ∀ path ∈ stage.output,
      (scope.met index).tree.writesAt? scope.shell.cwd (encode path) ≠ some location :=
    fun path target leads => unnamed ⟨index, stage, path, found, target, leads⟩
  rcases scope.start_cases index stage with
    ⟨process, started, start, plugged⟩ | ⟨code, left, refused, sameTree, -⟩
  case inr =>
    rw [stageRun_error refused]
    exact congrArg (·.node? location) sameTree
  have opening : started.tree.node? location = (scope.met index).tree.node? location :=
    plugged.elsewhere location own
  rw [stageRun_ok start, ← opening]
  simp only [runProgram]
  cases program : (scope.prepare stage).program with
  | builtin command =>
      exact (runBuiltinStage_talks scope.shell scope.line stage.argv process started).elsewhere
        fun fd handle shown has => started_apart fits tame hidden inside own start shown has
  | missing code => rfl
  | external path =>
      by_contra changed
      rw [loadStage_machine] at changed
      exact unchanged ⟨index, stage, path, process, started, found, program, start, changed⟩

theorem met_elsewhere (fits : scope.shell.Fits scope.machine) (tame : scope.loader.Tame)
    {location : Location} (unchanged : ¬ scope.ProgramChanges location)
    (unnamed : ¬ scope.TargetNames location) (hidden : ¬ scope.ShellShows location)
    {index : Nat} (inside : index ≤ scope.count) :
    (scope.met index).tree.node? location = scope.begun.tree.node? location := by
  induction index with
  | zero => rfl
  | succ before ih =>
      obtain ⟨stage, found⟩ := exists_stage inside
      rw [met_succ found, stageRun_elsewhere fits tame unchanged unnamed hidden found]
      exact ih (Nat.le_of_lt inside)

theorem begun_elsewhere (fits : scope.shell.Fits scope.machine) {location : Location}
    (hidden : ¬ scope.ShellShows location) :
    scope.begun.tree.node? location = scope.machine.tree.node? location := by
  have made := scope.opened_made
  have tree : scope.spawned.machine.tree = scope.machine.tree := by
    rw [spawned_machine]
    exact made.tree
  rw [← tree]
  unfold begun
  split
  · refine (announce_talks _ .silent).elsewhere fun fd handle shown found => ?_
    rw [scope.spawned_table, scope.opened_open.get?_closePipes] at found
    exact shell_apart fits hidden (made.grown.trans scope.spawned_grown) shown found
  · rfl

theorem run_elsewhere (fits : scope.shell.Fits scope.machine) (tame : scope.loader.Tame)
    {location : Location} (unchanged : ¬ scope.ProgramChanges location)
    (unnamed : ¬ scope.TargetNames location) (hidden : ¬ scope.ShellShows location) :
    scope.run.machine.tree.node? location = scope.machine.tree.node? location := by
  by_cases clean : scope.pipeline.Clean
  · rw [run_clean clean, ← begun_elsewhere fits hidden,
      ← met_elsewhere fits tame unchanged unnamed hidden (Nat.le_refl scope.count)]
    -- The report goes where the shell's own errors go, with the pipes closed again.
    refine (reportJob_talks ..).elsewhere fun fd handle shown found => ?_
    rw [scope.spawned_table, scope.opened_open.get?_closePipes] at found
    exact shell_apart fits hidden
      (scope.opened_made.grown.trans (met_pipes tame (Nat.le_refl scope.count))) shown found
  · obtain ⟨trouble, failed⟩ := run_not_clean clean
    rw [failed]

theorem run_shell (scope : JobScope) :
    ∃ table, scope.run.shell =
      { scope.shell with process := { scope.shell.process with descriptors := table } } := by
  by_cases clean : scope.pipeline.Clean
  · exact ⟨_, by rw [run_clean clean]; rfl⟩
  · obtain ⟨trouble, failed⟩ := run_not_clean clean
    exact ⟨scope.table, by rw [failed]; rfl⟩

/-- What the shell keeps from a job, and what a built-in command in it can do. -/
structure Isolated (scope : JobScope) : Prop where
  aliases : scope.run.shell.aliases = scope.shell.aliases
  history : scope.run.shell.history = scope.shell.history
  exiting : scope.run.shell.exiting = scope.shell.exiting
  cwd : scope.run.shell.cwd = scope.shell.cwd
  /-- A built-in command reads its input and writes on its outputs, and that is all. -/
  builtins : ∀ index stage command process started, scope.pipeline.stages[index]? = some stage →
    (scope.prepare stage).program = .builtin command →
      scope.start index stage = (.ok process, started) →
        process.Talks started (scope.stageRun index stage).2

/-- Nothing that a job does reaches the shell, and none of its built-in commands writes the
files of the shell's stores on its own account. -/
theorem run_isolated (scope : JobScope) :
    scope.Isolated ∧ (scope.shell.Fits scope.machine → scope.loader.Tame → ∀ location,
      scope.run.machine.tree.node? location ≠ scope.machine.tree.node? location →
        scope.ProgramChanges location ∨ scope.TargetNames location ∨
          scope.ShellShows location) := by
  constructor
  · obtain ⟨table, same⟩ := scope.run_shell
    constructor
    case aliases => rw [same]
    case history => rw [same]
    case exiting => rw [same]
    case cwd => rw [same]; rfl
    case builtins =>
      intro index stage command process started _ program start
      rw [stageRun_ok start]
      simp only [runProgram, program]
      exact runBuiltinStage_talks scope.shell scope.line stage.argv process started
  · intro fits tame location changed
    by_contra none_of
    rw [not_or, not_or] at none_of
    exact changed (run_elsewhere fits tame none_of.1 none_of.2.1 none_of.2.2)

/-- Commands that would change all of the shell, in a shell with files for its stores. -/
theorem changes_in_a_job_lost :
    let tree : FileTree :=
      ⟨[([encode "h".toList], .file [97, 10] newFileMode),
        ([encode "a".toList], .file [] newFileMode)]⟩
    let base := plain .idle tree [⟨["clearhistory".toList], none, none⟩,
      ⟨["alias".toList, "ll=ls".toList], none, none⟩, ⟨["exit".toList], none, none⟩]
    let scope := { base with
      line := "alias ll=ls".toList
      shell := { base.shell with
        history := ⟨⟨[['a']], 5⟩, some (encode "/h".toList)⟩
        aliases := ⟨⟨[], 5⟩, some (encode "/a".toList)⟩ } }
    scope.run.shell.history.log.entries = [['a']] ∧ scope.run.shell.aliases.table.entries = [] ∧
      scope.run.shell.exiting = false ∧
        ∀ location, scope.run.machine.tree.node? location = scope.machine.tree.node? location := by
  intro tree base scope
  have fits : scope.shell.Fits scope.machine := plain_fits .idle tree base.pipeline.stages
  obtain ⟨isolated, files⟩ := run_isolated scope
  refine ⟨by rw [isolated.history], by rw [isolated.aliases], isolated.exiting, ?_⟩
  intro location
  by_contra changed
  rcases files fits Loader.idle_tame location changed with program | target | shows
  · obtain ⟨index, stage, path, process, started, found, external, -⟩ := program
    have known : ∀ stage ∈ scope.pipeline.stages, ∃ command,
        (scope.prepare stage).program = .builtin command := by
      intro stage inside
      rcases List.mem_cons.mp inside with rfl | inside
      · exact ⟨.clearHistory, rfl⟩
      · rcases List.mem_pair.mp inside with rfl | rfl
        · exact ⟨.defineAlias, rfl⟩
        · exact ⟨.leave, rfl⟩
    obtain ⟨command, isBuiltin⟩ := known stage (List.mem_of_getElem? found)
    cases isBuiltin.symm.trans external
  · obtain ⟨index, stage, path, found, target, -⟩ := target
    have none_of : ∀ stage ∈ scope.pipeline.stages, stage.output = none := by decide
    cases (none_of stage (List.mem_of_getElem? found)).symm.trans target
  · obtain ⟨fd, handle, shown, found, here⟩ := shows
    rcases shown with rfl | rfl
    · cases found
      cases here
    · cases found
      cases here

end JobScope

end CommandShell
