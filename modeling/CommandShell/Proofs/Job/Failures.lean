import CommandShell.Proofs.Builtin.Copying
import CommandShell.Proofs.Builtin.Printing
import CommandShell.Proofs.Job.Wiring
import CommandShell.Proofs.System.Refusal

/-!
Failures of stages. A stage that cannot get its input, or else its output, or else its
program, ends with a code of its own, and so does one whose built-in command fails. All
stages have processes and statuses all the same, and what a stage has open and runs is not
touched by how the others end. Only what it writes can be: a pipe whose readers are gone
refuses it, and then a built-in command fails.
-/
namespace CommandShell

/-- The code that a built-in command as a stage ends with. -/
def builtinCode {α : Type} : Except Trouble α → Int
  | .ok _ => 0
  | .error _ => 1

/-- The status of a stage whose file was handed to the loader. A file that is gone by then
counts as not found, one that is refused as not executable. -/
def loadedStatus : Except Failure ExitStatus → ExitStatus
  | .ok status => status
  | .error .noEntry => .exited exitNotFound
  | .error _ => .exited exitNotExecutable

theorem Builtin.ofWords?_of_name {stage : Stage} {command : Builtin}
    (named : ofName? stage.name = some command) : ofWords? stage.argv = some command := by
  unfold Stage.name at named
  cases words : stage.argv with
  | nil =>
      rw [words] at named
      cases named
  | cons name rest =>
      rw [words] at named
      exact named

theorem runBuiltinStage_status (shell : Shell) {argv : List Text} {command : Builtin}
    (named : Builtin.ofWords? argv = some command) (line : Text) (process : Process)
    (machine : Machine) :
    (runBuiltinStage shell argv line process machine).1 =
      .exited (builtinCode
        (command.run { shell.detach with process := process } (argv.drop 1) line
          machine).result) := by
  unfold runBuiltinStage Shell.dispatch
  simp only [named]
  cases (command.run { shell.detach with process := process } (argv.drop 1) line
    machine).result <;> rfl

/-- A built-in command that ends well as a stage has had nothing of its output refused. -/
theorem runBuiltinStage_delivers {shell : Shell} {argv : List Text} {line : Text}
    {process : Process} {machine : Machine}
    (well : (runBuiltinStage shell argv line process machine).1 = .exited 0) :
    ∃ said, process.Delivers machine said (runBuiltinStage shell argv line process machine).2 := by
  unfold runBuiltinStage Shell.dispatch at well ⊢
  cases named : Builtin.ofWords? argv with
  | none => exact ⟨[], by simpa only [named] using .silent⟩
  | some command =>
      have detached : Shell.Detached { shell.detach with process := process } := ⟨rfl, rfl⟩
      obtain ⟨said, -, delivers⟩ :=
        @Builtin.run_prints _ machine detached command (argv.drop 1) line
      simp only [named] at well ⊢
      unfold Outcome.ended at delivers
      cases result : (command.run { shell.detach with process := process } (argv.drop 1) line
          machine).result with
      | ok =>
          simp only [result] at delivers ⊢
          exact ⟨said, delivers trivial⟩
      | error trouble =>
          simp only [result] at well
          cases well

theorem loadStage_status (loader : Loader) (path : Path) (argv : List Text) (process : Process)
    (machine : Machine) :
    (loadStage loader path argv process machine).1 =
      loadedStatus (loader path (argv.map encode) process machine).1 := by
  unfold loadStage
  cases loader path (argv.map encode) process machine with
  | mk result after =>
      cases result with
      | ok status => rfl
      | error failure => cases failure <;> rfl

namespace JobScope

variable (scope : JobScope)

/-- How a stage ends whose process has been started on the machine `started`. -/
structure ProgramEnds (stage : Stage) (process : Process) (started : Machine)
    (status : ExitStatus) (after : Machine) : Prop where
  builtin : ∀ command, Builtin.ofName? stage.name = some command →
    status = .exited (builtinCode (command.run { scope.shell.detach with process := process }
      (stage.argv.drop 1) scope.line started).result)
  /-- A built-in command that ends well has had nothing of what it said refused. -/
  delivered : ∀ command, Builtin.ofName? stage.name = some command → status = .exited 0 →
    ∃ said, process.Delivers started said after
  notFound : Builtin.ofName? stage.name = none →
    scope.shell.search scope.machine stage.name = .notFound →
      status = .exited exitNotFound ∧ after = started
  notExecutable : ∀ path, Builtin.ofName? stage.name = none →
    scope.shell.search scope.machine stage.name = .notExecutable path →
      status = .exited exitNotExecutable ∧ after = started
  found : ∀ path, Builtin.ofName? stage.name = none →
    scope.shell.search scope.machine stage.name = .found path →
      status = loadedStatus (scope.loader path (stage.argv.map encode) process started).1

/-- How stage `index` ends on the machine that it meets. The first trouble decides. -/
structure Ends (index : Nat) (stage : Stage) (met : Machine) (run : StageRun) (after : Machine) :
    Prop where
  inputRefused : ¬ met.tree.Readable scope.shell.cwd stage.input →
    run.status = .exited exitInputFailed ∧ run.start = .error exitInputFailed ∧ after = met
  outputRefused : met.tree.Readable scope.shell.cwd stage.input →
    ¬ met.tree.Writable scope.shell.cwd stage.output →
      run.status = .exited exitOutputFailed ∧ run.start = .error exitOutputFailed ∧
        after.tree = met.tree
  started : met.tree.Readable scope.shell.cwd stage.input →
    met.tree.Writable scope.shell.cwd stage.output →
      ∃ process started, scope.startOn index stage met = (.ok process, started) ∧
        run.start = .ok process ∧
          Plugged (scope.prepare stage) (scope.child index) met process started ∧
            scope.ProgramEnds stage process started run.status after

variable {scope}

theorem runProgram_ends (stage : Stage) (process : Process) (started : Machine) :
    let ended :=
      runProgram scope.loader scope.shell (scope.prepare stage) scope.line process started
    scope.ProgramEnds stage process started ended.1 ended.2 := by
  intro ended
  -- The program was chosen on the machine that the job began on, not on this one.
  have prepared : (scope.prepare stage).program = programOf scope.shell scope.machine stage.name :=
    rfl
  unfold programOf at prepared
  constructor
  case builtin =>
    intro command named
    simp only [named] at prepared
    simp only [ended, runProgram, prepared]
    exact runBuiltinStage_status scope.shell (Builtin.ofWords?_of_name named) scope.line process
      started
  case delivered =>
    intro command named well
    simp only [named] at prepared
    simp only [ended, runProgram, prepared] at well ⊢
    exact runBuiltinStage_delivers well
  case notFound =>
    intro unnamed missing
    simp only [unnamed, missing] at prepared
    simp only [ended, runProgram, prepared, and_self]
  case notExecutable =>
    intro path unnamed barred
    simp only [unnamed, barred] at prepared
    simp only [ended, runProgram, prepared, and_self]
  case found =>
    intro path unnamed here
    simp only [unnamed, here] at prepared
    simp only [ended, runProgram, prepared]
    exact loadStage_status ..

theorem stageRunOn_ends (index : Nat) (stage : Stage) (met : Machine) :
    scope.Ends index stage met (scope.stageRunOn index stage met).1
      (scope.stageRunOn index stage met).2 := by
  constructor
  case inputRefused =>
    intro refused
    rw [stageRunOn_error (redirectStage_inputRefused (scope.prepare stage) refused)]
    exact ⟨rfl, rfl, rfl⟩
  case outputRefused =>
    intro readable refused
    obtain ⟨left, start, sameTree, -⟩ :=
      @redirectStage_outputRefused (scope.child index) _ (scope.prepare stage) readable refused
    rw [stageRunOn_error start]
    exact ⟨rfl, rfl, sameTree⟩
  case started =>
    intro readable writable
    obtain ⟨process, started, start, plugged⟩ :=
      @redirectStage_ok (scope.child index) _ (scope.prepare stage) readable writable
    refine ⟨process, started, start, ?_⟩
    rw [stageRunOn_ok start]
    exact ⟨rfl, plugged, runProgram_ends stage process started⟩

section Telling

variable {word : Text} {reader : Stage} {limits : Limits}

end Telling

end JobScope

end CommandShell
