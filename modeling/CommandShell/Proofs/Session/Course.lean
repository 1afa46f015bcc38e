import CommandShell.Proofs.Job.Stages
import CommandShell.Proofs.System.Programs
import CommandShell.Session.Loop

/-!
The course that a single word takes when it is carried out. The text of an alias takes its
place first, then a built-in command of that name runs, in the shell when it changes the
shell and else in a process with a copy, then a program that is found.
-/
namespace CommandShell

def Machine.fork (machine : Machine) : Machine :=
  { machine with nextPid := machine.nextPid + 1 }

/-- What entering a single word comes to. -/
inductive Course
  /-- The text of an alias is carried out. -/
  | text (text : Text)
  | command (command : Builtin)
  /-- The file is handed to the machine to be run. -/
  | file (path : Path)
  | nothing
  deriving Repr, DecidableEq

namespace Shell

/-- The way a word takes through the shell: the alias table first, then the choice of a
program. -/
def course (shell : Shell) (machine : Machine) (word : Text) : Course :=
  match shell.aliases.table.get? word with
  | some text => .text text
  | none =>
      match programOf shell machine word with
      | .builtin command => .command command
      | .external path => .file path
      | .missing _ => .nothing

/-- Carries a text out as it stands, without looking at aliases. `line` is what was entered. -/
def carryOut (loader : Loader) (shell : Shell) (text line : Text) (machine : Machine) :
    Shell × Machine :=
  match Pipeline.ofWords (expandWords (shell.visibleNames machine) text) with
  | .error cause => (shell, shell.process.complain (Trouble.ungrammatical cause).notice machine)
  | .ok pipeline => shell.perform loader pipeline line machine

def child (shell : Shell) (machine : Machine) : Process :=
  { shell.process with pid := machine.nextPid }

/-- What is left of the shell and the machine when a single word takes a course. A command
that changes the shell runs in it, any other in a process with a copy. -/
def Enacts (loader : Loader) (shell : Shell) (word : Text) (machine : Machine)
    (left : Shell × Machine) : Course → Prop
  | .text text => left = shell.carryOut loader text word machine
  | .command command =>
      if command.mutates then
        let done := command.run shell [] word machine
        left = (done.shell, done.shell.process.report done.result done.machine)
      else
        let process := shell.child machine
        let done := command.run { shell.detach with process := process } [] word machine.fork
        left = (shell, process.report done.result done.machine)
  | .file path =>
      let ended := loadStage loader path [word] (shell.child machine) machine.fork
      let stage : PreparedStage := ⟨[word], .external path, none, none⟩
      left = (shell, (stage.report ended.1).elim ended.2 (shell.process.complain · ended.2))
  | .nothing => ∃ message started,
      left = (shell, shell.process.complain message { machine with nextPid := started })

def singleStage (word : Text) : Pipeline :=
  ⟨[⟨[word], none, none⟩], false⟩

theorem clean_singleStage {word : Text} : (singleStage word).Clean ↔ 0 ∉ encode word := by
  simp [Pipeline.Clean, singleStage, Stage.texts]

theorem runJob_singleStage (loader : Loader) (shell : Shell) {word : Text}
    (clean : 0 ∉ encode word) (line : Text) (machine : Machine) :
    shell.runJob loader (singleStage word) line machine =
      let process := shell.child machine
      let stage : PreparedStage := ⟨[word], programOf shell machine word, none, none⟩
      let ended := runProgram loader shell stage line process machine.fork
      let job : Job := ⟨false, [⟨machine.nextPid, .ok process, ended.1⟩]⟩
      ⟨.ok job, shell, reportJob shell.process [stage] job ended.2⟩ := by
  -- A single stage has no pipe whose limit could be found by another attempt.
  change runJobUnder _ loader shell (singleStage word) line machine = _
  unfold runJobUnder
  rw [prepareAll_eq_ok.mpr ⟨clean_singleStage.mpr clean, rfl⟩]
  rfl

theorem reportJob_builtin (process : Process) {stage : PreparedStage} (job : Job)
    (machine : Machine) (own : stage.isBuiltin = true) :
    reportJob process [stage] job machine = machine := by
  unfold reportJob
  split
  · next same _ =>
      cases same
      rw [if_pos own]
  · rfl

theorem dispatch_single (shell : Shell) {word : Text} {command : Builtin}
    (named : Builtin.ofName? word = some command) (line : Text) (machine : Machine) :
    shell.dispatch [word] line machine =
      let done := command.run shell [] line machine
      ⟨done.result.map fun _ => true, done.shell, done.machine⟩ := by
  simp only [dispatch, Builtin.ofWords?, named, List.drop_succ_cons, List.drop_zero]

theorem runBuiltinStage_single (shell : Shell) {word : Text} {command : Builtin}
    (named : Builtin.ofName? word = some command) (line : Text) (process : Process)
    (machine : Machine) :
    let done := command.run { shell.detach with process := process } [] line machine
    (runBuiltinStage shell [word] line process machine).2 =
      process.report done.result done.machine := by
  simp only [runBuiltinStage, dispatch_single _ named]
  cases (command.run { shell.detach with process := process } [] line machine).result <;> rfl

theorem runInPlace_untargeted (shell : Shell) (argv : List Text) (line : Text)
    (machine : Machine) :
    shell.runInPlace ⟨argv, none, none⟩ line machine =
      let done := shell.dispatch argv line machine
      (done.result.map fun _ => (), done.shell, done.machine) := rfl

theorem perform_own (loader : Loader) (shell : Shell) {word : Text} {command : Builtin}
    (named : Builtin.ofName? word = some command) (mutates : command.mutates = true)
    (line : Text) (machine : Machine) :
    shell.perform loader (singleStage word) line machine =
      let done := command.run shell [] line machine
      (done.shell, done.shell.process.report done.result done.machine) := by
  have own : ownStage? (singleStage word) = some ⟨[word], none, none⟩ := by
    simp only [ownStage?, singleStage, show (⟨[word], none, none⟩ : Stage).name = word from rfl,
      named, mutates, if_true]
  have filled : (singleStage word).stages.isEmpty = false := rfl
  simp only [perform, filled, Bool.false_eq_true, if_false, own, runInPlace_untargeted,
    dispatch_single shell named]
  cases (command.run shell [] line machine).result <;> rfl

theorem perform_job (loader : Loader) (shell : Shell) {word : Text}
    (foreign : ∀ command, Builtin.ofName? word = some command → command.mutates = false)
    (line : Text) (machine : Machine) :
    shell.perform loader (singleStage word) line machine =
      let run := shell.runJob loader (singleStage word) line machine
      (run.shell, run.shell.process.report run.result run.machine) := by
  have own : ownStage? (singleStage word) = none := by
    simp only [ownStage?, singleStage, show (⟨[word], none, none⟩ : Stage).name = word from rfl]
    cases named : Builtin.ofName? word with
    | none => rfl
    | some command => simp only [foreign command named, Bool.false_eq_true, if_false]
  have filled : (singleStage word).stages.isEmpty = false := rfl
  simp only [perform, filled, Bool.false_eq_true, if_false, own]

theorem ofName?_clean {word : Text} {command : Builtin}
    (named : Builtin.ofName? word = some command) : 0 ∉ encode word := by
  have same : command.name = word := by simpa using List.find?_some named
  rw [← same]
  cases command <;> decide

theorem missing_enacts (loader : Loader) (shell : Shell) {word : Text} {machine : Machine}
    {code : Int} (program : programOf shell machine word = .missing code)
    (known : code = exitNotFound ∨ code = exitNotExecutable) :
    let run := shell.runJob loader (singleStage word) word machine
    shell.Enacts loader word machine
      (run.shell, run.shell.process.report run.result run.machine) .nothing := by
  -- A NUL byte is refused before the missing program is noticed, with another complaint.
  by_cases clean : 0 ∈ encode word
  · obtain ⟨limits, settled⟩ :=
      JobScope.exists_settled loader shell (singleStage word) word machine
    let scope : JobScope := ⟨limits, loader, shell, singleStage word, word, machine⟩
    have dirty : ¬ scope.pipeline.Clean := fun whole => clean_singleStage.mp whole clean
    obtain ⟨trouble, failed⟩ := JobScope.run_not_clean dirty
    have run : shell.runJob loader (singleStage word) word machine =
        ⟨.error trouble, shell, machine⟩ := settled.trans failed
    simp only [run]
    exact ⟨trouble.notice, machine.nextPid, rfl⟩
  · have foreign : PreparedStage.isBuiltin ⟨[word], .missing code, none, none⟩ = false := rfl
    have told : ∃ message,
        PreparedStage.report ⟨[word], .missing code, none, none⟩ (.exited code) = some message := by
      rcases known with rfl | rfl
      · exact ⟨_, rfl⟩
      · exact ⟨_, rfl⟩
    obtain ⟨message, reported⟩ := told
    rw [runJob_singleStage loader shell clean, program]
    refine ⟨message, machine.nextPid + 1, ?_⟩
    simp only [runProgram, reportJob_single shell.process _ _ _ _ foreign, reported]
    rfl

theorem perform_enacts (loader : Loader) (shell : Shell) (word : Text) (machine : Machine)
    (unaliased : shell.aliases.table.get? word = none) :
    shell.Enacts loader word machine (shell.perform loader (singleStage word) word machine)
      (shell.course machine word) := by
  unfold course
  simp only [unaliased]
  cases named : Builtin.ofName? word with
  | some command =>
      have program : programOf shell machine word = .builtin command := by
        simp only [programOf, named]
      simp only [program, Enacts]
      split
      · next mutates => exact perform_own loader shell named mutates word machine
      · next looks =>
          -- No pipe is opened for a single stage, so its process has the shell's own table.
          rw [perform_job loader shell fun other same => by
            cases named.symm.trans same
            exact Bool.eq_false_iff.mpr looks]
          rw [runJob_singleStage loader shell (ofName?_clean named), program]
          have own : PreparedStage.isBuiltin ⟨[word], .builtin command, none, none⟩ = true := rfl
          simp only [reportJob_builtin shell.process _ _ own, runProgram]
          rw [runBuiltinStage_single shell named]
          rfl
  | none =>
      rw [perform_job loader shell fun other same => nomatch named.symm.trans same]
      cases searched : shell.search machine word with
      | found path =>
          have program : programOf shell machine word = .external path := by
            simp only [programOf, named, searched]
          rw [runJob_singleStage loader shell (findCommand_clean searched), program]
          have foreign : PreparedStage.isBuiltin ⟨[word], .external path, none, none⟩ = false := rfl
          simp only [Enacts, reportJob_single shell.process _ _ _ _ foreign]
          rfl
      | notExecutable path =>
          have program : programOf shell machine word = .missing exitNotExecutable := by
            simp only [programOf, named, searched]
          rw [program]
          exact missing_enacts loader shell program (Or.inr rfl)
      | notFound =>
          have program : programOf shell machine word = .missing exitNotFound := by
            simp only [programOf, named, searched]
          rw [program]
          exact missing_enacts loader shell program (Or.inl rfl)

end Shell

end CommandShell
