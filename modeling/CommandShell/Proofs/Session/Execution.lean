import CommandShell.Proofs.Builtin.Effects
import CommandShell.Proofs.Job.InPlace
import CommandShell.Proofs.Job.Isolation
import CommandShell.Proofs.Session.SingleWord

/-!
All that carrying out a line can come to. The line is remembered, which may write the history
file, and then it is read: as no pipeline at all, as a single stage with a command that
changes the shell, or as something that leaves the shell's memory alone.
-/
namespace CommandShell

namespace Builtin

theorem ofName?_eq_some {word : Text} {command : Builtin} :
    ofName? word = some command ↔ word = command.name := by
  constructor
  · intro named
    have same : command.name = word := by simpa using List.find?_some named
    exact same.symm
  · rintro rfl
    cases command <;> rfl

end Builtin

theorem parse_blank {table : AliasTable} {names : List Text} {line : Text}
    (blank : isBlankText line = true) : Pipeline.parse table names line = .ok ⟨[], false⟩ := by
  have nothing : trimStart line = [] :=
    List.dropWhile_eq_nil_iff.mpr (List.all_eq_true.mp blank)
  unfold Pipeline.parse expandAlias
  simp only [nothing]
  rfl

namespace Shell

variable (shell : Shell) (line : Text) (machine : Machine)

/-- The file that lines are remembered in. -/
def historyAt? : Option Location :=
  shell.history.file.bind fun path => machine.tree.writesAt? shell.cwd path

/-- What becomes of the tree when a line is remembered: nothing, or the line is appended. -/
inductive Remembers (shell : Shell) (line : Text) (machine : Machine) : FileTree → Prop
  | untouched (passed : ∀ path ∈ shell.history.file, ∀ grown,
      shell.history.log.accepts line = true →
        machine.tree.appendFile shell.cwd path (lineBytes line) ≠ .ok grown) :
      Remembers shell line machine machine.tree
  | appended (path : Path) (grown : FileTree) (file : shell.history.file = some path)
      (accepted : shell.history.log.accepts line = true)
      (written : machine.tree.appendFile shell.cwd path (lineBytes line) = .ok grown) :
      Remembers shell line machine grown

theorem remembering_remembers :
    shell.Remembers line machine (shell.remembering line machine).2.tree := by
  simp only [remembering, record, HistoryStore.record]
  split
  · next accepted =>
      simp only [HistoryStore.append]
      split
      · next kept =>
          refine .untouched ?_
          rw [kept]
          exact fun path file => absurd file (Option.not_mem_none path)
      · next path file =>
          split
          · next written => exact .appended path _ file accepted written
          · next failed =>
              refine .untouched ?_
              rintro _ named grown - written
              cases file.symm.trans named
              cases failed.symm.trans written
  · next refused => exact .untouched fun _ _ _ accepted => absurd accepted refused

variable {shell line machine}

theorem Remembers.grown {tree : FileTree} (remembers : shell.Remembers line machine tree) :
    machine.tree.Grown tree := by
  cases remembers with
  | untouched => exact .refl _
  | appended path grown file accepted written => exact FileTree.grown_editFile written

theorem Remembers.elsewhere {tree : FileTree} (remembers : shell.Remembers line machine tree)
    {location : Location} (apart : shell.historyAt? machine ≠ some location) :
    tree.node? location = machine.tree.node? location := by
  cases remembers with
  | untouched => rfl
  | appended path grown file accepted written =>
      refine FileTree.editFile_elsewhere written fun here => apart ?_
      rw [historyAt?, file, Option.bind_some, here]

theorem remembering_blank (blank : isBlankText line = true) :
    shell.remembering line machine = (shell, machine) := by
  have refused : shell.history.log.accepts line = false := by
    simp [HistoryLog.accepts, blank]
  simp only [remembering, record, HistoryStore.record, refused, Bool.false_eq_true, if_false]

/-- What reading a line comes to, with the shell's aliases and the names of its folder. -/
def reading (shell : Shell) (line : Text) (machine : Machine) :
    Except SyntaxTrouble Pipeline :=
  Pipeline.parse shell.aliases.table (shell.visibleNames machine) line

/-- What carrying out a line leaves, once the line has been remembered. -/
inductive Carried (shell : Shell) (line : Text) (machine : Machine) : Shell × Machine → Prop
  | unread (cause : SyntaxTrouble) (refused : shell.reading line machine = .error cause) :
      Carried shell line machine
        (shell, shell.process.complain (Trouble.ungrammatical cause).notice machine)
  | own (stage : Stage) (background : Bool) (command : Builtin)
      (done : Except Trouble Unit × Shell × Machine)
      (read : shell.reading line machine = .ok ⟨[stage], background⟩)
      (named : Builtin.ofName? stage.name = some command) (mutates : command.mutates = true)
      (runs : shell.RunsHere command stage line machine done) :
      Carried shell line machine (done.2.1, done.2.1.process.report done.1 done.2.2)
  | apart (pipeline : Pipeline) (table : Descriptors) (left : Machine)
      (read : shell.reading line machine = .ok pipeline) (foreign : ownStage? pipeline = none) :
      Carried shell line machine (shell.withDescriptors table, left)

theorem ownStage?_eq_some {pipeline : Pipeline} {stage : Stage} :
    ownStage? pipeline = some stage ↔ pipeline.stages = [stage] ∧
      ∃ command, Builtin.ofName? stage.name = some command ∧ command.mutates = true := by
  unfold ownStage?
  split
  · next only single =>
      rw [single]
      constructor
      · intro own
        split at own
        · next command named =>
            split at own
            · next mutates =>
                cases own
                exact ⟨rfl, command, named, mutates⟩
            · cases own
        · cases own
      · rintro ⟨same, command, named, mutates⟩
        cases same
        simp only [named, mutates, if_true]
  · next several =>
      constructor
      · intro own
        cases own
      · rintro ⟨single, -⟩
        exact absurd single (several stage)

theorem perform_carried (loader : Loader) {pipeline : Pipeline}
    (read : shell.reading line machine = .ok pipeline) :
    shell.Carried line machine (shell.perform loader pipeline line machine) := by
  unfold perform
  split
  · next idle =>
      have foreign : ownStage? pipeline = none := by
        unfold ownStage?
        rw [List.isEmpty_iff.mp idle]
      exact .apart pipeline shell.process.descriptors machine read foreign
  · split
    · next stage own =>
        obtain ⟨single, command, named, mutates⟩ := ownStage?_eq_some.mp own
        obtain ⟨stages, background⟩ := pipeline
        cases single
        exact .own stage background command _ read named mutates
          (shell.runInPlace_runsHere named line machine)
    · next foreign =>
        obtain ⟨limits, settled⟩ := JobScope.exists_settled loader shell pipeline line machine
        obtain ⟨table, same⟩ := JobScope.run_shell ⟨limits, loader, shell, pipeline, line, machine⟩
        have left : (shell.runJob loader pipeline line machine).shell =
            shell.withDescriptors table := (congrArg JobRun.shell settled).trans same
        simp only [left]
        exact .apart pipeline table _ read foreign

theorem Carried.of_own {stage : Stage} {background : Bool} {command : Builtin}
    (read : shell.reading line machine = .ok ⟨[stage], background⟩)
    (named : Builtin.ofName? stage.name = some command) (mutates : command.mutates = true)
    {left : Shell × Machine} (carried : shell.Carried line machine left) :
    ∃ done, shell.RunsHere command stage line machine done ∧
      left = (done.2.1, done.2.1.process.report done.1 done.2.2) := by
  cases carried with
  | unread cause refused => cases read.symm.trans refused
  | own other _ found done again known _ runs =>
      cases read.symm.trans again
      cases named.symm.trans known
      exact ⟨done, runs, rfl⟩
  | apart pipeline table left again foreign =>
      cases read.symm.trans again
      have own : ownStage? ⟨[stage], background⟩ = some stage :=
        ownStage?_eq_some.mpr ⟨rfl, command, named, mutates⟩
      cases foreign.symm.trans own

/-- A line is remembered and then carried out. A blank line is not remembered and comes
to nothing. -/
theorem execute_carried (loader : Loader) (shell : Shell) (line : Text) (machine : Machine) :
    (shell.remembering line machine).1.Carried line (shell.remembering line machine).2
      (shell.execute loader line machine) := by
  cases blank : isBlankText line with
  | true =>
      rw [remembering_blank blank, execute, if_pos blank]
      exact .apart ⟨[], false⟩ shell.process.descriptors machine (parse_blank blank) rfl
  | false =>
      rw [execute_remembering loader shell blank, carryOut]
      split
      · next cause refused => exact .unread cause refused
      · next pipeline read => exact perform_carried loader read

end Shell

end CommandShell
