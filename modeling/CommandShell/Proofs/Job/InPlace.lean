import CommandShell.Job.InPlace
import CommandShell.Proofs.Job.Targets
import CommandShell.Proofs.System.Growth

/-!
A command that runs in the shell itself, behind its own redirections. When a target is refused
the command does not run, and the file tree is as it was. When both targets open, the
command runs in a shell that differs by its descriptors alone, on a tree where nothing but
the file of the output has been emptied.
-/
namespace CommandShell

/-- What opening the targets of a command leaves of a machine. -/
structure Opened (output : Option Text) (cwd : Location) (before after : Machine) : Prop where
  kept : output = none → after.tree = before.tree
  emptied : ∀ path ∈ output, before.tree.writeFile cwd (encode path) [] = .ok after.tree
  account : after.account = before.account
  pids : after.nextPid = before.nextPid

theorem Opened.untouched {cwd : Location} {before after : Machine}
    (tree : after.tree = before.tree) (account : after.account = before.account)
    (pids : after.nextPid = before.nextPid) : Opened none cwd before after :=
  ⟨fun _ => tree, fun _ inside => (nomatch inside), account, pids⟩

theorem Opened.elsewhere {output : Option Text} {cwd location : Location}
    {before after : Machine} (opened : Opened output cwd before after)
    (apart : ∀ path ∈ output, before.tree.writesAt? cwd (encode path) ≠ some location) :
    after.tree.node? location = before.tree.node? location := by
  cases output with
  | none => rw [opened.kept rfl]
  | some path => exact FileTree.editFile_elsewhere (opened.emptied path rfl) (apart path rfl)

theorem Opened.grown {output : Option Text} {cwd : Location} {before after : Machine}
    (opened : Opened output cwd before after) : before.tree.Grown after.tree := by
  cases output with
  | none =>
      rw [opened.kept rfl]
      exact .refl _
  | some path => exact FileTree.grown_editFile (opened.emptied path rfl)

theorem Opened.after_input {output : Option Text} {cwd : Location} {before between after : Machine}
    (input : Opened none cwd before between) (opened : Opened output cwd between after) :
    Opened output cwd before after := by
  have sameTree : between.tree = before.tree := input.kept rfl
  refine ⟨fun none => (opened.kept none).trans sameTree, ?_, ?_, ?_⟩
  · rw [← sameTree]
    exact opened.emptied
  · exact opened.account.trans input.account
  · exact opened.pids.trans input.pids

namespace Machine

theorem openForReading_machine {machine after : Machine} {cwd : Location} {path : Path}
    {handle : Handle} (opened : machine.openForReading cwd path = .ok (handle, after)) :
    ∃ stream, after = (machine.addStream stream).2 := by
  unfold openForReading at opened
  split at opened
  · cases opened
  · cases opened
    exact ⟨_, rfl⟩
  · cases opened
    exact ⟨_, rfl⟩

theorem openForWriting_machine {machine after : Machine} {cwd : Location} {path : Path}
    {handle : Handle} (opened : machine.openForWriting cwd path = .ok (handle, after)) :
    ∃ tree stream, machine.tree.writeFile cwd path [] = .ok tree ∧
      after = ((machine.withTree tree).addStream stream).2 := by
  unfold openForWriting at opened
  unfold FileTree.writeFile FileTree.editFile
  cases target : machine.tree.writeTarget cwd path with
  | error failure =>
      rw [target] at opened
      cases opened
  | ok arrival =>
      rw [target] at opened
      cases arrival with
      | absent folder name =>
          cases opened
          exact ⟨_, _, rfl, rfl⟩
      | present location node =>
          cases node with
          | file | folder | link | void =>
              cases opened
              exact ⟨_, _, rfl, rfl⟩

end Machine

theorem Opened.of_reading {machine left : Machine} {cwd : Location} {path : Path} {handle : Handle}
    (opened : machine.openForReading cwd path = .ok (handle, left)) :
    Opened none cwd machine left := by
  obtain ⟨stream, rfl⟩ := Machine.openForReading_machine opened
  exact .untouched rfl rfl rfl

theorem Opened.of_writing {machine left : Machine} {cwd : Location} {path : Text} {handle : Handle}
    (opened : machine.openForWriting cwd (encode path) = .ok (handle, left)) :
    Opened (some path) cwd machine left := by
  obtain ⟨tree, stream, emptied, rfl⟩ := Machine.openForWriting_machine opened
  refine ⟨fun contra => (nomatch contra), ?_, rfl, rfl⟩
  rintro _ ⟨⟩
  exact emptied

namespace Shell

/-- What pointing a standard stream at its target comes to. Without a target nothing happens. -/
inductive Points (shell : Shell) (fd : Nat) (target : Option Text)
    (opening : Path → Except Failure (Handle × Machine)) (machine : Machine) :
    List Diverted → Shell → Machine → Prop
  | straight (untargeted : target = none) : Points shell fd target opening machine [] shell machine
  | around (path : Text) (handle : Handle) (left : Machine) (given : target = some path)
      (opened : opening (encode path) = .ok (handle, left)) :
      Points shell fd target opening machine [(shell.process.descriptors.divert handle fd).1]
        (shell.withDescriptors (shell.process.descriptors.divert handle fd).2) left

variable {shell after : Shell} {target : Option Text} {machine left : Machine}
  {diverted : List Diverted} {trouble : Trouble}

theorem Points.shell_eq {fd : Nat} {opening : Path → Except Failure (Handle × Machine)}
    (points : shell.Points fd target opening machine diverted after left) :
    ∃ table, after = shell.withDescriptors table := by
  cases points with
  | straight untargeted => exact ⟨shell.process.descriptors, rfl⟩
  | around path handle left given opened => exact ⟨_, rfl⟩

theorem divertInput_ok (done : shell.divertInput target machine = .ok (diverted, after, left)) :
    machine.tree.Readable shell.cwd target ∧ Opened none shell.cwd machine left ∧
      shell.Points standardInput target (machine.openForReading shell.cwd) machine
        diverted after left := by
  unfold divertInput at done
  cases target with
  | none =>
      cases done
      exact ⟨granted_none _, .untouched rfl rfl rfl, .straight rfl⟩
  | some path =>
      cases opened : machine.openForReading shell.cwd (encode path) with
      | error failure =>
          simp only [opened] at done
          cases done
      | ok new =>
          simp only [opened] at done
          cases done
          refine ⟨?_, .of_reading opened, .around path new.1 new.2 rfl opened⟩
          have ⟨_, _, found, _⟩ := (Machine.openForReading_ok opened).2.1
          rintro _ ⟨⟩
          exact ⟨_, found⟩

theorem divertOutput_ok (done : shell.divertOutput target machine = .ok (diverted, after, left)) :
    machine.tree.Writable shell.cwd target ∧ Opened target shell.cwd machine left ∧
      shell.Points standardOutput target (machine.openForWriting shell.cwd) machine
        diverted after left := by
  unfold divertOutput at done
  cases target with
  | none =>
      cases done
      exact ⟨granted_none _, .untouched rfl rfl rfl, .straight rfl⟩
  | some path =>
      cases opened : machine.openForWriting shell.cwd (encode path) with
      | error failure =>
          simp only [opened] at done
          cases done
      | ok new =>
          simp only [opened] at done
          cases done
          refine ⟨?_, .of_writing opened, .around path new.1 new.2 rfl opened⟩
          rintro _ ⟨⟩
          cases found : machine.tree.writeTarget shell.cwd (encode path) with
          | error failure => cases opened.symm.trans (Machine.openForWriting_error.mpr found)
          | ok arrival => exact ⟨arrival, found⟩

theorem divertInput_error (refused : shell.divertInput target machine = .error trouble) :
    ∃ path failure, target = some path ∧ trouble = .redirect path failure ∧
      machine.tree.open? shell.cwd (encode path) = .error failure := by
  unfold divertInput at refused
  cases target with
  | none => cases refused
  | some path =>
      cases opened : machine.openForReading shell.cwd (encode path) with
      | ok new =>
          simp only [opened] at refused
          cases refused
      | error failure =>
          simp only [opened] at refused
          cases refused
          exact ⟨path, failure, rfl, rfl, Machine.openForReading_error.mp opened⟩

theorem divertOutput_error (refused : shell.divertOutput target machine = .error trouble) :
    ∃ path failure, target = some path ∧ trouble = .redirect path failure ∧
      machine.tree.writeTarget shell.cwd (encode path) = .error failure := by
  unfold divertOutput at refused
  cases target with
  | none => cases refused
  | some path =>
      cases opened : machine.openForWriting shell.cwd (encode path) with
      | ok new =>
          simp only [opened] at refused
          cases refused
      | error failure =>
          simp only [opened] at refused
          cases refused
          exact ⟨path, failure, rfl, rfl, Machine.openForWriting_error.mp opened⟩

variable (shell)

structure Opens (stage : Stage) (machine : Machine) : Prop where
  input : machine.tree.Readable shell.cwd stage.input
  output : machine.tree.Writable shell.cwd stage.output

/-- What running a command in the shell comes to. -/
inductive RunsHere (command : Builtin) (stage : Stage) (line : Text) (machine : Machine) :
    Except Trouble Unit × Shell × Machine → Prop
  | refused (trouble : Trouble) (table : Descriptors) (left : Machine)
      (denied : ¬ shell.Opens stage machine) (opened : Opened none shell.cwd machine left) :
      RunsHere command stage line machine (.error trouble, shell.withDescriptors table, left)
  | ran (table back : Descriptors) (left : Machine) (done : Outcome)
      (granted : shell.Opens stage machine) (opened : Opened stage.output shell.cwd machine left)
      (runs : command.run (shell.withDescriptors table) (stage.argv.drop 1) line left = done) :
      RunsHere command stage line machine
        (done.result, done.shell.withDescriptors back, done.machine)

theorem dispatch_stage (shell : Shell) {stage : Stage} {command : Builtin}
    (named : Builtin.ofName? stage.name = some command) (line : Text) (machine : Machine) :
    shell.dispatch stage.argv line machine =
      let done := command.run shell (stage.argv.drop 1) line machine
      ⟨done.result.map fun _ => true, done.shell, done.machine⟩ := by
  unfold Stage.name at named
  unfold dispatch
  cases words : stage.argv with
  | nil =>
      rw [words] at named
      cases named
  | cons first rest =>
      rw [words] at named
      simp only [Builtin.ofWords?, show Builtin.ofName? first = some command from named]

theorem runInPlace_runsHere {stage : Stage} {command : Builtin}
    (named : Builtin.ofName? stage.name = some command) (line : Text) (machine : Machine) :
    shell.RunsHere command stage line machine (shell.runInPlace stage line machine) := by
  unfold runInPlace
  cases fedIn : shell.divertInput stage.input machine with
  | error trouble =>
      obtain ⟨path, failure, target, -, denied⟩ := divertInput_error fedIn
      have unread : ¬ machine.tree.Readable shell.cwd stage.input :=
        not_granted.mpr ⟨path, failure, target, denied⟩
      exact .refused trouble shell.process.descriptors machine (fun opens => unread opens.input)
        (.untouched rfl rfl rfl)
  | ok fed =>
      obtain ⟨input, after, fed⟩ := fed
      obtain ⟨readable, openedIn, points⟩ := divertInput_ok fedIn
      obtain ⟨between, rfl⟩ := points.shell_eq
      -- The output is looked up after the input is open, on the same tree.
      have sameTree : fed.tree = machine.tree := openedIn.kept rfl
      simp only
      cases fedOut : (shell.withDescriptors between).divertOutput stage.output fed with
      | error trouble =>
          obtain ⟨path, failure, target, -, denied⟩ := divertOutput_error fedOut
          have unwritten : ¬ fed.tree.Writable shell.cwd stage.output :=
            not_granted.mpr ⟨path, failure, target, denied⟩
          exact .refused trouble _ fed (fun opens => unwritten (sameTree ▸ opens.output)) openedIn
      | ok opened =>
          obtain ⟨output, last, left⟩ := opened
          obtain ⟨writable, openedOut, points⟩ := divertOutput_ok fedOut
          obtain ⟨table, rfl⟩ := points.shell_eq
          have twice : ∀ result : Except Trouble Unit,
              ((result.map fun _ => true).map fun _ => ()) = result := by
            rintro (_ | ⟨⟩) <;> rfl
          simp only [dispatch_stage _ named, twice]
          exact .ran table _ left _ ⟨readable, sameTree ▸ writable⟩
            (openedIn.after_input openedOut) rfl

end Shell

end CommandShell
