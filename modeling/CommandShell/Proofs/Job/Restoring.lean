import CommandShell.Proofs.Builtin.Printing
import CommandShell.Proofs.Builtin.Writing
import CommandShell.Proofs.Job.Diverting

/-!
A stage in the shell, from the first target to the last stream that is put back. Whatever
becomes of it, the shell has the streams that it had and no others. A target that is refused
leaves the shell as it was, and the stage is not run. When both targets open, the stage finds
them in the place of the standard streams, and all that it says lands in the output.
-/
namespace CommandShell

namespace Shell

/-- What a stage makes of the tree before it says anything: it writes the file of a store, if it
is a command with something to store. -/
inductive Saves (shell : Shell) (stage : Stage) (line : Text) (before : FileTree) : FileTree → Prop
  | nothing (quiet : ∀ command store, Builtin.ofName? stage.name = some command →
      ¬ Builtin.Stores shell.aliases.table command (stage.argv.drop 1) line store) :
      Saves shell stage line before before
  | stored (command : Builtin) (store : Store) (after : FileTree)
      (named : Builtin.ofName? stage.name = some command)
      (stores : Builtin.Stores shell.aliases.table command (stage.argv.drop 1) line store)
      (wrote : shell.Wrote store before after) : Saves shell stage line before after

/-- What a stage has said lands at a path. The file there holds it and nothing else, unless the
stage has stored something in that very file, which it is written over then. No other file has
got any of it, and nothing that was open before. -/
structure Lands (shell : Shell) (path : Path) (machine begun : Machine) (saved : FileTree)
    (said : Bytes) (left : Machine) : Prop where
  alone : ∀ location, machine.tree.writesAt? shell.cwd path = some location →
    (∀ store, shell.storeAt? store begun.tree ≠ some location) →
      ∃ mode, left.tree.node? location = some (.file said mode)
  stored : ∀ location, machine.tree.writesAt? shell.cwd path = some location →
    ∃ data mode, saved.node? location = some (.file data mode) ∧
      left.tree.node? location = some (.file (FileTree.patch data 0 said) mode)
  elsewhere : ∀ location, machine.tree.writesAt? shell.cwd path ≠ some location →
    left.tree.node? location = saved.node? location
  spares : machine.Spares (shell.process.descriptors.get? standardInput) left

variable {shell : Shell} {stage : Stage} {line : Text}

namespace Saves

variable {before after : FileTree}

theorem grown (saves : shell.Saves stage line before after) : before.Grown after := by
  cases saves with
  | nothing => exact .refl before
  | stored command store after named stores wrote => exact wrote.grown

theorem elsewhere (saves : shell.Saves stage line before after) {location : Location}
    (apart : ∀ store, shell.storeAt? store before ≠ some location) :
    after.node? location = before.node? location := by
  cases saves with
  | nothing => rfl
  | stored command store after named stores wrote => exact wrote.elsewhere (apart store)

end Saves

theorem dispatch_tells (shell : Shell) (stage : Stage) (line : Text) (machine : Machine) :
    ∃ saved said, shell.Saves stage line machine.tree saved ∧
      shell.process.Tells (machine.withTree saved) said
        (shell.dispatch stage.argv line machine).machine := by
  cases named : Builtin.ofName? stage.name with
  | none =>
      have unknown : Builtin.ofWords? stage.argv = none := by
        unfold Stage.name at named
        cases words : stage.argv with
        | nil => rfl
        | cons first rest =>
            rw [words] at named
            exact named
      have idle : (shell.dispatch stage.argv line machine).machine = machine := by
        simp only [dispatch, unknown]
      rw [idle]
      exact ⟨machine.tree, [], .nothing (by simp [named]), .silent⟩
  | some command =>
      rw [dispatch_stage shell named]
      have writes : Builtin.Writes shell command (stage.argv.drop 1) line machine
          (command.run shell (stage.argv.drop 1) line machine).ended :=
        Builtin.run_writes command _ line
      cases writes with
      | quiet nothing prints =>
          obtain ⟨said, tells, -⟩ := prints
          refine ⟨machine.tree, said, .nothing ?_, tells⟩
          intro other store known
          cases named.symm.trans known
          exact nothing store
      | stored store saved stores wrote prints =>
          obtain ⟨said, tells, -⟩ := prints
          exact ⟨saved, said, .stored command store saved named stores wrote, tells⟩

variable {machine begun left : Machine} {table : Descriptors} {saved : FileTree} {said : Bytes}

theorem Behind.lands (behind : shell.Behind stage machine table begun)
    (saves : (shell.withDescriptors table).Saves stage line begun.tree saved)
    (tells : (shell.withDescriptors table).process.Tells (begun.withTree saved) said left)
    {path : Text} (target : path ∈ stage.output) :
    (shell.withDescriptors table).Lands (encode path) machine begun saved said left := by
  obtain ⟨own, output, new, writes, unread⟩ := behind.output path target
  have known : own < begun.streams.length := behind.fits _ own output
  constructor
  case alone =>
    intro location leads unstored
    obtain ⟨stream, mode, empty⟩ := writes.file leads
    have still := (saves.elsewhere unstored).trans empty
    have holds := (tells.lands output unread stream still).2
    rw [FileTree.patch_empty] at holds
    exact ⟨mode, holds⟩
  case stored =>
    intro location leads
    obtain ⟨stream, mode, empty⟩ := writes.file leads
    obtain ⟨data, still⟩ := saves.grown.file empty
    exact ⟨data, mode, still, (tells.lands output unread stream still).2⟩
  case elsewhere =>
    exact fun location apart => tells.elsewhere output known (writes.elsewhere apart)
  case spares =>
    exact tells.spares (.of_kept _ behind.kept behind.pipes) output new known writes.noPipe

/-- Redirections of a stage in the shell are undone on every path, and while they last they take
all that the stage says. -/
theorem runInPlace_restores (ready : shell.Ready machine) (stage : Stage) (line : Text) :
    let done := shell.runInPlace stage line machine
    done.2.1.process.descriptors.Matches shell.process.descriptors ∧
    (¬ machine.tree.Readable shell.cwd stage.input →
      (∃ path failure, stage.input = some path ∧ done.1 = .error (.redirect path failure)) ∧
      done.2.1 = shell ∧ done.2.2 = machine) ∧
    (machine.tree.Readable shell.cwd stage.input → ¬ machine.tree.Writable shell.cwd stage.output →
      (∃ path failure, stage.output = some path ∧ done.1 = .error (.redirect path failure)) ∧
      done.2.1 = shell.withDescriptors done.2.1.process.descriptors ∧
      done.2.2.tree = machine.tree ∧ machine.Spares none done.2.2) ∧
    (shell.Opens stage machine → ∃ table begun, shell.Behind stage machine table begun ∧
      let inner := shell.withDescriptors table
      let ran := inner.dispatch stage.argv line begun
      ran.shell.process.descriptors = table ∧
      done = (ran.result.map fun _ => (),
        ran.shell.withDescriptors done.2.1.process.descriptors, ran.machine) ∧
      ∃ saved said, inner.Saves stage line begun.tree saved ∧
        inner.process.Tells (begun.withTree saved) said ran.machine ∧
        ∀ path ∈ stage.output, inner.Lands (encode path) machine begun saved said ran.machine) := by
  intro done
  have runs : shell.RunsBehind stage line machine done := runInPlace_behind ready stage line
  generalize done = done at runs
  cases runs with
  | unread path failure target denied =>
      have refused : ¬ machine.tree.Readable shell.cwd stage.input :=
        not_granted.mpr ⟨path, failure, target, denied⟩
      refine ⟨fun _ => rfl, fun _ => ⟨⟨path, failure, target, rfl⟩, rfl, rfl⟩, ?_, ?_⟩
      · exact fun readable => absurd readable refused
      · exact fun opens => absurd opens.input refused
  | unwritten path failure table fed readable target denied same tree grown kept pipes =>
      have refused : ¬ machine.tree.Writable shell.cwd stage.output :=
        not_granted.mpr ⟨path, failure, target, denied⟩
      refine ⟨same, fun unread => absurd readable unread, ?_, ?_⟩
      · exact fun _ _ => ⟨⟨path, failure, target, rfl⟩, rfl, tree, .of_kept none kept pipes⟩
      · exact fun opens => absurd opens.output refused
  | ran table back begun ran granted behind runs same =>
      subst runs
      refine ⟨same, fun unread => absurd granted.input unread,
        fun _ unwritten => absurd granted.output unwritten, fun _ => ?_⟩
      obtain ⟨saved, said, saves, tells⟩ :=
        dispatch_tells (shell.withDescriptors table) stage line begun
      exact ⟨table, begun, behind, dispatch_descriptors _ _ _ _, rfl, saved, said, saves, tells,
        fun path target => behind.lands saves tells target⟩

/-- The list of the aliases goes to a new file, and nothing of it to the outlet of the shell. -/
theorem alias_list_redirected :
    let scope := JobScope.plain .idle .empty []
    let shell : Shell := { scope.shell with aliases := ⟨⟨[⟨['l'], "ls".toList⟩], 1⟩, none⟩ }
    let stage : Stage := ⟨["alias".toList], none, some "h".toList⟩
    let done := shell.runInPlace stage "alias > h".toList scope.machine
    shell.Ready scope.machine ∧ shell.Opens stage scope.machine ∧
      done.2.1.process.descriptors.Matches shell.process.descriptors ∧
      done.2.2.tree.node? [[104]] = some (.file (encode "alias l='ls'\n".toList) newFileMode) ∧
      scope.machine.Spares (some 0) done.2.2 := by
  intro scope shell stage done
  have ready : shell.Ready scope.machine := ⟨JobScope.plain_fits .idle .empty [], by decide⟩
  have name : encode "h".toList = [104] := by decide
  have writable : scope.machine.tree.writeTarget shell.cwd (encode "h".toList) =
      .ok (.absent [] [104]) := by
    rw [name]
    exact FileTree.missing_target
  have granted : shell.Opens stage scope.machine := by
    refine ⟨granted_none _, ?_⟩
    rintro _ ⟨⟩
    exact ⟨_, writable⟩
  have written : done.2.2.tree.node? [[104]] =
      some (.file (encode "alias l='ls'\n".toList) newFileMode) := by
    simp only [done, runInPlace, divertInput, divertOutput, stage, Machine.openForWriting, writable]
    rfl
  obtain ⟨same, -, -, opened⟩ := runInPlace_restores ready stage "alias > h".toList
  obtain ⟨table, begun, behind, -, result, saved, said, -, -, lands⟩ := opened granted
  have input : table.get? standardInput = some 0 :=
    behind.others standardInput (by decide) (fun _ => rfl) fun contra => absurd contra (by decide)
  have spares := (lands "h".toList rfl).spares
  rw [withDescriptors, input] at spares
  have left : done.2.2 = _ := congrArg (fun outcome => outcome.2.2) result
  exact ⟨ready, granted, same, written, left ▸ spares⟩

end Shell

end CommandShell
