import CommandShell.Builtin.Dispatch
import CommandShell.Proofs.System.Streams

/-!
Built-in commands on a shell whose stores are cut off their files. Each of them reads its
standard input, writes on its standard output and does nothing else to the machine;
what it changes is in the shell's memory. So the files it can change are those its
process has open for output.
-/
namespace CommandShell

/-- What becomes of a machine when a process does nothing but read its standard input and
write on its standard output and error. -/
inductive Process.Talks (process : Process) (before : Machine) : Machine → Prop
  | silent : Talks process before before
  | hears {between : Machine} (count : Nat) (talks : Talks process before between) :
      Talks process before (process.consume standardInput count between)
  | speaks {between : Machine} (fd : Nat) (shown : fd = standardOutput ∨ fd = standardError)
      (bytes : Bytes) (talks : Talks process before between) :
      Talks process before (process.put fd bytes between)

namespace Process.Talks

variable {process : Process} {before after : Machine}

theorem grown (talks : process.Talks before after) : Machine.Extends before after := by
  induction talks with
  | silent => exact .refl before
  | hears count talks ih =>
      refine ih.trans ?_
      unfold Process.consume
      split
      · exact .consume _ _ _
      · exact .refl _
  | speaks fd shown bytes talks ih =>
      refine ih.trans ?_
      rw [Process.put_eq]
      split
      · exact .put _ _ _
      · exact .refl _

/-- A file that stands behind neither of the outputs is left alone. The outputs have to be
open when the talk begins, since they stay what they are from then on. -/
theorem elsewhere (talks : process.Talks before after) {location : Location}
    (apart : ∀ fd handle, fd = standardOutput ∨ fd = standardError →
      process.descriptors.get? fd = some handle →
        handle < before.streams.length ∧ (before.stream handle).location? ≠ some location) :
    after.tree.node? location = before.tree.node? location := by
  induction talks with
  | silent => rfl
  | hears count talks ih =>
      rw [← ih]
      unfold Process.consume
      split
      · rw [Machine.tree_consume]
      · rfl
  | speaks fd shown bytes talks ih =>
      rw [← ih, Process.put_eq]
      split
      · next handle opened =>
          -- What was said before may have moved the stream, but leads to the same file.
          obtain ⟨old, other⟩ := apart fd handle shown opened
          exact Machine.put_elsewhere (by rw [talks.grown.location? old]; exact other) bytes
      · rfl

theorem trans {first middle last : Machine} (early : process.Talks first middle)
    (late : process.Talks middle last) : process.Talks first last := by
  induction late with
  | silent => exact early
  | hears count talks ih => exact ih.hears count
  | speaks fd shown bytes talks ih => exact ih.speaks fd shown bytes

theorem nextPid (talks : process.Talks before after) : after.nextPid = before.nextPid := by
  induction talks with
  | silent => rfl
  | hears count talks ih =>
      rw [← ih]
      unfold Process.consume
      split
      · exact Machine.nextPid_consume _ _ _
      · rfl
  | speaks fd shown bytes talks ih =>
      rw [← ih, Process.put_eq]
      split
      · exact Machine.nextPid_put _ _ _
      · rfl

theorem complains (talks : process.Talks before after) (line : Text) :
    process.Talks before (process.complain line after) :=
  talks.speaks standardError (Or.inr rfl) _

end Process.Talks

/-- What becomes of a machine when a process does nothing but read its standard input and write
`said` on its standard output, in one piece or in several. -/
inductive Process.Tells (process : Process) (before : Machine) : Bytes → Machine → Prop
  | silent : Tells process before [] before
  | hears {said : Bytes} {between : Machine} (count : Nat)
      (tells : Tells process before said between) :
      Tells process before said (process.consume standardInput count between)
  | speaks {said : Bytes} {between : Machine} (bytes : Bytes)
      (tells : Tells process before said between) :
      Tells process before (said ++ bytes) (process.put standardOutput bytes between)

theorem Process.Tells.talks {process : Process} {before after : Machine} {said : Bytes}
    (tells : process.Tells before said after) : process.Talks before after := by
  induction tells with
  | silent => exact .silent
  | hears count tells ih => exact ih.hears count
  | speaks bytes tells ih => exact ih.speaks standardOutput (.inl rfl) bytes

/-- The same, where no piece was refused. -/
inductive Process.Delivers (process : Process) (before : Machine) : Bytes → Machine → Prop
  | silent : Delivers process before [] before
  | hears {said : Bytes} {between : Machine} (count : Nat)
      (delivers : Delivers process before said between) :
      Delivers process before said (process.consume standardInput count between)
  | speaks {said : Bytes} {between : Machine} (bytes : Bytes)
      (delivers : Delivers process before said between)
      (taken : (process.write standardOutput bytes between).1 = .ok ()) :
      Delivers process before (said ++ bytes) (process.put standardOutput bytes between)

/-- The process says something, or perhaps nothing at all, and succeeds only if no piece of it
was refused. -/
def Process.Prints (process : Process) (before : Machine) (ended : Except Trouble Unit × Machine) :
    Prop :=
  ∃ said, process.Tells before said ended.2 ∧
    (ended.1 = .ok () → process.Delivers before said ended.2)

def Outcome.ended (outcome : Outcome) : Except Trouble Unit × Machine :=
  (outcome.result, outcome.machine)

namespace Process.Prints

variable {process : Process} {before after : Machine} {result : Except Trouble Unit}

theorem silent : process.Prints before (result, before) :=
  ⟨[], .silent, fun _ => .silent⟩

theorem hears (count : Nat) (prints : process.Prints before (.ok (), after)) :
    process.Prints before (.ok (), process.consume standardInput count after) := by
  obtain ⟨said, tells, delivers⟩ := prints
  exact ⟨said, tells.hears count, fun _ => (delivers rfl).hears count⟩

theorem talks (prints : process.Prints before (result, after)) : process.Talks before after := by
  obtain ⟨said, tells, -⟩ := prints
  exact tells.talks

end Process.Prints

theorem asTrouble_eq_ok {result : Except Failure Unit} :
    asTrouble result = .ok () ↔ result = .ok () := by
  cases result <;> simp [asTrouble]

namespace Shell

/-- The shell keeps nothing in files. -/
structure Detached (shell : Shell) : Prop where
  history : shell.history.file = none
  aliases : shell.aliases.file = none

variable {shell : Shell} {before machine : Machine}

theorem speaks (bytes : Bytes) (prints : shell.process.Prints before (.ok (), machine)) :
    shell.process.Prints before (shell.write bytes machine) := by
  obtain ⟨said, tells, delivers⟩ := prints
  refine ⟨said ++ bytes, tells.speaks bytes, fun taken => ?_⟩
  exact (delivers rfl).speaks bytes (asTrouble_eq_ok.mp taken)

theorem looks (result : Except Trouble Unit) (output : Bytes)
    (prints : shell.process.Prints before (.ok (), machine)) :
    shell.process.Prints before (Outcome.look shell machine result output).ended := by
  obtain ⟨said, tells, delivers⟩ := speaks output prints
  refine ⟨said, tells, fun well => delivers ?_⟩
  -- A refusal would have become the result.
  simp only [Outcome.ended, Outcome.look] at well
  split at well
  · assumption
  · cases well

theorem responds (answer : Bytes → Except Failure Unit × Bytes) :
    shell.process.Prints machine (Outcome.respond shell machine answer).ended :=
  looks _ _ (.hears _ .silent)

theorem goOn_prints {done : Except Trouble Unit × Machine}
    {next : Machine → Except Trouble Unit × Machine} (prints : shell.process.Prints before done)
    (onwards : ∀ {machine : Machine}, shell.process.Prints before (.ok (), machine) →
      shell.process.Prints before (next machine)) :
    shell.process.Prints before (goOn done next) := by
  unfold goOn
  split
  · exact onwards prints
  · exact prints

theorem listName_prints (folder name : Text)
    (prints : shell.process.Prints before (.ok (), machine)) :
    shell.process.Prints before (shell.listName folder name machine) := by
  unfold listName
  split
  · exact speaks _ prints
  · exact prints

theorem listNames_prints (folder : Text) (names : List Text)
    (prints : shell.process.Prints before (.ok (), machine)) :
    shell.process.Prints before (shell.listNames folder names machine) := by
  induction names generalizing machine with
  | nil => exact prints
  | cons name rest ih => exact goOn_prints (listName_prints folder name prints) ih

theorem listFolder_prints (long : Bool) (folder : Text)
    (prints : shell.process.Prints before (.ok (), machine)) :
    shell.process.Prints before (shell.listFolder long folder machine) := by
  unfold listFolder
  split
  · obtain ⟨said, tells, -⟩ := prints
    exact ⟨said, tells, fun well => by cases well⟩
  · split
    · exact listNames_prints folder _ prints
    · split
      · exact prints
      · exact speaks _ prints

theorem listFolders_prints (long first : Bool) (folders : List Text)
    (prints : shell.process.Prints before (.ok (), machine)) :
    shell.process.Prints before (shell.listFolders long first folders machine) := by
  induction folders generalizing first machine with
  | nil => exact prints
  | cons folder rest ih =>
      have apart : shell.process.Prints before
          (if first then (.ok (), machine) else shell.writeLine [] machine) := by
        split
        · exact prints
        · exact speaks _ prints
      exact goOn_prints apart fun parted => goOn_prints (speaks _ parted) fun named =>
        goOn_prints (listFolder_prints long folder named) (ih false)

end Shell

namespace AliasStore

theorem commit_detached {store : AliasStore} (loose : store.file = none) (tree : FileTree)
    (cwd : Location) (table : AliasTable) : (store.commit tree cwd table).2.2 = tree := by
  simp [commit, persist, loose]

theorem define_detached {store : AliasStore} (loose : store.file = none) (tree : FileTree)
    (cwd : Location) (name text : Text) : (store.define tree cwd name text).2.2 = tree := by
  unfold define
  split
  · rfl
  · exact commit_detached loose tree cwd _

theorem remove_detached {store : AliasStore} (loose : store.file = none) (tree : FileTree)
    (cwd : Location) (name : Text) : (store.remove tree cwd name).2.2 = tree := by
  unfold remove
  split
  · rfl
  · exact commit_detached loose tree cwd _

end AliasStore

theorem HistoryStore.clear_detached {store : HistoryStore} (loose : store.file = none)
    (tree : FileTree) (cwd : Location) :
    store.clear tree cwd = (.ok (), { store with log := store.log.clear }, tree) := by
  simp [clear, loose]

namespace Builtin

variable {shell : Shell} {machine : Machine}

theorem runDefineAlias_prints (detached : shell.Detached) (arguments : List Text) (line : Text) :
    shell.process.Prints machine (runDefineAlias shell arguments line machine).ended := by
  unfold runDefineAlias
  split
  · exact Shell.looks _ _ .silent
  · split
    · exact Shell.looks _ _ .silent
    · simp only [aliasOutcome, Outcome.ended, AliasStore.define_detached detached.aliases]
      exact .silent

theorem runRemoveAlias_prints (detached : shell.Detached) (arguments : List Text) :
    shell.process.Prints machine (runRemoveAlias shell arguments machine).ended := by
  unfold runRemoveAlias
  split
  · exact Shell.looks _ _ .silent
  · simp only [aliasOutcome, Outcome.ended, AliasStore.remove_detached detached.aliases]
    exact .silent

theorem runShowHistory_prints (arguments : List Text) :
    shell.process.Prints machine (runShowHistory shell arguments machine).ended := by
  unfold runShowHistory
  simp only
  split
  · exact Shell.looks _ _ .silent
  · exact Shell.looks _ _ .silent

theorem runClearHistory_prints (detached : shell.Detached) :
    shell.process.Prints machine (runClearHistory shell machine).ended := by
  unfold runClearHistory
  simp only [HistoryStore.clear_detached detached.history]
  exact Shell.looks _ _ .silent

theorem runListFolder_prints (arguments : List Text) :
    shell.process.Prints machine (runListFolder shell arguments machine).ended := by
  unfold runListFolder
  simp only
  split
  · exact Shell.listFolder_prints _ _ .silent
  · exact Shell.listFolder_prints _ _ .silent
  · exact Shell.listFolders_prints _ _ _ .silent

theorem runShowFiles_prints (arguments : List Text) :
    shell.process.Prints machine (runShowFiles shell arguments machine).ended := by
  unfold runShowFiles
  simp only
  split <;> split
  · exact Shell.responds _
  · exact Shell.looks _ _ .silent
  · exact Shell.responds _
  · exact Shell.looks _ _ .silent

theorem runSearchLines_prints (arguments : List Text) :
    shell.process.Prints machine (runSearchLines shell arguments machine).ended := by
  unfold runSearchLines
  simp only
  split
  · exact Shell.looks _ _ .silent
  · split
    · exact Shell.responds _
    · split
      · exact Shell.looks _ _ .silent
      · split
        · exact Shell.looks _ _ .silent
        · exact Shell.looks _ _ .silent

theorem runExplain_prints (arguments : List Text) :
    shell.process.Prints machine (runExplain shell arguments machine).ended := by
  unfold runExplain
  split
  · exact Shell.looks _ _ .silent
  · exact Shell.looks _ _ .silent

theorem run_prints (detached : shell.Detached) (command : Builtin) (arguments : List Text)
    (line : Text) :
    shell.process.Prints machine (command.run shell arguments line machine).ended := by
  cases command with
  | changeFolder => exact .silent
  | defineAlias => exact runDefineAlias_prints detached arguments line
  | removeAlias => exact runRemoveAlias_prints detached arguments
  | showHistory => exact runShowHistory_prints arguments
  | clearHistory => exact runClearHistory_prints detached
  | leave => exact .silent
  | listFolder => exact runListFolder_prints arguments
  | showFiles => exact runShowFiles_prints arguments
  | searchLines => exact runSearchLines_prints arguments
  | echo => exact Shell.looks _ _ .silent
  | explain => exact runExplain_prints arguments

end Builtin

theorem Shell.dispatch_talks {shell : Shell} (machine : Machine) (detached : shell.Detached)
    (argv : List Text) (line : Text) :
    shell.process.Talks machine (shell.dispatch argv line machine).machine := by
  unfold Shell.dispatch
  split
  · exact .silent
  · exact (Builtin.run_prints detached _ _ line).talks

end CommandShell
