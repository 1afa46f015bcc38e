import CommandShell.Proofs.Alias.Persistence
import CommandShell.Builtin.Dispatch

/-!
What a built-in command leaves in the shell's memory. A command that only looks leaves the
shell as it was. Of the others each has its own part: the aliases, the working folder, the
history or the wish to stop.
-/
namespace CommandShell

namespace Builtin

/-- The alias table after a command, with its arguments and the line it is read from. -/
def tableAfter (command : Builtin) (table : AliasTable) (arguments : List Text) (line : Text) :
    AliasTable :=
  match command with
  | .defineAlias => if arguments.isEmpty then table else table.insertLines [lineBody line]
  | .removeAlias =>
      match arguments with
      | [] => table
      | name :: _ => (table.erase name).toOption.getD table
  | _ => table

/-- The working folder after a command. -/
def folderAfter (command : Builtin) (shell : Shell) (arguments : List Text) (machine : Machine) :
    Location :=
  match command with
  | .changeFolder => (shell.changeFolder machine arguments).2.cwd
  | _ => shell.cwd

variable (shell : Shell) (arguments : List Text) (line : Text) (machine : Machine)

theorem runShowFiles_shell : (runShowFiles shell arguments machine).shell = shell := by
  unfold runShowFiles
  simp only
  split <;> split <;> rfl

theorem runSearchLines_shell : (runSearchLines shell arguments machine).shell = shell := by
  unfold runSearchLines
  simp only
  split
  · rfl
  · split
    · rfl
    · split
      · rfl
      · split <;> rfl

theorem runExplain_shell : (runExplain shell arguments machine).shell = shell := by
  unfold runExplain
  split <;> rfl

theorem run_looks {command : Builtin} (looks : command.mutates = false) :
    (command.run shell arguments line machine).shell = shell := by
  cases command with
  | changeFolder | defineAlias | removeAlias | showHistory | clearHistory | leave => cases looks
  | listFolder => rfl
  | showFiles => exact runShowFiles_shell shell arguments machine
  | searchLines => exact runSearchLines_shell shell arguments machine
  | echo => rfl
  | explain => exact runExplain_shell shell arguments machine

theorem runDefineAlias_shell :
    (runDefineAlias shell arguments line machine).shell = { shell with
      aliases := { shell.aliases with
        table := tableAfter .defineAlias shell.aliases.table arguments line } } := by
  unfold runDefineAlias tableAfter
  split
  · rfl
  · simp only [AliasTable.insertLines_one]
    cases AliasEntry.define? (lineBody line) with
    | none => rfl
    | some entry => simp only [aliasOutcome, AliasStore.define_store]

theorem runRemoveAlias_shell :
    (runRemoveAlias shell arguments machine).shell = { shell with
      aliases := { shell.aliases with
        table := tableAfter .removeAlias shell.aliases.table arguments line } } := by
  unfold runRemoveAlias tableAfter
  split
  · rfl
  · rw [aliasOutcome, AliasStore.remove_store]

theorem runShowHistory_shell : (runShowHistory shell arguments machine).shell = shell := by
  unfold runShowHistory
  simp only
  split <;> rfl

theorem runClearHistory_shell :
    ∃ log, (runClearHistory shell machine).shell =
      { shell with history := { shell.history with log := log } } := by
  have kept : (shell.history.clear machine.tree shell.cwd).2.1 =
      { shell.history with log := shell.history.log.clear } := by
    unfold HistoryStore.clear
    simp only
    split
    · rfl
    · split
      · rfl
      · rfl
  refine ⟨shell.history.log.clear, ?_⟩
  rw [← kept]
  unfold runClearHistory
  simp only
  split
  · rfl
  · rfl

theorem changeFolder_shell :
    (shell.changeFolder machine arguments).2 = { shell with
      process := { shell.process with cwd := (shell.changeFolder machine arguments).2.cwd } } := by
  unfold Shell.changeFolder
  split
  · rfl
  · simp only
    split <;> rfl

/-- What may be different in the shell after a command. The descriptors, the environment and the
settings are never touched. -/
structure Leaves (command : Builtin) (after : Shell) : Prop where
  aliases : after.aliases = { shell.aliases with
    table := command.tableAfter shell.aliases.table arguments line }
  exiting : after.exiting = (shell.exiting || command == .leave)
  process : after.process = { shell.process with
    cwd := command.folderAfter shell arguments machine }
  config : after.config = shell.config

theorem run_leaves (command : Builtin) :
    Leaves shell arguments line machine command (command.run shell arguments line machine).shell := by
  cases command with
  | changeFolder =>
      have done : (run .changeFolder shell arguments line machine).shell =
          (shell.changeFolder machine arguments).2 := rfl
      rw [done, changeFolder_shell]
      exact ⟨rfl, (Bool.or_false _).symm, rfl, rfl⟩
  | defineAlias =>
      rw [run, runDefineAlias_shell]
      exact ⟨rfl, (Bool.or_false _).symm, rfl, rfl⟩
  | removeAlias =>
      rw [run, runRemoveAlias_shell shell arguments line]
      exact ⟨rfl, (Bool.or_false _).symm, rfl, rfl⟩
  | showHistory =>
      rw [run, runShowHistory_shell]
      exact ⟨rfl, (Bool.or_false _).symm, rfl, rfl⟩
  | clearHistory =>
      obtain ⟨history, cleared⟩ := runClearHistory_shell shell machine
      rw [run, cleared]
      exact ⟨rfl, (Bool.or_false _).symm, rfl, rfl⟩
  | leave => exact ⟨rfl, (Bool.or_true _).symm, rfl, rfl⟩
  | listFolder | showFiles | searchLines | echo | explain =>
      rw [run_looks shell arguments line machine rfl]
      exact ⟨rfl, (Bool.or_false _).symm, rfl, rfl⟩

end Builtin

end CommandShell
