import CommandShell.Proofs.Builtin.Detached
import CommandShell.Proofs.Builtin.Effects
import CommandShell.Proofs.System.Contents

/-!
Built-in commands of a shell that keeps its stores in files. A command writes the file of one
store at most, at a path that is looked up from the working folder, and only when it clears
the history or has a change of the aliases to write down. All else that it does to the
machine is to read its input and write on its outputs.
-/
namespace CommandShell

/-- What a shell keeps in a file. -/
inductive Store
  | history
  | aliases
  deriving Repr, DecidableEq

namespace Shell

def file? (shell : Shell) : Store → Option Path
  | .history => shell.history.file
  | .aliases => shell.aliases.file

/-- The file that the store is written to, as the path leads there now. -/
def storeAt? (shell : Shell) (store : Store) (tree : FileTree) : Option Location :=
  (shell.file? store).bind fun path => tree.writesAt? shell.cwd path

/-- What writing a store makes of a tree: its file is edited, if there is one that can be
written. -/
inductive Wrote (shell : Shell) (store : Store) (before : FileTree) : FileTree → Prop
  | untouched (unable : ∀ path ∈ shell.file? store, ∃ failure,
      before.writeTarget shell.cwd path = .error failure) : Wrote shell store before before
  | edited (path : Path) (edit : Bytes → Bytes) (after : FileTree)
      (file : shell.file? store = some path)
      (done : before.editFile shell.cwd path edit = .ok after) : Wrote shell store before after

variable {shell : Shell} {store : Store} {before after : FileTree}

theorem Wrote.of_edit {path : Path} (file : shell.file? store = some path) (edit : Bytes → Bytes)
    {result : Except Failure FileTree} (done : before.editFile shell.cwd path edit = result) :
    shell.Wrote store before (result.toOption.getD before) := by
  cases result with
  | ok after => exact .edited path edit after file done
  | error failure =>
      refine .untouched ?_
      rintro _ known
      cases file.symm.trans known
      exact ⟨failure, FileTree.editFile_eq_error.mp done⟩

theorem Wrote.of_loose (loose : shell.file? store = none) : shell.Wrote store before before :=
  .untouched fun _ known => absurd (loose ▸ known) (Option.not_mem_none _)

theorem Wrote.grown (wrote : shell.Wrote store before after) : before.Grown after := by
  cases wrote with
  | untouched => exact .refl before
  | edited path edit after file done => exact FileTree.grown_editFile done

theorem Wrote.elsewhere (wrote : shell.Wrote store before after) {location : Location}
    (apart : shell.storeAt? store before ≠ some location) :
    after.node? location = before.node? location := by
  cases wrote with
  | untouched => rfl
  | edited path edit after file done =>
      refine FileTree.editFile_elsewhere done fun here => apart ?_
      rw [storeAt?, file, Option.bind_some, here]

end Shell

namespace AliasStore

theorem commit_wrote {shell : Shell} {tree : FileTree} (table : AliasTable) :
    shell.Wrote .aliases tree (shell.aliases.commit tree shell.cwd table).2.2 := by
  rw [commit, persist]
  simp only
  cases file : shell.aliases.file with
  | none => exact .of_loose file
  | some path =>
      have known : shell.file? .aliases = some path := file
      simp only
      cases done : tree.writeFile shell.cwd path table.fileContent with
      | ok written => exact Shell.Wrote.of_edit known _ done
      | error failure => exact Shell.Wrote.of_edit known _ done

end AliasStore

namespace Builtin

/-- The command has something to write to the file of the store. -/
inductive Stores (table : AliasTable) : Builtin → List Text → Text → Store → Prop
  | clear (arguments : List Text) (line : Text) : Stores table .clearHistory arguments line .history
  | define (arguments : List Text) (line : Text) (entry : AliasEntry) (next : AliasTable)
      (given : arguments ≠ []) (defines : AliasEntry.define? (lineBody line) = some entry)
      (inserted : table.insert entry.name entry.text = .ok next) :
      Stores table .defineAlias arguments line .aliases
  | remove (name : Text) (others : List Text) (line : Text) (next : AliasTable)
      (erased : table.erase name = .ok next) :
      Stores table .removeAlias (name :: others) line .aliases

/-- Either the command writes no store, or it writes one and then goes on from there. -/
inductive Writes (shell : Shell) (command : Builtin) (arguments : List Text) (line : Text)
    (machine : Machine) (ended : Except Trouble Unit × Machine) : Prop
  | quiet (nothing : ∀ store, ¬ Stores shell.aliases.table command arguments line store)
      (prints : shell.process.Prints machine ended) :
      Writes shell command arguments line machine ended
  | stored (store : Store) (tree : FileTree)
      (stores : Stores shell.aliases.table command arguments line store)
      (wrote : shell.Wrote store machine.tree tree)
      (prints : shell.process.Prints (machine.withTree tree) ended) :
      Writes shell command arguments line machine ended

namespace Writes

variable {shell : Shell} {command : Builtin} {arguments : List Text} {line : Text}
  {machine : Machine} {ended : Except Trouble Unit × Machine}

theorem grown (writes : Writes shell command arguments line machine ended) :
    Machine.Extends machine ended.2 := by
  cases writes with
  | quiet nothing prints => exact prints.talks.grown
  | stored store tree stores wrote prints =>
      exact (Machine.Extends.withTree machine tree).trans prints.talks.grown

theorem elsewhere (writes : Writes shell command arguments line machine ended) {location : Location}
    (apart : ∀ fd handle, fd = standardOutput ∨ fd = standardError →
      shell.process.descriptors.get? fd = some handle →
        handle < machine.streams.length ∧ (machine.stream handle).location? ≠ some location)
    (unstored : ∀ store, Stores shell.aliases.table command arguments line store →
      shell.storeAt? store machine.tree ≠ some location) :
    ended.2.tree.node? location = machine.tree.node? location := by
  cases writes with
  | quiet nothing prints => exact prints.talks.elsewhere apart
  | stored store tree stores wrote prints =>
      have said : ended.2.tree.node? location = tree.node? location := prints.talks.elsewhere apart
      exact said.trans (wrote.elsewhere (unstored store stores))

end Writes

variable {shell : Shell} {machine : Machine}

theorem runDefineAlias_writes (arguments : List Text) (line : Text) :
    Writes shell .defineAlias arguments line machine
      (runDefineAlias shell arguments line machine).ended := by
  rw [runDefineAlias]
  cases arguments with
  | nil =>
      refine .quiet ?_ (Shell.looks _ _ .silent)
      intro store stores
      cases stores with
      | define _ _ entry next given => exact given rfl
  | cons first rest =>
      rw [if_neg (by simp)]
      cases defines : AliasEntry.define? (lineBody line) with
      | none =>
          refine .quiet ?_ (Shell.looks _ _ .silent)
          intro store stores
          cases stores with
          | define _ _ entry next _ known => cases defines.symm.trans known
      | some entry =>
          simp only [aliasOutcome, Outcome.ended, AliasStore.define]
          cases inserted : shell.aliases.table.insert entry.name entry.text with
          | error trouble =>
              refine .quiet ?_ .silent
              intro store stores
              cases stores with
              | define _ _ other next _ known taken =>
                  cases defines.symm.trans known
                  cases inserted.symm.trans taken
          | ok next =>
              have stores := Stores.define (first :: rest) line entry next (List.cons_ne_nil _ _)
                defines inserted
              exact .stored .aliases _ stores (AliasStore.commit_wrote next) .silent

theorem runRemoveAlias_writes (arguments : List Text) (line : Text) :
    Writes shell .removeAlias arguments line machine
      (runRemoveAlias shell arguments machine).ended := by
  rw [runRemoveAlias.eq_def]
  cases arguments with
  | nil =>
      refine .quiet ?_ (Shell.looks _ _ .silent)
      intro store stores
      cases stores
  | cons name others =>
      simp only [aliasOutcome, Outcome.ended, AliasStore.remove]
      cases erased : shell.aliases.table.erase name with
      | error trouble =>
          refine .quiet ?_ .silent
          intro store stores
          cases stores with
          | remove _ _ _ next taken => cases erased.symm.trans taken
      | ok next =>
          exact .stored .aliases _ (.remove name others line next erased)
            (AliasStore.commit_wrote next) .silent

theorem clear_wrote (tree : FileTree) :
    shell.Wrote .history tree (shell.history.clear tree shell.cwd).2.2 := by
  rw [HistoryStore.clear]
  cases file : shell.history.file with
  | none => exact .of_loose file
  | some path =>
      have known : shell.file? .history = some path := file
      simp only
      cases done : tree.writeFile shell.cwd path [] with
      | ok written => exact Shell.Wrote.of_edit known _ done
      | error failure => exact Shell.Wrote.of_edit known _ done

theorem runClearHistory_writes (arguments : List Text) (line : Text) :
    Writes shell .clearHistory arguments line machine (runClearHistory shell machine).ended := by
  refine .stored .history _ (.clear arguments line) (clear_wrote machine.tree) ?_
  rw [runClearHistory]
  cases cleared : shell.history.clear machine.tree shell.cwd with
  | mk result left =>
      cases result with
      | ok => exact Shell.looks _ _ .silent
      | error failure => exact .silent

theorem not_stores {table : AliasTable} {command : Builtin} (clear : command ≠ .clearHistory)
    (define : command ≠ .defineAlias) (remove : command ≠ .removeAlias) (arguments : List Text)
    (line : Text) (store : Store) : ¬ Stores table command arguments line store := by
  intro stores
  cases stores with
  | clear => exact clear rfl
  | define => exact define rfl
  | remove => exact remove rfl

theorem run_writes (command : Builtin) (arguments : List Text) (line : Text) :
    Writes shell command arguments line machine
      (command.run shell arguments line machine).ended := by
  cases command with
  | defineAlias => exact runDefineAlias_writes arguments line
  | removeAlias => exact runRemoveAlias_writes arguments line
  | clearHistory => exact runClearHistory_writes arguments line
  | changeFolder | leave =>
      exact .quiet (not_stores (by decide) (by decide) (by decide) arguments line) .silent
  | showHistory =>
      exact .quiet (not_stores (by decide) (by decide) (by decide) arguments line)
        (runShowHistory_prints arguments)
  | listFolder =>
      exact .quiet (not_stores (by decide) (by decide) (by decide) arguments line)
        (runListFolder_prints arguments)
  | showFiles =>
      exact .quiet (not_stores (by decide) (by decide) (by decide) arguments line)
        (runShowFiles_prints arguments)
  | searchLines =>
      exact .quiet (not_stores (by decide) (by decide) (by decide) arguments line)
        (runSearchLines_prints arguments)
  | echo =>
      exact .quiet (not_stores (by decide) (by decide) (by decide) arguments line)
        (Shell.looks _ _ .silent)
  | explain =>
      exact .quiet (not_stores (by decide) (by decide) (by decide) arguments line)
        (runExplain_prints arguments)

theorem run_file? (command : Builtin) (arguments : List Text) (line : Text) (store : Store) :
    (command.run shell arguments line machine).shell.file? store = shell.file? store := by
  cases store with
  | aliases =>
      have leaves := run_leaves shell arguments line machine command
      simp only [Shell.file?, leaves.aliases]
  | history =>
      cases command with
      | changeFolder =>
          have done : (run .changeFolder shell arguments line machine).shell =
              (shell.changeFolder machine arguments).2 := rfl
          rw [done, changeFolder_shell]
          rfl
      | defineAlias =>
          rw [run, runDefineAlias_shell]
          rfl
      | removeAlias =>
          rw [run, runRemoveAlias_shell shell arguments line]
          rfl
      | showHistory =>
          rw [run, runShowHistory_shell]
      | clearHistory =>
          obtain ⟨log, cleared⟩ := runClearHistory_shell shell machine
          rw [run, cleared]
          rfl
      | leave => rfl
      | listFolder | showFiles | searchLines | echo | explain =>
          rw [run_looks shell arguments line machine rfl]

end Builtin

end CommandShell
