import CommandShell.Alias.Definition
import CommandShell.System.FileTree

/-!
An alias table with the file that backs it. Each change is made in memory first and
then the file is written anew, so a change can be reported as failed and still
hold in memory.
-/
namespace CommandShell

structure AliasStore where
  table : AliasTable
  file : Option Path
  deriving Repr, DecidableEq

namespace AliasStore

def ephemeral (capacity : Nat) : AliasStore :=
  ⟨AliasTable.empty capacity, none⟩

def load (tree : FileTree) (cwd : Location) (path : Path) (capacity : Nat) :
    Except Failure AliasStore :=
  (tree.storeLines cwd path).map fun lines =>
    ⟨(AliasTable.empty capacity).insertLines lines, some path⟩

def detach (store : AliasStore) : AliasStore :=
  { store with file := none }

def persist (store : AliasStore) (tree : FileTree) (cwd : Location) :
    Except Failure FileTree :=
  match store.file with
  | none => .ok tree
  | some path => tree.writeFile cwd path store.table.fileContent

def commit (store : AliasStore) (tree : FileTree) (cwd : Location) (table : AliasTable) :
    Except Trouble Unit × AliasStore × FileTree :=
  let changed := { store with table := table }
  -- The table in memory is not taken back when the file cannot be written.
  match changed.persist tree cwd with
  | .ok written => (.ok (), changed, written)
  | .error failure => (.error (.failed failure), changed, tree)

def define (store : AliasStore) (tree : FileTree) (cwd : Location) (name text : Text) :
    Except Trouble Unit × AliasStore × FileTree :=
  match store.table.insert name text with
  | .error trouble => (.error trouble, store, tree)
  | .ok table => store.commit tree cwd table

def remove (store : AliasStore) (tree : FileTree) (cwd : Location) (name : Text) :
    Except Trouble Unit × AliasStore × FileTree :=
  match store.table.erase name with
  | .error trouble => (.error trouble, store, tree)
  | .ok table => store.commit tree cwd table

end AliasStore

end CommandShell
