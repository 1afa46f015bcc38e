import CommandShell.History.Log
import CommandShell.System.FileTree
import CommandShell.Trouble

/-!
A history log with the file that backs it. Every line is also appended to the file,
and a file that cannot be written is passed over in silence there. Clearing
and flushing report it.
-/
namespace CommandShell

structure HistoryStore where
  log : HistoryLog
  file : Option Path
  deriving Repr, DecidableEq

namespace HistoryStore

def ephemeral (capacity : Nat) : HistoryStore :=
  ⟨HistoryLog.empty capacity, none⟩

def load (tree : FileTree) (cwd : Location) (path : Path) (capacity : Nat) :
    Except Failure HistoryStore :=
  (tree.storeLines cwd path).map fun lines =>
    ⟨(HistoryLog.empty capacity).pushAll lines, some path⟩

def detach (store : HistoryStore) : HistoryStore :=
  { store with file := none }

def append (store : HistoryStore) (tree : FileTree) (cwd : Location) (line : Text) :
    HistoryStore × FileTree :=
  let grown := { store with log := store.log.push line }
  match store.file with
  | none => (grown, tree)
  | some path =>
      match tree.appendFile cwd path (lineBytes line) with
      | .ok written => (grown, written)
      | .error _ => (grown, tree)

/-- Appends a line that is worth remembering and tells whether it was. -/
def record (store : HistoryStore) (tree : FileTree) (cwd : Location) (line : Text) :
    Bool × HistoryStore × FileTree :=
  if store.log.accepts line then (true, store.append tree cwd line) else (false, store, tree)

def clear (store : HistoryStore) (tree : FileTree) (cwd : Location) :
    Except Failure Unit × HistoryStore × FileTree :=
  let cleared := { store with log := store.log.clear }
  match store.file with
  | none => (.ok (), cleared, tree)
  | some path =>
      match tree.writeFile cwd path [] with
      | .ok written => (.ok (), cleared, written)
      | .error failure => (.error failure, cleared, tree)

def flush (store : HistoryStore) (tree : FileTree) (cwd : Location) :
    Except Failure FileTree :=
  match store.file with
  | none => .ok tree
  | some path => tree.writeFile cwd path store.log.fileContent

end HistoryStore

end CommandShell
