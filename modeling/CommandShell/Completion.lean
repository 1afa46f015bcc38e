import CommandShell.System.Environment
import CommandShell.System.FileTree

/-!
Completion of the token at the end of a line. A token that starts with a dollar sign is
completed from the environment, the first word from the built-in names and any
other token from a folder. Candidates come sorted and without repeats.
-/
namespace CommandShell

structure Completion where
  start : Nat
  candidates : List Text
  deriving Repr, DecidableEq

/-- Where completion looks. Relative folders are found from `folder`, which itself
is found from the working folder. -/
structure CompletionScope where
  builtins : List Text
  env : Environment
  tree : FileTree
  cwd : Location
  folder : Path

namespace CompletionScope

def folderOf (scope : CompletionScope) (part : Text) : Path :=
  if part.isEmpty then scope.folder else scope.folder.join (encode part)

def offers (token name : Text) : Bool :=
  startsWith name token && !(name.head? == some '.' && token.head? != some '.')

def entries (scope : CompletionScope) (foldersOnly : Bool) (token : Text) : List Text :=
  let cut := splitAfterLast (· == '/') token
  let folder := scope.folderOf cut.1
  let names := (scope.tree.textNames scope.cwd folder).filter (offers cut.2)
  let kept := names.filter fun name =>
    !foldersOnly || scope.tree.isFolder scope.cwd (folder.push (encode name))
  kept.map (cut.1 ++ ·)

def candidates (scope : CompletionScope) (before token : Text) : List Text :=
  match token with
  | '$' :: begun => (scope.env.names.filter (startsWith · begun)).map ('$' :: ·)
  | _ =>
      if isBlankText before then scope.builtins.filter (startsWith · token)
      else scope.entries ((words before).head? == some "cd".toList) token

def complete (scope : CompletionScope) (line : Text) : Completion :=
  let cut := splitAfterLast isBlank line
  ⟨byteLength cut.1, dropRepeats (sortTexts (scope.candidates cut.1 cut.2))⟩

end CompletionScope

end CommandShell
