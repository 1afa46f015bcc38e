import CommandShell.Alias.Table
import CommandShell.Command.Pipeline
import CommandShell.Pattern

/-!
From a line to a pipeline: the alias text takes the place of the first word once, each
word with a wildcard is replaced by the names it matches, and what results is read
as a pipeline. The names are those of the working folder.
-/
namespace CommandShell

def expandAlias (table : AliasTable) (line : Text) : Text :=
  let body := trimStart line
  if body.isEmpty then []
  else
    match table.get? (body.takeWhile fun c => !isBlank c) with
    | some text => text ++ body.dropWhile fun c => !isBlank c
    | none => line

def expandWildcard (names : List Text) (word : Text) : List Text :=
  if hasWildcard word then
    match Pattern.ofText? word with
    | none => [word]
    | some pattern =>
        let found := names.filter pattern.accepts
        if found.isEmpty then [word] else found
  else [word]

-- The names come before any word is read as a sign, so a file named like a sign is one.
def expandWords (names : List Text) (line : Text) : List Text :=
  (words line).flatMap (expandWildcard names)

def Pipeline.parse (table : AliasTable) (names : List Text) (line : Text) :
    Except SyntaxTrouble Pipeline :=
  Pipeline.ofWords (expandWords names (expandAlias table line))

end CommandShell
