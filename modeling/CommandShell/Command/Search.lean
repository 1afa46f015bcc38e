import CommandShell.System.FileTree

/-!
Looking for the program that a command name means. A name with a slash is a path by
itself, any other name is looked for in the folders of a search path, and an
empty folder there is the working folder.
-/
namespace CommandShell

inductive SearchResult
  | found (path : Path)
  | notExecutable (path : Path)
  | notFound
  deriving Repr, DecidableEq

def colon : UInt8 := 58

def checkProgram (tree : FileTree) (cwd : Location) (path : Path) : SearchResult :=
  if !tree.isFile cwd path then .notFound
  else if tree.isExecutable cwd path then .found path
  else .notExecutable path

def searchFolders (search : Bytes) : List Path :=
  (fields (· == colon) search).map fun folder => if folder.isEmpty then dot else folder

def searchIn (tree : FileTree) (cwd : Location) (name : Name) : List Path → SearchResult
  | [] => .notFound
  | folder :: rest =>
      match checkProgram tree cwd (folder.join name) with
      | .found path => .found path
      | .notFound => searchIn tree cwd name rest
      | .notExecutable path =>
          match searchIn tree cwd name rest with
          | .found other => .found other
          | _ => .notExecutable path

def findCommand (tree : FileTree) (cwd : Location) (search : Bytes) (name : Text) :
    SearchResult :=
  if name.isEmpty then .notFound
  else if name.contains '/' then checkProgram tree cwd (encode name)
  else searchIn tree cwd (encode name) (searchFolders search)

end CommandShell
