import CommandShell.Script.Call
import CommandShell.Tool.Concatenate
import CommandShell.Tool.Count
import CommandShell.Tool.Search
import CommandShell.Tool.Sort
import CommandShell.Tool.Unique
import CommandShell.Tool.WorkingFolder

/-!
The standard machine: its tools, the tree they stand in and the loader that runs a file.
A tool is known by the place it stands at, any other file has to name its
interpreter in the first line.
-/
namespace CommandShell

def toolFolder : Location := [ascii "usr", ascii "bin"]

def toolNames : List String :=
  ["cat", "false", "grep", "printf", "pwd", "sh", "sort", "tr", "true", "uniq", "wc"]

def Tool.endWith (code : Int) : Tool := fun _ => return .exited code

def toolNamed? (loader : Loader) (name : Name) : Option Tool :=
  if name == ascii "cat" then some Tool.concatenate
  else if name == ascii "false" then some (Tool.endWith 1)
  else if name == ascii "grep" then some Tool.search
  else if name == ascii "printf" then some Tool.printFormatted
  else if name == ascii "pwd" then some Tool.showFolder
  else if name == ascii "sh" then some (Tool.interpret loader)
  else if name == ascii "sort" then some Tool.sort
  else if name == ascii "tr" then some Tool.replaceBytes
  else if name == ascii "true" then some (Tool.endWith 0)
  else if name == ascii "uniq" then some Tool.unique
  else if name == ascii "wc" then some Tool.count
  else none

def toolAt? (loader : Loader) (location : Location) : Option Tool :=
  if location.dropLast == toolFolder then (location.getLast?).bind (toolNamed? loader) else none

def isLineBlank (byte : UInt8) : Bool :=
  byte == 32 || byte == 9

/-- So many bytes of a file are looked at for its interpreter. A shorter file counts as
followed by zeros. -/
def headLength : Nat := 256

/-- The interpreter that a file names in its first line, with at most one argument. A name
that is cut off by the end of the head names none. -/
def interpreterOf? (content : Bytes) : Option (Path × List Bytes) :=
  let head := (content ++ List.replicate headLength 0).take headLength
  let isEnd := fun byte => isLineBlank byte || byte == 0
  match head with
  | 35 :: 33 :: rest =>
      let line := rest.takeWhile (· != 10)
      let whole := line.length < rest.length
      let named := (if whole then line else line.dropLast).dropWhile isLineBlank
      let text := dropEndWhile isLineBlank named
      let path := text.takeWhile fun byte => !isEnd byte
      if text.isEmpty || (!whole && !(rest.dropWhile isLineBlank).any isEnd) then none
      else
        match text.drop path.length with
        | [] | 0 :: _ => some (path, [])
        | after => some (path, [(after.dropWhile isLineBlank).takeWhile (· != 0)])
  | _ => none

def openProgram (tree : FileTree) (cwd : Location) (path : Path) :
    Except Failure (Location × Bytes) :=
  match tree.open? cwd (if path.isEmpty then dot else path) with
  | .error failure => .error failure
  | .ok (location, .file content mode) =>
      if mode &&& 0o111 == 0 then .error .accessDenied else .ok (location, content)
  | .ok _ => .error .accessDenied

def Loader.refuse : Loader := fun _ _ _ machine => (.error .formatUnknown, machine)

/-- The tool that running a file comes to, and the words it gets. A file that is no tool
stands for its interpreter, which may again be such a file. -/
def toolFor (loader : Loader) (tree : FileTree) (cwd : Location) :
    Nat → Path → List Bytes → Except Failure (Tool × List Bytes)
  | left, path, argv =>
      match openProgram tree cwd path with
      | .error failure => .error failure
      | .ok (location, content) =>
          match left with
          | 0 => .error .tooManyLinks
          | left + 1 =>
              match toolAt? loader location with
              | some tool => .ok (tool, argv)
              | none =>
                  match interpreterOf? content with
                  | none => .error .formatUnknown
                  | some (interpreter, argument) =>
                      toolFor loader tree cwd left interpreter
                        (interpreter :: argument ++ path :: argv.drop 1)

def mostInterpreted : Nat := 6

def Loader.nested : Nat → Loader
  | 0 => Loader.refuse
  | depth + 1 => fun path argv process machine =>
      match toolFor (Loader.nested depth) machine.tree process.cwd mostInterpreted path argv with
      | .error failure => (.error failure, machine)
      | .ok (tool, argv) =>
          let (status, machine) := tool argv process machine
          (.ok status, machine)

def deepestNesting : Nat := 64

def Loader.standard : Loader :=
  Loader.nested deepestNesting

def FileTree.standard : FileTree :=
  ⟨[([ascii "bin"], .link (ascii "usr/bin")),
    ([ascii "dev"], .folder folderMode),
    ([ascii "dev", ascii "null"], .void),
    ([ascii "etc"], .folder folderMode),
    ([ascii "home"], .folder folderMode),
    ([ascii "root"], .folder 0o700),
    ([ascii "tmp"], .folder 0o1777),
    ([ascii "usr"], .folder folderMode),
    (toolFolder, .folder folderMode),
    ([ascii "var"], .folder folderMode)] ++
    toolNames.map fun name => (toolFolder ++ [ascii name], .file [] 0o755)⟩

def Account.root : Account where
  name := "root".toList
  home := ascii "/root"
  superuser := true

def Machine.standard (host : Text) (tree : FileTree) (input : Bytes) : Machine where
  tree := tree
  streams := [.supply input, .outlet [], .outlet []]
  pipes := []
  account := Account.root
  host := host
  nextPid := 2

def shellProcess (cwd : Location) (env : Environment) : Process where
  pid := 1
  cwd := cwd
  env := env
  descriptors := ⟨[(standardInput, 0), (standardOutput, 1), (standardError, 2)]⟩
  ahead := []

end CommandShell
