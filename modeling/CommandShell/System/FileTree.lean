import CommandShell.System.Failure
import CommandShell.System.NameHash
import CommandShell.Text.Line

/-!
The file tree: which node stands at which location. The root is always a folder.
Walking a path follows links, at most forty of them, and ends at a node or at
a free name in an existing folder. Permission bits matter for running a file only:
the owner of the tree may read and write everything.
-/
namespace CommandShell

inductive Node
  | file (data : Bytes) (mode : Nat)
  | folder (mode : Nat)
  | link (target : Path)
  | void
  deriving Repr, DecidableEq

structure FileTree where
  entries : List (Location × Node)
  deriving Repr, DecidableEq

inductive Errand
  | use
  | inspect
  | write
  deriving Repr, DecidableEq

inductive Arrival
  | present (location : Location) (node : Node)
  | absent (folder : Location) (name : Name)
  deriving Repr, DecidableEq

def longestName : Nat := 255

def longestPath : Nat := 4095

def mostLinks : Nat := 40

def folderMode : Nat := 0o755

def newFileMode : Nat := 0o644

namespace FileTree

def empty : FileTree := ⟨[]⟩

def node? (tree : FileTree) (location : Location) : Option Node :=
  if location.isEmpty then some (.folder folderMode)
  else (tree.entries.find? fun entry => entry.1 == location).map (·.2)

def put (tree : FileTree) (location : Location) (node : Node) : FileTree :=
  if tree.entries.any fun entry => entry.1 == location then
    ⟨tree.entries.map fun entry => if entry.1 == location then (location, node) else entry⟩
  else ⟨tree.entries ++ [(location, node)]⟩

def names (tree : FileTree) (folder : Location) : List Name :=
  NameHash.order (tree.entries.filterMap fun entry =>
    match entry.1.getLast? with
    | some name => if entry.1.dropLast == folder then some name else none
    | none => none)

/-- Follows the steps from a folder. The last step is followed through a link unless the
errand is to inspect it. A name that a slash ends is no name for a file to write, whether
there is something of that name or not. -/
def walk (tree : FileTree) (errand : Errand) (links : Nat) (here : Location) :
    List Name → Except Failure Arrival
  | [] => .ok (.present here ((tree.node? here).getD (.folder folderMode)))
  | part :: rest =>
      if Path.isIdle part then walk tree errand links here rest
      else if part == dotDot then walk tree errand links here.dropLast rest
      else if errand = .write ∧ rest = [[]] then .error .isFolder
      else if longestName < part.length then .error .nameTooLong
      else
        match tree.node? (here ++ [part]) with
        | none => if rest.isEmpty then .ok (.absent here part) else .error .noEntry
        | some (.folder _) => walk tree errand links (here ++ [part]) rest
        | some (.link target) =>
            if rest.isEmpty ∧ errand = .inspect then .ok (.present (here ++ [part]) (.link target))
            else
              match links with
              | 0 => .error .tooManyLinks
              | left + 1 =>
                  if target.isEmpty then .error .noEntry
                  else walk tree errand left (if target.isAbsolute then [] else here)
                    (target.steps ++ rest)
        | some node =>
            if rest.isEmpty then .ok (.present (here ++ [part]) node) else .error .notFolder
termination_by steps => (links, steps.length)

def arrive (tree : FileTree) (cwd : Location) (errand : Errand) (path : Path) :
    Except Failure Arrival :=
  if path.contains 0 then .error .nulInName
  else if path.isEmpty then .error .noEntry
  else if longestPath < path.length then .error .nameTooLong
  else tree.walk errand mostLinks (if path.isAbsolute then [] else cwd) path.steps

def open? (tree : FileTree) (cwd : Location) (path : Path) :
    Except Failure (Location × Node) :=
  match tree.arrive cwd .use path with
  | .error failure => .error failure
  | .ok (.present location node) => .ok (location, node)
  | .ok (.absent _ _) => .error .noEntry

def inspect? (tree : FileTree) (cwd : Location) (path : Path) :
    Except Failure (Location × Node) :=
  match tree.arrive cwd .inspect path with
  | .error failure => .error failure
  | .ok (.present location node) => .ok (location, node)
  | .ok (.absent _ _) => .error .noEntry

def isFile (tree : FileTree) (cwd : Location) (path : Path) : Bool :=
  match tree.open? cwd path with
  | .ok (_, .file _ _) => true
  | _ => false

def isFolder (tree : FileTree) (cwd : Location) (path : Path) : Bool :=
  match tree.open? cwd path with
  | .ok (_, .folder _) => true
  | _ => false

/-- A file may be run when at least one execute bit is set. -/
def isExecutable (tree : FileTree) (cwd : Location) (path : Path) : Bool :=
  match tree.open? cwd path with
  | .ok (_, .file _ mode) => mode &&& 0o111 != 0
  | _ => false

def enter (tree : FileTree) (cwd : Location) (path : Path) : Except Failure Location :=
  match tree.open? cwd path with
  | .error failure => .error failure
  | .ok (location, .folder _) => .ok location
  | .ok _ => .error .notFolder

def list (tree : FileTree) (cwd : Location) (path : Path) : Except Failure (List Name) :=
  match tree.enter cwd path with
  | .error failure => .error failure
  | .ok folder => .ok (tree.names folder)

/-- The names of a folder that are text. A folder that cannot be read has none. -/
def textNames (tree : FileTree) (cwd : Location) (path : Path) : List Text :=
  match tree.list cwd path with
  | .error _ => []
  | .ok names => names.filterMap decode?

def content (node : Node) : Except Failure Bytes :=
  match node with
  | .file data _ => .ok data
  | .folder _ => .error .isFolder
  | .link _ | .void => .ok []

def readContent (tree : FileTree) (cwd : Location) (path : Path) : Except Failure Bytes :=
  match tree.open? cwd path with
  | .error failure => .error failure
  | .ok (_, node) => content node

/-- The lines of a file that a store is kept in. One that is missing has none. -/
def storeLines (tree : FileTree) (cwd : Location) (path : Path) : Except Failure (List Text) :=
  match tree.readContent cwd path with
  | .error .noEntry => .ok []
  | .error failure => .error failure
  | .ok content =>
      match textLines? content with
      | none => .error .notText
      | some lines => .ok lines

def writeTarget (tree : FileTree) (cwd : Location) (path : Path) : Except Failure Arrival :=
  match tree.arrive cwd .write path with
  | .ok (.present _ (.folder _)) => .error .isFolder
  | arrival => arrival

def editFile (tree : FileTree) (cwd : Location) (path : Path) (edit : Bytes → Bytes) :
    Except Failure FileTree :=
  match tree.writeTarget cwd path with
  | .error failure => .error failure
  | .ok (.absent folder name) => .ok (tree.put (folder ++ [name]) (.file (edit []) newFileMode))
  | .ok (.present location (.file data mode)) =>
      .ok (tree.put location (.file (edit data) mode))
  | .ok (.present _ _) => .ok tree

def writeFile (tree : FileTree) (cwd : Location) (path : Path) (data : Bytes) :
    Except Failure FileTree :=
  tree.editFile cwd path fun _ => data

def appendFile (tree : FileTree) (cwd : Location) (path : Path) (data : Bytes) :
    Except Failure FileTree :=
  tree.editFile cwd path fun old => old ++ data

/-- Writes into a file at an offset. A gap is filled with zeros, and writing nothing
changes nothing. -/
def patch (old : Bytes) (offset : Nat) (data : Bytes) : Bytes :=
  if data.isEmpty then old else
    (old ++ List.replicate (offset - old.length) 0).take offset ++ data ++
      old.drop (offset + data.length)

def linkCount (tree : FileTree) (location : Location) : Node → Nat
  | .folder _ => 2 + ((tree.names location).filter fun name =>
      match tree.node? (location ++ [name]) with
      | some (.folder _) => true
      | _ => false).length
  | _ => 1

def folderSize : Nat := 4096

def sizeOf : Node → Nat
  | .file data _ => data.length
  | .folder _ => folderSize
  | .link target => target.length
  | .void => 0

def modeOf : Node → Nat
  | .file _ mode | .folder mode => mode
  | .link _ => 0o777
  | .void => 0o666

end FileTree

end CommandShell
