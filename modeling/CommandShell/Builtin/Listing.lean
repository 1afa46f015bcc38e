import CommandShell.Builtin.Basic

/-!
Folder listings: the visible names in order, on one line or with one line of details
each.
-/
namespace CommandShell

def permissionText (bits : Nat) : Text :=
  [if bits &&& 4 != 0 then 'r' else '-', if bits &&& 2 != 0 then 'w' else '-',
    if bits &&& 1 != 0 then 'x' else '-']

def modeText (isFolder : Bool) (mode : Nat) : Text :=
  (if isFolder then 'd' else '-') ::
    (permissionText (mode / 64 % 8) ++ permissionText (mode / 8 % 8) ++ permissionText (mode % 8))

def isVisible (name : Text) : Bool :=
  name.head? != some '.'

def detailLine (tree : FileTree) (owner : Text) (location : Location) (node : Node)
    (name : Text) : Text :=
  let isFolder := match node with
    | .folder _ => true
    | _ => false
  joinWith [' '] [modeText isFolder (FileTree.modeOf node),
    alignRight 3 (digits (tree.linkCount location node)), alignLeft 8 owner,
    alignLeft 8 owner, alignRight 8 (digits (FileTree.sizeOf node)), name]

def shownNames (tree : FileTree) (cwd : Location) (folder : Text) :
    Except Trouble (List Text) :=
  match tree.list cwd (encode folder) with
  | .error failure => .error (.cannotList folder failure)
  | .ok all => .ok (sortTexts ((all.filterMap decode?).filter isVisible))

def goOn (done : Except Trouble Unit × Machine)
    (next : Machine → Except Trouble Unit × Machine) : Except Trouble Unit × Machine :=
  match done with
  | (.ok (), machine) => next machine
  | (.error trouble, machine) => (.error trouble, machine)

namespace Shell

def writeLine (shell : Shell) (line : Text) (machine : Machine) : Except Trouble Unit × Machine :=
  shell.write (lineBytes line) machine

def listName (shell : Shell) (folder name : Text) (machine : Machine) :
    Except Trouble Unit × Machine :=
  match machine.tree.inspect? shell.cwd (Path.push (encode folder) (encode name)) with
  | .ok (location, node) =>
      shell.writeLine (detailLine machine.tree machine.account.name location node name) machine
  | .error _ => (.ok (), machine)

def listNames (shell : Shell) (folder : Text) :
    List Text → Machine → Except Trouble Unit × Machine
  | [], machine => (.ok (), machine)
  | name :: rest, machine =>
      goOn (shell.listName folder name machine) fun machine => shell.listNames folder rest machine

/-- Lists one folder. Each name is looked at when its turn has come, so that a listing that
is written to a file of that folder shows how far it has got. -/
def listFolder (shell : Shell) (long : Bool) (folder : Text) (machine : Machine) :
    Except Trouble Unit × Machine :=
  match shownNames machine.tree shell.cwd folder with
  | .error trouble => (.error trouble, machine)
  | .ok names =>
      if long then shell.listNames folder names machine
      else if names.isEmpty then (.ok (), machine)
      else shell.writeLine (joinWith "  ".toList names) machine

def listFolders (shell : Shell) (long : Bool) (first : Bool) :
    List Text → Machine → Except Trouble Unit × Machine
  | [], machine => (.ok (), machine)
  | folder :: rest, machine =>
      goOn (if first then (.ok (), machine) else shell.writeLine [] machine) fun machine =>
        goOn (shell.writeLine (folder ++ [':']) machine) fun machine =>
          goOn (shell.listFolder long folder machine) fun machine =>
            shell.listFolders long false rest machine

end Shell

namespace Builtin

/-- Lists the named folders, or the working folder. `-l` asks for details wherever it
stands, and every other word that starts with a dash is passed over. -/
def runListFolder (shell : Shell) (arguments : List Text) (machine : Machine) : Outcome :=
  let long := arguments.contains ['-', 'l']
  let (result, machine) :=
    match arguments.filter fun argument => argument.head? != some '-' with
    | [] => shell.listFolder long ['.'] machine
    | [folder] => shell.listFolder long folder machine
    | folders => shell.listFolders long true folders machine
  ⟨result, shell, machine⟩

end Builtin

end CommandShell
