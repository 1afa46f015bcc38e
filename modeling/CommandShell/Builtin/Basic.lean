import CommandShell.Shell.Basic

/-!
The commands the shell carries out itself. Some change the shell and have to run in its
own process; the others only look and write.
-/
namespace CommandShell

inductive Builtin
  | changeFolder
  | defineAlias
  | removeAlias
  | showHistory
  | clearHistory
  | leave
  | listFolder
  | showFiles
  | searchLines
  | echo
  | explain
  deriving Repr, DecidableEq

namespace Builtin

def all : List Builtin :=
  [.changeFolder, .defineAlias, .removeAlias, .showHistory, .clearHistory, .leave,
    .listFolder, .showFiles, .searchLines, .echo, .explain]

def name : Builtin → Text
  | .changeFolder => "cd".toList
  | .defineAlias => "alias".toList
  | .removeAlias => "unalias".toList
  | .showHistory => "history".toList
  | .clearHistory => "clearhistory".toList
  | .leave => "exit".toList
  | .listFolder => "ls".toList
  | .showFiles => "cat".toList
  | .searchLines => "grep".toList
  | .echo => "echo".toList
  | .explain => "type".toList

def names : List Text :=
  all.map name

def ofName? (word : Text) : Option Builtin :=
  all.find? fun builtin => builtin.name == word

def mutates : Builtin → Bool
  | .changeFolder | .defineAlias | .removeAlias | .showHistory | .clearHistory | .leave => true
  | .listFolder | .showFiles | .searchLines | .echo | .explain => false

end Builtin

structure Outcome where
  result : Except Trouble Unit
  shell : Shell
  machine : Machine

def asTrouble (result : Except Failure Unit) : Except Trouble Unit :=
  match result with
  | .ok () => .ok ()
  | .error failure => .error (.failed failure)

namespace Shell

def write (shell : Shell) (bytes : Bytes) (machine : Machine) : Except Trouble Unit × Machine :=
  let written := shell.process.write standardOutput bytes machine
  (asTrouble written.1, written.2)

end Shell

namespace Outcome

/-- The outcome of a command that changes nothing of the shell and only writes. When the
output is refused, nothing that comes to light behind it counts. -/
def look (shell : Shell) (machine : Machine) (result : Except Trouble Unit)
    (output : Bytes) : Outcome :=
  let written := shell.write output machine
  ⟨match written.1 with
    | .ok () => result
    | .error trouble => .error trouble, shell, written.2⟩

end Outcome

end CommandShell
