import CommandShell.Builtin.Basic
import CommandShell.Command.Search

/-!
What a command name refers to, as the shell explains it: a built-in command first, then
an alias, then a program of the search path.
-/
namespace CommandShell

inductive Meaning
  | builtin (command : Builtin)
  | aliased (text : Text)
  | program (path : Path)
  deriving Repr, DecidableEq

def Meaning.describe : Meaning → Text
  | .builtin _ => "a shell builtin".toList
  | .aliased text => "aliased to `".toList ++ text ++ "'".toList
  | .program path => path.display

namespace Shell

def search (shell : Shell) (machine : Machine) (name : Text) : SearchResult :=
  findCommand machine.tree shell.cwd shell.searchPath name

def meaning? (shell : Shell) (machine : Machine) (name : Text) : Option Meaning :=
  match Builtin.ofName? name with
  | some command => some (.builtin command)
  | none =>
      match shell.aliases.table.get? name with
      | some text => some (.aliased text)
      | none =>
          match shell.search machine name with
          | .found path => some (.program path)
          | _ => none

end Shell

namespace Builtin

def runExplain (shell : Shell) (arguments : List Text) (machine : Machine) : Outcome :=
  if arguments.isEmpty then .look shell machine (.error .nothingToExplain) []
  else
    let lines := arguments.filterMap fun name =>
      (shell.meaning? machine name).map fun meaning =>
        name ++ " is ".toList ++ meaning.describe
    let missing := arguments.filter fun name => (shell.meaning? machine name).isNone
    .look shell machine (if missing.isEmpty then .ok () else .error (.unexplained missing))
      (writeLines lines)

/-- Writes its words on one line. A word that starts with a dollar sign stands for a
variable and is left out when that is not set to text. -/
def runEcho (shell : Shell) (arguments : List Text) (machine : Machine) : Outcome :=
  let said := arguments.filterMap fun argument =>
    match argument with
    | '$' :: name => shell.env.text? name
    | _ => some argument
  .look shell machine (.ok ()) (lineBytes (joinWith [' '] said))

end Builtin

end CommandShell
