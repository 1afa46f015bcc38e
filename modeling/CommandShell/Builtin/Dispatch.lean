import CommandShell.Builtin.Lines
import CommandShell.Builtin.Listing
import CommandShell.Builtin.Meaning
import CommandShell.Builtin.State

/-!
Carrying out a command that the shell knows itself. What it has written stays written,
also when it fails afterwards.
-/
namespace CommandShell

def Builtin.run (command : Builtin) (shell : Shell) (arguments : List Text) (line : Text)
    (machine : Machine) : Outcome :=
  match command with
  | .changeFolder => runChangeFolder shell arguments machine
  | .defineAlias => runDefineAlias shell arguments line machine
  | .removeAlias => runRemoveAlias shell arguments machine
  | .showHistory => runShowHistory shell arguments machine
  | .clearHistory => runClearHistory shell machine
  | .leave => runLeave shell machine
  | .listFolder => runListFolder shell arguments machine
  | .showFiles => runShowFiles shell arguments machine
  | .searchLines => runSearchLines shell arguments machine
  | .echo => runEcho shell arguments machine
  | .explain => runExplain shell arguments machine

def Builtin.ofWords? : List Text → Option Builtin
  | [] => none
  | name :: _ => Builtin.ofName? name

/-- What carrying out a command leaves behind. `handled` is false when the words do not
start with a built-in command, and then nothing has happened. -/
structure Dispatched where
  result : Except Trouble Bool
  shell : Shell
  machine : Machine

namespace Shell

def dispatch (shell : Shell) (argv : List Text) (line : Text) (machine : Machine) :
    Dispatched :=
  match Builtin.ofWords? argv with
  | none => ⟨.ok false, shell, machine⟩
  | some command =>
      let outcome := command.run shell (argv.drop 1) line machine
      ⟨outcome.result.map fun _ => true, outcome.shell, outcome.machine⟩

end Shell

end CommandShell
