import CommandShell.Alias.Store
import CommandShell.History.Store
import CommandShell.Shell.Configuration

/-!
The shell itself: settings, history, aliases, whether it is to stop, and the process it
runs in. Its stores take part in every change of the machine's file tree through
the functions below, which find the store files from the current working folder.
-/
namespace CommandShell

structure Shell where
  config : Configuration
  history : HistoryStore
  aliases : AliasStore
  exiting : Bool
  process : Process
  deriving Repr, DecidableEq

namespace Shell

def ephemeral (config : Configuration) (process : Process) : Shell where
  config := config
  history := HistoryStore.ephemeral config.historyCapacity
  aliases := AliasStore.ephemeral config.aliasCapacity
  exiting := false
  process := process

/-- A shell with the stores that the settings name. A store that cannot be read starts
empty and is kept in memory only. -/
def start (config : Configuration) (process : Process) (tree : FileTree) : Shell where
  config := config
  history :=
    match HistoryStore.load tree process.cwd config.historyFile config.historyCapacity with
    | .ok store => store
    | .error _ => HistoryStore.ephemeral config.historyCapacity
  aliases :=
    match AliasStore.load tree process.cwd config.aliasFile config.aliasCapacity with
    | .ok store => store
    | .error _ => AliasStore.ephemeral config.aliasCapacity
  exiting := false
  process := process

def detach (shell : Shell) : Shell :=
  { shell with history := shell.history.detach, aliases := shell.aliases.detach }

def cwd (shell : Shell) : Location :=
  shell.process.cwd

def env (shell : Shell) : Environment :=
  shell.process.env

def searchPath (shell : Shell) : Bytes :=
  (shell.env.get? (encode "PATH".toList)).getD []

def visibleNames (shell : Shell) (machine : Machine) : List Text :=
  machine.tree.textNames shell.cwd dot

def record (shell : Shell) (machine : Machine) (line : Text) : Bool × Shell × Machine :=
  let (kept, history, tree) := shell.history.record machine.tree shell.cwd line
  (kept, { shell with history := history }, { machine with tree := tree })

def colour (code : String) (text : Text) : Text :=
  "\x1b[1;".toList ++ code.toList ++ "m".toList ++ text ++ "\x1b[0m".toList

def prompt (shell : Shell) (machine : Machine) : Text :=
  match shell.config.prompt with
  | some prompt => prompt
  | none =>
      let user := (shell.env.text? "USER".toList).getD "user".toList
      let folder := (Path.ofLocation shell.cwd).display
      let superuser := machine.account.superuser
      colour (if superuser then "31" else "32") user ++ ['@'] ++
        colour (if superuser then "35" else "36") machine.host ++ [':'] ++
        colour "34" folder ++ (if superuser then "# ".toList else "$ ".toList)

def folderTarget (shell : Shell) (machine : Machine) : Option Text → Path
  | none => homeFolder machine.account shell.env
  | some target => resolveDir (Path.ofLocation shell.cwd) (encode target)

def changeFolder (shell : Shell) (machine : Machine) (arguments : List Text) :
    Except Trouble Unit × Shell :=
  match arguments with
  | _ :: _ :: _ => (.error .tooManyFolders, shell)
  | _ =>
      let path := shell.folderTarget machine arguments.head?
      match machine.tree.enter shell.cwd path with
      | .error failure => (.error (.cannotEnter path.display failure), shell)
      | .ok folder => (.ok (), { shell with process := { shell.process with cwd := folder } })

end Shell

end CommandShell
