import CommandShell.Tool.Options

/-!
Showing the working folder, as it is or as the environment spells it.
-/
namespace CommandShell

namespace Tool

def folderOptions : OptionForms where
  flags := ['L', 'P']
  valued := []
  long := [("logical", 'L'), ("physical", 'P')]
  maybeValued := []
  leading := false

def spellsFolder (process : Process) (machine : Machine) (path : Path) : Bool :=
  let idle := fun (part : Name) => part == dot || part == dotDot
  Path.isAbsolute path && !(fields (· == slash) path).any idle &&
    match machine.tree.enter process.cwd path with
    | .ok location => location == process.cwd
    | .error _ => false

def showFolder : Tool :=
  withOptions folderOptions 1 fun call process machine =>
    let spelled := (process.env.get? (ascii "PWD")).filter (spellsFolder process machine)
    let logical := (call.options.getLast?).any fun option => option.1 == 'L'
    let path := match logical, spelled with
      | true, some path => path
      | _, _ => Path.ofLocation process.cwd
    let run : Action ExitStatus := do
      if !call.operands.isEmpty then call.complain "ignoring non-option arguments".toList
      say (Latin.ofBytes path ++ ['\n'])
      return .exited 0
    run process machine

end Tool

end CommandShell
