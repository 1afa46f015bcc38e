import CommandShell.Script.Command.Basic

/-!
Commands on the state that a script keeps: the folder it is in, its variables and its
arguments.
-/
namespace CommandShell

namespace Script

def enterFolder : Plain := fun words => do
  let (options, operands) ← optionsOf ['L', 'P'] [] words
  let state ← get
  let physical := (options.getLast?).any fun option => option.1 == 'P'
  let (target, shows) : Text × Bool := match operands with
    | [] => ((state.value? "HOME".toList).getD [], false)
    | ['-'] :: _ => ((state.value? "OLDPWD".toList).getD [], true)
    | target :: _ => (target, false)
  let target := Latin.toBytes target
  let path := if physical then target else resolveDir state.folder target
  match state.machine.tree.enter state.process.cwd path with
  | .error _ => refuse ("can't cd to ".toList ++ Latin.ofBytes target)
  | .ok location =>
      let folder := if physical then Path.ofLocation location else path
      set { state with folder := folder, process := { state.process with cwd := location } }
      for (name, value) in [("OLDPWD", state.folder), ("PWD", folder)] do
        assign name.toList (Latin.ofBytes value)
        modify fun state =>
          match state.named? name.toList with
          | some entry => state.putVariable { entry with exported := true }
          | none => state
      if shows then say (Latin.ofBytes folder ++ ['\n'])
      return 0

def showFolder : Plain := fun words => do
  let (options, _) ← optionsOf ['L', 'P'] [] words
  let state ← get
  let physical := (options.getLast?).any fun option => option.1 == 'P'
  let folder := if physical then Path.ofLocation state.process.cwd else state.folder
  say (Latin.ofBytes folder ++ ['\n'])
  return 0

def showVariables (intro : Text) (entries : List Variable) : Run Unit :=
  (entries.mergeSort fun a b => Tool.latinLe a.name b.name).forM fun entry =>
    say (intro ++ entry.name ++
      (match entry.value with
        | some value => '=' :: quoted value
        | none => []) ++ ['\n'])

def cutSetting (word : Text) : Text × Option Text :=
  let name := word.takeWhile (· != '=')
  (name, if name.length < word.length then some (word.drop (name.length + 1)) else none)

def markVariables (intro : String) (marked : Variable → Bool) (mark : Variable → Variable) :
    Plain := fun words => do
  let (options, operands) ← optionsOf ['p'] [] words
  let shows := options.any fun option => option.1 == 'p'
  if shows || operands.isEmpty then
    showVariables (intro.toList ++ [' ']) ((← get).bindings.filter marked)
  else
    operands.forM fun word => do
      let (name, value) := cutSetting word
      checkName name
      match value with
      | some value => assign name value
      | none => pure ()
      modify fun state =>
        state.putVariable (mark ((state.named? name).getD ⟨name, none, false, false⟩))
  return 0

def dropNames : Plain := fun words => do
  let (options, operands) ← optionsOf ['f', 'v'] [] words
  let functions := (options.getLast?).any fun option => option.1 == 'f'
  operands.forM fun name => do
    let state ← get
    if functions then
      set { state with functions := state.functions.filter fun entry => entry.1 != name }
    else
      checkName name
      if (state.named? name).any (·.locked) then refuse (name ++ ": is read only".toList)
      else set (state.dropVariable name)
  return 0

/-- Remembers how a variable was, so that the end of the function sets it back. -/
def keep (name : Text) : Run Unit :=
  modify fun state =>
    { state with kept := (state.named? name).getD ⟨name, none, false, false⟩ :: state.kept }

def State.bringBack (state : State) (entry : Variable) : State :=
  if entry.value.isNone && !entry.exported && !entry.locked then state.dropVariable entry.name
  else state.putVariable entry

def makeLocal : Plain := fun words => do
  if (← get).functionDepth = 0 then refuse "not in a function".toList
  words.forM fun word => do
    let (name, value) := cutSetting word
    checkName name
    keep name
    match value with
    | some value => assign name value
    | none => pure ()
  return 0

def shiftArguments : Plain := fun words => do
  let size ← match words with
    | [] => pure 1
    | word :: _ => count word
  let state ← get
  if state.arguments.length < size then refuse "can't shift that many".toList
  set { state with arguments := state.arguments.drop size, optionPlace := (1, 0) }
  return 0

end Script

end CommandShell
