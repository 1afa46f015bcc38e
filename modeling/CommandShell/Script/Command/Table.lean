import CommandShell.Script.Command.Input
import CommandShell.Script.Command.Output
import CommandShell.Script.Command.Signal
import CommandShell.Script.Command.Switch
import CommandShell.Script.Command.Variable
import CommandShell.Script.Condition

/-!
All commands of the interpreter by their names, and what any name means to it.
-/
namespace CommandShell

namespace Script

def judge (words : List Text) : Run Int := do
  return if ← Condition.judge words then 0 else 1

def judgeInBrackets : Plain := fun words => do
  if words.getLast? == some [']'] then judge words.dropLast else refuse "missing ]".toList

def octalMask? (word : Text) : Option Nat :=
  if !word.isEmpty && word.all Tool.isOctal then
    some (Tool.octalValue word % 0o1000)
  else none

def fileMask : Plain := fun words => do
  let (options, operands) ← optionsOf ['S'] [] words
  let state ← get
  match operands with
  | [] =>
      let rights := fun (shift : Nat) =>
        let bits := ((0o777 - state.mask) >>> shift) % 8
        (if bits &&& 4 ≠ 0 then ['r'] else []) ++ (if bits &&& 2 ≠ 0 then ['w'] else []) ++
          (if bits &&& 1 ≠ 0 then ['x'] else [])
      if options.isEmpty then
        say (['0', Char.ofNat (48 + state.mask / 64), Char.ofNat (48 + state.mask / 8 % 8),
          Char.ofNat (48 + state.mask % 8), '\n'])
      else
        say ("u=".toList ++ rights 6 ++ ",g=".toList ++ rights 3 ++ ",o=".toList ++ rights 0 ++
          ['\n'])
      return 0
  | word :: _ =>
      match octalMask? word with
      | some mask => do
          set { state with mask := mask }
          return 0
      | none =>
          let what := if word.head?.any Char.isDigit then "number" else "mode"
          refuse ("Illegal ".toList ++ what.toList ++ ": ".toList ++ word)

def await : Plain := fun words => do
  match ← noOptions words with
  | [] => return 0
  | targets => do
      let codes ← targets.mapM fun target => do
        let pid ← count target
        match (← get).finished.find? fun entry => entry.1 = pid with
        | some (_, status) => codeOf status
        | none => return 127
      return (codes.getLast?).getD 0

def answer (code : Int) : Plain := fun _ => return code

def plainCommands : List (String × Plain) :=
  [(":", answer 0), ("true", answer 0), ("false", answer 1), ("hash", answer 0), ("jobs", answer 0),
    ("echo", echo), ("printf", printWords), ("read", readVariables),
    ("cd", enterFolder), ("chdir", enterFolder), ("pwd", showFolder),
    ("export", markVariables "export" (·.exported) fun entry => { entry with exported := true }),
    ("readonly", markVariables "readonly" (·.locked) fun entry => { entry with locked := true }),
    ("unset", dropNames), ("local", makeLocal), ("shift", shiftArguments), ("set", setSwitches),
    ("getopts", readOptions), ("kill", sendSignal), ("trap", catchSignals), ("exit", leave),
    ("return", giveBack), ("break", leaveLoops .breakLoop), ("continue", leaveLoops .nextRound),
    ("test", judge), ("[", judgeInBrackets), ("umask", fileMask), ("wait", await)]

def plainCommand? (name : Text) : Option Plain :=
  (plainCommands.find? fun entry => entry.1.toList == name).map (·.2)

def runningCommands : List String :=
  [".", "command", "eval", "exec", "type"]

def isSpecialCommand (name : Text) : Bool :=
  reservedNames.any fun word => word.toList == name

def isOwnCommand (name : Text) : Bool :=
  (plainCommand? name).isSome || runningCommands.any fun word => word.toList == name

def takesSettings (name : Text) : Bool :=
  ["export", "readonly", "local"].any fun word => word.toList == name

def describe (brief : Bool) (name : Text) : Run Int := do
  let state ← get
  let tell := fun (meaning : String) (short : Text) => do
    say ((if brief then short else name ++ meaning.toList) ++ ['\n'])
    return 0
  if keywords.any fun word => word.toList == name then tell " is a shell keyword" name
  else if isSpecialCommand name then tell " is a special shell builtin" name
  else if state.functions.any fun entry => entry.1 == name then tell " is a shell function" name
  else if isOwnCommand name then tell " is a shell builtin" name
  else
    let there := fun (path : Text) =>
      (state.machine.tree.open? state.process.cwd (Latin.toBytes path)).toOption.isSome
    match findProgram state name with
    | .ok (path :: _) =>
        if there path then do
          let how := if state.known.contains name then " is a tracked alias for " else " is "
          if !name.contains '/' then learn name
          say ((if brief then path else name ++ how.toList ++ path) ++ ['\n'])
          return 0
        else missing
    | _ => missing
where
  missing : Run Int := do
    if !brief then say (name ++ ": not found\n".toList)
    return 127

def showMeanings : Plain := fun words => do
  let codes ← words.mapM (describe false)
  return if codes.any (· ≠ 0) then 127 else 0

end Script

end CommandShell
