import CommandShell.Script.SignalName
import CommandShell.Script.State

/-!
Programs that a script runs: where they are looked for, what is said when they cannot be
run, and how the end of a process is told.
-/
namespace CommandShell

namespace Script

def programPaths (state : State) (name : Text) : List Text :=
  if name.contains '/' then [name]
  else (fields (· == ':') ((state.value? "PATH".toList).getD [])).map fun folder =>
    if folder.isEmpty then name else folder ++ '/' :: name

def filesFrom (state : State) (failure : Failure) : List Text → Except Failure (List Text)
  | [] => .error failure
  | path :: rest =>
      match state.machine.tree.open? state.process.cwd (Latin.toBytes path) with
      | .ok (_, .file _ mode) =>
          if mode &&& 0o111 = 0 then filesFrom state .accessDenied rest else .ok (path :: rest)
      | .ok _ => filesFrom state .accessDenied rest
      | .error .noEntry | .error .notFolder => filesFrom state failure rest
      | .error other => filesFrom state other rest

def findProgram (state : State) (name : Text) : Except Failure (List Text) :=
  if name.contains '/' then .ok [name] else filesFrom state .noEntry (programPaths state name)

def interpreterPath : Bytes := ascii "/bin/sh"

def load (loader : Loader) (argv : List Bytes) (process : Process) (machine : Machine)
    (failure : Failure) : List Bytes → Except Failure ExitStatus × Machine
  | [] => (.error failure, machine)
  | path :: rest =>
      match loader path argv process machine with
      | (.ok status, machine) => (.ok status, machine)
      | (.error .formatUnknown, machine) =>
          match loader interpreterPath (interpreterPath :: path :: argv.drop 1) process machine with
          | (.ok status, machine) => (.ok status, machine)
          | (.error other, machine) => load loader argv process machine other rest
      | (.error .noEntry, machine) | (.error .notFolder, machine) =>
          load loader argv process machine failure rest
      | (.error other, machine) => load loader argv process machine other rest

def runReason : Failure → Text
  | .noEntry | .notFolder => "not found".toList
  | failure => failure.reason

def runCode : Failure → Int
  | .noEntry | .notFolder | .tooManyLinks | .nameTooLong => 127
  | _ => 126

def endAs (status : ExitStatus) : Run Unit := do
  modify fun state => { state with ended := some status }
  throw .leave

def receive (signal : Nat) : Run Unit := do
  let state ← get
  match state.traps.find? fun trap => trap.1 == signal with
  | some (_, action) =>
      if deafSignals.contains signal then pure ()
      else if absoluteSignals.contains signal then endAs (.killed signal)
      else if action.isEmpty || state.due.contains action then pure ()
      else set { state with due := state.due ++ [action] }
  | none => if harmlessSignals.contains signal then pure () else endAs (.killed signal)

def childSignal : Nat := 17

def codeOf (status : ExitStatus) : Run Int := do
  receive childSignal
  match status with
  | .exited code => return code
  | .killed signal => do
      if !quietDeaths.contains signal then act (Tool.warn (describeDeath signal))
      return 128 + signal

def newPid : Run Nat := do
  let state ← get
  set { state with machine := { state.machine with nextPid := state.machine.nextPid + 1 } }
  return state.machine.nextPid

def complainOf (name : Text) (failure : Failure) (code : Int) : Run Unit := do
  warn (name ++ ": ".toList ++ runReason failure)
  setCode code

def learn (name : Text) : Run Unit :=
  modify fun state =>
    { state with known := if state.known.contains name then state.known else name :: state.known }

def runProgram (loader : Loader) (inPlace : Bool) (argv : List Text) : Run Unit := do
  let name := argv.head?.getD []
  match findProgram (← get) name with
  | .error failure => complainOf name failure 127
  | .ok paths =>
      if !name.contains '/' then learn name
      let pid ← if inPlace then pure (← get).process.pid else newPid
      let state ← get
      let child := { state.process with pid := pid, env := state.environment, ahead := [] }
      let (result, machine) := load loader (argv.map Latin.toBytes) child state.machine .noEntry
        (paths.map Latin.toBytes)
      set { state with machine := machine }
      match result with
      | .error failure => do
          complainOf name failure (runCode failure)
          if inPlace then throw .leave
      | .ok status =>
          if inPlace then endAs status else do setCode (← codeOf status)

end Script

end CommandShell
