import CommandShell.Script.Command.Basic

/-!
Signals that a script sends or waits for, and the ways to leave a script, a function or a loop.
-/
namespace CommandShell

namespace Script

def sendTo (signal : Nat) (target : Text) : Run Bool := do
  let pid ← match target with
    | '-' :: figures => do pure (-(← count figures : Int))
    | figures => do pure (← count figures : Int)
  let state ← get
  if pid = state.ownPid then
    if state.process.pid = state.ownPid then receive signal
    else set { state with sent := state.sent ++ [signal] }
    return true
  else if state.finished.any fun entry => (entry.1 : Int) = pid then return true
  else
    warn "No such process\n".toList
    return false

def killUsage {α : Type} : Run α :=
  refuse ("Usage: kill [-s sigspec | -signum | -sigspec] [pid | job]... or\n".toList ++
    "kill -l [exitstatus]".toList)

def listSignals (operands : List Text) : Run Int := do
  match operands with
  | [] =>
      say (Tool.unlines (['0'] :: ((List.range signalCount).drop 1).map signalName))
      return 0
  | word :: _ =>
      let code ← count word
      let signal := if 128 < code then code - 128 else code
      if 0 < signal && signal < signalCount then
        say (signalName signal ++ ['\n'])
        return 0
      else refuse ("invalid signal number or exit status: ".toList ++ word)

def sendToAll (signal : Nat) : List Text → Run Int
  | [] => return 0
  | target :: rest => do
      let found ← sendTo signal target
      let others ← sendToAll signal rest
      return if found then others else 1

def terminateSignal : Nat := 15

def sendSignal : Plain := fun words => do
  match words with
  | [] => killUsage
  | ('-' :: name) :: rest =>
      match signal? 1 name with
      | some signal => if rest.isEmpty then killUsage else sendToAll signal rest
      | none =>
          let (options, operands) ← optionsOf ['l'] ['s'] words
          let named ← options.filterMapM fun option => do
            if option.1 == 's' then
              match signal? 1 option.2 with
              | some signal => return some signal
              | none => refuse ("invalid signal number or name: ".toList ++ option.2)
            else return none
          if options.any fun option => option.1 == 'l' then
            if named.isEmpty then listSignals operands else killUsage
          else if operands.isEmpty then killUsage
          else sendToAll ((named.getLast?).getD terminateSignal) operands
  | targets => sendToAll terminateSignal targets

def showTraps : Run Unit := do
  ((← get).traps.mergeSort fun a b => a.1 ≤ b.1).forM fun trap =>
    say ("trap -- ".toList ++ quoted trap.2 ++ [' '] ++ signalName trap.1 ++ ['\n'])

def setTraps (action : Option Text) : List Text → Run Int
  | [] => return 0
  | word :: rest => do
      match signal? 0 word with
      | none => do
          act (Tool.warn ("trap: ".toList ++ word ++ ": bad trap".toList))
          return 1
      | some signal => do
          modify fun state =>
            let others := state.traps.filter fun trap => trap.1 != signal
            { state with
              traps := match action with
                | some text => others ++ [(signal, text)]
                | none => others }
          setTraps action rest

def catchSignals : Plain := fun words => do
  match ← noOptions words with
  | [] => do
      showTraps
      return 0
  | [word] => setTraps none [word]
  | word :: rest =>
      if ((Tool.natural? word).bind fun n => if n < signalCount then some n else none).isSome then
        setTraps none (word :: rest)
      else setTraps (if word = ['-'] then none else some word) rest

def leave : Plain := fun words => do
  match words with
  | [] =>
      let state ← get
      set { state with code := state.ending.getD state.code }
  | word :: _ =>
      let code ← count word
      modify fun state => { state with code := code, ending := state.ending.map fun _ => code }
  throw .leave

def giveBack : Plain := fun words => do
  match words with
  | [] => pure ()
  | word :: _ => do setCode (← count word)
  throw .giveBack

/-- Leaves loops, or begins their next round. Loops that do not exist do not count. -/
def leaveLoops (jump : Nat → Jump) : Plain := fun words => do
  let size ← match words with
    | [] => pure 1
    | word :: _ => do
        let size ← count word
        if size = 0 then refuse ("Illegal number: ".toList ++ word) else pure size
  let depth := (← get).loopDepth
  if depth = 0 then return 0
  else
    setCode 0
    throw (jump (min size depth))

end Script

end CommandShell
