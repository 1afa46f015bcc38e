import CommandShell.Script.Arithmetic
import CommandShell.Script.Reader
import CommandShell.Tool.Basic

/-!
The state of a running script: its variables, functions and arguments, the exit code of its
last command, and the process and machine it works on. A step of a script may also jump:
out of loops, out of a function or out of the script.
-/
namespace CommandShell

namespace Script

structure Variable where
  name : Text
  value : Option Text
  exported : Bool
  locked : Bool

structure Switches where
  stopOnFailure : Bool
  demandSet : Bool
  trace : Bool
  literalWords : Bool
  readOnly : Bool
  exportAll : Bool

def Switches.off : Switches :=
  ⟨false, false, false, false, false, false⟩

structure State where
  name : Text
  arguments : List Text
  bindings : List Variable
  functions : List (Text × Command)
  switches : Switches
  code : Int
  captured : Int
  line : Nat
  functionDepth : Nat
  loopDepth : Nat
  kept : List Variable
  traps : List (Nat × Text)
  due : List Text
  sent : List Nat
  ending : Option Int
  ownPid : Nat
  lastBackground : Option Nat
  finished : List (Nat × ExitStatus)
  known : List Text
  lost : Bool
  optionPlace : Nat × Nat
  mask : Nat
  folder : Path
  process : Process
  machine : Machine
  ended : Option ExitStatus
  speaker : Option Text

inductive Jump
  | leave
  | fault
  | breakLoop (count : Nat)
  | nextRound (count : Nat)
  | giveBack
  deriving DecidableEq

abbrev Run := ExceptT Jump (StateM State)

def act {α : Type} (action : Action α) : Run α := do
  let state ← get
  let (answer, machine) := action state.process state.machine
  modify fun state => { state with machine := machine }
  return answer

def say (text : Text) : Run Unit := do
  if ((← get).process.descriptors.get? standardOutput).isNone then
    modify fun state => { state with lost := true }
  act (Tool.say text)

def warn (message : Text) : Run Unit := do
  let state ← get
  let speaker := match state.speaker with
    | some name => name ++ ": ".toList
    | none => []
  act (Tool.warn (state.name ++ ": ".toList ++ digits state.line ++ ": ".toList ++ speaker ++
    message))

def answerOf {α : Type} (body : Run α) : Run (Option α) := ExceptT.mk do
  match ← body.run with
  | .ok answer => return .ok (some answer)
  | .error .fault => return .ok none
  | .error jump => return .error jump

def survives (body : Run Unit) : Run Bool := do
  return (← answerOf body).isSome

def around {α : Type} (restore : State → State) (body : Run α) : Run α := ExceptT.mk do
  let answer ← body.run
  modify restore
  return answer

def setCode (code : Int) : Run Unit :=
  modify fun state => { state with code := code }

def refuse {α : Type} (message : Text) : Run α := do
  warn message
  setCode 2
  throw .fault

namespace State

def named? (state : State) (name : Text) : Option Variable :=
  state.bindings.find? fun entry => entry.name == name

def value? (state : State) (name : Text) : Option Text :=
  (state.named? name).bind (·.value)

def putVariable (state : State) (entry : Variable) : State :=
  if state.bindings.any fun other => other.name == entry.name then
    { state with
      bindings := state.bindings.map fun other =>
        if other.name == entry.name then entry else other }
  else { state with bindings := state.bindings ++ [entry] }

def dropVariable (state : State) (name : Text) : State :=
  { state with bindings := state.bindings.filter fun other => other.name != name }

def separators (state : State) : Text :=
  (state.value? "IFS".toList).getD " \t\n".toList

def environment (state : State) : Environment :=
  state.bindings.filterMap fun entry =>
    match entry.exported, entry.value with
    | true, some value => some (Latin.toBytes entry.name, Latin.toBytes value)
    | _, _ => none

end State

/-- Sets a variable; one that is locked keeps its value. -/
def assign (name value : Text) : Run Unit := do
  let state ← get
  let old := (state.named? name).getD ⟨name, none, false, false⟩
  if old.locked then refuse (name ++ ": is read only".toList)
  else set (state.putVariable
    { old with value := some value, exported := old.exported || state.switches.exportAll })

def numberOf (text : Text) : Run Int := do
  match Tool.leadingInteger? text with
  | some (value, rest) =>
      if rest.all Tool.isSpace then return wrap value
      else refuse ("Illegal number: ".toList ++ text)
  | none =>
      if text.all Tool.isSpace then return 0
      else refuse ("Illegal number: ".toList ++ text)

namespace Arith

/-- Calculates. The other side of a choice and the right side of a decided test are left
out, but have to be readable. -/
def evaluate (source : Text) : Arith → Run Int
  | .number value => return wrap value
  | .named name => do numberOf (((← get).value? name).getD [])
  | .unary operator operand => return applyUnary operator (← evaluate source operand)
  | .binary "&&" left right => do
      if (← evaluate source left) = 0 then
        check right
        return 0
      else return ofBool ((← evaluate source right) ≠ 0)
  | .binary "||" left right => do
      if (← evaluate source left) ≠ 0 then
        check right
        return 1
      else return ofBool ((← evaluate source right) ≠ 0)
  | .binary operator left right => do
      let left ← evaluate source left
      let right ← evaluate source right
      join operator left right
  | .choose condition yes no => do
      if (← evaluate source condition) ≠ 0 then
        let value ← evaluate source yes
        check no
        return value
      else
        check yes
        evaluate source no
  | .assign operator name value => do
      let right ← evaluate source value
      let result ← match operator with
        | none => pure right
        | some operator => do
            let left ← numberOf (((← get).value? name).getD [])
            join operator left right
      Script.assign name (signedDigits result)
      return result
  | .broken fault => complain fault
where
  complain {α : Type} (fault : String) : Run α :=
    refuse ("arithmetic expression: ".toList ++ fault.toList ++ ": \"".toList ++ source ++ ['"'])
  check (expression : Arith) : Run Unit :=
    match expression.fault? with
    | some fault => complain fault
    | none => pure ()
  join (operator : String) (left right : Int) : Run Int := do
    match applyBinary operator left right with
    | some value => return value
    | none => complain "division by zero"

end Arith

def calculate (text : Text) : Run Int :=
  (Arith.ofText text).evaluate text

end Script

end CommandShell
