import CommandShell.Script.Run

/-!
The interpreter as a tool: what its words ask for, the state that a script starts in, and the
run to its end.
-/
namespace CommandShell

namespace Script

structure Beginning where
  givenText : Bool
  fromInput : Bool
  operands : List Text

def readBeginning (givenText fromInput : Bool) : List Text → Run Beginning
  | [] => return ⟨givenText, fromInput, []⟩
  | word :: rest =>
      match word with
      | ['-'] | ['-', '-'] => return ⟨givenText, fromInput, rest⟩
      | ['-', 'o'] =>
          match rest with
          | [] => return ⟨givenText, fromInput, []⟩
          | name :: rest =>
              match switchNames.find? fun entry => entry.1.toList == name with
              | some entry => do
                  turnSwitch entry.2 true
                  readBeginning givenText fromInput rest
              | none => refuse ("Illegal option -o ".toList ++ name)
      | sign :: letters =>
          if sign == '-' || sign == '+' then do
            let switches := letters.filter fun letter => letter != 'c' && letter != 'l'
            switches.forM fun letter => turnSwitch letter (sign == '-')
            readBeginning (givenText || letters.contains 'c')
              (fromInput || letters.contains 's') rest
          else return ⟨givenText, fromInput, word :: rest⟩
      | [] => return ⟨givenText, fromInput, word :: rest⟩

def mostSteps : Nat := 1000000

def setCall (name : Text) (arguments : List Text) : Run Unit :=
  modify fun state => { state with name := name, arguments := arguments, line := 1 }

def begin (loader : Loader) (words : List Text) : Run Unit := do
  let beginning ← readBeginning false false words
  let own := (← get).name
  match beginning.givenText, beginning.operands with
  | true, [] => refuse "-c requires an argument".toList
  | true, text :: rest => do
      setCall (rest.head?.getD own) (rest.drop 1)
      upToReturn (runText loader mostSteps false true text)
  | false, operands => do
      let file? := if beginning.fromInput then none else operands.head?
      match file? with
      | none => do
          let input ← act Tool.readInput
          setCall own operands
          upToReturn (runText loader mostSteps false false (input.toOption.getD []))
      | some file => do
          let text ← readSource file
          setCall file (operands.drop 1)
          upToReturn (runText loader mostSteps false false text)

def startVariables (env : Environment) (folder : Path) : List Variable :=
  let given := (env.map fun entry => (Latin.ofBytes entry.1, Latin.ofBytes entry.2)).filter
    fun entry => isName entry.1
  let fixed : List (String × Text) := [("IFS", " \t\n".toList), ("OPTIND", ['1'])]
  let usual : List (String × Text) :=
    [("PATH", "/usr/local/sbin:/usr/local/bin:/usr/sbin:/usr/bin:/sbin:/bin".toList),
      ("PS1", "# ".toList), ("PS2", "> ".toList), ("PS4", "+ ".toList)]
  let isFixed := fun (name : Text) =>
    name = "PWD".toList || fixed.any fun entry => entry.1.toList == name
  let isGiven := fun (name : Text) => given.any fun entry => entry.1 == name
  (given.filter fun entry => !isFixed entry.1).map (fun entry =>
      ⟨entry.1, some entry.2, true, false⟩) ++
    fixed.map (fun entry =>
      ⟨entry.1.toList, some entry.2, isGiven entry.1.toList, false⟩) ++
    (usual.filter fun entry => !isGiven entry.1.toList).map (fun entry =>
      ⟨entry.1.toList, some entry.2, false, false⟩) ++
    [⟨"PWD".toList, some (Latin.ofBytes folder), true, false⟩]

def startFolder (process : Process) (machine : Machine) : Path :=
  match process.env.get? (ascii "PWD") with
  | some path =>
      match Path.isAbsolute path, machine.tree.enter process.cwd path with
      | true, .ok location => if location == process.cwd then path else Path.ofLocation process.cwd
      | _, _ => Path.ofLocation process.cwd
  | none => Path.ofLocation process.cwd

def State.start (name : Text) (process : Process) (machine : Machine) : State where
  name := name
  arguments := []
  bindings := startVariables process.env (startFolder process machine)
  functions := []
  switches := .off
  code := 0
  captured := 0
  line := 0
  known := []
  lost := false
  functionDepth := 0
  loopDepth := 0
  kept := []
  traps := []
  due := []
  sent := []
  ending := none
  ownPid := process.pid
  lastBackground := none
  finished := []
  optionPlace := (1, 0)
  mask := 0o022
  folder := startFolder process machine
  process := { process with ahead := [] }
  machine := machine
  ended := none
  speaker := none

end Script

def Tool.interpret (loader : Loader) : Tool := fun argv process machine =>
  let words := argv.map Latin.ofBytes
  let start := Script.State.start (words.head?.getD []) process machine
  let (status, state) := Script.conclude loader Script.mostSteps
    (Script.begin loader (words.drop 1)) start
  (status, state.machine)

end CommandShell
