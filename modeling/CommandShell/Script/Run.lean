import CommandShell.Script.Command.Table
import CommandShell.Script.Redirection

/-!
Running the commands of a script. A number of steps bounds how deep runs may nest and how
often a loop may go round. `tested` holds where a failure is looked at and does not end a
script that stops on failures; `last` holds for the last command of a process, which a
program may take over.
-/
namespace CommandShell

namespace Script

def deepestWord : Nat := 1000000

def roundOf (body : Run Bool) : Run Bool := ExceptT.mk do
  match ← body.run with
  | .ok more => return .ok more
  | .error (.breakLoop count) =>
      return if count ≤ 1 then .ok false else .error (.breakLoop (count - 1))
  | .error (.nextRound count) =>
      return if count ≤ 1 then .ok true else .error (.nextRound (count - 1))
  | .error jump => return .error jump

def upToReturn (body : Run Unit) : Run Unit := ExceptT.mk do
  match ← body.run with
  | .error .giveBack => return .ok ()
  | answer => return answer

def setLine (line : Nat) : Run Unit :=
  modify fun state => { state with line := line }

def State.hasTraps (state : State) : Bool :=
  state.traps.any fun trap => !trap.2.isEmpty

def checkFailure (tested : Bool) : Run Unit := do
  let state ← get
  if state.switches.stopOnFailure && !tested && state.code ≠ 0 then throw .leave

def receiveSent : Run Unit := do
  let state ← get
  if state.process.pid = state.ownPid then
    set { state with sent := [] }
    state.sent.forM receive

def expandSettings (capture : List Command → Run Text) : List Word → Run (List Text)
  | [] => return []
  | word :: rest => do
      let here ← match setting? word with
        | some (name, value) => do
            pure [name ++ '=' :: (← expandOne capture deepestWord value)]
        | none => expandWord capture deepestWord word
      return here ++ (← expandSettings capture rest)

/-- The words of a command. The first of them decides what settings among the others are. -/
def expandCommand (capture : List Command → Run Text) : List Word → Run (List Text)
  | [] => return []
  | word :: rest => do
      match ← expandWord capture deepestWord word with
      | [] => expandCommand capture rest
      | [name] => do
          if takesSettings name then return name :: (← expandSettings capture rest)
          else return name :: (← expandWords capture deepestWord rest)
      | words => return words ++ (← expandWords capture deepestWord rest)

def applySettings (capture : List Command → Run Text) (keeps exports : Bool) :
    List (Text × Word) → Run (List Text)
  | [] => return []
  | (name, word) :: rest => do
      let value ← expandOne capture deepestWord word
      if keeps then keep name
      assign name value
      if exports then
        modify fun state =>
          match state.named? name with
          | some entry => state.putVariable { entry with exported := true }
          | none => state
      return (name ++ '=' :: value) :: (← applySettings capture keeps exports rest)

def showCommand (capture : List Command → Run Text) (before : State) (words : List Text) :
    Run Unit := do
  if before.switches.trace then
    let sign ← expandOne capture deepestWord
      (readHereText (((← get).value? "PS4".toList).getD []))
    modify fun state =>
      { state with
        machine := before.process.put standardError
          (Latin.toBytes (sign ++ joinWith [' '] words ++ ['\n'])) state.machine }

def State.endKeeping (outer : List Variable) (state : State) : State :=
  { state.kept.foldl State.bringBack state with kept := outer }

def sourceFile? (state : State) (name : Text) : Option Text :=
  (programPaths state name).find? fun path =>
    state.machine.tree.isFile state.process.cwd (Latin.toBytes path)

def readSource (name : Text) : Run Text := do
  let state ← get
  match state.machine.tree.readContent state.process.cwd (Latin.toBytes name) with
  | .ok content => return Latin.ofBytes content
  -- A folder can be opened, and there is nothing in it to read.
  | .error .isFolder => return []
  | .error failure =>
      refuse ("cannot open ".toList ++ name ++ ": ".toList ++ openReason .read failure)

def Source.isOver (source : Source) : Bool :=
  match source.ahead with
  | some .finish => true
  | _ => false

def seek (stage : Command) : Run Unit := do
  match stage with
  | .simple _ _ ([.text name false] :: _) _ =>
      if isName name && !((← get).functions.any fun entry => entry.1 == name) &&
          !isSpecialCommand name && !isOwnCommand name then
        if let .ok (_ :: _) := findProgram (← get) name then learn name
  | _ => pure ()

section

variable (loader : Loader)

mutual

/-- Runs a step as a process of its own and says how that ended. Commands for the end of the
process run after it. -/
def conclude (steps : Nat) (body : Run Unit) (start : State) : ExitStatus × State :=
  match steps with
  | 0 => (.exited 0, start)
  | steps + 1 =>
      let (_, state) := body.run.run start
      match state.ended, state.traps.find? fun trap => trap.1 = 0 with
      | some status, _ => (status, state)
      | none, none => (.exited (state.code % 256), state)
      | none, some (_, action) =>
          let rest := state.traps.filter fun trap => trap.1 ≠ 0
          let (answer, after) := (runText steps false false action).run.run
            { state with traps := rest, ending := some state.code, loopDepth := 0 }
          match after.ended, answer with
          | some status, _ => (status, after)
          | none, .error .fault => (.exited 2, after)
          | none, _ => (.exited (after.ending.getD 0 % 256), after)

def fork (steps : Nat) (wire : Descriptors → Descriptors) (body : Run Unit) : Run ExitStatus := do
  match steps with
  | 0 => return .exited 0
  | steps + 1 =>
      let pid ← newPid
      let state ← get
      let child := { state with
        process := { state.process with
          pid := pid
          descriptors := wire state.process.descriptors }
        traps := state.traps.filter fun trap => trap.2.isEmpty
        due := []
        sent := []
        ending := none
        loopDepth := 0 }
      let (status, after) := conclude steps body child
      set { state with machine := after.machine, sent := state.sent ++ after.sent }
      receiveSent
      return status

def captureOutput (steps : Nat) (body : List Command) : Run Text := do
  match steps with
  | 0 => return []
  | steps + 1 =>
      if body.isEmpty then return []
      else
        let state ← get
        let ((reader, writer), machine) := state.machine.addPipe none
        set { state with machine := machine }
        let status ← fork steps (fun table => table.set standardOutput writer)
          (runList steps false true body)
        let code ← codeOf status
        modify fun state => { state with captured := code }
        match (← get).machine.unread reader with
        | .ok bytes => return Latin.ofBytes bytes
        | .error _ => return []

def runDue (steps : Nat) : Run Unit := do
  match steps with
  | 0 => return ()
  | steps + 1 =>
      let state ← get
      match state.due with
      | [] => return ()
      | action :: rest =>
          set { state with due := rest }
          runText steps false false action
          setCode state.code
          runDue steps

/-- Runs a text of commands. A text without commands has the code zero. -/
def runText (steps : Nat) (tested last : Bool) (text : Text) : Run Unit := do
  match steps with
  | 0 => return ()
  | steps + 1 => runSource steps tested last false (Source.ofText text)

def runSource (steps : Nat) (tested last ran : Bool) (source : Source) : Run Unit := do
  match steps with
  | 0 => return ()
  | steps + 1 =>
      match readCommandLine source with
      | .error fault => do
          setLine fault.line
          refuse ("Syntax error: ".toList ++ fault.message)
      | .ok (none, _) => if ran then return () else setCode 0
      | .ok (some commands, source) => do
          runList steps tested (last && source.isOver) commands
          runSource steps tested last (ran || !commands.isEmpty) source

def runList (steps : Nat) (tested last : Bool) (commands : List Command) : Run Unit := do
  match steps with
  | 0 => return ()
  | steps + 1 =>
      match commands with
      | [] => return ()
      | [command] => runCommand steps tested last command
      | command :: rest => do
          runCommand steps tested false command
          runList steps tested last rest

def runCommand (steps : Nat) (tested last : Bool) (command : Command) : Run Unit := do
  match steps with
  | 0 => return ()
  | steps + 1 =>
      if (← get).switches.readOnly then return ()
      match command with
      | .simple line settings words redirects => do
          runSimple steps tested last line settings words redirects
          checkFailure tested
      | .pipeline stages => do
          let statuses ← runStages steps tested none stages
          let codes ← statuses.mapM codeOf
          setCode ((codes.getLast?).getD 0)
          checkFailure tested
      | .negated body => do
          runCommand steps true false body
          setCode (if (← get).code = 0 then 1 else 0)
      | .chain onFailure first second => do
          runCommand steps true false first
          if ((← get).code = 0) ≠ onFailure then runCommand steps tested last second
      | .background body => do
          let (input, machine) := (← get).machine.addStream .void
          modify fun state => { state with machine := machine }
          let pid := (← get).machine.nextPid
          let status ← fork steps (fun table => table.set standardInput input)
            (runCommand steps tested true body)
          modify fun state =>
            { state with
              lastBackground := some pid
              finished := (pid, status) :: state.finished
              code := 0 }
      | .subshell line body => do
          setLine line
          if last && !(← get).hasTraps then runList steps tested true body
          else
            let status ← fork steps id (runList steps tested true body)
            setCode (← codeOf status)
          checkFailure tested
      | .group body => runList steps tested last body
      | .branch condition yes no => do
          runList steps true false condition
          if (← get).code = 0 then runList steps tested last yes
          else if no.isEmpty then setCode 0
          else runList steps tested last no
      | .loop holds condition body => do
          let depth := (← get).loopDepth
          modify fun state => { state with loopDepth := depth + 1 }
          around (fun state => { state with loopDepth := depth })
            (runLoop steps tested holds condition body 0)
      | .forEach line name items body => do
          setLine line
          let values ← match items with
            | some items => expandWords (fun body => captureOutput steps body) deepestWord items
            | none => do pure (← get).arguments
          let depth := (← get).loopDepth
          modify fun state =>
            { state with loopDepth := depth + 1, code := if values.isEmpty then 0 else state.code }
          around (fun state => { state with loopDepth := depth })
            (runEach steps tested name values body)
      | .choice line word arms => do
          setLine line
          let text ← expandOne (fun body => captureOutput steps body) deepestWord word
          runArms steps tested last text arms
      | .function name body => do
          modify fun state =>
            { state with
              functions := (name, body) :: state.functions.filter fun entry => entry.1 != name
              code := 0 }
      | .redirected line body redirects => do
          setLine line
          let openings ← openingsOf (fun body => captureOutput steps body) deepestWord redirects
          let before ← get
          around before.closeAgain do
            let opening := redirect (fun body => captureOutput steps body) deepestWord openings
            if ← survives opening then
              runCommand steps tested false body
            else setCode 2
      runDue steps

/-- Runs the stages of a pipeline one after the other. Each finds what the one before has
written. -/
def runStages (steps : Nat) (tested : Bool) (input : Option Handle) (stages : List Command) :
    Run (List ExitStatus) := do
  match steps with
  | 0 => return []
  | steps + 1 =>
      let wireInput := fun (table : Descriptors) =>
        match input with
        | some handle => table.set standardInput handle
        | none => table
      stages.head?.forM seek
      match stages with
      | [] => return []
      | [stage] => do
          return [← fork steps wireInput (runCommand steps tested true stage)]
      | stage :: rest => do
          let state ← get
          let ((reader, writer), machine) := state.machine.addPipe none
          set { state with machine := machine }
          let status ← fork steps (fun table => (wireInput table).set standardOutput writer)
            (runCommand steps tested true stage)
          return status :: (← runStages steps tested (some reader) rest)

/-- Runs the rounds of a loop. `code` is the code of the round before. -/
def runLoop (steps : Nat) (tested holds : Bool) (condition body : List Command) (code : Int) :
    Run Unit := do
  match steps with
  | 0 => return ()
  | steps + 1 =>
      let more ← roundOf do
        runList steps true false condition
        if ((← get).code = 0) = holds then
          runList steps tested false body
          return true
        else
          setCode code
          return false
      if more then runLoop steps tested holds condition body (← get).code

def runEach (steps : Nat) (tested : Bool) (name : Text) (values : List Text)
    (body : List Command) : Run Unit := do
  match steps with
  | 0 => return ()
  | steps + 1 =>
      match values with
      | [] => return ()
      | value :: rest => do
          assign name value
          let more ← roundOf do
            runList steps tested false body
            return true
          if more then runEach steps tested name rest body

def runArms (steps : Nat) (tested last : Bool) (text : Text)
    (arms : List (List Word × List Command)) : Run Unit := do
  match steps with
  | 0 => return ()
  | steps + 1 =>
      match arms with
      | [] => setCode 0
      | (patterns, body) :: rest => do
          if ← matchesAny steps text patterns then
            if body.isEmpty then setCode 0 else runList steps tested last body
          else runArms steps tested last text rest

def matchesAny (steps : Nat) (text : Text) (patterns : List Word) : Run Bool := do
  match steps with
  | 0 => return false
  | steps + 1 =>
      match patterns with
      | [] => return false
      | pattern :: rest => do
          let signs ← expandPattern (fun body => captureOutput steps body) deepestWord pattern
          if accepts signs text then return true else matchesAny steps text rest

/-- Runs a command of words. Its words come first, then its redirections, then its settings,
which last only as long as the command unless it is a special one. -/
def runSimple (steps : Nat) (tested last : Bool) (line : Nat) (settings : List (Text × Word))
    (words : List Word) (redirects : List Redirect) : Run Unit := do
  match steps with
  | 0 => return ()
  | steps + 1 =>
      modify fun state => { state with line := line, captured := 0 }
      let capture := fun (body : List Command) => captureOutput steps body
      let argv ← expandCommand capture words
      let special := (argv.head?).any isSpecialCommand
      let openings ← openingsOf capture deepestWord redirects
      let before ← get
      let stays := argv = ["exec".toList]
      around (if stays then id else before.closeAgain) do
        if !(← survives (redirect capture deepestWord openings)) then
          setCode 2
          if special then throw .fault
        else if argv.isEmpty then
          let shown ← applySettings capture false false settings
          showCommand capture before shown
          setCode (← get).captured
        else if special then
          let exports := argv.head? == some "exec".toList && 1 < argv.length
          let shown ← applySettings capture false exports settings
          showCommand capture before (shown ++ argv)
          invoke steps tested last argv
        else
          let outer := (← get).kept
          modify fun state => { state with kept := [] }
          around (State.endKeeping outer) do
            let shown ← applySettings capture true true settings
            showCommand capture before (shown ++ argv)
            invoke steps tested last argv

def invoke (steps : Nat) (tested last : Bool) (argv : List Text) : Run Unit := do
  match steps with
  | 0 => return ()
  | steps + 1 =>
      match argv with
      | [] => return ()
      | name :: arguments => do
          let state ← get
          let function := state.functions.find? fun entry => entry.1 == name
          if isSpecialCommand name then runOwn steps tested true name arguments
          else
            match function with
            | some (_, body) => callFunction steps tested body arguments
            | none => do
                if name = "command".toList then runPlainly steps tested last arguments
                else if isOwnCommand name then runOwn steps tested false name arguments
                else
                  let inPlace := last && !state.hasTraps
                  runProgram loader inPlace argv

def callFunction (steps : Nat) (tested : Bool) (body : Command)
    (arguments : List Text) : Run Unit := do
  match steps with
  | 0 => return ()
  | steps + 1 =>
      let before ← get
      set { before with
        arguments := arguments
        functionDepth := before.functionDepth + 1
        loopDepth := 0
        optionPlace := (1, 0) }
      around (fun after => { after with
        arguments := before.arguments
        functionDepth := before.functionDepth
        loopDepth := before.loopDepth
        optionPlace := before.optionPlace }) (upToReturn (runCommand steps tested false body))

def runPlainly (steps : Nat) (tested last : Bool) (words : List Text) : Run Unit := do
  match steps with
  | 0 => return ()
  | steps + 1 =>
      let before ← get
      set { before with speaker := some "command".toList }
      let read ← answerOf (around (fun state => { state with speaker := before.speaker })
        (optionsOf ['p', 'v', 'V'] [] words))
      let (options, operands) := read.getD ([], [])
      let asked := options.reverse.find? fun option => option.1 != 'p'
      if read.isNone then return ()
      match asked, operands with
      | _, [] => setCode 0
      | some (letter, _), name :: _ => do setCode (← describe (letter == 'v') name)
      | none, name :: arguments => do
          if name = "command".toList then runPlainly steps tested last arguments
          else if isOwnCommand name then runOwn steps tested false name arguments
          else runProgram loader (last && !before.hasTraps) operands

/-- Runs a command of the interpreter. A fault ends it, and the script if it is special. -/
def runOwn (steps : Nat) (tested special : Bool) (name : Text) (arguments : List Text) :
    Run Unit := do
  match steps with
  | 0 => return ()
  | steps + 1 =>
      let outer := (← get).speaker
      modify fun state => { state with speaker := some name }
      around (fun state => { state with speaker := outer }) do
        let whole ← survives (match plainCommand? name with
          | some run => do setCode (← run arguments)
          | none => runOther steps tested name arguments)
        if !whole then setCode 2
        if (← get).lost then
          modify fun state => { state with lost := false, code := if whole then 1 else 2 }
          warn (name ++ ": I/O error".toList)
        if !whole && special then throw .fault

def runOther (steps : Nat) (tested : Bool) (name : Text) (arguments : List Text) : Run Unit := do
  match steps with
  | 0 => return ()
  | steps + 1 =>
      match String.ofList name with
      | "eval" => do
          runText steps tested false (joinWith [' '] (← noOptions arguments))
      | "exec" => do
          match ← noOptions arguments with
          | [] => setCode 0
          | argv => do
              runProgram loader true argv
              throw .leave
      | "type" => do setCode (← showMeanings arguments)
      | _ => do
          match ← noOptions arguments with
          | [] => setCode 0
          | file :: _ => do
              let state ← get
              let found := if file.contains '/' then some file else sourceFile? state file
              match found with
              | none => refuse (file ++ ": not found".toList)
              | some path => do
                  let text ← readSource path
                  let depth := (← get).loopDepth
                  modify fun state => { state with speaker := some path }
                  around (fun state => { state with loopDepth := depth })
                    (upToReturn (runText steps tested false text))

end

end

end Script

end CommandShell
