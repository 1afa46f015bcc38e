import CommandShell.Builtin.Dispatch
import CommandShell.Command.Pipeline
import CommandShell.System.Loader

/-!
Jobs: what the stages of a pipeline are going to run, how they ended, and the report on
a single stage that did not end well. Four exit codes are set aside for stages
that the shell itself could not get going; a program may end with them too.
-/
namespace CommandShell

def exitNotFound : Int := 127

def exitNotExecutable : Int := 126

def exitInputFailed : Int := 125

def exitOutputFailed : Int := 124

inductive Program
  | builtin (command : Builtin)
  | external (path : Path)
  | missing (code : Int)
  deriving Repr, DecidableEq

structure PreparedStage where
  argv : List Text
  program : Program
  input : Option Text
  output : Option Text
  deriving Repr, DecidableEq

def checkWord (word : Text) : Except Trouble Unit :=
  match (encode word).findIdx? (· == 0) with
  | some position => .error (.failed (.nulInWord position))
  | none => .ok ()

def checkWords : List Text → Except Trouble Unit
  | [] => .ok ()
  | word :: rest =>
      match checkWord word with
      | .error trouble => .error trouble
      | .ok () => checkWords rest

def programOf (shell : Shell) (machine : Machine) (name : Text) : Program :=
  match Builtin.ofName? name with
  | some command => .builtin command
  | none =>
      match shell.search machine name with
      | .found path => .external path
      | .notExecutable _ => .missing exitNotExecutable
      | .notFound => .missing exitNotFound

def prepare (shell : Shell) (machine : Machine) (stage : Stage) : Except Trouble PreparedStage :=
  match checkWords (stage.argv ++ stage.input.toList ++ stage.output.toList) with
  | .error trouble => .error trouble
  | .ok () => .ok ⟨stage.argv, programOf shell machine stage.name, stage.input, stage.output⟩

def prepareAll (shell : Shell) (machine : Machine) :
    List Stage → Except Trouble (List PreparedStage)
  | [] => .ok []
  | stage :: rest =>
      match prepare shell machine stage with
      | .error trouble => .error trouble
      | .ok prepared =>
          match prepareAll shell machine rest with
          | .error trouble => .error trouble
          | .ok others => .ok (prepared :: others)

namespace PreparedStage

def name (stage : PreparedStage) : Text :=
  stage.argv.head?.getD []

def isMissing (stage : PreparedStage) : Bool :=
  match stage.program with
  | .missing _ => true
  | _ => false

def isBuiltin (stage : PreparedStage) : Bool :=
  match stage.program with
  | .builtin _ => true
  | _ => false

/-- What the shell says about a single stage that did not end with zero. The exit code
alone decides, together with what the stage asked for. -/
def report (stage : PreparedStage) : ExitStatus → Option Text
  | .killed _ => none
  | .exited code =>
      if code = 0 then none
      else if code = exitNotFound ∧ stage.isMissing then
        some ("Unknown command: ".toList ++ stage.name)
      -- A program that ends with this code of its own accord is reported alike.
      else if code = exitNotExecutable then
        some ("mysh: ".toList ++ stage.name ++ ": permission denied".toList)
      else if code = exitInputFailed ∧ stage.input.isSome then
        some ("mysh: cannot open ".toList ++ stage.input.getD [] ++ " for reading".toList)
      else if code = exitOutputFailed ∧ stage.output.isSome then
        some ("mysh: cannot open ".toList ++ stage.output.getD [] ++ " for writing".toList)
      else
        some ("mysh: ".toList ++ stage.name ++ ": exited with status ".toList ++ signedDigits code)

end PreparedStage

def Trouble.notice (trouble : Trouble) : Text :=
  "mysh: ".toList ++ trouble.message

end CommandShell
