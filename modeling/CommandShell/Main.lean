import CommandShell.StandardMachine
import CommandShell.Session.Loop

/-!
The command line of the shell. It reads its keys from the standard input and runs on the
standard machine, whose environment is taken over from the caller.
-/
namespace CommandShell

def inheritedNames : List String :=
  ["PATH", "HOME", "USER", "MYSH_HISTFILE", "MYSH_ALIASFILE", "MYSH_HISTSIZE", "MYSH_PROMPT",
    "MYSH_LOG"]

def runShell (env : Environment) (input : Bytes) : Except Failure Unit × Shell × Machine :=
  let machine := Machine.standard "localhost".toList FileTree.standard []
  let process := shellProcess [] env
  let shell := Shell.start (Configuration.ofEnvironment machine.account env) process machine.tree
  session Loader.standard InputStream.source shell machine ⟨input.map InputEvent.key, false⟩

end CommandShell

open CommandShell in
def main : IO UInt32 := do
  let mut env : Environment := []
  for name in inheritedNames do
    if let some value ← IO.getEnv name then
      env := env.set (ascii name) (ascii value)
  let stdin ← IO.getStdin
  let mut input : Bytes := []
  repeat
    let chunk ← stdin.read 65536
    if chunk.isEmpty then break
    input := input ++ chunk.toList
  let (result, _, machine) := runShell env input
  match machine.stream 1, machine.stream 2 with
  | .outlet output, .outlet errors =>
      (← IO.getStdout).write output.toByteArray
      (← IO.getStderr).write errors.toByteArray
  | _, _ => pure ()
  match result with
  | .ok () => return 0
  | .error failure =>
      (← IO.getStderr).putStrLn (String.ofList failure.message)
      return 1
