import CommandShell.Builtin.Dispatch
import CommandShell.Command.Pipeline

/-!
Running a built-in command in the shell itself. Its targets take the place of the shell's
own descriptors for the time of the command and are taken back in the opposite
order, on every path.
-/
namespace CommandShell

/-- A descriptor of the shell that stands for something else for a while, and the copy
that remembers its stream. -/
structure Diverted where
  target : Nat
  copy : Nat
  deriving Repr, DecidableEq

def Descriptors.divert (table : Descriptors) (handle : Handle) (target : Nat) :
    Diverted × Descriptors :=
  let (opened, table) := table.assign handle
  let (copy, table) := table.duplicate target
  (⟨target, copy⟩, (table.redirect opened target).close opened)

def Descriptors.restore (table : Descriptors) (diverted : Diverted) : Descriptors :=
  (table.redirect diverted.copy diverted.target).close diverted.copy

def Descriptors.restoreAll (table : Descriptors) (latestFirst : List Diverted) : Descriptors :=
  latestFirst.foldl Descriptors.restore table

namespace Shell

def withDescriptors (shell : Shell) (table : Descriptors) : Shell :=
  { shell with process := { shell.process with descriptors := table } }

def divertInput (shell : Shell) (target : Option Text) (machine : Machine) :
    Except Trouble (List Diverted × Shell × Machine) :=
  match target with
  | none => .ok ([], shell, machine)
  | some path =>
      match machine.openForReading shell.cwd (encode path) with
      | .error failure => .error (.redirect path failure)
      | .ok (handle, machine) =>
          let (diverted, table) := shell.process.descriptors.divert handle standardInput
          .ok ([diverted], shell.withDescriptors table, machine)

def divertOutput (shell : Shell) (target : Option Text) (machine : Machine) :
    Except Trouble (List Diverted × Shell × Machine) :=
  match target with
  | none => .ok ([], shell, machine)
  | some path =>
      match machine.openForWriting shell.cwd (encode path) with
      | .error failure => .error (.redirect path failure)
      | .ok (handle, machine) =>
          let (diverted, table) := shell.process.descriptors.divert handle standardOutput
          .ok ([diverted], shell.withDescriptors table, machine)

def restoreAll (shell : Shell) (latestFirst : List Diverted) : Shell :=
  shell.withDescriptors (shell.process.descriptors.restoreAll latestFirst)

def runInPlace (shell : Shell) (stage : Stage) (line : Text) (machine : Machine) :
    Except Trouble Unit × Shell × Machine :=
  match shell.divertInput stage.input machine with
  | .error trouble => (.error trouble, shell, machine)
  | .ok (input, shell, machine) =>
      match shell.divertOutput stage.output machine with
      | .error trouble => (.error trouble, shell.restoreAll input, machine)
      | .ok (output, shell, machine) =>
          let done := shell.dispatch stage.argv line machine
          (done.result.map fun _ => (), done.shell.restoreAll (output ++ input), done.machine)

end Shell

end CommandShell
