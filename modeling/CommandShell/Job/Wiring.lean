import CommandShell.Job.Basic

/-!
Wiring: the descriptors of the shell and of the processes it starts. The shell opens all
pipes between the stages first, every process starts with a copy of the shell's
table, and each keeps of the pipes only what its input and output need.
-/
namespace CommandShell

structure PipeEnds where
  reader : Nat
  writer : Nat
  deriving Repr, DecidableEq

def PipeEnds.both (ends : PipeEnds) : List Nat :=
  [ends.reader, ends.writer]

/-- How much is written at most into each pipe of a job before the last of its readers is gone. -/
abbrev Limits := Nat → Option Nat

def openPipes : Nat → Limits → Descriptors → Machine → List PipeEnds × Descriptors × Machine
  | 0, _, table, machine => ([], table, machine)
  | count + 1, limits, table, machine =>
      let (handles, machine) := machine.addPipe (limits 0)
      let (reader, table) := table.assign handles.1
      let (writer, table) := table.assign handles.2
      let (rest, table, machine) :=
        openPipes count (fun number => limits (number + 1)) table machine
      (⟨reader, writer⟩ :: rest, table, machine)

def closePipes (pipes : List PipeEnds) (table : Descriptors) : Descriptors :=
  table.closeAll (pipes.flatMap PipeEnds.both)

/-- Joins stage `index` to its neighbours and closes every end of every pipe. Pipe `i`
leads from stage `i` to stage `i + 1`. -/
def connect (pipes : List PipeEnds) (index : Nat) (table : Descriptors) : Descriptors :=
  let fed := match index with
    | 0 => table
    | before + 1 =>
        match pipes[before]? with
        | some ends => table.redirect ends.reader standardInput
        | none => table
  let joined := match pipes[index]? with
    | some ends => fed.redirect ends.writer standardOutput
    | none => fed
  -- A reader meets the end of its input only when no writing end is left open, so the ends
  -- of pipes between other stages are closed here too.
  closePipes pipes joined

def Descriptors.replace (table : Descriptors) (handle : Handle) (target : Nat) : Descriptors :=
  let (fd, opened) := table.assign handle
  if fd = target then opened else (opened.redirect fd target).close fd

def redirectStage (stage : PreparedStage) (process : Process) (machine : Machine) :
    Except Int Process × Machine :=
  let withInput : Except Int Process × Machine :=
    match stage.input with
    | none => (.ok process, machine)
    | some path =>
        match machine.openForReading process.cwd (encode path) with
        | .error _ => (.error exitInputFailed, machine)
        | .ok (handle, machine) =>
            (.ok { process with
              descriptors := process.descriptors.replace handle standardInput }, machine)
  match withInput with
  | (.error code, machine) => (.error code, machine)
  | (.ok process, machine) =>
      match stage.output with
      | none => (.ok process, machine)
      | some path =>
          match machine.openForWriting process.cwd (encode path) with
          | .error _ => (.error exitOutputFailed, machine)
          | .ok (handle, machine) =>
              (.ok { process with
                descriptors := process.descriptors.replace handle standardOutput }, machine)

structure Child where
  stage : PreparedStage
  process : Process

def forkStages (pipes : List PipeEnds) (parent : Process) :
    Nat → List PreparedStage → Machine → List Child × Machine
  | _, [], machine => ([], machine)
  | index, stage :: rest, machine =>
      let child := { parent with
        pid := machine.nextPid
        descriptors := connect pipes index parent.descriptors }
      let (others, machine) := forkStages pipes parent (index + 1) rest
        { machine with nextPid := machine.nextPid + 1 }
      (⟨stage, child⟩ :: others, machine)

structure Spawned where
  children : List Child
  shell : Shell
  machine : Machine

def Shell.spawn (shell : Shell) (limits : Limits) (stages : List PreparedStage)
    (machine : Machine) : Spawned :=
  let (pipes, table, machine) :=
    openPipes (stages.length - 1) limits shell.process.descriptors machine
  let parent := { shell.process with descriptors := table }
  let (children, machine) := forkStages pipes parent 0 stages machine
  ⟨children, { shell with process := { parent with descriptors := closePipes pipes table } },
    machine⟩

end CommandShell
