import CommandShell.Job.Wiring

/-!
Running a pipeline as a job. All processes are forked before any of them is told of, each with a
copy of the shell whose stores are cut off their files. They run at the same time. Through its
pipes a stage reads what the one before has written, and it writes until the one behind is
gone. So they are told of from left to right, under limits for the pipes, and what they do to
files that they share is told of in the same order.
-/
namespace CommandShell

/-- One process of a job. `start` holds what it started with, or the code it ended with
because a target could not be opened. -/
structure StageRun where
  pid : Nat
  start : Except Int Process
  status : ExitStatus

structure Job where
  background : Bool
  runs : List StageRun

def lastNamedSignal : Nat := 31

/-- Does waiting for a process tell how it ended? The death by a signal without a name
cannot be told. -/
def ExitStatus.isTold : ExitStatus → Bool
  | .exited _ => true
  | .killed signal => signal ≤ lastNamedSignal

namespace Job

def statuses (job : Job) : List ExitStatus :=
  if job.background then [] else (job.runs.map (·.status)).filter ExitStatus.isTold

end Job

def runBuiltinStage (shell : Shell) (argv : List Text) (line : Text) (process : Process)
    (machine : Machine) : ExitStatus × Machine :=
  let done := { shell.detach with process := process }.dispatch argv line machine
  match done.result with
  | .ok _ => (.exited 0, done.machine)
  | .error trouble => (.exited 1, process.complain trouble.notice done.machine)

def loadStage (loader : Loader) (path : Path) (argv : List Text) (process : Process)
    (machine : Machine) : ExitStatus × Machine :=
  match loader path (argv.map encode) process machine with
  | (.ok status, machine) => (status, machine)
  | (.error .noEntry, machine) => (.exited exitNotFound, machine)
  | (.error _, machine) => (.exited exitNotExecutable, machine)

def runProgram (loader : Loader) (shell : Shell) (stage : PreparedStage) (line : Text)
    (process : Process) (machine : Machine) : ExitStatus × Machine :=
  match stage.program with
  | .builtin _ => runBuiltinStage shell stage.argv line process machine
  | .external path => loadStage loader path stage.argv process machine
  | .missing code => (.exited code, machine)

def runChild (loader : Loader) (shell : Shell) (line : Text) (child : Child) (machine : Machine) :
    StageRun × Machine :=
  let pid := child.process.pid
  match redirectStage child.stage child.process machine with
  | (.error code, machine) => (⟨pid, .error code, .exited code⟩, machine)
  | (.ok process, machine) =>
      let (status, machine) := runProgram loader shell child.stage line process machine
      (⟨pid, .ok process, status⟩, machine)

def runChildren (loader : Loader) (shell : Shell) (line : Text) :
    List Child → Machine → List StageRun × Machine
  | [], machine => ([], machine)
  | child :: rest, machine =>
      let (run, machine) := runChild loader shell line child machine
      let (runs, machine) := runChildren loader shell line rest machine
      (run :: runs, machine)

def announce (process : Process) : List Nat → Machine → Machine
  | [], machine => machine
  | pid :: rest, machine =>
      announce process rest (process.complain
        ("[PID ".toList ++ digits pid ++ "] running in background".toList) machine)

def reportJob (process : Process) (stages : List PreparedStage) (job : Job)
    (machine : Machine) : Machine :=
  match stages, job.statuses with
  | [stage], [status] =>
      if stage.isBuiltin then machine
      else
        match stage.report status with
        | some message => process.complain message machine
        | none => machine
  | _, _ => machine

structure JobRun where
  result : Except Trouble Job
  shell : Shell
  machine : Machine

def pipeCapacity : Nat := 65536

/-- The limit of a pipe that was left with more than it holds. Its readers were gone by then, and
so what they have read and as much as a pipe holds is all that went in. -/
def Pipe.overfull? (pipe : Pipe) : Option Nat :=
  if pipe.limit.isNone ∧ pipeCapacity < pipe.unread.length then
    some (pipe.taken + pipeCapacity)
  else none

def lastOverfull? : List Pipe → Option (Nat × Nat)
  | [] => none
  | pipe :: rest =>
      match lastOverfull? rest with
      | some (number, limit) => some (number + 1, limit)
      | none => pipe.overfull?.map (0, ·)

/-- Runs a job again as long as one of its pipes is left overfull, which from then on has a limit.
The first of the machine's pipes that are the job's is `first`. -/
def settle (attempt : Limits → JobRun) (first count : Nat) : Nat → Limits → JobRun
  | 0, limits => attempt limits
  | fuel + 1, limits =>
      let run := attempt limits
      match lastOverfull? ((run.machine.pipes.drop first).take count) with
      | none => run
      | some (number, limit) =>
          settle attempt first count fuel
            fun other => if other = number then some limit else limits other

namespace Shell

def runJobUnder (limits : Limits) (loader : Loader) (shell : Shell) (pipeline : Pipeline)
    (line : Text) (machine : Machine) : JobRun :=
  match prepareAll shell machine pipeline.stages with
  | .error trouble => ⟨.error trouble, shell, machine⟩
  | .ok stages =>
      let spawned := shell.spawn limits stages machine
      let process := spawned.shell.process
      let begun :=
        if pipeline.background then
          announce process (spawned.children.map (·.process.pid)) spawned.machine
        else spawned.machine
      let (runs, machine) := runChildren loader shell line spawned.children begun
      let job := ⟨pipeline.background, runs⟩
      ⟨.ok job, spawned.shell, reportJob process stages job machine⟩

/-- Runs a job. What its readers leave unread is known only when they have run, and so the
limits are found on the way. -/
def runJob (loader : Loader) (shell : Shell) (pipeline : Pipeline) (line : Text)
    (machine : Machine) : JobRun :=
  let count := pipeline.stages.length - 1
  settle (fun limits => shell.runJobUnder limits loader pipeline line machine)
    machine.pipes.length count count fun _ => none

end Shell

end CommandShell
