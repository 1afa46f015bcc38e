import CommandShell.Command.Expansion
import CommandShell.Job.InPlace
import CommandShell.Job.Run
import CommandShell.Session.Command

/-!
The shell's loop: read a command, remember it, carry it out. A command that cannot be
read as a pipeline, or fails, is reported and the loop goes on; it stops at the
end of the input, at a failing source and after `exit`.
-/
namespace CommandShell

def Process.report {α : Type} (process : Process) (result : Except Trouble α)
    (machine : Machine) : Machine :=
  match result with
  | .ok _ => machine
  | .error trouble => process.complain trouble.notice machine

namespace Shell

def ownStage? (pipeline : Pipeline) : Option Stage :=
  match pipeline.stages with
  | [stage] =>
      match Builtin.ofName? stage.name with
      | some command => if command.mutates then some stage else none
      | none => none
  | _ => none

def perform (loader : Loader) (shell : Shell) (pipeline : Pipeline) (line : Text)
    (machine : Machine) : Shell × Machine :=
  if pipeline.stages.isEmpty then (shell, machine)
  else
    match ownStage? pipeline with
    | some stage =>
        let (result, shell, machine) := shell.runInPlace stage line machine
        (shell, shell.process.report result machine)
    | none =>
        let run := shell.runJob loader pipeline line machine
        (run.shell, run.shell.process.report run.result run.machine)

def execute (loader : Loader) (shell : Shell) (line : Text) (machine : Machine) :
    Shell × Machine :=
  if isBlankText line then (shell, machine)
  else
    let (_, shell, machine) := shell.record machine line
    match Pipeline.parse shell.aliases.table (shell.visibleNames machine) line with
    | .error cause =>
        (shell, shell.process.complain (Trouble.ungrammatical cause).notice machine)
    | .ok pipeline => shell.perform loader pipeline line machine

end Shell

inductive Flow
  | proceed
  | stop
  deriving Repr, DecidableEq

structure Turn (σ : Type) where
  flow : Flow
  shell : Shell
  machine : Machine
  rest : σ

variable {σ : Type}

/-- The shell with what its source has read ahead, which the processes it starts get a copy
of. -/
def Shell.withAhead (shell : Shell) (ahead : Bytes) : Shell :=
  { shell with process := { shell.process with ahead := ahead } }

def step (loader : Loader) (source : LineSource σ) (shell : Shell) (machine : Machine)
    (state : σ) : Turn σ :=
  let read := readCommand source shell machine state
  match read.command with
  | .ok none => ⟨.stop, shell, read.machine, read.rest⟩
  | .ok (some line) =>
      let (shell, machine) :=
        (shell.withAhead (source.ahead read.rest)).execute loader line read.machine
      ⟨if shell.exiting then .stop else .proceed, shell, machine, read.rest⟩
  | .error (.commandTooLong limit) =>
      ⟨.proceed, shell,
        shell.process.complain (Trouble.commandTooLong limit).notice read.machine, read.rest⟩
  | .error _ => ⟨.stop, shell, read.machine, read.rest⟩

theorem size_step_lt (loader : Loader) (source : LineSource σ) (shell : Shell)
    (machine : Machine) (state : σ)
    (goesOn : (step loader source shell machine state).flow = .proceed) :
    source.size (step loader source shell machine state).rest < source.size state := by
  have rest : (step loader source shell machine state).rest =
      (readCommand source shell machine state).rest := by
    unfold step
    simp only
    split <;> rfl
  rw [rest]
  cases answered : (source.next (shell.prompt machine) shell machine state).line with
  | error failure => simp [step, readCommand, answered] at goesOn
  | ok answer =>
      cases answer with
      | none => simp [step, readCommand, answered] at goesOn
      | some line => exact size_readCommand_lt source shell machine state line answered

def turns (loader : Loader) (source : LineSource σ) (shell : Shell) (machine : Machine)
    (state : σ) : Shell × Machine :=
  let turn := step loader source shell machine state
  match goesOn : turn.flow with
  | .stop => (turn.shell, turn.machine)
  | .proceed =>
      have : source.size turn.rest < source.size state :=
        size_step_lt loader source shell machine state goesOn
      turns loader source turn.shell turn.machine turn.rest
termination_by source.size state

def session (loader : Loader) (source : LineSource σ) (shell : Shell) (machine : Machine)
    (state : σ) : Except Failure Unit × Shell × Machine :=
  let (shell, machine) := turns loader source shell machine state
  match shell.history.flush machine.tree shell.cwd with
  | .ok tree => (.ok (), shell, { machine with tree := tree })
  | .error failure => (.error failure, shell, machine)

end CommandShell
