import CommandShell.Proofs.Job.Stages

/-!
What the processes of a job have open. The input of a stage is its own target, or else the
pipe from the stage before it, or else what the shell reads; its output likewise. A process
has no other end of a pipe, and the shell has none when the stages have been started.
-/
namespace CommandShell

/-- What the input or the output of a stage is joined to. -/
inductive Connection
  | target (path : Text)
  | pipe (number : Nat)
  | shell
  deriving Repr, DecidableEq

namespace Stage

/-- Pipe `i` leads from stage `i` to stage `i + 1`. -/
def source (stage : Stage) (index : Nat) : Connection :=
  match stage.input with
  | some path => .target path
  | none => if 0 < index then .pipe (index - 1) else .shell

def sink (stage : Stage) (index count : Nat) : Connection :=
  match stage.output with
  | some path => .target path
  | none => if index + 1 < count then .pipe index else .shell

end Stage

namespace JobScope

variable (scope : JobScope)

/-- The standard input of a process that has been started as stage `index`. -/
def Reads (index : Nat) (process : Process) (started : Machine) : Connection → Prop
  | .target path => ∃ handle, process.descriptors.get? standardInput = some handle ∧
      (scope.met index).streams.length ≤ handle ∧
        started.ReadsAt (scope.met index).tree scope.shell.cwd (encode path) handle
  | .pipe number =>
      process.descriptors.get? standardInput = some (scope.machine.readEnd number) ∧
        started.stream (scope.machine.readEnd number) =
          .pipeReader (scope.machine.pipes.length + number)
  | .shell => process.descriptors.get? standardInput = scope.table.get? standardInput

def Writes (index : Nat) (process : Process) (started : Machine) : Connection → Prop
  | .target path => ∃ handle, process.descriptors.get? standardOutput = some handle ∧
      (scope.met index).streams.length ≤ handle ∧
        started.WritesAt (scope.met index).tree scope.shell.cwd (encode path) handle
  | .pipe number =>
      process.descriptors.get? standardOutput = some (scope.machine.writeEnd number) ∧
        started.stream (scope.machine.writeEnd number) =
          .pipeWriter (scope.machine.pipes.length + number)
  | .shell => process.descriptors.get? standardOutput = scope.table.get? standardOutput

/-- What a process has open as its program starts. -/
structure Wired (index : Nat) (stage : Stage) (process : Process) (started : Machine) : Prop where
  input : scope.Reads index process started (stage.source index)
  output : scope.Writes index process started (stage.sink index scope.count)
  noOther : ∀ fd handle, process.descriptors.get? fd = some handle →
    scope.machine.PipeHandle (scope.count - 1) handle →
      (fd = standardInput ∧ ∃ number, stage.source index = .pipe number ∧
          handle = scope.machine.readEnd number) ∨
        fd = standardOutput ∧ ∃ number, stage.sink index scope.count = .pipe number ∧
          handle = scope.machine.writeEnd number

variable {scope}

theorem start_wired (fits : scope.shell.Fits scope.machine) (tame : scope.loader.Tame)
    (hasInput : scope.table.get? standardInput ≠ none)
    (hasOutput : scope.table.get? standardOutput ≠ none) {index : Nat} {stage : Stage}
    (inside : index < scope.count) {process : Process} {started : Machine}
    (start : scope.start index stage = (.ok process, started)) :
    scope.Wired index stage process started := by
  have plugged := start_ok start
  have own := scope.opened_open.get?_connect (Nat.le_sub_one_of_lt inside) hasInput hasOutput
  have made := scope.opened_made
  have early := met_pipes tame (Nat.le_of_lt inside)
  have grown := scope.start_grown index stage
  rw [start] at grown
  have late := early.trans grown
  constructor
  case input =>
    cases target : stage.input with
    | some path =>
        simp only [Stage.source, target]
        exact plugged.input path target
    | none =>
        have kept := plugged.others standardInput (fun _ => target)
          (fun same => absurd same (by decide))
        simp only [Stage.source, target]
        split
        · next follows =>
            have inRange : index - 1 < scope.count - 1 := by omega
            constructor
            · exact kept.trans ((own standardInput).trans (if_pos ⟨rfl, follows⟩))
            · refine late.pipeReader ?_ (made.ends (index - 1) inRange).1
              exact made.streams ▸ (Machine.PipeHandle.bounds ⟨index - 1, inRange, Or.inl rfl⟩).2
        · next first =>
            refine kept.trans ((own standardInput).trans ?_)
            rw [if_neg (fun both => first both.2), if_neg (fun both => absurd both.1 (by decide))]
  case output =>
    cases target : stage.output with
    | some path =>
        simp only [Stage.sink, target]
        exact plugged.output path target
    | none =>
        have kept := plugged.others standardOutput (fun same => absurd same (by decide))
          (fun _ => target)
        simp only [Stage.sink, target]
        split
        · next followed =>
            have inRange : index < scope.count - 1 := by omega
            constructor
            · refine kept.trans ((own standardOutput).trans ?_)
              rw [if_neg (fun both => absurd both.1 (by decide)), if_pos ⟨rfl, inRange⟩]
            · refine late.pipeWriter ?_ (made.ends index inRange).2
              exact made.streams ▸ (Machine.PipeHandle.bounds ⟨index, inRange, Or.inr rfl⟩).2
        · next last =>
            refine kept.trans ((own standardOutput).trans ?_)
            rw [if_neg (fun both => absurd both.1 (by decide)),
              if_neg (fun both => last (by omega))]
  case noOther =>
    -- A pipe is older than the streams of the targets, so the process has it from `connect`.
    intro fd handle found pipe
    have old : handle < (scope.met index).streams.length :=
      Nat.lt_of_lt_of_le (made.streams ▸ pipe.bounds.2) early.length
    obtain ⟨notInput, notOutput, had⟩ := plugged.older found old
    have look := (own fd).symm.trans had
    split at look
    · next feeds =>
        left
        refine ⟨feeds.1, index - 1, ?_, (Option.some.inj look).symm⟩
        have noTarget : stage.input = none := notInput feeds.1
        simp only [Stage.source, noTarget, if_pos feeds.2]
    · split at look
      · next fills =>
          right
          refine ⟨fills.1, index, ?_, (Option.some.inj look).symm⟩
          have noTarget : stage.output = none := notOutput fills.1
          simp only [Stage.sink, noTarget]
          rw [if_pos (by omega)]
      · -- It would be a stream of the shell, but those were there before the pipes.
        exact absurd (fits fd handle look) (Nat.not_lt_of_le pipe.bounds.1)

/-- A job as it should be connected. -/
structure Connected (scope : JobScope) (job : Job) : Prop where
  processes : job.runs.length = scope.count
  inOrder : (job.runs.map (·.pid)).Pairwise (· < ·)
  /-- Each stage that gets as far has its program started as a process that is wired. -/
  wired : ∀ index stage run process, scope.pipeline.stages[index]? = some stage →
    job.runs[index]? = some run → run.start = .ok process →
      ∃ started, scope.start index stage = (.ok process, started) ∧ process.pid = run.pid ∧
        scope.Wired index stage process started ∧
          run.status = (runProgram scope.loader scope.shell (scope.prepare stage) scope.line
            process started).1
  /-- As soon as the processes are there, and before it waits for them, the shell has its old
  table back, which has no pipe of the job. -/
  shell : ∀ fd, scope.spawned.shell.process.descriptors.get? fd = scope.table.get? fd
  shellFree : ∀ fd handle, scope.spawned.shell.process.descriptors.get? fd = some handle →
    ¬ scope.machine.PipeHandle (scope.count - 1) handle
  waited : scope.run.shell = scope.spawned.shell

theorem job_inOrder : (scope.job.runs.map (·.pid)).Pairwise (· < ·) := by
  rw [List.pairwise_map, List.pairwise_iff_getElem]
  intro index later inside laterInside before
  have pid : ∀ position (here : position < scope.job.runs.length),
      (scope.job.runs[position]).pid = scope.machine.nextPid + position := by
    intro position here
    obtain ⟨stage, found⟩ := exists_stage (length_runs ▸ here)
    have run := getElem?_runs found
    rw [List.getElem?_eq_getElem here] at run
    rw [Option.some.inj run, (stageRun_begins position stage).1]
  rw [pid, pid]
  exact Nat.add_lt_add_left before _

/-- A pipeline without NUL bytes gets as many processes as it has stages, in their order, and
all of them are wired. With a NUL byte nothing is opened and nothing started. -/
theorem run_connected (scope : JobScope) :
    (scope.pipeline.Clean → scope.shell.Fits scope.machine → scope.loader.Tame →
      scope.table.get? standardInput ≠ none → scope.table.get? standardOutput ≠ none →
        ∃ job, scope.run.result = .ok job ∧ scope.Connected job) ∧
    (¬ scope.pipeline.Clean →
      ∃ trouble, scope.run = ⟨.error trouble, scope.shell, scope.machine⟩) := by
  refine ⟨?_, run_not_clean⟩
  intro clean fits tame hasInput hasOutput
  have whole := run_clean clean
  refine ⟨scope.job, by rw [whole], ?_⟩
  have given : ∀ fd, scope.spawned.shell.process.descriptors.get? fd = scope.table.get? fd := by
    rw [scope.spawned_table]
    exact scope.opened_open.get?_closePipes
  constructor
  case processes => exact length_runs
  case inOrder => exact job_inOrder
  case wired =>
    intro index stage run process found hasRun isStarted
    cases (getElem?_runs found).symm.trans hasRun
    have start : scope.start index stage = (.ok process, (scope.start index stage).2) :=
      Prod.ext ((stageRun_begins index stage).2.symm.trans isStarted) rfl
    refine ⟨_, start, ?_, start_wired fits tame hasInput hasOutput
      (List.getElem?_eq_some_iff.mp found).1 start, ?_⟩
    · rw [(start_ok start).process_eq, (stageRun_begins index stage).1]
      rfl
    · rw [stageRun_ok start]
  case shell => exact given
  case shellFree =>
    intro fd handle found pipe
    exact absurd (fits fd handle ((given fd).symm.trans found)) (Nat.not_lt_of_le pipe.bounds.1)
  case waited => rw [whole]

/-- A stage that reads a file and fills a pipe is started, and wired so. -/
theorem file_into_pipe_connected :
    let first : Stage := ⟨["cat".toList], some "in".toList, none⟩
    let scope := plain .idle ⟨[([encode "in".toList], .file [] newFileMode)]⟩
      [first, ⟨["cat".toList], none, none⟩]
    scope.pipeline.Clean ∧ (∃ job, scope.run.result = .ok job ∧ scope.Connected job) ∧
      ∃ process started, scope.start 0 first = (.ok process, started) ∧
        scope.Reads 0 process started (.target "in".toList) ∧
          scope.Writes 0 process started (.pipe 0) := by
  intro first scope
  have clean : scope.pipeline.Clean := by decide
  have fits : scope.shell.Fits scope.machine := plain_fits _ _ _
  refine ⟨clean, (run_connected scope).1 clean fits Loader.idle_tame (by decide) (by decide), ?_⟩
  have walked : scope.machine.tree.walk .use mostLinks [] [encode "in".toList] =
      .ok (.present [encode "in".toList] (.file [] newFileMode)) := by
    rw [FileTree.walk]
    rfl
  have found : scope.machine.tree.open? [] (encode "in".toList) =
      .ok ([encode "in".toList], .file [] newFileMode) := by
    rw [FileTree.open?, FileTree.arrive_eq_ok.mpr ⟨by decide, walked⟩]
  have readable : (scope.met 0).tree.Readable scope.shell.cwd first.input := by
    rintro _ ⟨⟩
    exact ⟨_, found⟩
  have writable : (scope.met 0).tree.Writable scope.shell.cwd first.output := granted_none _
  obtain ⟨process, started, start, -⟩ := start_plugged readable writable
  have wired := start_wired fits Loader.idle_tame (by decide) (by decide) (by decide) start
  exact ⟨process, started, start, wired.input, wired.output⟩

/-- A NUL byte in a word keeps the whole job from starting. -/
theorem nul_starts_nothing :
    let scope := plain .idle .empty
      [⟨["echo".toList, "a\x00b".toList], none, none⟩, ⟨["cat".toList], none, none⟩]
    (∀ fd ∈ [standardInput, standardOutput, standardError], scope.table.get? fd ≠ none) ∧
      scope.count = 2 ∧ scope.run.result = .error (.failed (.nulInWord 1)) ∧
        scope.run.machine = scope.machine := by
  exact ⟨by decide, rfl, rfl, rfl⟩

end JobScope

end CommandShell
