import CommandShell.Job.Run
import CommandShell.Proofs.Builtin.Detached
import CommandShell.Proofs.Job.Pipes
import CommandShell.Proofs.Job.Preparation
import CommandShell.Proofs.Job.Targets

/-!
A job seen stage by stage. A pipeline without NUL bytes is prepared whole, every stage gets a
process, and what one of them runs depends on its own words and targets, its place among the
others and the machine that those before it leave behind.
-/
namespace CommandShell

section Forking

variable (pipes : List PipeEnds) (parent : Process)

theorem forkStages_machine (index : Nat) (stages : List PreparedStage) (machine : Machine) :
    (forkStages pipes parent index stages machine).2 =
      { machine with nextPid := machine.nextPid + stages.length } := by
  induction stages generalizing index machine with
  | nil => rfl
  | cons stage rest ih =>
      simp only [forkStages, ih, List.length_cons, Nat.add_assoc, Nat.add_comm 1]

theorem length_forkStages (index : Nat) (stages : List PreparedStage) (machine : Machine) :
    (forkStages pipes parent index stages machine).1.length = stages.length := by
  induction stages generalizing index machine with
  | nil => rfl
  | cons stage rest ih => simp only [forkStages, List.length_cons, ih]

theorem getElem?_forkStages (index : Nat) {position : Nat} {stages : List PreparedStage}
    {stage : PreparedStage} (found : stages[position]? = some stage) (machine : Machine) :
    (forkStages pipes parent index stages machine).1[position]? =
      some ⟨stage, { parent with
        pid := machine.nextPid + position
        descriptors := connect pipes (index + position) parent.descriptors }⟩ := by
  induction stages generalizing index position machine with
  | nil => cases found
  | cons first rest ih =>
      cases position with
      | zero =>
          cases found
          rfl
      | succ position =>
          simp only [forkStages, List.getElem?_cons_succ, ih (index + 1) found]
          rw [Nat.add_right_comm, Nat.add_assoc, Nat.add_right_comm index, Nat.add_assoc]

end Forking

section Running

variable (loader : Loader) (shell : Shell) (line : Text)

theorem runChildren_append (first second : List Child) (machine : Machine) :
    runChildren loader shell line (first ++ second) machine =
      ((runChildren loader shell line first machine).1 ++
          (runChildren loader shell line second
            (runChildren loader shell line first machine).2).1,
        (runChildren loader shell line second
            (runChildren loader shell line first machine).2).2) := by
  induction first generalizing machine with
  | nil => rfl
  | cons child rest ih => simp only [List.cons_append, runChildren, ih]

theorem length_runChildren (children : List Child) (machine : Machine) :
    (runChildren loader shell line children machine).1.length = children.length := by
  induction children generalizing machine with
  | nil => rfl
  | cons child rest ih => simp only [runChildren, List.length_cons, ih]

theorem runChildren_split {position : Nat} {children : List Child} {child : Child}
    (found : children[position]? = some child) (machine : Machine) :
    (runChildren loader shell line (children.take (position + 1)) machine).2 =
        (runChild loader shell line child
          (runChildren loader shell line (children.take position) machine).2).2 ∧
      (runChildren loader shell line children machine).1[position]? =
        some (runChild loader shell line child
          (runChildren loader shell line (children.take position) machine).2).1 := by
  obtain ⟨less, hit⟩ := List.getElem?_eq_some_iff.mp found
  have before : (children.take position).length = position :=
    List.length_take_of_le (Nat.le_of_lt less)
  constructor
  · rw [List.take_add_one, found, runChildren_append]
    rfl
  · -- The child stands first in what is left of the list.
    have whole : children = children.take position ++ child :: children.drop (position + 1) := by
      rw [← hit, List.getElem_cons_drop, List.take_append_drop]
    conv => lhs; rw [whole]
    rw [runChildren_append]
    have length := length_runChildren loader shell line (children.take position) machine
    rw [before] at length
    simp only [runChildren]
    rw [List.getElem?_append_right (Nat.le_of_eq length), length, Nat.sub_self]
    rfl

theorem runBuiltinStage_talks (argv : List Text) (process : Process) (machine : Machine) :
    process.Talks machine (runBuiltinStage shell argv line process machine).2 := by
  have detached : Shell.Detached { shell.detach with process := process } := ⟨rfl, rfl⟩
  have talks := Shell.dispatch_talks machine detached argv line
  unfold runBuiltinStage
  simp only
  split
  · exact talks
  · exact talks.complains _

end Running

theorem loadStage_machine (loader : Loader) (path : Path) (argv : List Text) (process : Process)
    (machine : Machine) :
    (loadStage loader path argv process machine).2 =
      (loader path (argv.map encode) process machine).2 := by
  unfold loadStage
  cases loader path (argv.map encode) process machine with
  | mk result after =>
      cases result with
      | ok status => rfl
      | error failure => cases failure <;> rfl

/-- Programs leave what other processes have open as it is. -/
def Loader.Tame (loader : Loader) : Prop :=
  ∀ path words process machine, Machine.Extends machine (loader path words process machine).2

def Loader.idle : Loader :=
  fun _ _ _ machine => (.ok (.exited 0), machine)

theorem Loader.idle_tame : Loader.idle.Tame :=
  fun _ _ _ machine => .refl machine

theorem runProgram_grown {loader : Loader} (tame : loader.Tame) (shell : Shell)
    (stage : PreparedStage) (line : Text) (process : Process) (machine : Machine) :
    Machine.Extends machine (runProgram loader shell stage line process machine).2 := by
  unfold runProgram
  split
  · exact (runBuiltinStage_talks shell line stage.argv process machine).grown
  · next path _ =>
      rw [loadStage_machine]
      exact tame path (stage.argv.map encode) process machine
  · exact .refl machine

theorem announce_talks {process : Process} (pids : List Nat) {before machine : Machine}
    (talks : process.Talks before machine) :
    process.Talks before (announce process pids machine) := by
  induction pids generalizing machine with
  | nil => exact talks
  | cons pid rest ih => exact ih (talks.complains _)

theorem reportJob_talks (process : Process) (stages : List PreparedStage) (job : Job)
    (machine : Machine) : process.Talks machine (reportJob process stages job machine) := by
  unfold reportJob
  split
  · split
    · exact .silent
    · split
      · exact Process.Talks.silent.complains _
      · exact .silent
  · exact .silent

/-- The report on a single stage, when waiting tells how it ended. A death without a name
goes without a report in any case. -/
theorem reportJob_single (process : Process) {stage : PreparedStage} (pid : Nat)
    (start : Except Int Process) (status : ExitStatus) (machine : Machine)
    (foreign : stage.isBuiltin = false) :
    reportJob process [stage] ⟨false, [⟨pid, start, status⟩]⟩ machine =
      (stage.report status).elim machine (process.complain · machine) := by
  cases told : status.isTold with
  | true =>
      have statuses : (⟨false, [⟨pid, start, status⟩]⟩ : Job).statuses = [status] := by
        simp [Job.statuses, told]
      simp only [reportJob, statuses, foreign, Bool.false_eq_true, if_false]
      cases stage.report status <;> rfl
  | false =>
      have statuses : (⟨false, [⟨pid, start, status⟩]⟩ : Job).statuses = [] := by
        simp [Job.statuses, told]
      simp only [reportJob, statuses]
      cases status with
      | exited code => cases told
      | killed signal => rfl

/-- Every descriptor of the shell is for a stream of the machine. -/
def Shell.Fits (shell : Shell) (machine : Machine) : Prop :=
  ∀ fd handle, shell.process.descriptors.get? fd = some handle → handle < machine.streams.length

theorem settle_eq (attempt : Limits → JobRun) (first count fuel : Nat) (limits : Limits) :
    ∃ found, settle attempt first count fuel limits = attempt found := by
  induction fuel generalizing limits with
  | zero => exact ⟨limits, rfl⟩
  | succ fuel ih =>
      simp only [settle]
      split
      · exact ⟨limits, rfl⟩
      · exact ih _

/-- A pipeline that a shell is given to run as a job, and how much each of its pipes takes
before the last of its readers is gone. That is a matter of timing too, so what is proved here
is proved for all limits. -/
structure JobScope where
  limits : Limits
  loader : Loader
  shell : Shell
  pipeline : Pipeline
  line : Text
  machine : Machine

namespace JobScope

variable (scope : JobScope)

def run : JobRun :=
  scope.shell.runJobUnder scope.limits scope.loader scope.pipeline scope.line scope.machine

/-- These are the limits that running the job finds. -/
def Settled : Prop :=
  scope.shell.runJob scope.loader scope.pipeline scope.line scope.machine = scope.run

theorem exists_settled (loader : Loader) (shell : Shell) (pipeline : Pipeline) (line : Text)
    (machine : Machine) :
    ∃ limits, (⟨limits, loader, shell, pipeline, line, machine⟩ : JobScope).Settled := by
  obtain ⟨limits, found⟩ : ∃ limits, shell.runJob loader pipeline line machine =
      shell.runJobUnder limits loader pipeline line machine := settle_eq ..
  exact ⟨limits, found⟩

def count : Nat :=
  scope.pipeline.stages.length

def table : Descriptors :=
  scope.shell.process.descriptors

def prepare (stage : Stage) : PreparedStage :=
  stage.prepared scope.shell scope.machine

def stages : List PreparedStage :=
  scope.pipeline.stages.map scope.prepare

/-- The pipes, the shell's table with all of them and the machine that has them. -/
def opened : List PipeEnds × Descriptors × Machine :=
  openPipes (scope.count - 1) scope.limits scope.table scope.machine

/-- The job as all processes have been forked and the shell has closed the pipes. -/
def spawned : Spawned :=
  scope.shell.spawn scope.limits scope.stages scope.machine

/-- The machine as the processes begin to run. -/
def begun : Machine :=
  if scope.pipeline.background then
    announce scope.spawned.shell.process (scope.spawned.children.map (·.process.pid))
      scope.spawned.machine
  else scope.spawned.machine

/-- The machine as the stages before this one leave it. -/
def met (index : Nat) : Machine :=
  (runChildren scope.loader scope.shell scope.line (scope.spawned.children.take index)
    scope.begun).2

/-- The process of a stage before its targets are opened. -/
def child (index : Nat) : Process :=
  { scope.shell.process with
    pid := scope.machine.nextPid + index
    descriptors := connect scope.opened.1 index scope.opened.2.1 }

/-- The process of a stage as its program starts, or the code it ends with before that. -/
def startOn (index : Nat) (stage : Stage) (met : Machine) : Except Int Process × Machine :=
  redirectStage (scope.prepare stage) (scope.child index) met

def stageRunOn (index : Nat) (stage : Stage) (met : Machine) : StageRun × Machine :=
  runChild scope.loader scope.shell scope.line ⟨scope.prepare stage, scope.child index⟩ met

def start (index : Nat) (stage : Stage) : Except Int Process × Machine :=
  scope.startOn index stage (scope.met index)

def stageRun (index : Nat) (stage : Stage) : StageRun × Machine :=
  scope.stageRunOn index stage (scope.met index)

def job : Job :=
  ⟨scope.pipeline.background,
    (runChildren scope.loader scope.shell scope.line scope.spawned.children scope.begun).1⟩

/-- A job in the foreground for a shell that keeps nothing, at the root of a tree. -/
def plain (loader : Loader) (tree : FileTree) (stages : List Stage) : JobScope where
  limits := fun _ => none
  loader := loader
  shell := Shell.ephemeral (.defaults [])
    ⟨1, [], [], ⟨[(standardInput, 0), (standardOutput, 1), (standardError, 2)]⟩, []⟩
  pipeline := ⟨stages, false⟩
  line := []
  machine := ⟨tree, [.supply [], .outlet [], .outlet []], [], ⟨[], [], false⟩, [], 2⟩

theorem plain_fits (loader : Loader) (tree : FileTree) (stages : List Stage) :
    (plain loader tree stages).shell.Fits (plain loader tree stages).machine := by
  intro fd handle found
  obtain ⟨entry, hit, rfl⟩ := Option.map_eq_some_iff.mp found
  have inside := List.mem_of_find?_eq_some hit
  revert inside
  simp only [plain, Shell.ephemeral, List.mem_cons, List.not_mem_nil, or_false]
  rintro (rfl | rfl | rfl) <;> decide

theorem opened_made : PipesMade (scope.count - 1) scope.machine scope.opened.2.2 :=
  openPipes_made ..

theorem length_stages : scope.stages.length = scope.count :=
  List.length_map _

variable {scope}

theorem spawned_machine : scope.spawned.machine =
    { scope.opened.2.2 with nextPid := scope.opened.2.2.nextPid + scope.count } := by
  unfold spawned Shell.spawn opened count
  simp only [scope.length_stages, forkStages_machine]
  rfl

theorem length_children : scope.spawned.children.length = scope.count := by
  unfold spawned Shell.spawn
  simp only [length_forkStages, length_stages]

theorem run_clean (clean : scope.pipeline.Clean) :
    scope.run = ⟨.ok scope.job, scope.spawned.shell,
      reportJob scope.spawned.shell.process scope.stages scope.job (scope.met scope.count)⟩ := by
  have whole : scope.spawned.children.take scope.count = scope.spawned.children :=
    List.take_of_length_le (Nat.le_of_eq length_children)
  -- After the last stage the machine is the one that meets a stage behind it.
  unfold run Shell.runJobUnder met
  rw [prepareAll_eq_ok.mpr ⟨clean, rfl⟩, whole]
  rfl

theorem run_not_clean (dirty : ¬ scope.pipeline.Clean) :
    ∃ trouble, scope.run = ⟨.error trouble, scope.shell, scope.machine⟩ := by
  unfold run Shell.runJobUnder
  cases whole : prepareAll scope.shell scope.machine scope.pipeline.stages with
  | error trouble => exact ⟨trouble, rfl⟩
  | ok prepared => exact absurd (prepareAll_eq_ok.mp whole).1 dirty

theorem stageRunOn_ok {index : Nat} {stage : Stage} {met started : Machine} {process : Process}
    (opened : scope.startOn index stage met = (.ok process, started)) :
    scope.stageRunOn index stage met =
      let ended := runProgram scope.loader scope.shell (scope.prepare stage) scope.line process
        started
      (⟨scope.machine.nextPid + index, .ok process, ended.1⟩, ended.2) := by
  unfold startOn at opened
  simp only [stageRunOn, runChild, opened]
  rfl

theorem stageRunOn_error {index : Nat} {stage : Stage} {met left : Machine} {code : Int}
    (refused : scope.startOn index stage met = (.error code, left)) :
    scope.stageRunOn index stage met =
      (⟨scope.machine.nextPid + index, .error code, .exited code⟩, left) := by
  unfold startOn at refused
  simp only [stageRunOn, runChild, refused]
  rfl

theorem stageRun_ok {index : Nat} {stage : Stage} {process : Process} {started : Machine}
    (opened : scope.start index stage = (.ok process, started)) :
    scope.stageRun index stage =
      let ended := runProgram scope.loader scope.shell (scope.prepare stage) scope.line process
        started
      (⟨scope.machine.nextPid + index, .ok process, ended.1⟩, ended.2) :=
  stageRunOn_ok opened

theorem stageRun_error {index : Nat} {stage : Stage} {code : Int} {left : Machine}
    (refused : scope.start index stage = (.error code, left)) :
    scope.stageRun index stage =
      (⟨scope.machine.nextPid + index, .error code, .exited code⟩, left) :=
  stageRunOn_error refused

theorem exists_stage {index : Nat} (inside : index < scope.count) :
    ∃ stage, scope.pipeline.stages[index]? = some stage :=
  ⟨_, List.getElem?_eq_getElem inside⟩

theorem getElem?_stages {index : Nat} {stage : Stage}
    (found : scope.pipeline.stages[index]? = some stage) :
    scope.stages[index]? = some (scope.prepare stage) := by
  rw [stages, List.getElem?_map, found, Option.map_some]

theorem getElem?_children {index : Nat} {stage : Stage}
    (found : scope.pipeline.stages[index]? = some stage) :
    scope.spawned.children[index]? = some ⟨scope.prepare stage, scope.child index⟩ := by
  unfold spawned Shell.spawn
  have forked := getElem?_forkStages scope.opened.1
    { scope.shell.process with descriptors := scope.opened.2.1 } 0 (getElem?_stages found)
    scope.opened.2.2
  rw [Nat.zero_add, scope.opened_made.nextPid] at forked
  rw [length_stages]
  exact forked

theorem met_succ {index : Nat} {stage : Stage}
    (found : scope.pipeline.stages[index]? = some stage) :
    scope.met (index + 1) = (scope.stageRun index stage).2 :=
  (runChildren_split scope.loader scope.shell scope.line (getElem?_children found) scope.begun).1

theorem getElem?_runs {index : Nat} {stage : Stage}
    (found : scope.pipeline.stages[index]? = some stage) :
    scope.job.runs[index]? = some (scope.stageRun index stage).1 :=
  (runChildren_split scope.loader scope.shell scope.line (getElem?_children found) scope.begun).2

theorem length_runs : scope.job.runs.length = scope.count :=
  (length_runChildren ..).trans length_children

variable (scope)

theorem met_zero (foreground : scope.pipeline.background = false) :
    scope.met 0 = scope.spawned.machine := by
  change scope.begun = scope.spawned.machine
  rw [begun, if_neg (by simp [foreground])]

theorem opened_open : PipesOpen (scope.count - 1) scope.table scope.machine scope.opened.1
    scope.opened.2.1 :=
  openPipes_open ..

theorem spawned_table :
    scope.spawned.shell.process.descriptors = closePipes scope.opened.1 scope.opened.2.1 := by
  unfold spawned Shell.spawn
  rw [length_stages]
  rfl

theorem spawned_grown : Machine.Extends scope.opened.2.2 scope.spawned.machine := by
  rw [spawned_machine]
  exact .of_streams rfl (Nat.le_add_right _ _)

theorem begun_grown : Machine.Extends scope.opened.2.2 scope.begun := by
  refine scope.spawned_grown.trans ?_
  unfold begun
  split
  · exact (announce_talks _ .silent).grown
  · exact .refl _

variable {scope}

section Starting

variable {index : Nat} {stage : Stage}

theorem start_inputRefused
    (refused : ¬ (scope.met index).tree.Readable scope.shell.cwd stage.input) :
    scope.start index stage = (.error exitInputFailed, scope.met index) :=
  redirectStage_inputRefused (scope.prepare stage) refused

theorem start_outputRefused
    (readable : (scope.met index).tree.Readable scope.shell.cwd stage.input)
    (refused : ¬ (scope.met index).tree.Writable scope.shell.cwd stage.output) :
    ∃ left, scope.start index stage = (.error exitOutputFailed, left) ∧
      left.tree = (scope.met index).tree ∧ Machine.Extends (scope.met index) left :=
  redirectStage_outputRefused (scope.prepare stage) readable refused

theorem start_plugged
    (readable : (scope.met index).tree.Readable scope.shell.cwd stage.input)
    (writable : (scope.met index).tree.Writable scope.shell.cwd stage.output) :
    ∃ process started, scope.start index stage = (.ok process, started) ∧
      Plugged (scope.prepare stage) (scope.child index) (scope.met index) process started :=
  redirectStage_ok (scope.prepare stage) readable writable

theorem start_cases (scope : JobScope) (index : Nat) (stage : Stage) :
    (∃ process started, scope.start index stage = (.ok process, started) ∧
        Plugged (scope.prepare stage) (scope.child index) (scope.met index) process started) ∨
      ∃ code left, scope.start index stage = (.error code, left) ∧
        left.tree = (scope.met index).tree ∧ Machine.Extends (scope.met index) left := by
  by_cases readable : (scope.met index).tree.Readable scope.shell.cwd stage.input
  · by_cases writable : (scope.met index).tree.Writable scope.shell.cwd stage.output
    · exact Or.inl (start_plugged readable writable)
    · obtain ⟨left, refused⟩ := start_outputRefused readable writable
      exact Or.inr ⟨_, left, refused⟩
  · exact Or.inr ⟨_, _, start_inputRefused readable, rfl, .refl _⟩

theorem start_ok {process : Process} {started : Machine}
    (opened : scope.start index stage = (.ok process, started)) :
    Plugged (scope.prepare stage) (scope.child index) (scope.met index) process started := by
  rcases scope.start_cases index stage with
    ⟨own, machine, given, plugged⟩ | ⟨code, left, refused, -⟩
  · cases given.symm.trans opened
    exact plugged
  · cases refused.symm.trans opened

end Starting

theorem stageRun_begins (index : Nat) (stage : Stage) :
    (scope.stageRun index stage).1.pid = scope.machine.nextPid + index ∧
      (scope.stageRun index stage).1.start = (scope.start index stage).1 := by
  cases opened : scope.start index stage with
  | mk result started =>
      cases result with
      | error code =>
          rw [stageRun_error opened]
          exact ⟨rfl, rfl⟩
      | ok process =>
          rw [stageRun_ok opened]
          exact ⟨rfl, rfl⟩

theorem start_grown (scope : JobScope) (index : Nat) (stage : Stage) :
    Machine.Extends (scope.met index) (scope.start index stage).2 := by
  rcases scope.start_cases index stage with
    ⟨process, started, opened, plugged⟩ | ⟨code, left, refused, -, grown⟩
  · rw [opened]
    exact plugged.grown
  · rw [refused]
    exact grown

theorem stageRun_grown (tame : scope.loader.Tame) (index : Nat) (stage : Stage) :
    Machine.Extends (scope.met index) (scope.stageRun index stage).2 := by
  rcases scope.start_cases index stage with
    ⟨process, started, opened, plugged⟩ | ⟨code, left, refused, -, grown⟩
  · rw [stageRun_ok opened]
    exact plugged.grown.trans (runProgram_grown tame ..)
  · rwa [stageRun_error refused]

theorem met_grown (tame : scope.loader.Tame) {index later : Nat} (behind : index ≤ later)
    (inside : later ≤ scope.count) : Machine.Extends (scope.met index) (scope.met later) := by
  -- By how far `later` is behind: a machine is only ever extended by the next stage.
  induction behind with
  | refl => exact .refl _
  | @step position behind ih =>
      obtain ⟨stage, found⟩ := exists_stage inside
      rw [met_succ found]
      exact (ih (Nat.le_of_lt inside)).trans (stageRun_grown tame position _)

theorem met_pipes (tame : scope.loader.Tame) {index : Nat} (inside : index ≤ scope.count) :
    Machine.Extends scope.opened.2.2 (scope.met index) :=
  scope.begun_grown.trans (met_grown tame (Nat.zero_le index) inside)

end JobScope

end CommandShell
