import CommandShell.Proofs.Builtin.Writing
import CommandShell.Proofs.Job.Diverting
import CommandShell.Proofs.Session.Defining
import CommandShell.Proofs.Session.Stopping

/-!
Which files change while a line is carried out, and who changes them. A store writes when the
line is remembered, and when it is a command that has something to store. A target of the line
is emptied, a program does what it likes, and the rest is what the shell shows. Whatever
happens, the stores keep their paths and the shell keeps its streams, so that the next
line is in the same position.
-/
namespace CommandShell

theorem Process.report_talks (process : Process) {α : Type} (result : Except Trouble α)
    (machine : Machine) : process.Talks machine (process.report result machine) := by
  cases result with
  | ok value => exact .silent
  | error trouble => exact Process.Talks.silent.complains _

theorem HistoryStore.append_file (store : HistoryStore) (tree : FileTree)
    (cwd : Location) (line : Text) : (store.append tree cwd line).1.file = store.file := by
  rw [HistoryStore.append]
  split
  · rfl
  · split
    · rfl
    · rfl

namespace Shell

/-! The stores keep their files, whatever the line is. -/

theorem remembering_file? (shell : Shell) (line : Text) (machine : Machine) (store : Store) :
    (shell.remembering line machine).1.file? store = shell.file? store := by
  cases store with
  | aliases => rfl
  | history =>
      simp only [file?, remembering, record, HistoryStore.record]
      split
      · exact HistoryStore.append_file ..
      · rfl

theorem Carried.file? {shell : Shell} {line : Text} {machine : Machine} {left : Shell × Machine}
    (carried : shell.Carried line machine left) (store : Store) :
    left.1.file? store = shell.file? store := by
  cases carried with
  | unread cause refused => rfl
  | apart pipeline table left read foreign => cases store <;> rfl
  | own stage background command done read named mutates runs =>
      cases runs with
      | refused trouble table left denied opened => cases store <;> rfl
      | ran table back left done granted opened runs =>
          subst runs
          exact Builtin.run_file? command _ line store

theorem execute_file? (loader : Loader) (shell : Shell) (line : Text) (machine : Machine)
    (store : Store) : (shell.execute loader line machine).1.file? store = shell.file? store :=
  ((shell.execute_carried loader line machine).file? store).trans
    (remembering_file? shell line machine store)

/-- A later moment of the same shell, with the streams that it had. -/
structure Continues (shell : Shell) (machine : Machine) (later : Shell) (after : Machine) :
    Prop where
  streams : later.process.descriptors.Matches shell.process.descriptors
  grown : Machine.Extends machine after

namespace Continues

variable {shell later last : Shell} {machine after final : Machine}

theorem refl (shell : Shell) (machine : Machine) : shell.Continues machine shell machine :=
  ⟨fun _ => rfl, .refl machine⟩

theorem trans (first : shell.Continues machine later after)
    (second : later.Continues after last final) : shell.Continues machine last final where
  streams fd := (second.streams fd).trans (first.streams fd)
  grown := first.grown.trans second.grown

theorem of_grown (shell : Shell) (grown : Machine.Extends machine after) :
    shell.Continues machine shell after :=
  ⟨fun _ => rfl, grown⟩

theorem ready (continues : shell.Continues machine later after) (ready : shell.Ready machine) :
    later.Ready after := by
  constructor
  case fits =>
    intro fd handle found
    rw [continues.streams] at found
    exact Nat.lt_of_lt_of_le (ready.fits fd handle found) continues.grown.length
  case standard =>
    intro fd low
    rw [continues.streams]
    exact ready.standard fd low

theorem shows (continues : shell.Continues machine later after) (ready : shell.Ready machine)
    {location : Location} (shows : later.Shows after location) : shell.Shows machine location := by
  obtain ⟨fd, handle, shown, found, here⟩ := shows
  rw [continues.streams] at found
  rw [continues.grown.location? (ready.fits fd handle found)] at here
  exact ⟨fd, handle, shown, found, here⟩

end Continues

variable {shell : Shell} {line : Text} {machine : Machine} {location : Location}

theorem Ready.hidden (ready : shell.Ready machine) (hidden : ¬ shell.Shows machine location)
    {after : Machine} (grown : Machine.Extends machine after) {fd : Nat} {handle : Handle}
    (shown : fd = standardOutput ∨ fd = standardError)
    (found : shell.process.descriptors.get? fd = some handle) :
    handle < after.streams.length ∧ (after.stream handle).location? ≠ some location := by
  have old := ready.fits fd handle found
  refine ⟨Nat.lt_of_lt_of_le old grown.length, ?_⟩
  rw [grown.location? old]
  exact fun here => hidden ⟨fd, handle, shown, found, here⟩

theorem Behind.apart {stage : Stage} {table : Descriptors} {left : Machine}
    (behind : shell.Behind stage machine table left) (ready : shell.Ready machine)
    (hidden : ¬ shell.Shows machine location)
    (aimed : shell.targetAt? stage machine ≠ some location) {fd : Nat} {handle : Handle}
    (shown : fd = standardOutput ∨ fd = standardError) (found : table.get? fd = some handle) :
    handle < left.streams.length ∧ (left.stream handle).location? ≠ some location := by
  refine ⟨behind.fits fd handle found, ?_⟩
  rcases behind.outputs ready shown found with own | ⟨path, target, writes⟩
  · exact (ready.hidden hidden behind.grown shown own).2
  · have place : shell.targetAt? stage machine =
        machine.tree.writesAt? shell.cwd (encode path) := by
      rw [targetAt?, show stage.output = some path from target, Option.bind_some]
    exact writes.elsewhere (place ▸ aimed)

/-- The command that the line is has something to write to the file of a store, and writes it on
this tree, once its targets are open. -/
inductive Commits (shell : Shell) (line : Text) (machine : Machine) : Store → FileTree → Prop
  | run (stage : Stage) (background : Bool) (command : Builtin) (left : Machine) (store : Store)
      (read : shell.reading line machine = .ok ⟨[stage], background⟩)
      (named : Builtin.ofName? stage.name = some command) (mutates : command.mutates = true)
      (granted : shell.Opens stage machine) (opened : Opened stage.output shell.cwd machine left)
      (stores : Builtin.Stores shell.aliases.table command (stage.argv.drop 1) line store) :
      Commits shell line machine store left.tree

/-- A target of the line leads to the file, or a program that the line starts changes it. -/
inductive Reaches (loader : Loader) (shell : Shell) (line : Text) (machine : Machine)
    (location : Location) : Prop
  | own (stage : Stage) (background : Bool)
      (read : shell.reading line machine = .ok ⟨[stage], background⟩)
      (aimed : shell.targetAt? stage machine = some location) :
      Reaches loader shell line machine location
  | program (limits : Limits) (pipeline : Pipeline)
      (read : shell.reading line machine = .ok pipeline)
      (settled : (⟨limits, loader, shell, pipeline, line, machine⟩ : JobScope).Settled)
      (changes : (⟨limits, loader, shell, pipeline, line, machine⟩ : JobScope).ProgramChanges
        location) :
      Reaches loader shell line machine location
  | target (limits : Limits) (pipeline : Pipeline)
      (read : shell.reading line machine = .ok pipeline)
      (settled : (⟨limits, loader, shell, pipeline, line, machine⟩ : JobScope).Settled)
      (names : (⟨limits, loader, shell, pipeline, line, machine⟩ : JobScope).TargetNames
        location) :
      Reaches loader shell line machine location

/-! A command in the shell itself. -/

theorem RunsBehind.continues {command : Builtin} {stage : Stage}
    {done : Except Trouble Unit × Shell × Machine}
    (runs : shell.RunsBehind stage line machine done)
    (named : Builtin.ofName? stage.name = some command) :
    shell.Continues machine done.2.1 done.2.2 := by
  cases runs with
  | unread path failure target denied => exact .refl _ _
  | unwritten path failure table fed readable target denied same tree grown => exact ⟨same, grown⟩
  | ran table back left done granted behind runs same =>
      subst runs
      rw [dispatch_stage _ named]
      exact ⟨same, behind.grown.trans (Builtin.run_writes command _ line).grown⟩

theorem RunsBehind.elsewhere {command : Builtin} {stage : Stage} {background : Bool}
    {done : Except Trouble Unit × Shell × Machine}
    (runs : shell.RunsBehind stage line machine done) (ready : shell.Ready machine)
    (read : shell.reading line machine = .ok ⟨[stage], background⟩)
    (named : Builtin.ofName? stage.name = some command) (mutates : command.mutates = true)
    (hidden : ¬ shell.Shows machine location)
    (aimed : shell.targetAt? stage machine ≠ some location)
    (unstored : ∀ store tree, shell.Commits line machine store tree →
      shell.storeAt? store tree ≠ some location) :
    done.2.2.tree.node? location = machine.tree.node? location := by
  cases runs with
  | unread path failure target denied => rfl
  | unwritten path failure table fed readable target denied same tree => rw [tree]
  | ran table back left done granted behind runs same =>
      subst runs
      rw [dispatch_stage _ named]
      -- The target is emptied first, and the command writes on what is left.
      have emptied : left.tree.node? location = machine.tree.node? location := by
        refine behind.opened.elsewhere fun path target here => aimed ?_
        rw [targetAt?, show stage.output = some path from target, Option.bind_some, here]
      refine Eq.trans ?_ emptied
      refine (Builtin.run_writes command _ line).elsewhere ?_ ?_
      · exact fun fd handle shown found => behind.apart ready hidden aimed shown found
      · intro store stores
        exact unstored store left.tree
          (.run stage background command left store read named mutates granted behind.opened stores)

/-! A job, and then any line. -/

theorem run_continues (scope : JobScope) (tame : scope.loader.Tame) :
    scope.shell.Continues scope.machine scope.run.shell scope.run.machine := by
  by_cases clean : scope.pipeline.Clean
  · rw [JobScope.run_clean clean]
    constructor
    · intro fd
      dsimp only
      rw [scope.spawned_table]
      exact scope.opened_open.get?_closePipes fd
    · exact scope.opened_made.grown.trans ((JobScope.met_pipes tame (Nat.le_refl scope.count)).trans
        (reportJob_talks ..).grown)
  · obtain ⟨trouble, failed⟩ := JobScope.run_not_clean clean
    rw [failed]
    exact .refl _ _

variable {loader : Loader} {pipeline : Pipeline}

theorem perform_continues (tame : loader.Tame) (ready : shell.Ready machine) (line : Text) :
    shell.Continues machine (shell.perform loader pipeline line machine).1
      (shell.perform loader pipeline line machine).2 := by
  unfold perform
  split
  · exact .refl shell machine
  · split
    · next stage own =>
        obtain ⟨-, command, named, -⟩ := ownStage?_eq_some.mp own
        have runs := (runInPlace_behind ready stage line).continues named
        exact runs.trans (.of_grown _ (Process.report_talks _ _ _).grown)
    · obtain ⟨limits, settled⟩ := JobScope.exists_settled loader shell pipeline line machine
      have runs := run_continues ⟨limits, loader, shell, pipeline, line, machine⟩ tame
      rw [← settled] at runs
      exact runs.trans (.of_grown _ (Process.report_talks _ _ _).grown)

/-- One write of a store while a line is carried out, and the tree that it is made on: the line
is remembered, or is a command that stores something. -/
inductive Storing (shell : Shell) (line : Text) (machine : Machine) : Store → FileTree → Prop
  | remembers (accepted : shell.history.log.accepts line = true) :
      Storing shell line machine .history machine.tree
  | commits (store : Store) (tree : FileTree)
      (commits : (shell.remembering line machine).1.Commits line
        (shell.remembering line machine).2 store tree) : Storing shell line machine store tree

theorem remembering_continues (shell : Shell) (line : Text) (machine : Machine) :
    shell.Continues machine (shell.remembering line machine).1
      (shell.remembering line machine).2 :=
  ⟨fun _ => rfl, .of_streams rfl (Nat.le_refl _)⟩

theorem execute_continues (tame : loader.Tame) (ready : shell.Ready machine) (line : Text) :
    shell.Continues machine (shell.execute loader line machine).1
      (shell.execute loader line machine).2 := by
  cases blank : isBlankText line with
  | true =>
      rw [execute, if_pos blank]
      exact .refl shell machine
  | false =>
      have remembers := shell.remembering_continues line machine
      refine remembers.trans ?_
      rw [execute_remembering loader shell blank, carryOut]
      split
      · exact .of_grown _ (Process.Talks.silent.complains _).grown
      · exact perform_continues tame (remembers.ready ready) line

end Shell

end CommandShell
