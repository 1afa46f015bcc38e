import CommandShell.Proofs.Session.Changes

/-!
A session from turn to turn. At every moment at which the loop takes a turn, the shell has the
files and the streams that it began with. So a file that is different after the session was
changed in one of the turns: by a store that wrote it, by what a line could reach, or by
what the shell showed all the time. Only the history is written once more, when the loop is
over.
-/
namespace CommandShell

variable {σ : Type}

/-- A point at which the loop takes a turn. -/
structure Moment (σ : Type) where
  shell : Shell
  machine : Machine
  state : σ

namespace Moment

variable (loader : Loader) (source : LineSource σ) (moment : Moment σ)

def read : CommandRead σ :=
  readCommand source moment.shell moment.machine moment.state

def turn : Turn σ :=
  step loader source moment.shell moment.machine moment.state

def next : Moment σ :=
  let turn := moment.turn loader source
  ⟨turn.shell, turn.machine, turn.rest⟩

/-- The shell that carries out what was read. -/
def reader : Shell :=
  moment.shell.withAhead (source.ahead (moment.read source).rest)

/-- One write of a store in the turn, and the tree that it is made on. -/
def Stores (store : Store) (tree : FileTree) : Prop :=
  ∃ line, (moment.read source).command = .ok (some line) ∧
    (moment.reader source).Storing line (moment.read source).machine store tree

/-- A target of the turn's line leads to the file, or a program that it starts changes it. -/
def Reaches (location : Location) : Prop :=
  ∃ line, (moment.read source).command = .ok (some line) ∧
    let after := (moment.reader source).remembering line (moment.read source).machine
    after.1.Reaches loader line after.2 location

variable {loader source moment}

theorem next_cases (loader : Loader) (source : LineSource σ) (moment : Moment σ) :
    (∃ line, (moment.read source).command = .ok (some line) ∧
        let left := (moment.reader source).execute loader line (moment.read source).machine
        (moment.next loader source).shell = left.1 ∧
          (moment.next loader source).machine = left.2) ∨
      (moment.next loader source).shell = moment.shell ∧
        moment.shell.process.Talks (moment.read source).machine
          (moment.next loader source).machine := by
  cases command : (moment.read source).command with
  | ok found =>
      cases found with
      | none =>
          have ended : moment.turn loader source =
              ⟨.stop, moment.shell, (moment.read source).machine, (moment.read source).rest⟩ := by
            rw [read] at command
            simp only [turn, step, command, read]
          refine .inr ⟨by rw [next, ended], ?_⟩
          rw [next, ended]
          exact .silent
      | some line =>
          refine .inl ⟨line, rfl, ?_⟩
          have carried : moment.turn loader source = ⟨_, _, _, _⟩ := step_line command
          exact ⟨congrArg Turn.shell carried, congrArg Turn.machine carried⟩
  | error trouble =>
      right
      rw [read] at command
      cases trouble with
      | commandTooLong limit =>
          refine ⟨by simp only [next, turn, step, command], ?_⟩
          simp only [next, turn, step, command]
          exact Process.Talks.silent.complains _
      | _ =>
          refine ⟨by simp only [next, turn, step, command], ?_⟩
          simp only [next, turn, step, command]
          exact .silent

theorem next_file? (loader : Loader) (source : LineSource σ) (moment : Moment σ)
    (store : Store) :
    (moment.next loader source).shell.file? store = moment.shell.file? store := by
  rcases next_cases loader source moment with ⟨line, -, shell, -⟩ | ⟨shell, -⟩
  · have carried := (moment.reader source).execute_file? loader line (moment.read source).machine
    rw [shell, carried]
    rfl
  · rw [shell]

theorem reader_continues (talks : source.Talks) (moment : Moment σ) :
    moment.shell.Continues moment.machine (moment.reader source) (moment.read source).machine :=
  ⟨fun _ => rfl, (readCommand_talks talks moment.shell moment.machine moment.state).grown⟩

theorem next_continues (talks : source.Talks) (tame : loader.Tame)
    (ready : moment.shell.Ready moment.machine) :
    moment.shell.Continues moment.machine (moment.next loader source).shell
      (moment.next loader source).machine := by
  have reads := reader_continues talks moment
  rcases next_cases loader source moment with ⟨line, -, shell, machine⟩ | ⟨shell, said⟩
  · rw [shell, machine]
    exact reads.trans (Shell.execute_continues tame (reads.ready ready) line)
  · rw [shell]
    exact .of_grown _ (reads.grown.trans said.grown)

end Moment

/-- The moments of a session that begins at one of them. -/
inductive Visits (loader : Loader) (source : LineSource σ) (begun : Moment σ) : Moment σ → Prop
  | begin : Visits loader source begun begun
  | turn {moment : Moment σ} (before : Visits loader source begun moment)
      (goesOn : (moment.turn loader source).flow = .proceed) :
      Visits loader source begun (moment.next loader source)

namespace Visits

variable {loader : Loader} {source : LineSource σ} {begun moment : Moment σ}

theorem later (goesOn : (begun.turn loader source).flow = .proceed)
    (visits : Visits loader source (begun.next loader source) moment) :
    Visits loader source begun moment := by
  induction visits with
  | begin => exact .turn .begin goesOn
  | turn before goesOn ih => exact .turn ih goesOn

theorem file? (visits : Visits loader source begun moment) (store : Store) :
    moment.shell.file? store = begun.shell.file? store := by
  induction visits with
  | begin => rfl
  | turn before goesOn ih => exact (Moment.next_file? ..).trans ih

theorem continues (visits : Visits loader source begun moment) (talks : source.Talks)
    (tame : loader.Tame) (ready : begun.shell.Ready begun.machine) :
    begun.shell.Continues begun.machine moment.shell moment.machine := by
  induction visits with
  | begin => exact .refl _ _
  | turn before goesOn ih => exact ih.trans (Moment.next_continues talks tame (ih.ready ready))

end Visits

namespace Moment

variable {loader : Loader} {source : LineSource σ}

def turns (loader : Loader) (source : LineSource σ) (moment : Moment σ) : Shell × Machine :=
  CommandShell.turns loader source moment.shell moment.machine moment.state

theorem turns_eq (loader : Loader) (source : LineSource σ) (begun : Moment σ) :
    begun.turns loader source =
      match (begun.turn loader source).flow with
      | .stop => ((begun.next loader source).shell, (begun.next loader source).machine)
      | .proceed => (begun.next loader source).turns loader source := by
  rw [turns, CommandShell.turns]
  simp only [turn, next, turns]
  cases (step loader source begun.shell begun.machine begun.state).flow with
  | stop => rfl
  | proceed => rfl

theorem turns_last (loader : Loader) (source : LineSource σ) (begun : Moment σ) :
    ∃ moment, Visits loader source begun moment ∧
      begun.turns loader source =
        ((moment.next loader source).shell, (moment.next loader source).machine) := by
  obtain ⟨shell, machine, state⟩ := begun
  simp only [turns]
  fun_induction CommandShell.turns loader source shell machine state with
  | case1 shell machine state turn stops => exact ⟨⟨shell, machine, state⟩, .begin, rfl⟩
  | case2 shell machine state turn goesOn _ ih =>
      obtain ⟨moment, visits, last⟩ := ih
      exact ⟨moment, visits.later goesOn, last⟩

theorem turns_file? (loader : Loader) (source : LineSource σ) (begun : Moment σ)
    (store : Store) : (begun.turns loader source).1.file? store = begun.shell.file? store := by
  obtain ⟨moment, visits, last⟩ := turns_last loader source begun
  rw [last]
  exact (next_file? loader source moment store).trans (visits.file? store)

def session (loader : Loader) (source : LineSource σ) (moment : Moment σ) :
    Except Failure Unit × Shell × Machine :=
  CommandShell.session loader source moment.shell moment.machine moment.state

theorem session_eq (loader : Loader) (source : LineSource σ) (begun : Moment σ) :
    let stopped := begun.turns loader source
    let flushed := stopped.1.history.flush stopped.2.tree stopped.1.cwd
    begun.session loader source = (flushed.map fun _ => (), stopped.1,
      stopped.2.withTree (flushed.toOption.getD stopped.2.tree)) := by
  simp only [session, CommandShell.session, turns]
  split
  · next written => rw [written]; rfl
  · next failed => rw [failed]; rfl

end Moment

/-- One write of a store in a session: the shell that makes it, and the tree that it is made on. -/
inductive SessionStores (loader : Loader) (source : LineSource σ) (begun : Moment σ) :
    Store → Shell → FileTree → Prop
  | turn (moment : Moment σ) (store : Store) (tree : FileTree)
      (visits : Visits loader source begun moment) (stores : moment.Stores source store tree) :
      SessionStores loader source begun store moment.shell tree
  | flush : SessionStores loader source begun .history (begun.turns loader source).1
      (begun.turns loader source).2.tree

theorem SessionStores.file? {loader : Loader} {source : LineSource σ} {begun : Moment σ}
    {store : Store} {shell : Shell} {tree : FileTree}
    (stores : SessionStores loader source begun store shell tree) :
    shell.file? store = begun.shell.file? store := by
  cases stores with
  | turn moment _ _ visits => exact visits.file? store
  | flush => exact begun.turns_file? loader source .history

end CommandShell
