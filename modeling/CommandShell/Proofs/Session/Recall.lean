import CommandShell.Proofs.Editor.Browsing
import CommandShell.Proofs.Session.Stopping
import Mathlib

/-!
Recalling a command that a session has recorded. The history keeps a command as long as it was
entered, over however many lines. The editor takes no more of it than fits on one line, and
a line that ends in a backslash goes on with the next one. So a command comes back
exactly when it could have been typed on one line.
-/
namespace CommandShell

variable {σ : Type} {loader : Loader} {source : LineSource σ} {shell : Shell} {machine : Machine}
  {state : σ}

namespace Shell

variable {line : Text}

theorem Carried.config {left : Shell × Machine} (carried : shell.Carried line machine left) :
    left.1.config = shell.config := by
  cases carried with
  | unread => rfl
  | apart => rfl
  | own stage background command done read named mutates runs =>
      cases runs with
      | refused => rfl
      | ran table back left done granted opened runs =>
          have leaves := Builtin.run_leaves (shell.withDescriptors table) (stage.argv.drop 1) line
            left command
          rw [runs] at leaves
          exact leaves.config

end Shell

theorem step_config (loader : Loader) (source : LineSource σ) (shell : Shell) (machine : Machine)
    (state : σ) : (step loader source shell machine state).shell.config = shell.config := by
  rw [step]
  split
  · rfl
  · next line command =>
      let ahead := shell.withAhead (source.ahead (readCommand source shell machine state).rest)
      exact (ahead.execute_carried loader line _).config
  · rfl
  · rfl

/-- A command that a turn of the loop has recorded, and the line it begins with. -/
structure Recording where
  first : Text
  command : Text
  deriving Repr, DecidableEq

/-- No other line was read for the command. -/
def Recording.OnOneLine (recording : Recording) : Prop :=
  recording.first.getLast? ≠ some backslash

instance (recording : Recording) : Decidable recording.OnOneLine :=
  inferInstanceAs (Decidable (recording.first.getLast? ≠ some backslash))

/-- What a turn of the loop records. -/
def recording? (source : LineSource σ) (shell : Shell) (machine : Machine) (state : σ) :
    Option Recording :=
  let read := readCommand source shell machine state
  match (source.next (shell.prompt machine) shell machine state).line, read.command with
  | .ok (some first), .ok (some command) =>
      if (shell.record read.machine command).1 then some ⟨first, command⟩ else none
  | _, _ => none

/-- A session that has come so far, and all that it has recorded. -/
inductive Sitting (loader : Loader) (source : LineSource σ) (begun : Shell) :
    Shell → Machine → σ → List Recording → Prop
  | begin (machine : Machine) (state : σ) : Sitting loader source begun begun machine state []
  | turn {shell : Shell} {machine : Machine} {state : σ} {recordings : List Recording}
      (before : Sitting loader source begun shell machine state recordings)
      (goesOn : (step loader source shell machine state).flow = .proceed) :
      Sitting loader source begun (step loader source shell machine state).shell
        (step loader source shell machine state).machine
        (step loader source shell machine state).rest
        (recordings ++ (recording? source shell machine state).toList)

variable {begun : Shell} {recordings : List Recording}

theorem Sitting.config (sitting : Sitting loader source begun shell machine state recordings) :
    shell.config = begun.config := by
  induction sitting with
  | begin => rfl
  | turn before goesOn ih => exact (step_config ..).trans ih

theorem command_of_oneLine {recording : Recording}
    (recorded : recording? source shell machine state = some recording)
    (single : recording.OnOneLine) : recording.command = recording.first := by
  simp only [recording?] at recorded
  split at recorded
  · next first command answered read =>
      split at recorded
      · cases recorded
        rw [readCommand_whole answered single] at read
        cases read
        rfl
      · cases recorded
  · cases recorded

theorem Sitting.command_of_oneLine
    (sitting : Sitting loader source begun shell machine state recordings) {recording : Recording}
    (recorded : recording ∈ recordings) (single : recording.OnOneLine) :
    recording.command = recording.first := by
  induction sitting with
  | begin => cases recorded
  | turn before goesOn ih =>
      rcases List.mem_append.mp recorded with old | new
      · exact ih old
      · exact CommandShell.command_of_oneLine (Option.mem_toList.mp new) single

theorem HistoryStore.append_log (store : HistoryStore) (tree : FileTree) (cwd : Location)
    (line : Text) : (store.append tree cwd line).1.log = store.log.push line := by
  rw [append]
  split
  · rfl
  · split
    · rfl
    · rfl

theorem Shell.record_newest {command : Text} (accepted : shell.history.log.accepts command = true)
    (machine : Machine) : (shell.record machine command).1 = true ∧
      (shell.remembering command machine).1.history.log.entries.reverse[0]? = some command := by
  have recorded : shell.history.record machine.tree shell.cwd command =
      (true, shell.history.append machine.tree shell.cwd command) := by
    rw [HistoryStore.record, if_pos accepted]
  simp only [remembering, record, recorded, HistoryStore.append_log]
  simp [HistoryLog.push]

theorem Sitting.of_unread (loader : Loader) {first command : Text} {rest : σ} {met : Machine}
    {cause : SyntaxTrouble} (going : shell.exiting = false)
    (answered : (source.next (shell.prompt machine) shell machine state).line = .ok (some first))
    (read : readCommand source shell machine state = ⟨.ok (some command), rest, met⟩)
    (accepted : shell.history.log.accepts command = true)
    (unread : (shell.remembering command met).1.reading command
      (shell.remembering command met).2 = .error cause) :
    let turn := step loader source shell machine state
    Sitting loader source shell turn.shell turn.machine turn.rest [⟨first, command⟩] ∧
      turn.shell.history.log.entries.reverse[0]? = some command := by
  intro turn
  have given : (readCommand source shell machine state).command = .ok (some command) := by rw [read]
  obtain ⟨kept, newest⟩ := Shell.record_newest accepted met
  have only : shell.OnlyRemembers command met met turn := by
    obtain rfl : (readCommand source shell machine state).machine = met := by rw [read]
    exact step_unread going given .silent unread
  have recorded : recording? source shell machine state = some ⟨first, command⟩ := by
    simp only [recording?, answered, read]
    exact if_pos kept
  have begun : Sitting loader source shell shell machine state [] := .begin machine state
  have sitting := begun.turn only.proceeds
  rw [recorded] at sitting
  refine ⟨sitting, ?_⟩
  rw [only.memory]
  exact newest

theorem continueCommand_goesOn {line text : Text} (goesOn : line.getLast? = some backslash)
    (command : (continueCommand source shell line machine state).command = .ok (some text)) :
    text = line.dropLast ∨
      source.size (continueCommand source shell line machine state).rest < source.size state := by
  revert command
  fun_cases continueCommand source shell line machine state with
  | case1 => exact fun command => nomatch command
  | case2 =>
      intro command
      exact Or.inl (Option.some.inj (Except.ok.inj command)).symm
  | case3 => exact fun command => nomatch command
  | case4 _ _ answer next answered _ shorter =>
      intro _
      exact Or.inr (Nat.lt_of_le_of_lt (size_continueCommand_le ..) shorter)
  | case5 ends => exact absurd goesOn ends

/-- A line that is no longer than a text, with no other line behind it, is read as the text
only if it is the text. -/
theorem continueCommand_exact {line text : Text} (short : line.length ≤ text.length) :
    let read := continueCommand source shell line machine state
    (read.command = .ok (some text) ∧ source.size read.rest = source.size state ↔
      line = text ∧ text.getLast? ≠ some backslash) := by
  intro read
  by_cases goesOn : line.getLast? = some backslash
  · refine iff_of_false ?_ ?_
    · rintro ⟨command, same⟩
      rcases continueCommand_goesOn goesOn command with rfl | less
      · -- The backslash is missing from the command.
        have filled : line ≠ [] := by
          rintro rfl
          cases goesOn
        have shorter := List.length_pos_iff.mpr filled
        rw [List.length_dropLast] at short
        omega
      · exact Nat.ne_of_lt less same
    · rintro ⟨rfl, ends⟩
      exact ends goesOn
  · have whole : read = ⟨.ok (some line), state, machine⟩ := by
      simp only [read]
      rw [continueCommand, if_neg goesOn]
    rw [whole]
    constructor
    · rintro ⟨command, -⟩
      obtain rfl : line = text := Option.some.inj (Except.ok.inj command)
      exact ⟨rfl, goesOn⟩
    · rintro ⟨rfl, -⟩
      exact ⟨rfl, rfl⟩

theorem readCommand_goesOn {line text : Text}
    (answered : (source.next (shell.prompt machine) shell machine state).line = .ok (some line))
    (goesOn : line.getLast? = some backslash)
    (command : (readCommand source shell machine state).command = .ok (some text)) :
    text = line.dropLast ∨ source.size (readCommand source shell machine state).rest <
      source.size (source.next (shell.prompt machine) shell machine state).rest := by
  simp only [readCommand, answered] at command ⊢
  exact continueCommand_goesOn goesOn command

theorem readCommand_exact {line text : Text}
    (answered : (source.next (shell.prompt machine) shell machine state).line = .ok (some line))
    (short : line.length ≤ text.length) :
    let read := readCommand source shell machine state
    let answer := source.next (shell.prompt machine) shell machine state
    (read.command = .ok (some text) ∧ source.size read.rest = source.size answer.rest ↔
      line = text ∧ text.getLast? ≠ some backslash) := by
  simp only [readCommand, answered]
  exact continueCommand_exact short

theorem Sitting.next_recall (sitting : Sitting loader source begun shell machine state recordings)
    (prompt : Text) {presses : Nat} {command : Text}
    (kept : shell.history.log.entries.reverse[presses]? = some command) {enter : UInt8}
    (ends : enter = keyLineFeed ∨ enter = keyReturn) (events : List InputEvent) (pending : Bool) :
    let answer := InputStream.source.next prompt shell machine
      ⟨(recallKeys (presses + 1) enter).map .key ++ events, pending⟩
    answer.line = .ok (some (clip begun.config.maxLine command)) ∧ answer.rest.events = events := by
  have read := (shell.editor machine prompt).readLine_recall kept ends events pending
  simp only [LineRead.outcome, Prod.mk.injEq] at read
  rw [← sitting.config]
  exact read

/-- A command that a session has recorded and the history still holds. At the next prompt
the editor gives as much of it as fits on a line, and the command is read from this line alone
and is the same, exactly if it is no longer than a line and does not end in a backslash. Every
command that was entered on one line is such. -/
theorem recalled_iff (loader : Loader) (source : LineSource σ) (begun : Shell) {shell : Shell}
    {machine : Machine} {state : σ} {recordings : List Recording}
    (sitting : Sitting loader source begun shell machine state recordings)
    (short : ∀ recording ∈ recordings, byteLength recording.first ≤ begun.config.maxLine)
    {recording : Recording} (recorded : recording ∈ recordings) {presses : Nat}
    (kept : shell.history.log.entries.reverse[presses]? = some recording.command)
    {enter : UInt8} (ends : enter = keyLineFeed ∨ enter = keyReturn) (events : List InputEvent)
    (pending : Bool) :
    let input : InputStream := ⟨(recallKeys (presses + 1) enter).map .key ++ events, pending⟩
    let read := readCommand InputStream.source shell machine input
    let recalled := read.command = .ok (some recording.command) ∧ read.rest.events = events
    (∃ line, LongestFit begun.config.maxLine recording.command line ∧
        (InputStream.source.next (shell.prompt machine) shell machine input).line =
          .ok (some line) ∧
        (line.getLast? ≠ some backslash → read.command = .ok (some line))) ∧
      (recalled ↔ byteLength recording.command ≤ begun.config.maxLine ∧
        recording.command.getLast? ≠ some backslash) ∧
      (recording.OnOneLine → recalled) := by
  intro input read recalled
  let answer := InputStream.source.next (shell.prompt machine) shell machine input
  obtain ⟨line, rest⟩ : answer.line = .ok (some (clip begun.config.maxLine recording.command)) ∧
      answer.rest.events = events := sitting.next_recall _ kept ends events pending
  have exactly : recalled ↔ byteLength recording.command ≤ begun.config.maxLine ∧
      recording.command.getLast? ≠ some backslash := by
    constructor
    · rintro ⟨command, left⟩
      have same : read.rest.events.length = answer.rest.events.length :=
        congrArg List.length (left.trans rest.symm)
      have fits := (readCommand_exact line (clip_begins _ _).length_le).mp ⟨command, same⟩
      exact ⟨clip_eq_self.mp fits.1, fits.2⟩
    · rintro ⟨fits, whole⟩
      rw [clip_of_le _ _ fits] at line
      have plain : read = ⟨.ok (some recording.command), answer.rest, answer.machine⟩ :=
        readCommand_whole line whole
      exact ⟨congrArg CommandRead.command plain,
        (congrArg (fun read => read.rest.events) plain).trans rest⟩
  refine ⟨⟨_, clip_longestFit _ _, line, ?_⟩, exactly, ?_⟩
  · intro whole
    exact congrArg CommandRead.command (readCommand_whole line whole)
  · intro single
    have same := sitting.command_of_oneLine recorded single
    rw [exactly, same]
    exact ⟨short recording recorded, single⟩

/-- A shell whose lines have at most four bytes, and whose commands have at most fifteen. -/
def narrowShell : Shell :=
  let shell := (JobScope.plain .idle .empty []).shell
  { shell with config :=
    { shell.config with maxLine := 4, maxCommand := 16, prompt := some "$ ".toList } }

/-- A command typed on a line of four bytes. One press and Enter give it again, and what
was typed behind them waits. -/
theorem typed_line_recalled :
    let machine := (JobScope.plain .idle .empty []).machine
    let turn := step .idle Script.source narrowShell machine ⟨["| ||".toList], none, []⟩
    let input : InputStream := ⟨(recallKeys 1 keyReturn).map .key ++ [.key 97], true⟩
    let read := readCommand InputStream.source turn.shell turn.machine input
    turn.shell.history.log.entries.reverse[0]? = some "| ||".toList ∧
      read.command = .ok (some "| ||".toList) ∧ read.rest.events = [.key 97] := by
  intro machine turn input read
  have typed : readCommand Script.source narrowShell machine ⟨["| ||".toList], none, []⟩ =
      ⟨.ok (some "| ||".toList), ⟨[], none, ["$ ".toList]⟩, machine⟩ := by
    cbv
  obtain ⟨sitting, kept⟩ := Sitting.of_unread .idle rfl rfl typed (by decide) rfl
  have recalled := recalled_iff .idle Script.source narrowShell sitting (by decide)
    (List.mem_singleton_self _) kept (Or.inr rfl) [.key 97] true
  exact ⟨kept, recalled.2.2 (by decide)⟩

/-- A command that is joined from two lines and longer than a line comes back cut off. One that
ends in the middle of going on has a backslash at its end, and comes back without it. -/
theorem joined_command_cut :
    let machine := (JobScope.plain .idle .empty []).machine
    let joined : Script := ⟨["| |\\".toList, "| |".toList], none, []⟩
    let ended : Script := ⟨["| \\\\".toList], none, []⟩
    let first := step .idle Script.source narrowShell machine joined
    let second := step .idle Script.source narrowShell machine ended
    let input : InputStream := ⟨(recallKeys 1 keyLineFeed).map .key, false⟩
    narrowShell.config.maxLine < narrowShell.config.maxCommand ∧
      (∀ line ∈ joined.lines ++ ended.lines, byteLength line ≤ narrowShell.config.maxLine) ∧
      (Sitting .idle Script.source narrowShell first.shell first.machine first.rest
          [⟨"| |\\".toList, "| || |".toList⟩] ∧
        first.shell.history.log.entries.reverse[0]? = some "| || |".toList ∧
        (readCommand InputStream.source first.shell first.machine input).command =
          .ok (some "| ||".toList)) ∧
      (Sitting .idle Script.source narrowShell second.shell second.machine second.rest
          [⟨"| \\\\".toList, "| \\".toList⟩] ∧
        second.shell.history.log.entries.reverse[0]? = some "| \\".toList ∧
        (readCommand InputStream.source second.shell second.machine input).command ≠
          .ok (some "| \\".toList)) := by
  intro machine joined ended first second input
  refine ⟨by decide, by decide, ?joined, ?ended⟩
  case joined =>
    have read : readCommand Script.source narrowShell machine joined =
        ⟨.ok (some "| || |".toList), ⟨[], none, ["$ ".toList, "> ".toList]⟩, machine⟩ := by
      cbv
    obtain ⟨sitting, kept⟩ := Sitting.of_unread .idle rfl rfl read (by decide) rfl
    have given := sitting.next_recall (first.shell.prompt first.machine) kept (Or.inl rfl) [] false
    refine ⟨sitting, kept, ?_⟩
    exact congrArg CommandRead.command (readCommand_whole given.1 (by decide))
  case ended =>
    have read : readCommand Script.source narrowShell machine ended =
        ⟨.ok (some "| \\".toList), ⟨[], none, ["$ ".toList, "> ".toList]⟩, machine⟩ := by
      cbv
    obtain ⟨sitting, kept⟩ := Sitting.of_unread .idle rfl rfl read (by decide) rfl
    have given := sitting.next_recall (second.shell.prompt second.machine) kept (Or.inl rfl) [] false
    refine ⟨sitting, kept, ?_⟩
    intro recalled
    rcases readCommand_goesOn given.1 (by decide) recalled with cut | less
    · revert cut
      decide
    · -- No event is left that another line could come from.
      have nothing := congrArg List.length given.2
      exact Nat.not_lt_zero _ (less.trans_eq nothing)

end CommandShell
