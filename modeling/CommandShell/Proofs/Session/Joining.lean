import CommandShell.Session.Command

/-!
How a command is put together from lines written down beforehand, as a relation on the
lines alone. `Joins` says which result a text comes to and which lines it leaves; neither
the prompts nor the state of the shell take part, only its limit. Every read of a
command from a script is an instance of it.
-/
namespace CommandShell

/-- Reading on from a text whose lines ran out with this failure, or without one. -/
inductive Joins (limit : Nat) (failure : Option Failure) :
    Text → List Text → Except Trouble Text → List Text → Prop
  | whole (text : Text) (lines : List Text) (ends : text.getLast? ≠ some backslash) :
      Joins limit failure text lines (.ok text) lines
  | refused (text line : Text) (lines : List Text) (goesOn : text.getLast? = some backslash)
      (long : limit ≤ byteLength text.dropLast + byteLength line) :
      Joins limit failure text (line :: lines) (.error (.commandTooLong limit)) lines
  | joined (text line : Text) (lines rest : List Text) (result : Except Trouble Text)
      (goesOn : text.getLast? = some backslash)
      (short : byteLength text.dropLast + byteLength line < limit)
      (tail : Joins limit failure (text.dropLast ++ line) lines result rest) :
      Joins limit failure text (line :: lines) result rest
  | cut (text : Text) (goesOn : text.getLast? = some backslash) (ran : failure = none) :
      Joins limit failure text [] (.ok text.dropLast) []
  | broken (text : Text) (cause : Failure) (goesOn : text.getLast? = some backslash)
      (ran : failure = some cause) : Joins limit failure text [] (.error (.failed cause)) []

variable {limit : Nat} {failure : Option Failure} {text : Text} {lines rest : List Text}
  {result : Except Trouble Text}

theorem Joins.length_le (joins : Joins limit failure text lines result rest) :
    rest.length ≤ lines.length := by
  induction joins with
  | whole => exact Nat.le_refl _
  | refused => exact Nat.le_succ _
  | joined _ _ _ _ _ _ _ _ ih => exact Nat.le_succ_of_le ih
  | cut => exact Nat.le_refl _
  | broken => exact Nat.le_refl _

theorem Joins.unique {other : Except Trouble Text} {left : List Text}
    (joins : Joins limit failure text lines result rest)
    (again : Joins limit failure text lines other left) : other = result ∧ left = rest := by
  induction joins with
  | whole text lines ends =>
      cases again with
      | whole => exact ⟨rfl, rfl⟩
      | refused _ _ _ goesOn => exact absurd goesOn ends
      | joined _ _ _ _ _ goesOn => exact absurd goesOn ends
      | cut _ goesOn => exact absurd goesOn ends
      | broken _ _ goesOn => exact absurd goesOn ends
  | refused text line lines goesOn long =>
      cases again with
      | whole _ _ ends => exact absurd goesOn ends
      | refused => exact ⟨rfl, rfl⟩
      | joined _ _ _ _ _ _ short => exact absurd long (Nat.not_le_of_lt short)
  | joined text line lines rest result goesOn short _ ih =>
      cases again with
      | whole _ _ ends => exact absurd goesOn ends
      | refused _ _ _ _ long => exact absurd long (Nat.not_le_of_lt short)
      | joined _ _ _ _ _ _ _ tail => exact ih tail
  | cut text goesOn ran =>
      cases again with
      | whole _ _ ends => exact absurd goesOn ends
      | cut => exact ⟨rfl, rfl⟩
      | broken _ cause _ failed => simp [ran] at failed
  | broken text cause goesOn ran =>
      cases again with
      | whole _ _ ends => exact absurd goesOn ends
      | cut _ _ none => simp [ran] at none
      | broken _ other _ failed =>
          rw [ran] at failed
          cases failed
          exact ⟨rfl, rfl⟩

namespace Script

theorem failure_next (prompt : Text) (shell : Shell) (machine : Machine) (script : Script) :
    (next prompt shell machine script).rest.failure = script.failure := by
  unfold next
  split
  · rfl
  · split <;> rfl

theorem next_line (prompt : Text) (shell : Shell) (machine : Machine) (script : Script)
    (line : Text) (answered : (next prompt shell machine script).line = .ok (some line)) :
    script.lines = line :: (next prompt shell machine script).rest.lines := by
  unfold next at answered ⊢
  split at answered
  · next first rest lines =>
      cases answered
      simp [lines]
  · split at answered <;> cases answered

theorem next_none (prompt : Text) (shell : Shell) (machine : Machine) (script : Script)
    (answered : (next prompt shell machine script).line = .ok none) :
    script.lines = [] ∧ (next prompt shell machine script).rest.lines = [] ∧
      script.failure = none := by
  unfold next at answered ⊢
  split at answered
  · cases answered
  · next lines =>
      split at answered
      · cases answered
      · next failure => simp [lines, failure]

theorem next_error (prompt : Text) (shell : Shell) (machine : Machine) (script : Script)
    (cause : Failure) (answered : (next prompt shell machine script).line = .error cause) :
    script.lines = [] ∧ (next prompt shell machine script).rest.lines = [] ∧
      script.failure = some cause := by
  unfold next at answered ⊢
  split at answered
  · cases answered
  · next lines =>
      split at answered
      · next failure found =>
          cases answered
          simp [lines, found]
      · cases answered

end Script

theorem continueCommand_joins (shell : Shell) (text : Text) (machine : Machine)
    (script : Script) :
    ∃ result, (continueCommand Script.source shell text machine script).command =
        result.map some ∧
      (continueCommand Script.source shell text machine script).rest.failure =
        script.failure ∧
      Joins shell.config.maxCommand script.failure text script.lines result
        (continueCommand Script.source shell text machine script).rest.lines := by
  fun_induction continueCommand Script.source shell text machine script with
  | case1 text machine script goesOn answer cause answered =>
      obtain ⟨ran, left, failure⟩ := Script.next_error _ shell machine script cause answered
      refine ⟨.error (.failed cause), rfl, Script.failure_next .., ?_⟩
      rw [show answer.rest.lines = [] from left, ran]
      exact .broken text cause goesOn failure
  | case2 text machine script goesOn kept answer answered =>
      obtain ⟨ran, left, failure⟩ := Script.next_none _ shell machine script answered
      refine ⟨.ok kept, rfl, Script.failure_next .., ?_⟩
      rw [show answer.rest.lines = [] from left, ran]
      exact .cut text goesOn failure
  | case3 text machine script goesOn kept answer line answered long =>
      refine ⟨.error (.commandTooLong shell.config.maxCommand), rfl,
        Script.failure_next .., ?_⟩
      rw [Script.next_line _ shell machine script line answered]
      exact .refused text line _ goesOn long
  | case4 text machine script goesOn kept answer line answered short _ ih =>
      obtain ⟨result, command, failure, tail⟩ := ih
      have same : answer.rest.failure = script.failure :=
        Script.failure_next _ shell machine script
      refine ⟨result, command, failure.trans same, ?_⟩
      rw [Script.next_line _ shell machine script line answered]
      rw [same] at tail
      exact .joined text line _ _ result goesOn (Nat.lt_of_not_le short) tail
  | case5 text machine script ends =>
      exact ⟨.ok text, rfl, rfl, .whole text script.lines ends⟩

/-- A shell with this limit reads a command from a script. -/
def Reads (limit : Nat) (before : Script) (result : Except Trouble (Option Text))
    (after : Script) : Prop :=
  ∃ (shell : Shell) (machine : Machine), shell.config.maxCommand = limit ∧
    (readCommand Script.source shell machine before).command = result ∧
    (readCommand Script.source shell machine before).rest = after

theorem Reads.of_lines {before after : Script} {outcome : Except Trouble (Option Text)}
    {first : Text} (reads : Reads limit before outcome after)
    (begun : before.lines = first :: lines) :
    ∃ result, outcome = result.map some ∧ after.failure = before.failure ∧
      Joins limit before.failure first lines result after.lines := by
  obtain ⟨shell, machine, rfl, rfl, rfl⟩ := reads
  let answer := Script.next (shell.prompt machine) shell machine before
  have line : answer.line = .ok (some first) := by simp [answer, Script.next, begun]
  have left : answer.rest.lines = lines := by simp [answer, Script.next, begun]
  have same : answer.rest.failure = before.failure := Script.failure_next ..
  have read : readCommand Script.source shell machine before =
      continueCommand Script.source shell first answer.machine answer.rest := by
    unfold readCommand
    simp only [show (Script.source.next (shell.prompt machine) shell machine before) = answer
      from rfl, line]
  rw [read]
  obtain ⟨result, command, failure, joins⟩ :=
    continueCommand_joins shell first answer.machine answer.rest
  rw [same, left] at joins
  exact ⟨result, command, failure.trans same, joins⟩

theorem Reads.of_nothing {before after : Script} {outcome : Except Trouble (Option Text)}
    (reads : Reads limit before outcome after) (ran : before.lines = []) :
    after.lines = [] ∧ after.failure = before.failure ∧ ∀ text, outcome ≠ .ok (some text) := by
  obtain ⟨shell, machine, rfl, rfl, rfl⟩ := reads
  cases failure : before.failure <;>
    simp [readCommand, Script.source, Script.next, ran, failure]

theorem exists_reads (limit : Nat) (before : Script) :
    ∃ outcome after, Reads limit before outcome after := by
  let shell := Shell.ephemeral { Configuration.defaults [] with maxCommand := limit }
    ⟨1, [], [], Descriptors.empty, []⟩
  let machine : Machine := ⟨FileTree.empty, [], [], ⟨[], [], false⟩, [], 2⟩
  exact ⟨_, _, shell, machine, rfl, rfl, rfl⟩

theorem Joins.reads {before : Script} {first : Text} (begun : before.lines = first :: lines)
    (joins : Joins limit before.failure first lines result rest) :
    ∃ after, Reads limit before (result.map some) after ∧ after.lines = rest ∧
      after.failure = before.failure := by
  obtain ⟨outcome, after, reads⟩ := exists_reads limit before
  obtain ⟨found, rfl, failure, again⟩ := reads.of_lines begun
  obtain ⟨rfl, left⟩ := joins.unique again
  exact ⟨after, reads, left, failure⟩

theorem Reads.length_le {before after : Script} {outcome : Except Trouble (Option Text)}
    (reads : Reads limit before outcome after) : after.lines.length ≤ before.lines.length := by
  cases begun : before.lines with
  | nil => exact Nat.le_of_eq (congrArg List.length (reads.of_nothing begun).1)
  | cons first lines =>
      obtain ⟨result, -, -, joins⟩ := reads.of_lines begun
      exact Nat.le_succ_of_le joins.length_le

end CommandShell
