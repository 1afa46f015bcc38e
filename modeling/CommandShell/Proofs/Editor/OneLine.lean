import CommandShell.Proofs.Editor.Browsing
import CommandShell.Proofs.Editor.Characters
import Mathlib

/-!
Line ends inside a line. Typed characters have none, and where no entry of the history has one,
a line gets one only from a name that is completed. So every line is one line exactly when
no Tab that can be reached breaks a line up, and names without line ends are enough for that.
-/
namespace CommandShell

/-- Neither of the characters that end a line. -/
def Unbroken (c : Char) : Prop :=
  c ≠ '\n' ∧ c ≠ '\r'

instance (c : Char) : Decidable (Unbroken c) :=
  inferInstanceAs (Decidable (c ≠ '\n' ∧ c ≠ '\r'))

def OneLine (text : Text) : Prop :=
  Only Unbroken text

instance (text : Text) : Decidable (OneLine text) :=
  inferInstanceAs (Decidable (Only Unbroken text))

theorem unbroken_typed (key : UInt8) (printable : isPrintable key = true) :
    Unbroken (Char.ofNat key.toNat) := by
  have low := (isPrintable_iff.mp printable).1
  rw [← toNat_typed key] at low
  constructor
  · intro newline
    rw [newline] at low
    exact absurd low (by decide)
  · intro carriage
    rw [carriage] at low
    exact absurd low (by decide)

namespace EditorScope

variable {scope : EditorScope} {state : EditorState}

/-- Some keys, none of which ends the line, lead from a fresh line to the state. -/
def Reached (scope : EditorScope) (state : EditorState) : Prop :=
  ∃ keys, scope.typeKeys .fresh keys = some state

theorem reached_fresh : scope.Reached .fresh :=
  ⟨[], rfl⟩

theorem Reached.more (reached : scope.Reached state) {key : UInt8} {next : EditorState}
    {screen : Bytes} (fed : scope.feed state key = (.more, next, screen)) : scope.Reached next := by
  obtain ⟨keys, types⟩ := reached
  refine ⟨keys ++ [key], ?_⟩
  rw [typeKeys_append, types, Option.bind_some, typeKeys, fed]
  rfl

-- The line that a key ends is what was in the buffer.
theorem feed_line {key : UInt8} {text : Text} {next : EditorState} {screen : Bytes}
    (fed : scope.feed state key = (.line text, next, screen)) : text = state.buffer := by
  cases mode : state.key with
  | normal =>
      have pressed := scope.press_pressed (state.counted key) key
      rw [← scope.feed_normal mode, fed] at pressed
      cases pressed
      exact state.counted_buffer key
  | sawEscape =>
      rw [scope.feed_sawEscape mode] at fed
      cases fed
  | sawBracket =>
      rw [scope.feed_sawBracket mode] at fed
      cases fed

theorem finish_line {line : Text}
    (finished : Except.ok (finish state).1 = (.ok (some line) : Except Failure (Option Text))) :
    line = state.buffer := by
  unfold finish at finished
  split at finished
  · cases finished
  · cases finished
    rfl

-- What every key keeps of the buffer holds of a line that is read on from a reached state.
theorem readFrom_keeps {kept : Text → Prop} (nothing : kept [])
    (keeps : ∀ state, scope.Reached state → kept state.buffer → ∀ key,
      kept (scope.feed state key).2.1.buffer)
    (events : List InputEvent) {state : EditorState} (reached : scope.Reached state)
    (held : kept state.buffer) (pending : Bool) {line : Text}
    (read : (scope.readFrom state pending events).result = .ok (some line)) : kept line := by
  -- On the events. A key counts from a fresh line if an interrupt has come before it.
  induction events generalizing state pending with
  | nil =>
      rw [finish_line read]
      exact held
  | cons event rest ih =>
      cases event with
      | nothing =>
          rw [finish_line read]
          exact held
      | failure cause => cases read
      | retry => exact ih reached held pending read
      | interrupt => exact ih reached held true read
      | key byte =>
          have begun : scope.Reached (if pending then .fresh else state) ∧
              kept (if pending then EditorState.fresh else state).buffer := by
            split
            · exact ⟨reached_fresh, nothing⟩
            · exact ⟨reached, held⟩
          have outcome : (scope.readFrom state pending (.key byte :: rest)).outcome.1 =
              .ok (some line) := read
          rw [readFrom_key_outcome] at outcome
          generalize (if pending then EditorState.fresh else state) = current at begun outcome
          obtain ⟨reached, held⟩ := begun
          split at outcome
          · next next screen fed =>
              have again := keeps current reached held byte
              rw [fed] at again
              exact ih (reached.more fed) again false outcome
          · next text next screen fed =>
              cases outcome
              rw [feed_line fed]
              exact held
          · cases outcome

-- Enter behind a Tab gives what the Tab has made of the buffer.
theorem Reached.readLine_tab (reached : scope.Reached state) (outside : state.key = .normal) :
    ∃ input, (scope.readLine input).result = .ok (some (scope.tab state).1.buffer) := by
  obtain ⟨keys, types⟩ := reached
  obtain ⟨buffer, browsed, tabs, key⟩ := state
  cases outside
  let made := (scope.tab ⟨buffer, browsed, tabs, .normal⟩).1
  have tabbed : scope.typeKeys .fresh (keys ++ [keyTab]) = some made := by
    rw [typeKeys_append, types]
    rfl
  have normal : made.key = .normal := scope.tab_key _
  obtain ⟨next, screen, entered⟩ := scope.press_enter (Or.inl rfl) normal
  have read := scope.readFrom_typed tabbed [.key keyLineFeed]
  rw [readFrom_key_outcome, if_neg Bool.false_ne_true, entered] at read
  exact ⟨⟨_, false⟩, congrArg Prod.fst read⟩

/-- Whatever comes in, every line is one line, exactly when no Tab breaks a line up. That is so
where the names that can be offered have no line ends. -/
theorem one_line_iff (scope : EditorScope) (history : ∀ entry ∈ scope.history, OneLine entry) :
    ((∀ input line, (scope.readLine input).result = .ok (some line) → OneLine line) ↔
        ∀ state, scope.Reached state → state.key = .normal → OneLine state.buffer →
          OneLine (scope.tab state).1.buffer) ∧
      (scope.completion.NamesOnly Unbroken →
        ∀ input line, (scope.readLine input).result = .ok (some line) → OneLine line) := by
  have whole : (∀ state, scope.Reached state → state.key = .normal → OneLine state.buffer →
      OneLine (scope.tab state).1.buffer) →
        ∀ input line, (scope.readLine input).result = .ok (some line) → OneLine line := by
    intro kept input line read
    refine readFrom_keeps Only.nil ?_ input.events reached_fresh Only.nil _ read
    intro state reached only key
    exact feed_only history unbroken_typed only fun _ outside => kept state reached outside only
  refine ⟨⟨?_, whole⟩, ?_⟩
  · intro each state reached outside _
    obtain ⟨input, read⟩ := reached.readLine_tab outside
    exact each input _ read
  · intro names
    exact whole fun state _ _ only => tab_only names (by decide) only

/-- An entry that is longer than the line is brought back and a built-in name is completed. -/
theorem recalled_and_completed_one_line :
    let completion : CompletionScope := ⟨["cd".toList, "exit".toList], [], FileTree.empty, [], dot⟩
    let scope : EditorScope := ⟨4, "$ ".toList, ["ls -l".toList], completion⟩
    ∀ input line, (scope.readLine input).result = .ok (some line) → OneLine line := by
  intro completion scope
  refine (one_line_iff scope (by decide)).2 ⟨by decide, by decide, ?_⟩
  intro folder name listed
  rw [FileTree.textNames_empty] at listed
  cases listed

/-- A file has a newline in its name. Tab puts the whole name into the line. -/
theorem broken_name_completed :
    ∃ scope : EditorScope, (∀ entry ∈ scope.history, OneLine entry) ∧
      ∃ input line, (scope.readLine input).result = .ok (some line) ∧ ¬ OneLine line := by
  let tree : FileTree := ⟨[([encode "a\nb".toList], .file [] newFileMode)]⟩
  refine ⟨⟨10, [], [], ⟨[], [], tree, [], dot⟩⟩, by decide,
    ⟨[.key 108, .key 32, .key 97, .key keyTab, .key keyLineFeed], false⟩, "l a\nb".toList, ?_,
    by decide⟩
  cbv

end EditorScope

end CommandShell
