import CommandShell.Editor.State

/-!
What a key can do, said once for all statements about keys. Outside an escape sequence there are
eight cases, an arrow key leads to one of three states, and a Tab completes or counts.
-/
namespace CommandShell

namespace EditorState

/-- Any key but Tab sets the count of Tabs back before it does anything else. -/
def counted (state : EditorState) (key : UInt8) : EditorState :=
  if key == keyTab then state else { state with tabs := 0 }

@[simp] theorem counted_buffer (state : EditorState) (key : UInt8) :
    (state.counted key).buffer = state.buffer := by
  unfold counted
  split <;> rfl

@[simp] theorem counted_key (state : EditorState) (key : UInt8) :
    (state.counted key).key = state.key := by
  unfold counted
  split <;> rfl

theorem counted_other (state : EditorState) {key : UInt8} (other : key ≠ keyTab) :
    (state.counted key).tabs = 0 := by
  rw [counted, if_neg (by simpa using other)]

end EditorState

namespace EditorScope

variable (scope : EditorScope) {state : EditorState}

theorem feed_normal (outside : state.key = .normal) (key : UInt8) :
    scope.feed state key = scope.press (state.counted key) key := by
  obtain ⟨buffer, browsed, tabs, mode⟩ := state
  cases outside
  unfold feed EditorState.counted
  cases key == keyTab <;> rfl

theorem feed_sawEscape (begun : state.key = .sawEscape) (key : UInt8) :
    scope.feed state key =
      (.more, { state.counted key with key := if key == keyBracket then .sawBracket else .normal },
        []) := by
  obtain ⟨buffer, browsed, tabs, mode⟩ := state
  cases begun
  unfold feed EditorState.counted
  cases key == keyTab <;> rfl

theorem feed_sawBracket (within : state.key = .sawBracket) (key : UInt8) :
    scope.feed state key = (.more, scope.arrow { state.counted key with key := .normal } key) := by
  obtain ⟨buffer, browsed, tabs, mode⟩ := state
  cases within
  unfold feed EditorState.counted
  cases key == keyTab <;> rfl

theorem feed_tab (outside : state.key = .normal) :
    scope.feed state keyTab = (.more, scope.tab state) := by
  rw [scope.feed_normal outside]
  rfl

/-! Browsing. -/

/-- Where an arrow key can lead. -/
inductive Browses (scope : EditorScope) (state : EditorState) : EditorState → Prop
  | stays : Browses scope state state
  | shows (index : Nat) : Browses scope state (scope.browse state index)
  | leaves : Browses scope state { state with browsed := none, buffer := [] }

theorem up_browses (state : EditorState) : scope.Browses state (scope.up state) := by
  unfold up
  split
  · exact .stays
  · split
    · exact .shows _
    · exact .shows _

theorem down_browses (state : EditorState) : scope.Browses state (scope.down state) := by
  unfold down
  split
  · exact .stays
  · split
    · exact .shows _
    · exact .leaves

theorem arrow_cases (state : EditorState) (key : UInt8) :
    (key ≠ keyUp ∧ key ≠ keyDown) ∧ scope.arrow state key = (state, []) ∨
      ∃ moved, (key = keyUp ∨ key = keyDown) ∧ scope.Browses state moved ∧
        scope.arrow state key = (moved, scope.redraw moved.buffer) := by
  unfold arrow
  split
  · next up => exact Or.inr ⟨_, Or.inl (beq_iff_eq.mp up), scope.up_browses state, rfl⟩
  next notUp =>
  split
  · next down => exact Or.inr ⟨_, Or.inr (beq_iff_eq.mp down), scope.down_browses state, rfl⟩
  · next notDown => exact Or.inl ⟨⟨by simpa using notUp, by simpa using notDown⟩, rfl⟩

/-! Tab. -/

/-- The candidates for what is in the buffer. -/
def candidates (state : EditorState) : List Text :=
  (scope.completion.complete state.buffer).candidates

/-- The line with the candidate in place of its last token, as far as there is room. -/
def completed (state : EditorState) (candidate : Text) : Text :=
  clip scope.maxLength
    (clip (scope.completion.complete state.buffer).start state.buffer ++ candidate)

/-- The candidates on a line of their own, and the line again below. -/
def listing (state : EditorState) : Bytes :=
  [10] ++ encode (joinWith "  ".toList (scope.candidates state)) ++ [10] ++
    encode scope.prompt ++ encode state.buffer

theorem tab_single {candidate : Text} (single : scope.candidates state = [candidate]) :
    scope.tab state =
      ({ state with buffer := scope.completed state candidate, tabs := 0 },
        scope.redraw (scope.completed state candidate)) := by
  unfold candidates at single
  simp only [tab, single, completed]

theorem tab_counts (several : (scope.candidates state).length ≠ 1) :
    scope.tab state =
      ({ state with tabs := state.tabs + 1 },
        if 1 < (scope.candidates state).length ∧ 2 ≤ state.tabs + 1 then scope.listing state
        else []) := by
  unfold listing candidates at *
  unfold tab
  simp only
  split
  · next only => exact absurd (congrArg List.length only) several
  · simp only [Bool.and_eq_true, decide_eq_true_eq]
    split
    · rfl
    · rfl

theorem tab_key (state : EditorState) : (scope.tab state).1.key = state.key := by
  by_cases one : (scope.candidates state).length = 1
  · obtain ⟨candidate, single⟩ := List.length_eq_one_iff.mp one
    rw [scope.tab_single single]
  · rw [scope.tab_counts one]

/-! Keys. -/

/-- What a key does outside an escape sequence. -/
inductive Pressed (scope : EditorScope) (state : EditorState) (key : UInt8) :
    EditorStep × EditorState × Bytes → Prop
  | ended (enter : key = keyLineFeed ∨ key = keyReturn) :
      Pressed scope state key (.line state.buffer, { state with buffer := [] }, [10])
  | closed (last : key = keyEndOfInput) (blank : state.buffer = []) :
      Pressed scope state key (.endOfInput, state, [10])
  | escaped (escape : key = keyEscape) :
      Pressed scope state key (.more, { state with key := .sawEscape }, [])
  | erased (back : key = keyDelete ∨ key = keyBackspace) (filled : state.buffer ≠ []) :
      Pressed scope state key (.more, { state with buffer := state.buffer.dropLast }, eraseLeft)
  | tabbed (tab : key = keyTab) :
      Pressed scope state key (.more, (scope.tab state).1, (scope.tab state).2)
  | typed (printable : isPrintable key = true) (room : byteLength state.buffer < scope.maxLength) :
      Pressed scope state key
        (.more, { state with buffer := state.buffer ++ [Char.ofNat key.toNat] }, [key])
  | blank (back : key = keyDelete ∨ key = keyBackspace) (nothing : state.buffer = []) :
      Pressed scope state key (.more, state, [])
  | refused (other : key ≠ keyTab) (forward : ¬ (key = keyDelete ∨ key = keyBackspace))
      (full : isPrintable key = true → scope.maxLength ≤ byteLength state.buffer) :
      Pressed scope state key (.more, state, [])

theorem press_pressed (state : EditorState) (key : UInt8) :
    scope.Pressed state key (scope.press state key) := by
  unfold press
  split
  · next enter => exact .ended (by simpa using enter)
  split
  · next last =>
      rw [Bool.and_eq_true, beq_iff_eq, List.isEmpty_iff] at last
      exact .closed last.1 last.2
  split
  · next escape => exact .escaped (beq_iff_eq.mp escape)
  split
  · next back =>
      rw [Bool.or_eq_true, beq_iff_eq, beq_iff_eq] at back
      split
      · next nothing => exact .blank back (List.isEmpty_iff.mp nothing)
      · next filled => exact .erased back (by simpa using filled)
  next forward =>
  split
  · next tab => exact .tabbed (beq_iff_eq.mp tab)
  next other =>
  split
  · next fits =>
      rw [Bool.and_eq_true, decide_eq_true_eq] at fits
      exact .typed fits.1 fits.2
  · next refused =>
      refine .refused (by simpa using other) (by simpa using forward) fun printable => ?_
      simpa [printable] using refused

-- What pressing and browsing keep of the buffer every key keeps. The other keys of an escape
-- sequence do not touch the buffer.
theorem feed_keeps {kept : Text → Prop} (held : kept state.buffer) {key : UInt8}
    (pressed : state.key = .normal → kept (state.counted key).buffer →
      kept (scope.press (state.counted key) key).2.1.buffer)
    (browsed : ∀ ready moved, scope.Browses ready moved → kept ready.buffer → kept moved.buffer) :
    kept (scope.feed state key).2.1.buffer := by
  have begun : kept (state.counted key).buffer := by
    rw [EditorState.counted_buffer]
    exact held
  cases mode : state.key with
  | normal =>
      rw [scope.feed_normal mode]
      exact pressed mode begun
  | sawEscape =>
      rw [scope.feed_sawEscape mode]
      exact begun
  | sawBracket =>
      rw [scope.feed_sawBracket mode]
      rcases scope.arrow_cases { state.counted key with key := .normal } key with
        ⟨-, dropped⟩ | ⟨moved, -, browses, arrived⟩
      · rw [dropped]
        exact begun
      · rw [arrived]
        exact browsed _ moved browses begun

end EditorScope

end CommandShell
