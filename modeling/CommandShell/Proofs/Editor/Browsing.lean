import CommandShell.Proofs.Editor.Typing
import CommandShell.Proofs.Text.Lines

/-!
Browsing the history from an empty line. Each press of the arrow key goes one entry further
back, and the buffer holds as much of the entry as fits on a line. Enter then gives the buffer
as the line.
-/
namespace CommandShell

/-- The three bytes of the key. -/
def upKeys : Bytes := [keyEscape, keyBracket, keyUp]

/-- So many presses of the key, and the end of the line. -/
def recallKeys (presses : Nat) (enter : UInt8) : Bytes :=
  (List.replicate presses upKeys).flatten ++ [enter]

namespace EditorScope

variable (scope : EditorScope)

theorem typeKeys_append (front back : Bytes) (state : EditorState) :
    scope.typeKeys state (front ++ back) =
      (scope.typeKeys state front).bind (scope.typeKeys · back) := by
  induction front generalizing state with
  | nil => rfl
  | cons key rest ih =>
      rw [List.cons_append, typeKeys, typeKeys]
      split
      · exact ih _
      · rfl

theorem typeKeys_up {state : EditorState} (outside : state.key = .normal) :
    scope.typeKeys state upKeys = some (scope.up { state with tabs := 0 }) := by
  obtain ⟨buffer, browsed, tabs, key⟩ := state
  cases outside
  rfl

theorem up_fresh (filled : scope.history ≠ []) :
    scope.up .fresh = scope.browse .fresh (scope.history.length - 1) := by
  rw [up, if_neg (by simpa using filled)]
  rfl

theorem up_browse (filled : scope.history ≠ []) (index : Nat) :
    scope.up (scope.browse .fresh index) = scope.browse .fresh (index - 1) := by
  rw [up, if_neg (by simpa using filled)]
  rfl

theorem typeKeys_presses {presses : Nat} (within : presses < scope.history.length) :
    scope.typeKeys .fresh (List.replicate (presses + 1) upKeys).flatten =
      some (scope.browse .fresh (scope.history.length - 1 - presses)) := by
  have filled : scope.history ≠ [] := List.ne_nil_of_length_pos (Nat.zero_lt_of_lt within)
  induction presses with
  | zero =>
      have first := scope.typeKeys_up (rfl : EditorState.fresh.key = .normal)
      exact first.trans (congrArg some (scope.up_fresh filled))
  | succ presses ih =>
      let reached := scope.browse .fresh (scope.history.length - 1 - presses)
      have again := scope.typeKeys_up (rfl : reached.key = .normal)
      have moved : scope.up reached = scope.browse .fresh (scope.history.length - 1 - presses - 1) :=
        scope.up_browse filled _
      have last : [upKeys].flatten = upKeys := List.append_nil upKeys
      rw [List.replicate_succ', List.flatten_append, typeKeys_append, ih (Nat.lt_of_succ_lt within),
        last, Option.bind_some]
      exact again.trans (congrArg some moved)

theorem press_enter {enter : UInt8} (ends : enter = keyLineFeed ∨ enter = keyReturn)
    {state : EditorState} (outside : state.key = .normal) :
    ∃ next screen, scope.feed state enter = (.line state.buffer, next, screen) := by
  obtain ⟨buffer, browsed, tabs, key⟩ := state
  cases outside
  rcases ends with rfl | rfl
  · exact ⟨_, _, rfl⟩
  · exact ⟨_, _, rfl⟩

theorem readLine_recall {presses : Nat} {entry : Text}
    (found : scope.history.reverse[presses]? = some entry) {enter : UInt8}
    (ends : enter = keyLineFeed ∨ enter = keyReturn) (events : List InputEvent) (pending : Bool) :
    (scope.readLine ⟨(recallKeys (presses + 1) enter).map .key ++ events, pending⟩).outcome =
      (.ok (some (clip scope.maxLength entry)), events) := by
  have within : presses < scope.history.length := by
    obtain ⟨inside, -⟩ := List.getElem?_eq_some_iff.mp found
    simpa using inside
  rw [List.getElem?_reverse within] at found
  have shown : (scope.browse .fresh (scope.history.length - 1 - presses)).buffer =
      clip scope.maxLength entry := by
    simp only [browse, found, Option.getD_some]
  obtain ⟨next, screen, entered⟩ := scope.press_enter ends
    (rfl : (scope.browse .fresh (scope.history.length - 1 - presses)).key = .normal)
  have split : (recallKeys (presses + 1) enter).map InputEvent.key ++ events =
      (List.replicate (presses + 1) upKeys).flatten.map .key ++ .key enter :: events := by
    simp [recallKeys]
  rw [split]
  calc (scope.readFrom .fresh pending _).outcome
    _ = _ := scope.readFrom_fresh pending _
    _ = _ := scope.readFrom_typed (scope.typeKeys_presses within) _
    _ = _ := by
        rw [readFrom_key_outcome, if_neg Bool.false_ne_true, entered, shown]

end EditorScope

end CommandShell
