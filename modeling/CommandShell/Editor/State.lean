import CommandShell.Completion

/-!
The line editor, one key byte at a time. `feed` says what a byte does to the line being
edited and which bytes it puts on the screen. Printable ASCII is typed, Enter
ends the line, and the arrow keys arrive as escape sequences of three bytes.
-/
namespace CommandShell

inductive KeyState
  | normal
  | sawEscape
  | sawBracket
  deriving Repr, DecidableEq

structure EditorState where
  buffer : Text
  browsed : Option Nat
  tabs : Nat
  key : KeyState
  deriving Repr, DecidableEq

structure EditorScope where
  maxLength : Nat
  prompt : Text
  history : List Text
  completion : CompletionScope

inductive EditorStep
  | more
  | line (text : Text)
  | endOfInput
  deriving Repr, DecidableEq

def keyTab : UInt8 := 9

def keyLineFeed : UInt8 := 10

def keyReturn : UInt8 := 13

def keyEndOfInput : UInt8 := 4

def keyBackspace : UInt8 := 8

def keyDelete : UInt8 := 127

def keyEscape : UInt8 := 27

def keyBracket : UInt8 := 91

def keyUp : UInt8 := 65

def keyDown : UInt8 := 66

def isPrintable (key : UInt8) : Bool :=
  32 ≤ key && key ≤ 126

def eraseLeft : Bytes := [8, 32, 8]

def eraseLine : Bytes := [13, 27, 91, 50, 75]

namespace EditorState

def fresh : EditorState :=
  ⟨[], none, 0, .normal⟩

end EditorState

namespace EditorScope

def redraw (scope : EditorScope) (buffer : Text) : Bytes :=
  eraseLine ++ encode scope.prompt ++ encode buffer

def browse (scope : EditorScope) (state : EditorState) (index : Nat) : EditorState :=
  { state with
    browsed := some index
    buffer := clip scope.maxLength ((scope.history[index]?).getD []) }

def up (scope : EditorScope) (state : EditorState) : EditorState :=
  if scope.history.isEmpty then state
  else
    match state.browsed with
    | none => scope.browse state (scope.history.length - 1)
    | some index => scope.browse state (index - 1)

def down (scope : EditorScope) (state : EditorState) : EditorState :=
  match state.browsed with
  | none => state
  | some index =>
      if index + 1 < scope.history.length then scope.browse state (index + 1)
      else { state with browsed := none, buffer := [] }

/-- Completes the last token when there is one candidate. The second Tab in a row
lists several. -/
def tab (scope : EditorScope) (state : EditorState) : EditorState × Bytes :=
  let completion := scope.completion.complete state.buffer
  match completion.candidates with
  | [candidate] =>
      let buffer := clip scope.maxLength (clip completion.start state.buffer ++ candidate)
      ({ state with buffer := buffer, tabs := 0 }, scope.redraw buffer)
  | candidates =>
      let pressed := { state with tabs := state.tabs + 1 }
      if 1 < candidates.length && 2 ≤ pressed.tabs then
        (pressed, [10] ++ encode (joinWith "  ".toList candidates) ++ [10] ++
          encode scope.prompt ++ encode state.buffer)
      else (pressed, [])

def press (scope : EditorScope) (state : EditorState) (key : UInt8) :
    EditorStep × EditorState × Bytes :=
  if key == keyLineFeed || key == keyReturn then
    (.line state.buffer, { state with buffer := [] }, [10])
  else if key == keyEndOfInput && state.buffer.isEmpty then (.endOfInput, state, [10])
  else if key == keyEscape then (.more, { state with key := .sawEscape }, [])
  else if key == keyDelete || key == keyBackspace then
    if state.buffer.isEmpty then (.more, state, [])
    else (.more, { state with buffer := state.buffer.dropLast }, eraseLeft)
  else if key == keyTab then (.more, scope.tab state)
  else if isPrintable key && byteLength state.buffer < scope.maxLength then
    (.more, { state with buffer := state.buffer ++ [Char.ofNat key.toNat] }, [key])
  else (.more, state, [])

def arrow (scope : EditorScope) (state : EditorState) (key : UInt8) : EditorState × Bytes :=
  if key == keyUp then
    let moved := scope.up state
    (moved, scope.redraw moved.buffer)
  else if key == keyDown then
    let moved := scope.down state
    (moved, scope.redraw moved.buffer)
  else (state, [])

def feed (scope : EditorScope) (state : EditorState) (key : UInt8) :
    EditorStep × EditorState × Bytes :=
  let state := if key == keyTab then state else { state with tabs := 0 }
  match state.key with
  | .sawEscape =>
      (.more, { state with key := if key == keyBracket then .sawBracket else .normal }, [])
  | .sawBracket => (.more, scope.arrow { state with key := .normal } key)
  | .normal => scope.press state key

end EditorScope

end CommandShell
