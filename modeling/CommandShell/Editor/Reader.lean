import CommandShell.Editor.State

/-!
Reading whole lines from a stream of input events. Besides key bytes the stream brings
interrupts, reads that have to be repeated, failing reads and reads that bring
nothing. An interrupt is noticed with the next key, and what had been typed
before it is dropped then.
-/
namespace CommandShell

inductive InputEvent
  | key (byte : UInt8)
  | interrupt
  /-- A read that was cut short and is to be repeated. -/
  | retry
  | failure (cause : Failure)
  | nothing
  deriving Repr, DecidableEq

structure InputStream where
  events : List InputEvent
  interrupted : Bool
  deriving Repr, DecidableEq

structure LineRead where
  result : Except Failure (Option Text)
  screen : Bytes
  interrupts : Nat
  rest : InputStream

namespace EditorScope

def finish (state : EditorState) : Option Text × Bytes :=
  if state.buffer.isEmpty then (none, []) else (some state.buffer, [10])

def readFrom (scope : EditorScope) (state : EditorState) (interrupted : Bool) :
    List InputEvent → LineRead
  | [] =>
      let last := finish state
      ⟨.ok last.1, last.2, 0, ⟨[], interrupted⟩⟩
  | .nothing :: rest =>
      let last := finish state
      ⟨.ok last.1, last.2, 0, ⟨rest, interrupted⟩⟩
  | .failure cause :: rest => ⟨.error cause, [], 0, ⟨rest, interrupted⟩⟩
  | .retry :: rest => readFrom scope state interrupted rest
  | .interrupt :: rest =>
      let read := readFrom scope state true rest
      { read with interrupts := read.interrupts + 1 }
  | .key byte :: rest =>
      -- Only a key looks at the flag: at the end of the input an interrupt that has just
      -- arrived leaves the typed text alone.
      let (step, next, screen) :=
        scope.feed (if interrupted then EditorState.fresh else state) byte
      match step with
      | .line text => ⟨.ok (some text), screen, 0, ⟨rest, false⟩⟩
      | .endOfInput => ⟨.ok none, screen, 0, ⟨rest, false⟩⟩
      | .more =>
          let read := readFrom scope next false rest
          { read with screen := screen ++ read.screen }

def readLine (scope : EditorScope) (input : InputStream) : LineRead :=
  scope.readFrom EditorState.fresh input.interrupted input.events

def interruptEcho (scope : EditorScope) (waiting : Bool) : Bytes :=
  if waiting then [10] else 10 :: encode scope.prompt

end EditorScope

end CommandShell
