import CommandShell.Editor.Reader
import CommandShell.Builtin.Basic

/-!
Where the shell gets its lines from. A source shows a prompt and answers with a line, the
end of the input or a failure. Every line uses up something of the source, so that
no source can give lines for ever.
-/
namespace CommandShell

structure Answer (σ : Type) where
  line : Except Failure (Option Text)
  rest : σ
  machine : Machine

structure LineSource (σ : Type) where
  next : Text → Shell → Machine → σ → Answer σ
  /-- The bytes of the standard input that the source has taken and not used yet. -/
  ahead : σ → Bytes
  size : σ → Nat
  size_rest_le : ∀ prompt shell machine state,
    size (next prompt shell machine state).rest ≤ size state
  size_next : ∀ prompt shell machine state line,
    (next prompt shell machine state).line = .ok (some line) →
      size (next prompt shell machine state).rest < size state

structure Script where
  lines : List Text
  failure : Option Failure
  prompts : List Text
  deriving Repr, DecidableEq

namespace Script

def next (prompt : Text) (_ : Shell) (machine : Machine) (script : Script) : Answer Script :=
  let asked := { script with prompts := script.prompts ++ [prompt] }
  match script.lines with
  | line :: rest => ⟨.ok (some line), { asked with lines := rest }, machine⟩
  | [] =>
      match script.failure with
      | some failure => ⟨.error failure, asked, machine⟩
      | none => ⟨.ok none, asked, machine⟩

def source : LineSource Script where
  next := next
  ahead _ := []
  size script := script.lines.length
  size_rest_le prompt shell machine state := by
    unfold next
    split
    · next first rest lines => simp [lines]
    · split <;> simp
  size_next prompt shell machine state line answered := by
    unfold next at answered ⊢
    split at answered
    · next first rest lines => simp [lines]
    · next lines =>
        split at answered <;> simp at answered

end Script

namespace EditorScope

theorem length_readFrom_le (scope : EditorScope) (events : List InputEvent)
    (state : EditorState) (interrupted : Bool) :
    (scope.readFrom state interrupted events).rest.events.length ≤ events.length := by
  induction events generalizing state interrupted with
  | nil => simp [readFrom]
  | cons event rest ih =>
      cases event with
      | nothing => simp [readFrom]
      | failure cause => simp [readFrom]
      | retry => exact Nat.le_succ_of_le (ih state interrupted)
      | interrupt => exact Nat.le_succ_of_le (ih state true)
      | key byte =>
          simp only [readFrom, List.length_cons]
          split
          · exact Nat.le_succ _
          · exact Nat.le_succ _
          · exact Nat.le_succ_of_le (ih _ false)

theorem length_readLine_lt (scope : EditorScope) (input : InputStream) (line : Text)
    (read : (scope.readLine input).result = .ok (some line)) :
    (scope.readLine input).rest.events.length < input.events.length := by
  obtain ⟨events, interrupted⟩ := input
  unfold readLine at read ⊢
  cases events with
  | nil => simp [readFrom, finish, EditorState.fresh] at read
  | cons event rest =>
      cases event with
      | nothing => simp [readFrom, finish, EditorState.fresh] at read
      | failure cause => simp [readFrom] at read
      | retry => exact Nat.lt_succ_of_le (length_readFrom_le scope rest _ _)
      | interrupt => exact Nat.lt_succ_of_le (length_readFrom_le scope rest _ _)
      | key byte =>
          simp only [readFrom, List.length_cons]
          split
          · exact Nat.lt_succ_self _
          · exact Nat.lt_succ_self _
          · exact Nat.lt_succ_of_le (length_readFrom_le scope rest _ _)

end EditorScope

namespace Shell

def editor (shell : Shell) (machine : Machine) (prompt : Text) : EditorScope where
  maxLength := shell.config.maxLine
  prompt := prompt
  history := shell.history.log.entries
  completion :=
    { builtins := Builtin.names
      env := shell.env
      tree := machine.tree
      cwd := shell.cwd
      folder := dot }

end Shell

namespace InputStream

def next (prompt : Text) (shell : Shell) (machine : Machine) (input : InputStream) :
    Answer InputStream :=
  let scope := shell.editor machine prompt
  let read := scope.readLine input
  let echoes := (List.replicate read.interrupts (scope.interruptEcho false)).flatten
  ⟨read.result, read.rest,
    shell.process.put standardOutput (encode prompt ++ read.screen ++ echoes) machine⟩

def waiting (input : InputStream) : Bytes :=
  input.events.filterMap fun event =>
    match event with
    | .key byte => some byte
    | _ => none

def source : LineSource InputStream where
  next := next
  ahead := waiting
  size input := input.events.length
  size_rest_le prompt shell machine input :=
    EditorScope.length_readFrom_le (shell.editor machine prompt) input.events _ _
  size_next prompt shell machine input line answered :=
    EditorScope.length_readLine_lt (shell.editor machine prompt) input line answered

end InputStream

end CommandShell
