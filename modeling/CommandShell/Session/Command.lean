import CommandShell.Session.Source

/-!
Commands from lines. A line that ends in a backslash goes on with the next line, and the
text joined so far has to stay below a limit.
-/
namespace CommandShell

def continuationPrompt : Text := "> ".toList

def backslash : Char := '\\'

structure CommandRead (σ : Type) where
  command : Except Trouble (Option Text)
  rest : σ
  machine : Machine

variable {σ : Type}

/-- Reads on while the text ends in a backslash, which is dropped each time. -/
def continueCommand (source : LineSource σ) (shell : Shell) (text : Text) (machine : Machine)
    (state : σ) : CommandRead σ :=
  if text.getLast? = some backslash then
    let kept := text.dropLast
    let answer := source.next continuationPrompt shell machine state
    match answered : answer.line with
    | .error failure => ⟨.error (.failed failure), answer.rest, answer.machine⟩
    | .ok none => ⟨.ok (some kept), answer.rest, answer.machine⟩
    | .ok (some line) =>
        -- The refused line has been taken from the source. Lines that would have gone on
        -- from it stay there, and the next command begins with them.
        if shell.config.maxCommand ≤ byteLength kept + byteLength line then
          ⟨.error (.commandTooLong shell.config.maxCommand), answer.rest, answer.machine⟩
        else
          have : source.size answer.rest < source.size state :=
            source.size_next continuationPrompt shell machine state line answered
          continueCommand source shell (kept ++ line) answer.machine answer.rest
  else ⟨.ok (some text), state, machine⟩
termination_by source.size state

def readCommand (source : LineSource σ) (shell : Shell) (machine : Machine) (state : σ) :
    CommandRead σ :=
  let answer := source.next (shell.prompt machine) shell machine state
  match answer.line with
  | .error failure => ⟨.error (.failed failure), answer.rest, answer.machine⟩
  | .ok none => ⟨.ok none, answer.rest, answer.machine⟩
  | .ok (some line) => continueCommand source shell line answer.machine answer.rest

theorem size_continueCommand_le (source : LineSource σ) (shell : Shell) (text : Text)
    (machine : Machine) (state : σ) :
    source.size (continueCommand source shell text machine state).rest ≤ source.size state := by
  fun_induction continueCommand source shell text machine state with
  | case1 => exact source.size_rest_le _ _ _ _
  | case2 => exact source.size_rest_le _ _ _ _
  | case3 => exact source.size_rest_le _ _ _ _
  | case4 text machine state _ kept answer line _ _ shorter ih =>
      exact Nat.le_trans ih (Nat.le_of_lt shorter)
  | case5 => exact Nat.le_refl _

theorem size_readCommand_lt (source : LineSource σ) (shell : Shell) (machine : Machine)
    (state : σ) (line : Text)
    (answered : (source.next (shell.prompt machine) shell machine state).line = .ok (some line)) :
    source.size (readCommand source shell machine state).rest < source.size state := by
  simp only [readCommand, answered]
  exact Nat.lt_of_le_of_lt (size_continueCommand_le ..) (source.size_next _ _ _ _ _ answered)

end CommandShell
