import CommandShell.Trouble

/-!
Pipelines: stages joined by bars, each with its own redirections. `Pipeline.ofWords`
reads the words of a line from left to right and stops at the first fault.
-/
namespace CommandShell

inductive Token
  | word (text : Text)
  | redirect (kind : Redirection)
  | bar
  deriving Repr, DecidableEq

def Token.ofWord (word : Text) : Token :=
  if word = ['<'] then .redirect .input
  else if word = ['>'] then .redirect .output
  else if word = ['|'] then .bar
  else .word word

structure Stage where
  argv : List Text
  input : Option Text
  output : Option Text
  deriving Repr, DecidableEq

structure Pipeline where
  stages : List Stage
  background : Bool
  deriving Repr, DecidableEq

namespace Stage

def empty : Stage :=
  ⟨[], none, none⟩

def name (stage : Stage) : Text :=
  stage.argv.head?.getD []

def addWord (stage : Stage) (word : Text) : Stage :=
  { stage with argv := stage.argv ++ [word] }

def addRedirect (stage : Stage) (kind : Redirection) (target : Text) : Stage :=
  match kind with
  | .input => { stage with input := some target }
  | .output => { stage with output := some target }

end Stage

def readStages (stage : Stage) : List Token → Except SyntaxTrouble (List Stage)
  | [] => if stage.argv.isEmpty then .error .emptyStage else .ok [stage]
  | .bar :: rest =>
      if stage.argv.isEmpty then .error .emptyStage
      else
        match readStages Stage.empty rest with
        | .error cause => .error cause
        | .ok stages => .ok (stage :: stages)
  -- Whatever is no bar and no sign is a target, an ampersand too.
  | .redirect kind :: .word target :: rest => readStages (stage.addRedirect kind target) rest
  | .redirect kind :: _ => .error (.missingTarget kind)
  | .word word :: rest => readStages (stage.addWord word) rest

def ampersand : Text := ['&']

namespace Pipeline

/-- Reads a line's words. An ampersand at the very end puts the pipeline into the
background, and no words at all are an empty pipeline. -/
def ofWords (words : List Text) : Except SyntaxTrouble Pipeline :=
  let background := words.getLast? == some ampersand
  let body := if background then words.dropLast else words
  if body.isEmpty then .ok ⟨[], background⟩
  else
    match readStages Stage.empty (body.map Token.ofWord) with
    | .error cause => .error cause
    | .ok stages => .ok ⟨stages, background⟩

end Pipeline

end CommandShell
