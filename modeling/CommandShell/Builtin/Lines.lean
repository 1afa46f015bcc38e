import CommandShell.Builtin.Basic

/-!
Commands that copy lines: all lines of files, or those in which a pattern occurs. Input
that is not text ends a command at once, after the lines before it.
-/
namespace CommandShell

structure LineCopy where
  result : Except Failure Unit
  output : Bytes
  nextNumber : Nat

def numberedLine (number : Nat) (line : Text) : Text :=
  alignRight 6 (digits number) ++ "  ".toList ++ line

def numberLines (number : Nat) : List Text → List Text
  | [] => []
  | line :: rest => numberedLine number line :: numberLines (number + 1) rest

def readResult (whole : Bool) : Except Failure Unit :=
  if whole then .ok () else .error .notText

def copyLines (numbered : Bool) (number : Nat) (content : Bytes) : LineCopy :=
  let read := readLines content
  if numbered then
    ⟨readResult read.2, writeLines (numberLines number read.1), number + read.1.length⟩
  else ⟨readResult read.2, writeLines read.1, number⟩

def occursHere (fold : Char → Char) : Text → Text → Bool
  | [], _ => true
  | _ :: _, [] => false
  | p :: pattern, c :: line => fold p == fold c && occursHere fold pattern line

def occursIn (fold : Char → Char) (pattern : Text) : Text → Bool
  | [] => occursHere fold pattern []
  | c :: rest => occursHere fold pattern (c :: rest) || occursIn fold pattern rest

def markOn : Text := "\x1b[1;31m".toList

def markOff : Text := "\x1b[0m".toList

/-- Marks the occurrences of a pattern from left to right. `inside` counts the characters
that still belong to the occurrence at hand. -/
def markOccurrences (fold : Char → Char) (pattern : Text) : Nat → Text → Text
  | _, [] => []
  | 0, c :: rest =>
      if occursHere fold pattern (c :: rest) then
        markOn ++ c :: ((if pattern.length = 1 then markOff else []) ++
          markOccurrences fold pattern (pattern.length - 1) rest)
      else c :: markOccurrences fold pattern 0 rest
  | inside + 1, c :: rest =>
      c :: ((if inside = 0 then markOff else []) ++ markOccurrences fold pattern inside rest)

def caseFold (ignoreCase : Bool) : Char → Char :=
  if ignoreCase then lowerAscii else id

def showMatch (fold : Char → Char) (pattern : Text) (highlight : Bool) (line : Text) : Text :=
  if highlight && !pattern.isEmpty then markOccurrences fold pattern 0 line else line

def grepLines (pattern : Text) (ignoreCase highlight : Bool) (content : Bytes) :
    Except Failure Unit × Bytes :=
  let fold := caseFold ignoreCase
  let read := readLines content
  let selected := read.1.filter (occursIn fold pattern)
  (readResult read.2, writeLines (selected.map (showMatch fold pattern highlight)))

/-- Copies operands one after the other. An operand that cannot be opened is kept for the
report at the end, and one that cannot be read to its end stops the copy. -/
def copyOperands (tree : FileTree) (cwd : Location) (numbered : Bool) (number : Nat)
    (failed : List (Text × Failure)) : List Text → Except Trouble Unit × Bytes
  | [] => (if failed.isEmpty then .ok () else .error (.cannotRead failed), [])
  | name :: rest =>
      match tree.open? cwd (encode name) with
      | .error failure => copyOperands tree cwd numbered number (failed ++ [(name, failure)]) rest
      | .ok (_, node) =>
          match FileTree.content node with
          | .error failure => (.error (.failed failure), [])
          | .ok content =>
              let copy := copyLines numbered number content
              match copy.result with
              -- The operands that could not be opened before are not reported then.
              | .error failure => (.error (.failed failure), copy.output)
              | .ok () =>
                  let after := copyOperands tree cwd numbered copy.nextNumber failed rest
                  (after.1, copy.output ++ after.2)

structure Input where
  content : Bytes
  ending : Except Failure Unit

def firstFailure (first second : Except Failure Unit) : Except Failure Unit :=
  match first with
  | .ok () => second
  | .error failure => .error failure

/-- How many bytes a process takes off its input at a time. -/
def bufferSize : Nat := 8192

namespace Shell

def input (shell : Shell) (machine : Machine) : Input :=
  match shell.process.unread standardInput machine with
  | .ok rest => ⟨shell.process.ahead ++ rest, .ok ()⟩
  | .error failure => ⟨(splitAfterLast (· == newline) shell.process.ahead).1, .error failure⟩

/-- How much a command takes off its input that answers line by line. It stops at a line that
is not text, and when its output is refused, and has then read to the end of a buffer. -/
def heeded (shell : Shell) (answer : Bytes → Except Failure Unit × Bytes) (machine : Machine) :
    Nat :=
  let ahead := shell.process.ahead
  match shell.process.unread standardInput machine with
  | .error _ => 0
  | .ok rest =>
      let stops (buffers : Nat) : Bool :=
        let here := ahead ++ rest.take (buffers * bufferSize)
        let answered := answer (splitAfterLast (· == newline) here).1
        match answered.1, (shell.write answered.2 machine).1 with
        | .ok (), .ok () => false
        | _, _ => true
      match (List.range (rest.length / bufferSize + 1)).find? stops with
      | some buffers => buffers * bufferSize
      | none => rest.length

end Shell

/-- The outcome of a command that answers its standard input line by line. -/
def Outcome.respond (shell : Shell) (machine : Machine)
    (answer : Bytes → Except Failure Unit × Bytes) : Outcome :=
  let input := shell.input machine
  let answered := answer input.content
  let read := shell.process.consume standardInput (shell.heeded answer machine) machine
  .look shell read (asTrouble (firstFailure answered.1 input.ending)) answered.2

namespace Builtin

def runShowFiles (shell : Shell) (arguments : List Text) (machine : Machine) : Outcome :=
  let (numbered, names) := match arguments with
    | ['-', 'n'] :: rest => (true, rest)
    | _ => (false, arguments)
  if names.isEmpty then
    .respond shell machine fun content =>
      let copy := copyLines numbered 1 content
      (copy.result, copy.output)
  else
    let (result, output) := copyOperands machine.tree shell.cwd numbered 1 [] names
    .look shell machine result output

def runSearchLines (shell : Shell) (arguments : List Text) (machine : Machine) : Outcome :=
  let (ignoreCase, rest) := match arguments with
    | ['-', 'i'] :: rest => (true, rest)
    | _ => (false, arguments)
  match rest with
  | [] => .look shell machine (.error .searchUsage) []
  | pattern :: operands =>
      match operands with
      | [] => .respond shell machine (grepLines pattern ignoreCase false)
      | name :: _ =>
          match machine.tree.open? shell.cwd (encode name) with
          | .error failure => .look shell machine (.error (.cannotSearch name failure)) []
          | .ok (_, node) =>
              match FileTree.content node with
              | .error failure => .look shell machine (.error (.failed failure)) []
              | .ok content =>
                  let (result, output) := grepLines pattern ignoreCase false content
                  .look shell machine (asTrouble result) output

end Builtin

end CommandShell
