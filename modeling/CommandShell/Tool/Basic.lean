import CommandShell.System.Loader
import CommandShell.Text.Decimal
import CommandShell.Tool.Quoting

/-!
Programs that come with the machine. A tool gets the words it was called with, the first
of them its own name, and works through the descriptors of its process. Tools see
every byte as a character of its own.
-/
namespace CommandShell

abbrev Action (α : Type) := ReaderT Process (StateM Machine) α

abbrev Tool := List Bytes → Action ExitStatus

def ascii (text : String) : Bytes :=
  encode text.toList

namespace Tool

def writeTo (fd : Nat) (text : Text) : Action Unit := fun process machine =>
  ((), process.put fd (Latin.toBytes text) machine)

def say (text : Text) : Action Unit :=
  writeTo standardOutput text

def warn (line : Text) : Action Unit :=
  writeTo standardError (line ++ ['\n'])

def readInput : Action (Except Failure Text) := fun process machine =>
  let (read, machine) := process.readAll standardInput machine
  (read.map Latin.ofBytes, machine)

def readFile (name : Text) : Action (Except Failure Text) := fun process machine =>
  ((machine.tree.readContent process.cwd (Latin.toBytes name)).map Latin.ofBytes, machine)

/-- Reads what an operand names; a dash is the standard input. -/
def readOperand (name : Text) : Action (Except Failure Text) :=
  if name = ['-'] then readInput else readFile name

def saveFile (name content : Text) : Action (Except Failure Unit) := fun process machine =>
  match machine.tree.writeFile process.cwd (Latin.toBytes name) (Latin.toBytes content) with
  | .ok tree => (.ok (), { machine with tree := tree })
  | .error failure => (.error failure, machine)

/-- Makes a file unless it is there. -/
def makeFile (name : Text) : Action (Except Failure Unit) := fun process machine =>
  match machine.tree.editFile process.cwd (Latin.toBytes name) id with
  | .ok tree => (.ok (), { machine with tree := tree })
  | .error failure => (.error failure, machine)

structure Call where
  name : Text
  options : List (Char × Text)
  operands : List Text

namespace Call

def has (call : Call) (letter : Char) : Bool :=
  call.options.any fun option => option.1 == letter

def value? (call : Call) (letter : Char) : Option Text :=
  (call.options.reverse.find? fun option => option.1 == letter).map (·.2)

def inputs (call : Call) : List Text :=
  if call.operands.isEmpty then [['-']] else call.operands

def complain (call : Call) (message : Text) : Action Unit :=
  warn (call.name ++ ": ".toList ++ message)

def complainOf (call : Call) (subject : Text) (failure : Failure) : Action Unit :=
  call.complain (subject ++ ": ".toList ++ failure.reason)

def hint (call : Call) : Action Unit :=
  warn ("Try '".toList ++ call.name ++ " --help' for more information.".toList)

def misuse (call : Call) (code : Int) (complaints : List Text) : Action ExitStatus := do
  match complaints with
  | [] => pure ()
  | complaint :: others =>
      call.complain complaint
      others.forM warn
  call.hint
  return .exited code

end Call

def natural? (text : Text) : Option Nat :=
  if text.isEmpty || !text.all Char.isDigit then none
  else some (text.foldl (fun value figure => value * 10 + (figure.toNat - 48)) 0)

/-- The lines of a content; the last one may lack its newline. -/
def linesOf (content : Text) : List Text :=
  let pieces := fields (· == '\n') content
  if pieces.getLast? == some [] then pieces.dropLast else pieces

def unlines (lines : List Text) : Text :=
  lines.flatMap (· ++ ['\n'])

def exitCode (failed : Bool) (code : Int) : ExitStatus :=
  .exited (if failed then code else 0)

def upperAscii (c : Char) : Char :=
  if 'a' ≤ c && c ≤ 'z' then Char.ofNat (c.toNat - 32) else c

def isSpace (c : Char) : Bool :=
  c == ' ' || ('\t' ≤ c && c ≤ '\r')

def isGap (c : Char) : Bool :=
  c == ' ' || c == '\t'

def isFieldGap (c : Char) : Bool :=
  isGap c || c == '\n'

def latinLe : Text → Text → Bool
  | [], _ => true
  | _ :: _, [] => false
  | a :: left, b :: right => if a == b then latinLe left right else a < b

end Tool

end CommandShell
