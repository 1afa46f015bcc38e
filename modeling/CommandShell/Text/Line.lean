import CommandShell.Text.Encoding

/-!
Files as lines. A line ends at a newline, or at the end of a file that does not
close its last line. A carriage return just before the newline belongs to the
line end. Reading stops at the first line that is not text.
-/
namespace CommandShell

def newline : UInt8 := 10

def dropReturn (line : Bytes) : Bytes :=
  match line.getLast? with
  | some 13 => line.dropLast
  | _ => line

/-- Lines from the pieces between newlines: what follows the last newline is a line
only if there is something. -/
def closeLines : List Bytes → List Bytes
  | [] => []
  | [last] => if last.isEmpty then [] else [last]
  | piece :: rest => dropReturn piece :: closeLines rest

def rawLines (content : Bytes) : List Bytes :=
  closeLines (fields (· == newline) content)

def leadingTexts : List Bytes → List Text × Bool
  | [] => ([], true)
  | raw :: rest =>
      match decode? raw with
      | none => ([], false)
      | some line =>
          let after := leadingTexts rest
          (line :: after.1, after.2)

def readLines (content : Bytes) : List Text × Bool :=
  leadingTexts (rawLines content)

def textLines? (content : Bytes) : Option (List Text) :=
  let read := readLines content
  if read.2 then some read.1 else none

def lineBytes (line : Text) : Bytes :=
  encode line ++ [newline]

def writeLines (lines : List Text) : Bytes :=
  lines.flatMap lineBytes

end CommandShell
