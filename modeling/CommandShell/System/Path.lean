import CommandShell.Text.Encoding

/-!
Paths as written, with slashes between their parts, and locations, the lists of
names that lead from the root to a file. A written path keeps its spelling:
only `parent` and `push` change it, at the end.
-/
namespace CommandShell

abbrev Path := Bytes

abbrev Name := Bytes

abbrev Location := List Name

def slash : UInt8 := 47

def dot : Name := [46]

def dotDot : Name := [46, 46]

namespace Path

def isAbsolute (path : Path) : Bool :=
  path.head? == some slash

def endsWithSlash (path : Path) : Bool :=
  path.getLast? == some slash

def display (path : Path) : Text :=
  decodeLossy path

def push (path : Path) (part : Path) : Path :=
  if path.isEmpty || path.endsWithSlash then path ++ part else path ++ slash :: part

def join (base path : Path) : Path :=
  if path.isAbsolute then path else base.push path

def isIdle (part : Name) : Bool :=
  part.isEmpty || part == dot

/-- The path without its last part and without idle parts before it. The root and
the empty path have no parent. A first part of a relative path is never idle. -/
def parent? (path : Path) : Option Path :=
  match fields (· == slash) path with
  | [] => none
  | first :: rest =>
      let body := dropEndWhile isIdle rest
      if body.isEmpty then
        if first.isEmpty then none else some []
      else
        let kept := dropEndWhile isIdle body.dropLast
        if first.isEmpty && kept.isEmpty then some [slash]
        else some (joinWith [slash] (first :: kept))

def pop (path : Path) : Path :=
  path.parent?.getD path

/-- The parts a walk has to go through. A slash at the end asks for a folder, which an
empty part expresses. -/
def steps (path : Path) : List Name :=
  let parts := (fields (· == slash) path).filter fun part => !part.isEmpty
  if path.endsWithSlash && !parts.isEmpty then parts ++ [[]] else parts

def ofLocation (location : Location) : Path :=
  slash :: joinWith [slash] location

end Path

def stepDir (path : Path) (part : Name) : Path :=
  if Path.isIdle part then path
  else if part == dotDot then path.pop
  else path.push part

def resolveDir (folder : Path) (target : Bytes) : Path :=
  (fields (· == slash) target).foldl stepDir
    (if Path.isAbsolute target then [slash] else folder)

end CommandShell
