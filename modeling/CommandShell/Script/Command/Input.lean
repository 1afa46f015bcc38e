import CommandShell.Script.Command.Basic

/-!
Reading a line into variables. The line is cut at separators, and the last variable gets all
that is left.
-/
namespace CommandShell

namespace Script

/-- The characters of a line for `read`: a backslash quotes the next one, or joins the next
line. The answer also says whether the line ended. -/
def readAtoms (raw : Bool) : Nat → Text → List Atom × Bool × Bool
  | 0, _ | _, [] => ([], false, false)
  | steps + 1, c :: rest =>
      if c == '\n' then ([], true, false)
      else if c == '\\' && !raw then
        match rest with
        | [] => ([], false, false)
        | '\n' :: _ => ([], false, true)
        | d :: rest =>
            let (others, ended, joined) := readAtoms raw steps rest
            (.char d .quoted :: others, ended, joined)
      else if c.toNat = 0 then readAtoms raw steps rest
      else
        let (others, ended, joined) := readAtoms raw steps rest
        (.char c .filled :: others, ended, joined)

def readJoined (raw : Bool) : Nat → Run (List Atom × Bool)
  | 0 => return ([], false)
  | lines + 1 => do
      let state ← get
      match state.process.descriptors.get? standardInput with
      | none => return ([], false)
      | some handle =>
          let (bytes, machine) := state.machine.readLine handle
          set { state with machine := machine }
          match bytes with
          | .error _ => return ([], false)
          | .ok bytes =>
              let line := Latin.ofBytes bytes
              let (atoms, ended, joined) := readAtoms raw line.length line
              if joined then
                let (others, ended) ← readJoined raw lines
                return (atoms ++ others, ended)
              else return (atoms, ended)

def mostJoinedLines : Nat := 1000000

def isSeparator (separators : Text) : Atom → Bool
  | .char c origin => origin = .filled && separators.contains c
  | _ => false

def isBlankAtom (separators : Text) (atom : Atom) : Bool :=
  isSeparator separators atom &&
    match atom with
    | .char c _ => isBlankSeparator c
    | _ => false

def cutField (separators : Text) (line : List Atom) : List Atom × List Atom :=
  let field := line.takeWhile fun atom => !isSeparator separators atom
  let behind := (line.drop field.length).dropWhile (isBlankAtom separators)
  match behind with
  | atom :: rest =>
      if isSeparator separators atom then (field, rest.dropWhile (isBlankAtom separators))
      else (field, behind)
  | [] => (field, [])

def giveFields (separators : Text) : List Text → List Atom → Run Unit
  | [], _ => return ()
  | [name], line => do
      let (field, rest) := cutField separators line
      assign name (textOf [] (if rest.isEmpty then field
        else dropEndWhile (isBlankAtom separators) line))
  | name :: names, line => do
      let (field, rest) := cutField separators line
      assign name (textOf [] field)
      giveFields separators names rest

def readVariables : Plain := fun words => do
  let (options, names) ← optionsOf ['r'] ['p'] words
  if names.isEmpty then refuse "arg count".toList
  let raw := options.any fun option => option.1 == 'r'
  let (line, ended) ← readJoined raw mostJoinedLines
  let separators := (← get).separators
  names.forM checkName
  giveFields separators names (line.dropWhile (isBlankAtom separators))
  return if ended then 0 else 1

end Script

end CommandShell
