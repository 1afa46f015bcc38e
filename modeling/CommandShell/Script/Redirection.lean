import CommandShell.Script.Expansion

/-!
Redirections of a command: their words are filled in first, then the files are opened one
after the other. A file that cannot be opened leaves the ones before it open.
-/
namespace CommandShell

namespace Script

/-- A redirection whose words are known. The words of a here-document are filled in when it
is opened. -/
inductive Opening
  | file (fd : Nat) (kind : RedirectKind) (name : Text)
  | copy (fd source : Nat)
  | close (fd : Nat)
  | text (fd : Nat) (word : Word)

def badDescriptor {α : Type} : Run α :=
  refuse "Syntax error: Bad fd number".toList

def openingOf (capture : List Command → Run Text) (steps : Nat) : Redirect → Run Opening
  | .mk fd .here target => return .text fd target
  | .mk fd .duplicate target => do
      match ← expandOne capture steps target with
      | ['-'] => return .close fd
      | [c] => if c.isDigit then return .copy fd (c.toNat - 48) else badDescriptor
      | _ => badDescriptor
  | .mk fd kind target => return .file fd kind (← expandOne capture steps target)

def openingsOf (capture : List Command → Run Text) (steps : Nat) :
    List Redirect → Run (List Opening)
  | [] => return []
  | redirect :: rest => do
      let opening ← openingOf capture steps redirect
      return opening :: (← openingsOf capture steps rest)

def RedirectKind.creates : RedirectKind → Bool
  | .write | .append | .readWrite => true
  | _ => false

/-- Why a file cannot be opened. A missing folder and a missing file have words of their
own. -/
def openReason (kind : RedirectKind) (failure : Failure) : Text :=
  match failure, kind.creates with
  | .noEntry, true | .notFolder, true => "Directory nonexistent".toList
  | .noEntry, false | .notFolder, false => "No such file".toList
  | _, _ => failure.reason

def openFile (kind : RedirectKind) (name : Text) : Run Handle := do
  let state ← get
  let path := Latin.toBytes name
  let cwd := state.process.cwd
  let opened := match kind with
    | .write => state.machine.openForWriting cwd path
    | .append => state.machine.openForAppending cwd path
    | .readWrite => state.machine.openForUpdate cwd path
    | _ => state.machine.openForReading cwd path
  match opened with
  | .ok (handle, machine) =>
      set { state with machine := machine }
      return handle
  | .error failure =>
      refuse ((if kind.creates then "cannot create ".toList else "cannot open ".toList) ++ name ++
        ": ".toList ++ openReason kind failure)

def setDescriptors (change : Descriptors → Descriptors) : Run Unit :=
  modify fun state =>
    { state with
      process := { state.process with descriptors := change state.process.descriptors } }

def carryOut (capture : List Command → Run Text) (steps : Nat) : Opening → Run Unit
  | .file fd kind name => do
      let handle ← openFile kind name
      setDescriptors fun table => table.set fd handle
  | .copy fd source => do
      match (← get).process.descriptors.get? source with
      | some handle => setDescriptors fun table => table.set fd handle
      | none => refuse (digits source ++ ": Bad file descriptor".toList)
  | .close fd => setDescriptors fun table => table.close fd
  | .text fd word => do
      let body ← expandOne capture steps word
      let state ← get
      let (handle, machine) := state.machine.addStream (.supply (Latin.toBytes body))
      set { state with machine := machine }
      setDescriptors fun table => table.set fd handle

def redirect (capture : List Command → Run Text) (steps : Nat) (openings : List Opening) :
    Run Unit :=
  openings.forM (carryOut capture steps)

def State.closeAgain (before after : State) : State :=
  { after with process := { after.process with descriptors := before.process.descriptors } }

end Script

end CommandShell
