import CommandShell.System.Descriptors
import CommandShell.System.Environment
import CommandShell.System.FileTree

/-!
The machine the shell runs on: the file tree, the open streams, the pipes and the
account. Streams are never removed from the list, so a handle keeps its meaning
when a descriptor for it is closed. A pipe holds what has been written and
not yet read, and takes nothing more when its last reader is gone.
-/
namespace CommandShell

inductive Stream
  | supply (unread : Bytes)
  | outlet (written : Bytes)
  | file (location : Location) (offset : Nat)
  | append (location : Location)
  | void
  | pipeReader (pipe : Nat)
  | pipeWriter (pipe : Nat)
  deriving Repr, DecidableEq

/-- What a pipe holds, how much has been read from it, and how much is written into it at most
before its last reader is gone. Readers that stay to the end set no limit. -/
structure Pipe where
  unread : Bytes
  taken : Nat
  limit : Option Nat
  deriving Repr, DecidableEq

namespace Pipe

def fresh (limit : Option Nat) : Pipe :=
  ⟨[], 0, limit⟩

def room (pipe : Pipe) (count : Nat) : Nat :=
  match pipe.limit with
  | none => count
  | some limit => min count (limit - (pipe.taken + pipe.unread.length))

def put (pipe : Pipe) (bytes : Bytes) : Pipe :=
  { pipe with unread := pipe.unread ++ bytes.take (pipe.room bytes.length) }

def take (pipe : Pipe) (count : Nat) : Pipe :=
  { pipe with
    unread := pipe.unread.drop count
    taken := pipe.taken + min count pipe.unread.length }

end Pipe

structure Account where
  name : Text
  home : Path
  superuser : Bool
  deriving Repr, DecidableEq

structure Machine where
  tree : FileTree
  streams : List Stream
  pipes : List Pipe
  account : Account
  host : Text
  nextPid : Nat
  deriving Repr, DecidableEq

structure Process where
  pid : Nat
  cwd : Location
  env : Environment
  descriptors : Descriptors
  ahead : Bytes
  deriving Repr, DecidableEq

namespace Machine

def stream (machine : Machine) (handle : Handle) : Stream :=
  (machine.streams[handle]?).getD .void

def setStream (machine : Machine) (handle : Handle) (stream : Stream) : Machine :=
  { machine with streams := machine.streams.set handle stream }

def addStream (machine : Machine) (stream : Stream) : Handle × Machine :=
  (machine.streams.length, { machine with streams := machine.streams ++ [stream] })

def pipe (machine : Machine) (number : Nat) : Pipe :=
  (machine.pipes[number]?).getD (.fresh none)

/-- A new pipe as the handles of its reading and its writing end. -/
def addPipe (machine : Machine) (limit : Option Nat) : (Handle × Handle) × Machine :=
  let pipe := machine.pipes.length
  let handle := machine.streams.length
  ((handle, handle + 1),
    { machine with
      pipes := machine.pipes ++ [.fresh limit]
      streams := machine.streams ++ [.pipeReader pipe, .pipeWriter pipe] })

def openForReading (machine : Machine) (cwd : Location) (path : Path) :
    Except Failure (Handle × Machine) :=
  match machine.tree.open? cwd path with
  | .error failure => .error failure
  | .ok (_, .void) => .ok (machine.addStream .void)
  | .ok (location, _) => .ok (machine.addStream (.file location 0))

def openForWriting (machine : Machine) (cwd : Location) (path : Path) :
    Except Failure (Handle × Machine) :=
  match machine.tree.writeTarget cwd path with
  | .error failure => .error failure
  | .ok (.absent folder name) =>
      let location := folder ++ [name]
      let made := { machine with tree := machine.tree.put location (.file [] newFileMode) }
      .ok (made.addStream (.file location 0))
  | .ok (.present location (.file _ mode)) =>
      let emptied := { machine with tree := machine.tree.put location (.file [] mode) }
      .ok (emptied.addStream (.file location 0))
  | .ok (.present _ _) => .ok (machine.addStream .void)

def openForAppending (machine : Machine) (cwd : Location) (path : Path) :
    Except Failure (Handle × Machine) :=
  match machine.tree.writeTarget cwd path with
  | .error failure => .error failure
  | .ok (.absent folder name) =>
      let location := folder ++ [name]
      let made := { machine with tree := machine.tree.put location (.file [] newFileMode) }
      .ok (made.addStream (.append location))
  | .ok (.present location (.file _ _)) => .ok (machine.addStream (.append location))
  | .ok (.present _ _) => .ok (machine.addStream .void)

def openForUpdate (machine : Machine) (cwd : Location) (path : Path) :
    Except Failure (Handle × Machine) :=
  match machine.tree.writeTarget cwd path with
  | .error failure => .error failure
  | .ok (.absent folder name) =>
      let location := folder ++ [name]
      let made := { machine with tree := machine.tree.put location (.file [] newFileMode) }
      .ok (made.addStream (.file location 0))
  | .ok (.present location (.file _ _)) => .ok (machine.addStream (.file location 0))
  | .ok (.present _ _) => .ok (machine.addStream .void)

def fileLength (machine : Machine) (location : Location) : Nat :=
  match machine.tree.node? location with
  | some (.file data _) => data.length
  | _ => 0

def unread (machine : Machine) (handle : Handle) : Except Failure Bytes :=
  match machine.stream handle with
  | .supply bytes => .ok bytes
  | .file location offset =>
      match machine.tree.node? location with
      | some node => (FileTree.content node).map (·.drop offset)
      | none => .ok []
  | .pipeReader number => .ok (machine.pipe number).unread
  | .outlet _ | .append _ | .void | .pipeWriter _ => .ok []

def consume (machine : Machine) (handle : Handle) (count : Nat) : Machine :=
  match machine.stream handle with
  | .supply bytes => machine.setStream handle (.supply (bytes.drop count))
  | .file location offset => machine.setStream handle (.file location (offset + count))
  | .pipeReader number =>
      { machine with pipes := machine.pipes.set number ((machine.pipe number).take count) }
  | .outlet _ | .append _ | .void | .pipeWriter _ => machine

def readAll (machine : Machine) (handle : Handle) : Except Failure Bytes × Machine :=
  match machine.unread handle with
  | .error failure => (.error failure, machine)
  | .ok bytes => (.ok bytes, machine.consume handle bytes.length)

def readLine (machine : Machine) (handle : Handle) : Except Failure Bytes × Machine :=
  match machine.unread handle with
  | .error failure => (.error failure, machine)
  | .ok bytes =>
      let line := bytes.takeWhile (· != 10)
      let whole := bytes.take (line.length + 1)
      (.ok whole, machine.consume handle whole.length)

/-- The machine with the bytes where the stream leads, as far as they go there. -/
def put (machine : Machine) (handle : Handle) (bytes : Bytes) : Machine :=
  match machine.stream handle with
  | .outlet written => machine.setStream handle (.outlet (written ++ bytes))
  | .file location offset =>
      match machine.tree.node? location with
      | some (.file data mode) =>
          let patched := machine.tree.put location (.file (FileTree.patch data offset bytes) mode)
          { machine with tree := patched }.setStream handle (.file location (offset + bytes.length))
      | _ => machine
  | .append location =>
      match machine.tree.node? location with
      | some (.file data mode) =>
          { machine with tree := machine.tree.put location (.file (data ++ bytes) mode) }
      | _ => machine
  | .pipeWriter number =>
      { machine with pipes := machine.pipes.set number ((machine.pipe number).put bytes) }
  | .supply _ | .void | .pipeReader _ => machine

def answer (machine : Machine) (handle : Handle) (bytes : Bytes) : Except Failure Unit :=
  match machine.stream handle with
  | .pipeWriter number =>
      if (machine.pipe number).room bytes.length < bytes.length then .error .brokenPipe else .ok ()
  | _ => .ok ()

end Machine

def standardInput : Nat := 0

def standardOutput : Nat := 1

def standardError : Nat := 2

namespace Process

def write (process : Process) (fd : Nat) (bytes : Bytes) (machine : Machine) :
    Except Failure Unit × Machine :=
  match process.descriptors.get? fd with
  | some handle => (machine.answer handle bytes, machine.put handle bytes)
  | none => (.ok (), machine)

def put (process : Process) (fd : Nat) (bytes : Bytes) (machine : Machine) : Machine :=
  (process.write fd bytes machine).2

def complain (process : Process) (line : Text) (machine : Machine) : Machine :=
  process.put standardError (encode line ++ [10]) machine

def unread (process : Process) (fd : Nat) (machine : Machine) : Except Failure Bytes :=
  match process.descriptors.get? fd with
  | some handle => machine.unread handle
  | none => .ok []

def consume (process : Process) (fd count : Nat) (machine : Machine) : Machine :=
  match process.descriptors.get? fd with
  | some handle => machine.consume handle count
  | none => machine

def readAll (process : Process) (fd : Nat) (machine : Machine) :
    Except Failure Bytes × Machine :=
  match process.descriptors.get? fd with
  | some handle => machine.readAll handle
  | none => (.ok [], machine)

end Process

end CommandShell
