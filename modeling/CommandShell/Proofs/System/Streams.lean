import CommandShell.Proofs.System.Files
import CommandShell.System.Machine

/-!
What reading, writing and opening leave of a machine. Streams are only added, and an open one
stays what it is: reading and writing move along it, and a process that has it open
cannot be made to read or write something else. The tree changes where a file is
written or emptied and nowhere else.
-/
namespace CommandShell

namespace Stream

/-- What a stream is, however far it has been read or written. -/
def object : Stream → Stream
  | .supply _ => .supply []
  | .outlet _ => .outlet []
  | .file location _ => .file location 0
  | .append location => .append location
  | .void => .void
  | .pipeReader pipe => .pipeReader pipe
  | .pipeWriter pipe => .pipeWriter pipe

/-- The file that is changed by writing on the stream. -/
def location? : Stream → Option Location
  | .file location _ | .append location => some location
  | .supply _ | .outlet _ | .void | .pipeReader _ | .pipeWriter _ => none

theorem location?_object (stream : Stream) : stream.object.location? = stream.location? := by
  cases stream <;> rfl

end Stream

namespace Machine

theorem stream_setStream (machine : Machine) (handle other : Handle) (stream : Stream) :
    (machine.setStream handle stream).stream other =
      if other = handle ∧ handle < machine.streams.length then stream
      else machine.stream other := by
  unfold Machine.stream setStream
  rw [List.getElem?_set]
  by_cases here : other = handle
  · subst here
    by_cases known : other < machine.streams.length <;> simp [known]
  · simp [here, Ne.symm here]

theorem stream_addStream_old (machine : Machine) (stream : Stream) {handle : Handle}
    (old : handle < machine.streams.length) :
    (machine.addStream stream).2.stream handle = machine.stream handle := by
  unfold Machine.stream addStream
  rw [List.getElem?_append_left old]

theorem stream_addStream_new (machine : Machine) (stream : Stream) :
    (machine.addStream stream).2.stream machine.streams.length = stream := by
  simp [Machine.stream, addStream]

/-- The machine with another tree. -/
def withTree (machine : Machine) (tree : FileTree) : Machine :=
  { machine with tree := tree }

/-- Everything open stays open and stays what it is, and no number of a process is given
out again. -/
structure Extends (before after : Machine) : Prop where
  length : before.streams.length ≤ after.streams.length
  object : ∀ handle < before.streams.length,
    (after.stream handle).object = (before.stream handle).object
  pids : before.nextPid ≤ after.nextPid

namespace Extends

theorem refl (machine : Machine) : Extends machine machine :=
  ⟨Nat.le_refl _, fun _ _ => rfl, Nat.le_refl _⟩

theorem trans {first middle last : Machine} (left : Extends first middle)
    (right : Extends middle last) : Extends first last where
  length := Nat.le_trans left.length right.length
  object handle old :=
    (right.object handle (Nat.lt_of_lt_of_le old left.length)).trans (left.object handle old)
  pids := Nat.le_trans left.pids right.pids

theorem location? {before after : Machine} (grown : Extends before after) {handle : Handle}
    (old : handle < before.streams.length) :
    (after.stream handle).location? = (before.stream handle).location? := by
  rw [← Stream.location?_object, grown.object handle old, Stream.location?_object]

theorem of_streams {before after : Machine} (same : after.streams = before.streams)
    (pids : before.nextPid ≤ after.nextPid) : Extends before after where
  length := Nat.le_of_eq (congrArg List.length same).symm
  object handle _ := by rw [Machine.stream, same, ← Machine.stream]
  pids := pids

theorem withTree (machine : Machine) (tree : FileTree) :
    Extends machine (machine.withTree tree) :=
  of_streams rfl (Nat.le_refl _)

theorem setStream {machine : Machine} {handle : Handle} {stream : Stream}
    (same : stream.object = (machine.stream handle).object) :
    Extends machine (machine.setStream handle stream) where
  length := Nat.le_of_eq (List.length_set ..).symm
  -- A handle that is out of range changes nothing, which is fine as well.
  object other _ := by
    rw [stream_setStream]
    split
    · next here => rw [same, here.1]
    · rfl
  pids := Nat.le_refl _

theorem put (machine : Machine) (handle : Handle) (bytes : Bytes) :
    Extends machine (machine.put handle bytes) := by
  unfold Machine.put
  cases known : machine.stream handle with
  | outlet written => exact setStream (by rw [known]; rfl)
  | file location offset =>
      simp only
      split
      · next data mode _ =>
          refine (withTree machine _).trans (setStream ?_)
          change Stream.object _ = (machine.stream handle).object
          rw [known]
          rfl
      · exact refl machine
  | append location =>
      simp only
      split
      · exact of_streams rfl (Nat.le_refl _)
      · exact refl machine
  | pipeWriter pipe => exact of_streams rfl (Nat.le_refl _)
  | supply bytes => exact refl machine
  | void => exact refl machine
  | pipeReader pipe => exact refl machine

theorem consume (machine : Machine) (handle : Handle) (count : Nat) :
    Extends machine (machine.consume handle count) := by
  unfold Machine.consume
  cases known : machine.stream handle with
  | supply bytes => exact setStream (by rw [known]; rfl)
  | file location offset => exact setStream (by rw [known]; rfl)
  | pipeReader pipe => exact of_streams rfl (Nat.le_refl _)
  | outlet written => exact refl machine
  | append location => exact refl machine
  | void => exact refl machine
  | pipeWriter pipe => exact refl machine

end Extends

theorem tree_consume (machine : Machine) (handle : Handle) (count : Nat) :
    (machine.consume handle count).tree = machine.tree := by
  unfold consume
  cases machine.stream handle <;> rfl

theorem nextPid_consume (machine : Machine) (handle : Handle) (count : Nat) :
    (machine.consume handle count).nextPid = machine.nextPid := by
  unfold consume
  cases machine.stream handle <;> rfl

theorem nextPid_put (machine : Machine) (handle : Handle) (bytes : Bytes) :
    (machine.put handle bytes).nextPid = machine.nextPid := by
  unfold put
  split
  · rfl
  · split <;> rfl
  · split <;> rfl
  · rfl
  · rfl
  · rfl
  · rfl

theorem put_elsewhere {machine : Machine} {handle : Handle} {location : Location}
    (apart : (machine.stream handle).location? ≠ some location) (bytes : Bytes) :
    (machine.put handle bytes).tree.node? location = machine.tree.node? location := by
  unfold put
  cases known : machine.stream handle with
  | file place offset =>
      have other : location ≠ place := by
        rintro rfl
        exact apart (by rw [known]; rfl)
      simp only
      split
      · exact FileTree.node?_put_ne machine.tree _ other
      · rfl
  | append place =>
      have other : location ≠ place := by
        rintro rfl
        exact apart (by rw [known]; rfl)
      simp only
      split
      · exact FileTree.node?_put_ne machine.tree _ other
      · rfl
  | outlet written => rfl
  | supply bytes => rfl
  | void => rfl
  | pipeReader pipe => rfl
  | pipeWriter pipe => rfl

/-- The handle reads what the path leads to in the tree, from the begin. -/
def ReadsAt (machine : Machine) (tree : FileTree) (cwd : Location) (path : Path)
    (handle : Handle) : Prop :=
  ∃ location node, tree.open? cwd path = .ok (location, node) ∧
    (machine.stream handle = .file location 0 ∨ node = .void ∧ machine.stream handle = .void)

/-- The handle writes where the path leads in the tree: to a file that is empty now, or to a
device. -/
def WritesAt (machine : Machine) (tree : FileTree) (cwd : Location) (path : Path)
    (handle : Handle) : Prop :=
  (∃ location mode, tree.writesAt? cwd path = some location ∧
      machine.stream handle = .file location 0 ∧
      machine.tree.node? location = some (.file [] mode)) ∨
    ∃ location node, tree.writeTarget cwd path = .ok (.present location node) ∧
      (∀ data mode, node ≠ .file data mode) ∧ machine.stream handle = .void

namespace WritesAt

variable {machine : Machine} {tree : FileTree} {cwd location : Location} {path : Path}
  {handle : Handle}

theorem file (writes : machine.WritesAt tree cwd path handle)
    (leads : tree.writesAt? cwd path = some location) :
    machine.stream handle = .file location 0 ∧
      ∃ mode, machine.tree.node? location = some (.file [] mode) := by
  rcases writes with ⟨place, mode, here, stream, empty⟩ | ⟨place, node, found, device, -⟩
  · cases leads.symm.trans here
    exact ⟨stream, mode, empty⟩
  · -- A device is no file.
    rw [FileTree.writesAt?, found] at leads
    cases node with
    | file data mode => exact absurd rfl (device data mode)
    | folder | link | void => cases leads

theorem elsewhere (writes : machine.WritesAt tree cwd path handle)
    (apart : tree.writesAt? cwd path ≠ some location) :
    (machine.stream handle).location? ≠ some location := by
  rcases writes with ⟨place, mode, here, stream, -⟩ | ⟨_, _, _, _, stream⟩
  · rw [stream]
    rintro ⟨⟩
    exact apart here
  · rw [stream]
    intro contra
    cases contra

theorem noPipe (writes : machine.WritesAt tree cwd path handle) (pipe : Nat) :
    machine.stream handle ≠ .pipeWriter pipe := by
  rcases writes with ⟨place, mode, -, stream, -⟩ | ⟨_, _, _, _, stream⟩
  · rw [stream]
    exact nofun
  · rw [stream]
    exact nofun

end WritesAt

/-- What opening a file leaves of a machine, the new handle included. -/
structure Opens (before : Machine) (handle : Handle) (after : Machine) : Prop where
  handle_eq : handle = before.streams.length
  length : after.streams.length = before.streams.length + 1
  kept : ∀ other < before.streams.length, after.stream other = before.stream other
  pids : after.nextPid = before.nextPid

theorem Opens.grown {before after : Machine} {handle : Handle}
    (opens : Opens before handle after) : Extends before after where
  length := opens.length ▸ Nat.le_succ _
  object other old := congrArg Stream.object (opens.kept other old)
  pids := Nat.le_of_eq opens.pids.symm

theorem opens_addStream (machine : Machine) (stream : Stream) :
    Opens machine machine.streams.length (machine.addStream stream).2 where
  handle_eq := rfl
  length := List.length_append
  kept _ old := stream_addStream_old machine stream old
  pids := rfl

theorem openForReading_ok {machine after : Machine} {cwd : Location} {path : Path}
    {handle : Handle} (opened : machine.openForReading cwd path = .ok (handle, after)) :
    Opens machine handle after ∧ after.ReadsAt machine.tree cwd path handle ∧
      after.tree = machine.tree := by
  unfold openForReading at opened
  split at opened
  · cases opened
  · next location found =>
      cases opened
      refine ⟨opens_addStream machine .void, ?_, rfl⟩
      exact ⟨location, .void, found, Or.inr ⟨rfl, stream_addStream_new machine .void⟩⟩
  · next location node _ found =>
      cases opened
      refine ⟨opens_addStream machine (.file location 0), ?_, rfl⟩
      exact ⟨location, node, found, Or.inl (stream_addStream_new machine (.file location 0))⟩

theorem openForReading_error {machine : Machine} {cwd : Location} {path : Path}
    {failure : Failure} :
    machine.openForReading cwd path = .error failure ↔
      machine.tree.open? cwd path = .error failure := by
  unfold openForReading
  split
  · next found => rw [found]; simp
  · next found => rw [found]; simp
  · next found => rw [found]; simp

/-- What opening a file for writing leaves of a machine: the file is empty, and nothing else
in the tree has changed. -/
structure OpensForWriting (before : Machine) (cwd : Location) (path : Path) (handle : Handle)
    (after : Machine) : Prop where
  opens : Opens before handle after
  writes : after.WritesAt before.tree cwd path handle
  elsewhere : ∀ location, before.tree.writesAt? cwd path ≠ some location →
    after.tree.node? location = before.tree.node? location

theorem opensForWriting_empty {machine : Machine} {cwd location : Location} {path : Path}
    (place : machine.tree.writesAt? cwd path = some location) (mode : Nat) :
    OpensForWriting machine cwd path machine.streams.length
      ((machine.withTree (machine.tree.put location (.file [] mode))).addStream
        (.file location 0)).2 where
  opens := ⟨rfl, List.length_append, fun _ old => stream_addStream_old (machine.withTree _) _ old, rfl⟩
  writes := Or.inl ⟨location, mode, place, stream_addStream_new (machine.withTree _) _,
    FileTree.node?_put_self machine.tree _ (FileTree.writesAt?_ne_root place)⟩
  elsewhere other apart :=
    FileTree.node?_put_ne machine.tree _ fun same => apart (by rw [place, same])

theorem openForWriting_ok {machine after : Machine} {cwd : Location} {path : Path}
    {handle : Handle} (opened : machine.openForWriting cwd path = .ok (handle, after)) :
    OpensForWriting machine cwd path handle after := by
  unfold openForWriting at opened
  split at opened
  · cases opened
  · next folder name found =>
      cases opened
      exact opensForWriting_empty (by simp [FileTree.writesAt?, found]) newFileMode
  · next location data mode found =>
      cases opened
      exact opensForWriting_empty (by simp [FileTree.writesAt?, found]) mode
  · next location node other found =>
      cases opened
      exact ⟨opens_addStream machine .void,
        Or.inr ⟨location, node, found, other, stream_addStream_new machine .void⟩, fun _ _ => rfl⟩

theorem openForWriting_error {machine : Machine} {cwd : Location} {path : Path}
    {failure : Failure} :
    machine.openForWriting cwd path = .error failure ↔
      machine.tree.writeTarget cwd path = .error failure := by
  unfold openForWriting
  split
  · next found => rw [found]; simp
  · next found => rw [found]; simp
  · next found => rw [found]; simp
  · next found => rw [found]; simp

end Machine

theorem Process.put_eq (process : Process) (fd : Nat) (bytes : Bytes) (machine : Machine) :
    process.put fd bytes machine =
      match process.descriptors.get? fd with
      | some handle => machine.put handle bytes
      | none => machine := by
  unfold put write
  cases process.descriptors.get? fd <;> rfl

end CommandShell
