import CommandShell.Proofs.System.Streams
import CommandShell.Proofs.System.Tables

/-!
The targets of a stage, opened in its own process. The input comes first: when it is refused
nothing has happened, and when the output is refused no file has been touched. When both
open, the process has them in the place of its standard input and output, and only
the file of the output has changed.
-/
namespace CommandShell

/-- Does looking for the target find something, if there is a target? -/
def Granted {α : Type} (look : Text → Except Failure α) (target : Option Text) : Prop :=
  ∀ path ∈ target, ∃ found, look path = .ok found

theorem granted_none {α : Type} (look : Text → Except Failure α) : Granted look none :=
  fun _ inside => nomatch inside

theorem not_granted {α : Type} {look : Text → Except Failure α} {target : Option Text} :
    ¬ Granted look target ↔ ∃ path failure, target = some path ∧ look path = .error failure := by
  constructor
  · intro refused
    cases target with
    | none => exact absurd (fun _ inside => nomatch inside) refused
    | some path =>
        cases found : look path with
        | error failure => exact ⟨path, failure, rfl, found⟩
        | ok something =>
            refine absurd ?_ refused
            rintro _ ⟨⟩
            exact ⟨something, found⟩
  · rintro ⟨path, failure, rfl, refused⟩ granted
    obtain ⟨something, found⟩ := granted path rfl
    rw [refused] at found
    cases found

namespace FileTree

/-- Can the target be opened for reading, if there is one? -/
def Readable (tree : FileTree) (cwd : Location) (target : Option Text) : Prop :=
  Granted (fun path => tree.open? cwd (encode path)) target

/-- Can the target be opened for writing, or made, if there is one? -/
def Writable (tree : FileTree) (cwd : Location) (target : Option Text) : Prop :=
  Granted (fun path => tree.writeTarget cwd (encode path)) target

end FileTree

/-- What has become of a process and a machine as a target took the place of `fd`. -/
structure Redirected (target : Option Text) (fd : Nat) (child : Process) (met : Machine)
    (process : Process) (left : Machine) : Prop where
  process_eq : process = { child with descriptors := process.descriptors }
  opened : ∀ path ∈ target, process.descriptors.get? fd = some met.streams.length
  others : ∀ other, (other = fd → target = none) →
    process.descriptors.get? other = child.descriptors.get? other
  kept : ∀ handle < met.streams.length, left.stream handle = met.stream handle
  length : left.streams.length = met.streams.length + target.toList.length
  pids : left.nextPid = met.nextPid

theorem redirected_none (fd : Nat) (child : Process) (met : Machine) :
    Redirected none fd child met child met :=
  ⟨rfl, fun _ inside => (nomatch inside), fun _ _ => rfl, fun _ _ => rfl, rfl, rfl⟩

theorem redirected_some {met left : Machine} {handle : Handle}
    (opens : Machine.Opens met handle left) (path : Text) (fd : Nat) (child : Process) :
    Redirected (some path) fd child met
      { child with descriptors := child.descriptors.replace handle fd } left where
  process_eq := rfl
  opened _ _ := by rw [Descriptors.get?_replace, if_pos rfl, opens.handle_eq]
  others other apart := by
    rw [Descriptors.get?_replace, if_neg]
    exact fun same => nomatch apart same
  kept := opens.kept
  length := opens.length
  pids := opens.pids

/-- What the targets of a stage leave of its process, which was `child` before, and of the
machine, which was `met` before. -/
structure Plugged (stage : PreparedStage) (child : Process) (met : Machine) (process : Process)
    (started : Machine) : Prop where
  process_eq : process = { child with descriptors := process.descriptors }
  input : ∀ path ∈ stage.input, ∃ handle,
    process.descriptors.get? standardInput = some handle ∧ met.streams.length ≤ handle ∧
      started.ReadsAt met.tree child.cwd (encode path) handle
  output : ∀ path ∈ stage.output, ∃ handle,
    process.descriptors.get? standardOutput = some handle ∧ met.streams.length ≤ handle ∧
      started.WritesAt met.tree child.cwd (encode path) handle
  others : ∀ fd, (fd = standardInput → stage.input = none) →
    (fd = standardOutput → stage.output = none) →
      process.descriptors.get? fd = child.descriptors.get? fd
  reach : ∀ fd handle, process.descriptors.get? fd = some handle →
    child.descriptors.get? fd = some handle ∨ handle < started.streams.length
  grown : Machine.Extends met started
  elsewhere : ∀ location,
    (∀ path ∈ stage.output, met.tree.writesAt? child.cwd (encode path) ≠ some location) →
      started.tree.node? location = met.tree.node? location

theorem no_target_of_older {target : Option Text} {table : Descriptors} {fd : Nat}
    {handle count : Handle} {Leads : Text → Handle → Prop}
    (opened : ∀ path ∈ target, ∃ new, table.get? fd = some new ∧ count ≤ new ∧ Leads path new)
    (found : table.get? fd = some handle) (old : handle < count) : target = none := by
  by_contra given
  obtain ⟨path, isTarget⟩ := Option.ne_none_iff_exists'.mp given
  obtain ⟨new, known, late, -⟩ := opened path isTarget
  cases found.symm.trans known
  exact absurd old (Nat.not_lt_of_le late)

theorem Plugged.older {stage : PreparedStage} {child process : Process} {met started : Machine}
    (plugged : Plugged stage child met process started) {fd : Nat} {handle : Handle}
    (found : process.descriptors.get? fd = some handle) (old : handle < met.streams.length) :
    (fd = standardInput → stage.input = none) ∧ (fd = standardOutput → stage.output = none) ∧
      child.descriptors.get? fd = some handle := by
  have notInput : fd = standardInput → stage.input = none := by
    rintro rfl
    exact no_target_of_older plugged.input found old
  have notOutput : fd = standardOutput → stage.output = none := by
    rintro rfl
    exact no_target_of_older plugged.output found old
  exact ⟨notInput, notOutput, (plugged.others fd notInput notOutput).symm.trans found⟩

/-- The first half of `redirectStage`. -/
def openInput (target : Option Text) (child : Process) (met : Machine) :
    Except Int Process × Machine :=
  match target with
  | none => (.ok child, met)
  | some path =>
      match met.openForReading child.cwd (encode path) with
      | .error _ => (.error exitInputFailed, met)
      | .ok (handle, left) =>
          (.ok { child with descriptors := child.descriptors.replace handle standardInput }, left)

def openOutput (target : Option Text) (child : Process) (met : Machine) :
    Except Int Process × Machine :=
  match target with
  | none => (.ok child, met)
  | some path =>
      match met.openForWriting child.cwd (encode path) with
      | .error _ => (.error exitOutputFailed, met)
      | .ok (handle, left) =>
          (.ok { child with descriptors := child.descriptors.replace handle standardOutput }, left)

theorem redirectStage_eq (stage : PreparedStage) (child : Process) (met : Machine) :
    redirectStage stage child met =
      match openInput stage.input child met with
      | (.error code, left) => (.error code, left)
      | (.ok process, left) => openOutput stage.output process left := rfl

variable {target : Option Text} {child process : Process} {met left : Machine}
  (stage : PreparedStage)

theorem openInput_error (refused : ¬ met.tree.Readable child.cwd target) :
    openInput target child met = (.error exitInputFailed, met) := by
  obtain ⟨path, failure, rfl, missing⟩ := not_granted.mp refused
  simp only [openInput, Machine.openForReading_error.mpr missing]

theorem openInput_ok (granted : met.tree.Readable child.cwd target) :
    ∃ process left, openInput target child met = (.ok process, left) ∧
      Redirected target standardInput child met process left ∧ left.tree = met.tree ∧
      ∀ path ∈ target, left.ReadsAt met.tree child.cwd (encode path) met.streams.length := by
  cases target with
  | none => exact ⟨child, met, rfl, redirected_none _ child met, rfl, fun _ inside => nomatch inside⟩
  | some path =>
      obtain ⟨node, found⟩ := granted path rfl
      cases opened : met.openForReading child.cwd (encode path) with
      | error failure =>
          cases (Machine.openForReading_error.mp opened).symm.trans found
      | ok new =>
          obtain ⟨opens, reads, sameTree⟩ := Machine.openForReading_ok opened
          refine ⟨_, new.2, by simp only [openInput, opened], redirected_some opens path _ child,
            sameTree, ?_⟩
          rintro _ ⟨⟩
          exact opens.handle_eq ▸ reads

theorem openOutput_error (refused : ¬ met.tree.Writable child.cwd target) :
    openOutput target child met = (.error exitOutputFailed, met) := by
  obtain ⟨path, failure, rfl, missing⟩ := not_granted.mp refused
  simp only [openOutput, Machine.openForWriting_error.mpr missing]

theorem openOutput_ok (granted : met.tree.Writable child.cwd target) :
    ∃ process left, openOutput target child met = (.ok process, left) ∧
      Redirected target standardOutput child met process left ∧
      (∀ path ∈ target, left.WritesAt met.tree child.cwd (encode path) met.streams.length) ∧
      ∀ location,
        (∀ path ∈ target, met.tree.writesAt? child.cwd (encode path) ≠ some location) →
          left.tree.node? location = met.tree.node? location := by
  cases target with
  | none =>
      exact ⟨child, met, rfl, redirected_none _ child met, fun _ inside => (nomatch inside),
        fun _ _ => rfl⟩
  | some path =>
      obtain ⟨arrival, found⟩ := granted path rfl
      cases opened : met.openForWriting child.cwd (encode path) with
      | error failure =>
          cases (Machine.openForWriting_error.mp opened).symm.trans found
      | ok new =>
          have opens := Machine.openForWriting_ok opened
          refine ⟨_, new.2, by simp only [openOutput, opened],
            redirected_some opens.opens path _ child, ?_,
            fun location apart => opens.elsewhere location (apart path rfl)⟩
          rintro _ ⟨⟩
          exact opens.opens.handle_eq ▸ opens.writes

theorem redirectStage_inputRefused (refused : ¬ met.tree.Readable child.cwd stage.input) :
    redirectStage stage child met = (.error exitInputFailed, met) := by
  rw [redirectStage_eq, openInput_error refused]

theorem Redirected.grown {fd : Nat} (redirected : Redirected target fd child met process left) :
    Machine.Extends met left where
  length := redirected.length ▸ Nat.le_add_right _ _
  object handle old := congrArg Stream.object (redirected.kept handle old)
  pids := Nat.le_of_eq redirected.pids.symm

theorem Redirected.cwd {fd : Nat} (redirected : Redirected target fd child met process left) :
    process.cwd = child.cwd := by
  rw [redirected.process_eq]

theorem Redirected.reach {fd : Nat} (redirected : Redirected target fd child met process left)
    (other : Nat) (handle : Handle) (found : process.descriptors.get? other = some handle) :
    child.descriptors.get? other = some handle ∨ handle < left.streams.length := by
  by_cases apart : other = fd → target = none
  · exact Or.inl ((redirected.others other apart).symm.trans found)
  · obtain ⟨rfl, given⟩ := Classical.not_imp.mp apart
    obtain ⟨path, isTarget⟩ := Option.ne_none_iff_exists'.mp given
    right
    cases (redirected.opened path isTarget).symm.trans found
    rw [redirected.length, isTarget]
    exact Nat.lt_succ_self _

theorem redirectStage_outputRefused (granted : met.tree.Readable child.cwd stage.input)
    (refused : ¬ met.tree.Writable child.cwd stage.output) :
    ∃ left, redirectStage stage child met = (.error exitOutputFailed, left) ∧
      left.tree = met.tree ∧ Machine.Extends met left := by
  obtain ⟨process, left, opened, redirected, sameTree, -⟩ := openInput_ok granted
  refine ⟨left, ?_, sameTree, redirected.grown⟩
  rw [redirectStage_eq, opened]
  exact openOutput_error (by rwa [sameTree, redirected.cwd])

theorem redirectStage_ok (readable : met.tree.Readable child.cwd stage.input)
    (writable : met.tree.Writable child.cwd stage.output) :
    ∃ process started, redirectStage stage child met = (.ok process, started) ∧
      Plugged stage child met process started := by
  obtain ⟨fed, middle, openedInput, redirectedIn, sameTree, reads⟩ := openInput_ok readable
  -- The output is looked up after the input is open, on the same tree.
  rw [← sameTree, ← redirectedIn.cwd] at writable
  obtain ⟨process, started, openedOutput, redirectedOut, writes, elsewhere⟩ :=
    openOutput_ok writable
  rw [sameTree, redirectedIn.cwd] at writes elsewhere
  refine ⟨process, started, by rw [redirectStage_eq, openedInput]; exact openedOutput, ?_⟩
  constructor
  case process_eq => rw [redirectedOut.process_eq, redirectedIn.process_eq]
  case input =>
    intro path target
    have fresh : met.streams.length < middle.streams.length := by
      rw [redirectedIn.length, Option.mem_def.mp target]
      exact Nat.lt_succ_self _
    refine ⟨met.streams.length, ?_, Nat.le_refl _, ?_⟩
    · rw [redirectedOut.others _ (fun same => absurd same (by decide)),
        redirectedIn.opened path target]
    · obtain ⟨location, node, found, stream⟩ := reads path target
      refine ⟨location, node, found, ?_⟩
      rwa [redirectedOut.kept _ fresh]
  case output =>
    intro path target
    exact ⟨middle.streams.length, redirectedOut.opened path target, redirectedIn.grown.length,
      writes path target⟩
  case others =>
    intro fd notInput notOutput
    rw [redirectedOut.others fd notOutput, redirectedIn.others fd notInput]
  case reach =>
    intro fd handle found
    rcases redirectedOut.reach fd handle found with before | new
    · rcases redirectedIn.reach fd handle before with older | new
      · exact Or.inl older
      · exact Or.inr (Nat.lt_of_lt_of_le new redirectedOut.grown.length)
    · exact Or.inr new
  case grown => exact redirectedIn.grown.trans redirectedOut.grown
  case elsewhere => exact elsewhere

end CommandShell
