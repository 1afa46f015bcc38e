import CommandShell.Proofs.System.Streams
import CommandShell.Proofs.System.Tables

/-!
The pipes of a job in the tables of the shell and of its processes. The shell's table has
every end of every pipe, under numbers that were free before, so closing them gives
back the table as it was. A process keeps the end that feeds it and the end
it fills, as its standard input and output, and no other.
-/
namespace CommandShell

namespace Machine

/-- The stream of the reading end of a pipe, for a job that begins on this machine. -/
def readEnd (machine : Machine) (number : Nat) : Handle :=
  machine.streams.length + 2 * number

def writeEnd (machine : Machine) (number : Nat) : Handle :=
  machine.streams.length + 2 * number + 1

/-- The stream is an end of one of the first pipes of a job that begins on this machine. -/
def PipeHandle (machine : Machine) (count : Nat) (handle : Handle) : Prop :=
  ∃ number < count, handle = machine.readEnd number ∨ handle = machine.writeEnd number

theorem PipeHandle.bounds {machine : Machine} {count : Nat} {handle : Handle}
    (pipe : machine.PipeHandle count handle) :
    machine.streams.length ≤ handle ∧ handle < machine.streams.length + 2 * count := by
  obtain ⟨number, less, rfl | rfl⟩ := pipe
  · exact ⟨Nat.le_add_right _ _, Nat.add_lt_add_left (by omega) _⟩
  · exact ⟨Nat.le_add_right _ (2 * number + 1),
      Nat.add_lt_add_left (show 2 * number + 1 < 2 * count by omega) _⟩

theorem Extends.unmoved {before after : Machine} (grown : Extends before after) {handle : Handle}
    {stream : Stream} (old : handle < before.streams.length)
    (known : before.stream handle = stream)
    (fixed : ∀ other : Stream, other.object = stream.object → other = stream) :
    after.stream handle = stream :=
  fixed _ (known ▸ grown.object handle old)

theorem Extends.pipeReader {before after : Machine} (grown : Extends before after)
    {handle : Handle} {pipe : Nat} (old : handle < before.streams.length)
    (known : before.stream handle = .pipeReader pipe) : after.stream handle = .pipeReader pipe :=
  grown.unmoved old known fun other same => by
    cases other <;> cases same
    rfl

theorem Extends.pipeWriter {before after : Machine} (grown : Extends before after)
    {handle : Handle} {pipe : Nat} (old : handle < before.streams.length)
    (known : before.stream handle = .pipeWriter pipe) : after.stream handle = .pipeWriter pipe :=
  grown.unmoved old known fun other same => by
    cases other <;> cases same
    rfl

theorem Extends.addPipe (machine : Machine) (limit : Option Nat) :
    Extends machine (machine.addPipe limit).2 where
  length := by simp [Machine.addPipe]
  object handle old := by
    unfold Machine.addPipe Machine.stream
    rw [List.getElem?_append_left old]
  pids := Nat.le_refl _

theorem length_addPipe (machine : Machine) (limit : Option Nat) :
    (machine.addPipe limit).2.streams.length = machine.streams.length + 2 := by
  simp [addPipe]

theorem readEnd_addPipe (machine : Machine) (limit : Option Nat) (number : Nat) :
    (machine.addPipe limit).2.readEnd number = machine.readEnd (number + 1) := by
  unfold readEnd
  rw [length_addPipe, Nat.mul_succ, Nat.add_assoc, Nat.add_comm 2]

theorem writeEnd_addPipe (machine : Machine) (limit : Option Nat) (number : Nat) :
    (machine.addPipe limit).2.writeEnd number = machine.writeEnd (number + 1) :=
  congrArg (· + 1) (readEnd_addPipe machine limit number)

theorem stream_addPipe (machine : Machine) (limit : Option Nat) :
    (machine.addPipe limit).2.stream (machine.readEnd 0) = .pipeReader machine.pipes.length ∧
      (machine.addPipe limit).2.stream (machine.writeEnd 0) = .pipeWriter machine.pipes.length := by
  simp [stream, addPipe, readEnd, writeEnd]

end Machine

/-- What the machine has after the pipes of a job have been opened. -/
structure PipesMade (count : Nat) (machine after : Machine) : Prop where
  streams : after.streams.length = machine.streams.length + 2 * count
  ends : ∀ number < count,
    after.stream (machine.readEnd number) = .pipeReader (machine.pipes.length + number) ∧
      after.stream (machine.writeEnd number) = .pipeWriter (machine.pipes.length + number)
  grown : Machine.Extends machine after
  tree : after.tree = machine.tree
  nextPid : after.nextPid = machine.nextPid

theorem openPipes_made (count : Nat) (limits : Limits) (table : Descriptors) (machine : Machine) :
    PipesMade count machine (openPipes count limits table machine).2.2 := by
  -- The first pipe is made before the others, so theirs are numbered from one behind it.
  induction count generalizing limits table machine with
  | zero => exact ⟨rfl, fun _ less => absurd less (Nat.not_lt_zero _), .refl machine, rfl, rfl⟩
  | succ count ih =>
      have rest := ih (fun number => limits (number + 1))
        (((table.assign machine.streams.length).2.assign (machine.streams.length + 1)).2)
        (machine.addPipe (limits 0)).2
      constructor
      case streams => exact rest.streams.trans (by rw [Machine.length_addPipe]; omega)
      case ends =>
        intro number less
        cases number with
        | zero =>
            obtain ⟨reads, writes⟩ := machine.stream_addPipe (limits 0)
            constructor
            · refine rest.grown.pipeReader ?_ reads
              simp [Machine.length_addPipe, Machine.readEnd]
            · refine rest.grown.pipeWriter ?_ writes
              simp [Machine.length_addPipe, Machine.writeEnd]
        | succ number =>
            have known := rest.ends number (Nat.lt_of_succ_lt_succ less)
            have shifted : (machine.addPipe (limits 0)).2.pipes.length + number =
                machine.pipes.length + (number + 1) := by
              simp only [Machine.addPipe, List.length_append, List.length_singleton]
              omega
            rwa [Machine.readEnd_addPipe, Machine.writeEnd_addPipe, shifted] at known
      case grown => exact (Machine.Extends.addPipe machine (limits 0)).trans rest.grown
      case tree => exact rest.tree
      case nextPid => exact rest.nextPid

/-- What the table `full` has after the pipes of a job have been opened: numbers that were
free before, for the ends of each pipe. -/
structure PipesOpen (count : Nat) (table : Descriptors) (machine : Machine)
    (pipes : List PipeEnds) (full : Descriptors) : Prop where
  length : pipes.length = count
  fresh : ∀ fd ∈ pipes.flatMap PipeEnds.both, table.get? fd = none
  ends : ∀ number pair, pipes[number]? = some pair →
    full.get? pair.reader = some (machine.readEnd number) ∧
      full.get? pair.writer = some (machine.writeEnd number)
  others : ∀ fd, fd ∉ pipes.flatMap PipeEnds.both → full.get? fd = table.get? fd

theorem mem_both_cons {pair : PipeEnds} {pipes : List PipeEnds} {fd : Nat} :
    fd ∈ (pair :: pipes).flatMap PipeEnds.both ↔
      fd = pair.reader ∨ fd = pair.writer ∨ fd ∈ pipes.flatMap PipeEnds.both := by
  simp [PipeEnds.both]

namespace PipesOpen

variable {count index : Nat} {table full : Descriptors} {machine : Machine}
  {pipes : List PipeEnds}

theorem not_mem_of_used (opened : PipesOpen count table machine pipes full) {fd : Nat}
    {handle : Handle} (used : table.get? fd = some handle) :
    fd ∉ pipes.flatMap PipeEnds.both := by
  intro inside
  rw [opened.fresh fd inside] at used
  cases used

theorem full_of_used (opened : PipesOpen count table machine pipes full) {fd : Nat}
    {handle : Handle} (used : table.get? fd = some handle) : full.get? fd = some handle :=
  (opened.others fd (opened.not_mem_of_used used)).trans used

theorem cons (limit : Option Nat)
    (rest : PipesOpen count ((table.assign machine.streams.length).2.assign
      (machine.streams.length + 1)).2 (machine.addPipe limit).2 pipes full) :
    PipesOpen (count + 1) table machine
      (⟨table.lowestFree, (table.assign machine.streams.length).2.lowestFree⟩ :: pipes) full := by
  have look := Descriptors.get?_assign_assign table machine.streams.length
    (machine.streams.length + 1)
  generalize assigned : (table.assign machine.streams.length).2 = half at rest look ⊢
  generalize (half.assign (machine.streams.length + 1)).2 = both at rest look
  have freeHalf := Descriptors.get?_lowestFree half
  rw [← assigned, Descriptors.get?_assign, assigned] at freeHalf
  have distinct : half.lowestFree ≠ table.lowestFree := by
    intro same
    rw [if_pos same] at freeHalf
    cases freeHalf
  rw [if_neg distinct] at freeHalf
  have reader : both.get? table.lowestFree = some machine.streams.length := by
    rw [look, if_pos rfl]
  have writer : both.get? half.lowestFree = some (machine.streams.length + 1) := by
    rw [look, if_neg distinct, if_pos rfl]
  constructor
  case length => rw [List.length_cons, rest.length]
  case fresh =>
    intro fd inside
    rcases mem_both_cons.mp inside with rfl | rfl | later
    · exact Descriptors.get?_lowestFree table
    · exact freeHalf
    · have free := rest.fresh fd later
      rw [look] at free
      split at free
      · cases free
      · split at free
        · cases free
        · exact free
  case ends =>
    intro number pair found
    cases number with
    | zero =>
        cases found
        exact ⟨rest.full_of_used reader, rest.full_of_used writer⟩
    | succ number =>
        rw [← machine.readEnd_addPipe limit, ← machine.writeEnd_addPipe limit]
        exact rest.ends number pair found
  case others =>
    intro fd outside
    rw [mem_both_cons, not_or, not_or] at outside
    rw [rest.others fd outside.2.2, look, if_neg outside.1, if_neg outside.2.1]

theorem get?_closePipes (opened : PipesOpen count table machine pipes full) (fd : Nat) :
    (closePipes pipes full).get? fd = table.get? fd := by
  unfold closePipes
  rw [Descriptors.get?_closeAll]
  split
  · next inside => exact (opened.fresh fd inside).symm
  · next outside => exact opened.others fd outside

theorem exists_pair (opened : PipesOpen count table machine pipes full) {number : Nat}
    (less : number < count) : ∃ pair ∈ pipes, pipes[number]? = some pair := by
  rw [← opened.length] at less
  exact ⟨pipes[number], List.getElem_mem less, List.getElem?_eq_getElem less⟩

theorem ends_fresh (opened : PipesOpen count table machine pipes full) {pair : PipeEnds}
    (inside : pair ∈ pipes) : table.get? pair.reader = none ∧ table.get? pair.writer = none := by
  have known : ∀ fd ∈ pair.both, table.get? fd = none := fun fd here =>
    opened.fresh fd (List.mem_flatMap.mpr ⟨pair, inside, here⟩)
  exact ⟨known pair.reader (by simp [PipeEnds.both]), known pair.writer (by simp [PipeEnds.both])⟩

/-- The table of stage `index` as its input has been joined to the stage before. -/
def fed (pipes : List PipeEnds) (index : Nat) (full : Descriptors) : Descriptors :=
  match index with
  | 0 => full
  | before + 1 =>
      match pipes[before]? with
      | some pair => full.redirect pair.reader standardInput
      | none => full

theorem get?_fed (opened : PipesOpen count table machine pipes full) (inside : index ≤ count)
    (fd : Nat) :
    (fed pipes index full).get? fd =
      if fd = standardInput ∧ 0 < index then some (machine.readEnd (index - 1))
      else full.get? fd := by
  cases index with
  | zero => simp [fed]
  | succ before =>
      obtain ⟨pair, -, found⟩ := opened.exists_pair inside
      simp only [fed, found]
      rw [Descriptors.get?_redirect (opened.ends before pair found).1]
      simp

theorem connect_eq (pipes : List PipeEnds) (index : Nat) (full : Descriptors) :
    connect pipes index full = closePipes pipes (match pipes[index]? with
      | some pair => (fed pipes index full).redirect pair.writer standardOutput
      | none => fed pipes index full) := by
  cases index <;> rfl

theorem get?_joined (opened : PipesOpen count table machine pipes full) (inside : index ≤ count)
    (input : table.get? standardInput ≠ none) (fd : Nat) :
    (match pipes[index]? with
      | some pair => (fed pipes index full).redirect pair.writer standardOutput
      | none => fed pipes index full).get? fd =
      if fd = standardOutput ∧ index < count then some (machine.writeEnd index)
      else (fed pipes index full).get? fd := by
  by_cases less : index < count
  · obtain ⟨pair, here, found⟩ := opened.exists_pair less
    have apart : pair.writer ≠ standardInput := by
      intro same
      exact input (same ▸ (opened.ends_fresh here).2)
    have source : (fed pipes index full).get? pair.writer = some (machine.writeEnd index) := by
      rw [opened.get?_fed inside, if_neg (fun both => apart both.1)]
      exact (opened.ends index pair found).2
    simp only [found, Descriptors.get?_redirect source, less, and_true]
  · have none_left : pipes[index]? = none :=
      List.getElem?_eq_none (by rw [opened.length]; exact Nat.le_of_not_lt less)
    simp only [none_left, less, and_false, if_false]

/-- A stage has the end that feeds it as its input and the end it fills as its output. For
the rest its table is the shell's. -/
theorem get?_connect (opened : PipesOpen count table machine pipes full) (inside : index ≤ count)
    (input : table.get? standardInput ≠ none) (output : table.get? standardOutput ≠ none)
    (fd : Nat) :
    (connect pipes index full).get? fd =
      if fd = standardInput ∧ 0 < index then some (machine.readEnd (index - 1))
      else if fd = standardOutput ∧ index < count then some (machine.writeEnd index)
      else table.get? fd := by
  rw [connect_eq]
  unfold closePipes
  rw [Descriptors.get?_closeAll, opened.get?_joined inside input, opened.get?_fed inside]
  -- An end of a pipe has a number that the shell left free, so it is neither the input nor
  -- the output, and closing it gives the number back.
  by_cases pipeEnd : fd ∈ pipes.flatMap PipeEnds.both
  · have free := opened.fresh fd pipeEnd
    have notInput : fd ≠ standardInput := fun same => input (same ▸ free)
    have notOutput : fd ≠ standardOutput := fun same => output (same ▸ free)
    rw [if_pos pipeEnd, if_neg (fun both => notInput both.1), if_neg (fun both => notOutput both.1),
      free]
  · rw [if_neg pipeEnd, opened.others fd pipeEnd]
    by_cases isInput : fd = standardInput
    · subst isInput
      simp [standardInput, standardOutput]
    · simp [isInput]

theorem adds_full (opened : PipesOpen count table machine pipes full) :
    table.Adds (machine.PipeHandle count) full := by
  intro fd handle found
  by_cases pipeEnd : fd ∈ pipes.flatMap PipeEnds.both
  · right
    obtain ⟨pair, here, which⟩ := List.mem_flatMap.mp pipeEnd
    obtain ⟨number, less, hit⟩ := List.getElem_of_mem here
    have known := opened.ends number pair (List.getElem?_eq_some_iff.mpr ⟨less, hit⟩)
    rw [opened.length] at less
    rcases List.mem_pair.mp which with rfl | rfl
    · exact ⟨number, less, Or.inl (Option.some.inj (found.symm.trans known.1))⟩
    · exact ⟨number, less, Or.inr (Option.some.inj (found.symm.trans known.2))⟩
  · left
    rwa [opened.others fd pipeEnd] at found

theorem adds_connect (opened : PipesOpen count table machine pipes full) (index : Nat) :
    table.Adds (machine.PipeHandle count) (connect pipes index full) := by
  have plugged : table.Adds (machine.PipeHandle count) (fed pipes index full) := by
    unfold fed
    split
    · exact opened.adds_full
    · split
      · next pair found =>
          exact opened.adds_full.redirect (opened.ends_fresh (List.mem_of_getElem? found)).1 _
      · exact opened.adds_full
  rw [connect_eq]
  refine Descriptors.Adds.closeAll ?_ _
  split
  · next pair found =>
      exact plugged.redirect (opened.ends_fresh (List.mem_of_getElem? found)).2 _
  · exact plugged

end PipesOpen

theorem openPipes_open (count : Nat) (limits : Limits) (table : Descriptors) (machine : Machine) :
    PipesOpen count table machine (openPipes count limits table machine).1
      (openPipes count limits table machine).2.1 := by
  induction count generalizing limits table machine with
  | zero => exact ⟨rfl, by simp [openPipes], by simp [openPipes], fun _ _ => rfl⟩
  | succ count ih => exact (ih _ _ (machine.addPipe (limits 0)).2).cons (limits 0)

end CommandShell
