import CommandShell.Proofs.Builtin.Effects
import CommandShell.Proofs.Job.InPlace
import CommandShell.Proofs.Job.Stages

/-!
The descriptors of the shell while a command runs in it. A target takes the place of a standard
stream, whose old stream is kept under a number that was free. All other numbers stand for what
they stood for, and afterwards all of them do. So a command writes where the shell writes, or
to the target of its own stage.
-/
namespace CommandShell

namespace Descriptors

/-- Under each number both tables have the same. -/
def Matches (left right : Descriptors) : Prop :=
  ∀ fd, left.get? fd = right.get? fd

/-- `table` is `base` with another stream under the number `target`, if there is one, and what
is needed to take that back. -/
inductive Detours (target : Nat) (base : Descriptors) :
    Option Handle → List Diverted → Descriptors → Prop
  | straight : Detours target base none [] base
  | around (handle old : Handle) (copy : Nat) (table : Descriptors)
      (used : base.get? target = some old) (free : base.get? copy = none)
      (looks : ∀ fd, table.get? fd = if fd = target then some handle
        else if fd = copy then some old else base.get? fd) :
      Detours target base (some handle) [⟨target, copy⟩] table

/-- The new stream gets a number, the old one a second number, and then the first of the two
is given up. -/
theorem divert_eq {base : Descriptors} {target : Nat} {old : Handle}
    (used : base.get? target = some old) (handle : Handle) :
    let fed := (base.assign handle).2
    base.divert handle target = (⟨target, fed.lowestFree⟩,
      ((fed.assign old).2.redirect base.lowestFree target).close base.lowestFree) := by
  intro fed
  have apart : target ≠ base.lowestFree := by
    rintro rfl
    cases (get?_lowestFree base).symm.trans used
  have stays : fed.get? target = some old := by rw [get?_assign, if_neg apart, used]
  have copied : fed.duplicate target = fed.assign old := by rw [duplicate, stays]
  have steps : base.divert handle target = (⟨target, (fed.duplicate target).1⟩,
      ((fed.duplicate target).2.redirect base.lowestFree target).close base.lowestFree) := rfl
  rw [steps, copied]
  rfl

theorem divert_detours {base : Descriptors} {target : Nat} (used : base.get? target ≠ none)
    (handle : Handle) :
    Detours target base (some handle) [(base.divert handle target).1]
      (base.divert handle target).2 := by
  obtain ⟨old, known⟩ := Option.ne_none_iff_exists'.mp used
  have unused := get?_lowestFree base
  have looks := get?_assign base handle
  rw [divert_eq known]
  generalize (base.assign handle).2 = fed at looks
  have apart : fed.lowestFree ≠ base.lowestFree :=
    lowestFree_ne (by rw [looks, if_pos rfl]; exact Option.some_ne_none handle)
  have free := get?_lowestFree fed
  rw [looks, if_neg apart] at free
  have opened : (fed.assign old).2.get? base.lowestFree = some handle := by
    rw [get?_assign, if_neg apart.symm, looks, if_pos rfl]
  refine .around handle old _ _ known free fun fd => ?_
  rw [get?_close, get?_redirect opened, get?_assign, looks]
  by_cases own : fd = base.lowestFree
  · subst own
    rw [if_pos rfl, if_neg (lowestFree_ne used), if_neg apart.symm, unused]
  · simp only [own, if_false]

namespace Detours

variable {target : Nat} {base table : Descriptors} {handle : Option Handle}
  {diverted : List Diverted}

theorem others (detours : Detours target base handle diverted table) {fd : Nat}
    (used : base.get? fd ≠ none) (apart : handle ≠ none → fd ≠ target) :
    table.get? fd = base.get? fd := by
  cases detours with
  | straight => rfl
  | around handle old copy table known free looks =>
      rw [looks, if_neg (apart (Option.some_ne_none handle)), if_neg]
      rintro rfl
      exact used free

theorem moved (detours : Detours target base handle diverted table) {own : Handle}
    (given : handle = some own) : table.get? target = some own := by
  cases detours with
  | straight => cases given
  | around handle old copy table known free looks =>
      cases given
      rw [looks, if_pos rfl]

theorem still (detours : Detours target base handle diverted table) {fd : Nat}
    (used : base.get? fd ≠ none) : table.get? fd ≠ none := by
  cases detours with
  | straight => exact used
  | around handle old copy table known free looks =>
      rw [looks]
      split
      · exact Option.some_ne_none handle
      · split
        · exact Option.some_ne_none old
        · exact used

theorem reach (detours : Detours target base handle diverted table) {fd : Nat} {own : Handle}
    (found : table.get? fd = some own) : (∃ old, base.get? old = some own) ∨ handle = some own := by
  cases detours with
  | straight => exact .inl ⟨fd, found⟩
  | around handle old copy table known free looks =>
      rw [looks] at found
      split at found
      · exact .inr found
      · split at found
        · exact .inl ⟨target, known.trans found⟩
        · exact .inl ⟨fd, found⟩

theorem restored (detours : Detours target base handle diverted table) {later : Descriptors}
    (unmoved : later.Matches table) : (later.restoreAll diverted).Matches base := by
  cases detours with
  | straight => exact unmoved
  | around handle old copy table known free looks =>
      intro fd
      have kept : later.get? copy = some old := by
        rw [unmoved, looks, if_pos rfl, if_neg]
        rintro rfl
        rw [known] at free
        cases free
      change ((later.redirect copy target).close copy).get? fd = base.get? fd
      rw [get?_close, get?_redirect kept, unmoved, looks]
      by_cases here : fd = copy
      · rw [if_pos here, here, free]
      · rw [if_neg here, if_neg here]
        by_cases meant : fd = target
        · rw [if_pos meant, meant, known]
        · rw [if_neg meant, if_neg meant]

end Detours

end Descriptors

/-- What pointing a standard stream at its target comes to. No stream that was there has moved,
and the new one is behind all of them. -/
structure Diverts (fd : Nat) (base : Descriptors) (target : Option Text)
    (opens : Path → Handle → Prop) (machine : Machine) (handle : Option Handle)
    (diverted : List Diverted) (table : Descriptors) (left : Machine) : Prop where
  detours : Descriptors.Detours fd base handle diverted table
  grown : Machine.Extends machine left
  kept : ∀ other < machine.streams.length, left.stream other = machine.stream other
  pipes : left.pipes = machine.pipes
  untargeted : target = none → handle = none
  opened : ∀ path ∈ target, ∃ own ∈ handle, opens (encode path) own
  fresh : ∀ own ∈ handle, machine.streams.length ≤ own ∧ own < left.streams.length

namespace Diverts

variable {fd : Nat} {base table : Descriptors} {target : Option Text} {opens : Path → Handle → Prop}
  {machine left : Machine} {handle : Option Handle} {diverted : List Diverted}

theorem straight : Diverts fd base none opens machine none [] base machine where
  detours := .straight
  grown := .refl machine
  kept _ _ := rfl
  pipes := rfl
  untargeted _ := rfl
  opened _ inside := nomatch inside
  fresh _ inside := nomatch inside

theorem around (used : base.get? fd ≠ none) {own : Handle} (new : Machine.Opens machine own left)
    (pipes : left.pipes = machine.pipes) {path : Text} (opened : opens (encode path) own) :
    Diverts fd base (some path) opens machine (some own) [(base.divert own fd).1]
      (base.divert own fd).2 left where
  detours := Descriptors.divert_detours used own
  grown := new.grown
  kept := new.kept
  pipes := pipes
  untargeted contra := nomatch contra
  opened := by
    rintro _ ⟨⟩
    exact ⟨own, rfl, opened⟩
  fresh := by
    rintro _ ⟨⟩
    rw [new.handle_eq, new.length]
    exact ⟨Nat.le_refl _, Nat.lt_succ_self _⟩

theorem fits (diverts : Diverts fd base target opens machine handle diverted table left)
    (known : ∀ number own, base.get? number = some own → own < machine.streams.length)
    (number : Nat) (own : Handle) (found : table.get? number = some own) :
    own < left.streams.length := by
  rcases diverts.detours.reach found with ⟨old, had⟩ | new
  · exact Nat.lt_of_lt_of_le (known old own had) diverts.grown.length
  · exact (diverts.fresh own new).2

theorem others (diverts : Diverts fd base target opens machine handle diverted table left)
    {number : Nat} (used : base.get? number ≠ none) (apart : number = fd → target = none) :
    table.get? number = base.get? number := by
  refine diverts.detours.others used ?_
  rintro given rfl
  exact given (diverts.untargeted (apart rfl))

end Diverts

namespace Shell

/-- The standard streams are open, and everything open is a stream of the machine. -/
structure Ready (shell : Shell) (machine : Machine) : Prop where
  fits : shell.Fits machine
  standard : ∀ fd ≤ standardError, shell.process.descriptors.get? fd ≠ none

/-- The shell and the machine while a stage runs in the shell. The targets are open as streams
that were not there before, and what was open stands where it stood. -/
structure Behind (shell : Shell) (stage : Stage) (machine : Machine) (table : Descriptors)
    (left : Machine) : Prop where
  input : ∀ path ∈ stage.input, ∃ handle, table.get? standardInput = some handle ∧
    machine.streams.length ≤ handle ∧ left.ReadsAt machine.tree shell.cwd (encode path) handle
  output : ∀ path ∈ stage.output, ∃ handle, table.get? standardOutput = some handle ∧
    machine.streams.length ≤ handle ∧ left.WritesAt machine.tree shell.cwd (encode path) handle ∧
      table.get? standardInput ≠ some handle
  others : ∀ fd, shell.process.descriptors.get? fd ≠ none →
    (fd = standardInput → stage.input = none) → (fd = standardOutput → stage.output = none) →
      table.get? fd = shell.process.descriptors.get? fd
  fits : (shell.withDescriptors table).Fits left
  opened : Opened stage.output shell.cwd machine left
  grown : Machine.Extends machine left
  kept : ∀ handle < machine.streams.length, left.stream handle = machine.stream handle
  pipes : left.pipes = machine.pipes

theorem Behind.outputs {shell : Shell} {stage : Stage} {machine left : Machine}
    {table : Descriptors} (behind : shell.Behind stage machine table left)
    (ready : shell.Ready machine) {fd : Nat} {handle : Handle}
    (shown : fd = standardOutput ∨ fd = standardError) (found : table.get? fd = some handle) :
    shell.process.descriptors.get? fd = some handle ∨
      ∃ path ∈ stage.output, left.WritesAt machine.tree shell.cwd (encode path) handle := by
  have low : fd ≤ standardError := by rcases shown with rfl | rfl <;> decide
  have unread : fd = standardInput → stage.input = none := by
    rintro rfl
    rcases shown with contra | contra <;> cases contra
  by_cases meant : fd = standardOutput → stage.output = none
  · exact .inl ((behind.others fd (ready.standard fd low) unread meant).symm.trans found)
  · obtain ⟨rfl, given⟩ := Classical.not_imp.mp meant
    obtain ⟨path, target⟩ := Option.ne_none_iff_exists'.mp given
    obtain ⟨own, known, -, writes, -⟩ := behind.output path target
    cases found.symm.trans known
    exact .inr ⟨path, target, writes⟩

/-- What running a command in a shell with its streams open comes to. In the end the table is
as it was. -/
inductive RunsBehind (shell : Shell) (stage : Stage) (line : Text) (machine : Machine) :
    Except Trouble Unit × Shell × Machine → Prop
  | unread (path : Text) (failure : Failure) (target : stage.input = some path)
      (denied : machine.tree.open? shell.cwd (encode path) = .error failure) :
      RunsBehind shell stage line machine (.error (.redirect path failure), shell, machine)
  | unwritten (path : Text) (failure : Failure) (table : Descriptors) (fed : Machine)
      (readable : machine.tree.Readable shell.cwd stage.input) (target : stage.output = some path)
      (denied : machine.tree.writeTarget shell.cwd (encode path) = .error failure)
      (same : table.Matches shell.process.descriptors) (tree : fed.tree = machine.tree)
      (grown : Machine.Extends machine fed)
      (kept : ∀ handle < machine.streams.length, fed.stream handle = machine.stream handle)
      (pipes : fed.pipes = machine.pipes) :
      RunsBehind shell stage line machine
        (.error (.redirect path failure), shell.withDescriptors table, fed)
  | ran (table back : Descriptors) (left : Machine) (done : Dispatched)
      (granted : shell.Opens stage machine) (behind : shell.Behind stage machine table left)
      (runs : (shell.withDescriptors table).dispatch stage.argv line left = done)
      (same : back.Matches shell.process.descriptors) :
      RunsBehind shell stage line machine
        (done.result.map fun _ => (), done.shell.withDescriptors back, done.machine)

variable {shell after : Shell} {target : Option Text} {machine left : Machine}
  {diverted : List Diverted}

theorem divertInput_diverts (used : shell.process.descriptors.get? standardInput ≠ none)
    (points : shell.Points standardInput target (machine.openForReading shell.cwd) machine
      diverted after left) :
    ∃ handle table, after = shell.withDescriptors table ∧
      Diverts standardInput shell.process.descriptors target (left.ReadsAt machine.tree shell.cwd)
        machine handle diverted table left := by
  cases points with
  | straight untargeted =>
      subst untargeted
      exact ⟨none, _, rfl, .straight⟩
  | around path handle left given opened =>
      subst given
      obtain ⟨opens, reads, -⟩ := Machine.openForReading_ok opened
      obtain ⟨stream, same⟩ := Machine.openForReading_machine opened
      exact ⟨some handle, _, rfl, .around used opens (by rw [same]; rfl) reads⟩

theorem divertOutput_diverts (used : shell.process.descriptors.get? standardOutput ≠ none)
    (points : shell.Points standardOutput target (machine.openForWriting shell.cwd) machine
      diverted after left) :
    ∃ handle table, after = shell.withDescriptors table ∧
      Diverts standardOutput shell.process.descriptors target
        (left.WritesAt machine.tree shell.cwd) machine handle diverted table left := by
  cases points with
  | straight untargeted =>
      subst untargeted
      exact ⟨none, _, rfl, .straight⟩
  | around path handle left given opened =>
      subst given
      obtain ⟨opens, writes, -⟩ := Machine.openForWriting_ok opened
      obtain ⟨tree, stream, -, same⟩ := Machine.openForWriting_machine opened
      exact ⟨some handle, _, rfl, .around used opens (by rw [same]; rfl) writes⟩

theorem run_descriptors (shell : Shell) (arguments : List Text) (line : Text) (machine : Machine)
    (command : Builtin) :
    (command.run shell arguments line machine).shell.process.descriptors =
      shell.process.descriptors := by
  rw [(Builtin.run_leaves shell arguments line machine command).process]

theorem dispatch_descriptors (shell : Shell) (argv : List Text) (line : Text) (machine : Machine) :
    (shell.dispatch argv line machine).shell.process.descriptors = shell.process.descriptors := by
  unfold dispatch
  split
  · rfl
  · exact run_descriptors shell _ line machine _

theorem restoreAll_append (table : Descriptors) (latest earlier : List Diverted) :
    table.restoreAll (latest ++ earlier) = (table.restoreAll latest).restoreAll earlier :=
  List.foldl_append

/-- Both targets are open, the input first. Each number that the output needs was in use before,
so that the input has not moved it. -/
theorem behind_of_diverted (ready : shell.Ready machine) {stage : Stage}
    {input output : List Diverted} {fed : Machine} {last : Shell}
    (fedIn : shell.divertInput stage.input machine = .ok (input, after, fed))
    (fedOut : after.divertOutput stage.output fed = .ok (output, last, left)) :
    ∃ table, last = shell.withDescriptors table ∧ shell.Opens stage machine ∧
      shell.Behind stage machine table left ∧
      (table.restoreAll (output ++ input)).Matches shell.process.descriptors := by
  obtain ⟨readable, openedIn, points⟩ := divertInput_ok fedIn
  obtain ⟨first, between, rfl, inward⟩ :=
    divertInput_diverts (ready.standard _ (by decide)) points
  have sameTree : fed.tree = machine.tree := openedIn.kept rfl
  have still : ∀ fd, shell.process.descriptors.get? fd ≠ none → between.get? fd ≠ none :=
    fun fd used => inward.detours.still used
  obtain ⟨writable, openedOut, points⟩ := divertOutput_ok fedOut
  obtain ⟨second, table, rfl, outward⟩ :=
    divertOutput_diverts (still _ (ready.standard _ (by decide))) points
  have inputStays : table.get? standardInput = between.get? standardInput :=
    outward.others (still _ (ready.standard _ (by decide))) fun contra => nomatch contra
  refine ⟨table, rfl, ⟨readable, sameTree ▸ writable⟩, ?_, ?_⟩
  · constructor
    case input =>
      intro path target
      obtain ⟨own, given, location, node, found, stream⟩ := inward.opened path target
      obtain ⟨late, known⟩ := inward.fresh own given
      refine ⟨own, inputStays.trans (inward.detours.moved given), late, location, node, found, ?_⟩
      rw [outward.kept own known]
      exact stream
    case output =>
      intro path target
      obtain ⟨own, given, writes⟩ := outward.opened path target
      have late := (outward.fresh own given).1
      refine ⟨own, outward.detours.moved given, Nat.le_trans inward.grown.length late,
        sameTree ▸ writes, ?_⟩
      rw [inputStays]
      exact fun here => absurd (inward.fits ready.fits _ own here) (Nat.not_lt_of_le late)
    case others =>
      intro fd used notInput notOutput
      exact (outward.others (still fd used) notOutput).trans (inward.others used notInput)
    case fits => exact outward.fits (inward.fits ready.fits)
    case opened => exact openedIn.after_input openedOut
    case grown => exact inward.grown.trans outward.grown
    case kept =>
      intro handle old
      rw [outward.kept handle (Nat.lt_of_lt_of_le old inward.grown.length), inward.kept handle old]
    case pipes => exact outward.pipes.trans inward.pipes
  · rw [restoreAll_append]
    exact inward.detours.restored (outward.detours.restored fun _ => rfl)

theorem runInPlace_behind (ready : shell.Ready machine) (stage : Stage) (line : Text) :
    shell.RunsBehind stage line machine (shell.runInPlace stage line machine) := by
  unfold runInPlace
  cases fedIn : shell.divertInput stage.input machine with
  | error trouble =>
      obtain ⟨path, failure, target, rfl, denied⟩ := divertInput_error fedIn
      exact .unread path failure target denied
  | ok fed =>
      obtain ⟨input, after, fed⟩ := fed
      simp only
      cases fedOut : after.divertOutput stage.output fed with
      | error trouble =>
          obtain ⟨readable, openedIn, points⟩ := divertInput_ok fedIn
          obtain ⟨first, between, rfl, inward⟩ :=
            divertInput_diverts (ready.standard _ (by decide)) points
          obtain ⟨path, failure, target, rfl, denied⟩ := divertOutput_error fedOut
          have sameTree : fed.tree = machine.tree := openedIn.kept rfl
          exact .unwritten path failure _ fed readable target (sameTree ▸ denied)
            (inward.detours.restored fun _ => rfl) sameTree inward.grown inward.kept inward.pipes
      | ok opened =>
          obtain ⟨output, last, left⟩ := opened
          obtain ⟨table, rfl, granted, behind, back⟩ := behind_of_diverted ready fedIn fedOut
          refine .ran table _ left _ granted behind rfl ?_
          rw [dispatch_descriptors]
          exact back

end Shell

end CommandShell
