import CommandShell.Proofs.Session.Execution

/-!
When the loop stops. The end of the input and a failing source stop it, and so does a line that
is read as the command to leave, alone in its pipeline and with targets that can be opened.
Every other turn goes on in a shell that does not want to stop, and a line that
is no pipeline has done nothing but get itself remembered.
-/
namespace CommandShell

variable {σ : Type}

/-- The source reads and writes on the shell's own streams and does nothing else. -/
def LineSource.Talks (source : LineSource σ) : Prop :=
  ∀ (prompt : Text) (shell : Shell) (machine : Machine) (state : σ),
    shell.process.Talks machine (source.next prompt shell machine state).machine

theorem Script.source_talks : Script.source.Talks := by
  intro prompt shell machine state
  have same : (next prompt shell machine state).machine = machine := by
    unfold next
    split
    · rfl
    · split <;> rfl
  change shell.process.Talks machine (next prompt shell machine state).machine
  rw [same]
  exact .silent

theorem InputStream.source_talks : InputStream.source.Talks :=
  fun _ _ _ _ => .speaks standardOutput (Or.inl rfl) _ .silent

theorem continueCommand_talks {source : LineSource σ} (talks : source.Talks) (shell : Shell)
    (text : Text) (machine : Machine) (state : σ) :
    shell.process.Talks machine (continueCommand source shell text machine state).machine := by
  fun_induction continueCommand source shell text machine state with
  | case1 => exact talks _ shell _ _
  | case2 => exact talks _ shell _ _
  | case3 => exact talks _ shell _ _
  | case4 text machine state _ kept answer line _ _ _ ih =>
      have asked : shell.process.Talks machine answer.machine := talks _ shell _ _
      exact asked.trans ih
  | case5 => exact .silent

theorem readCommand_talks {source : LineSource σ} (talks : source.Talks) (shell : Shell)
    (machine : Machine) (state : σ) :
    shell.process.Talks machine (readCommand source shell machine state).machine := by
  have asked := talks (shell.prompt machine) shell machine state
  unfold readCommand
  simp only
  split
  · exact asked
  · exact asked
  · exact asked.trans (continueCommand_talks talks shell _ _ _)

namespace Shell

/-- The line is read as the command to leave, alone in its pipeline, and its targets can be
opened. -/
def Exits (shell : Shell) (line : Text) (machine : Machine) : Prop :=
  ∃ stage background, shell.reading line machine = .ok ⟨[stage], background⟩ ∧
    stage.argv.head? = some "exit".toList ∧ shell.Opens stage machine

/-- Whether the loop has to stop at what was read. -/
def StopsAt (shell : Shell) (machine : Machine) : Except Trouble (Option Text) → Prop
  | .ok none => True
  | .error (.commandTooLong _) => False
  | .error _ => True
  | .ok (some line) =>
      let after := shell.remembering line machine
      after.1.Exits line after.2

/-- The shell's output or its error stream is the file. -/
def Shows (shell : Shell) (machine : Machine) (location : Location) : Prop :=
  ∃ fd handle, (fd = standardOutput ∨ fd = standardError) ∧
    shell.process.descriptors.get? fd = some handle ∧
      (machine.stream handle).location? = some location

/-- The shell has remembered the line and has said something, since the machine was `before`,
and that is all. It had come to `met` when the line was remembered. -/
structure OnlyRemembers (shell : Shell) (line : Text) (before met : Machine) (turn : Turn σ) :
    Prop where
  proceeds : turn.flow = .proceed
  memory : turn.shell = { shell with
    history := (shell.remembering line met).1.history
    process := { shell.process with ahead := turn.shell.process.ahead } }
  pids : turn.machine.nextPid = before.nextPid
  files : shell.Fits before → ∀ location,
    turn.machine.tree.node? location ≠ before.tree.node? location →
      shell.historyAt? met = some location ∨ shell.Shows before location

theorem name_eq_exit {stage : Stage} :
    stage.name = Builtin.name .leave ↔ stage.argv.head? = some "exit".toList := by
  unfold Stage.name
  cases stage.argv with
  | nil =>
      constructor
      · intro contra
        cases contra
      · intro contra
        cases contra
  | cons first rest => exact (Option.some_inj (a := first)).symm

variable {shell : Shell} {line : Text} {machine : Machine}

/-- Carrying out a line sets the wish to stop exactly when it is read as the command to
leave. -/
theorem Carried.exiting_iff (going : shell.exiting = false) {left : Shell × Machine}
    (carried : shell.Carried line machine left) :
    left.1.exiting = true ↔ shell.Exits line machine := by
  cases carried with
  | unread cause refused =>
      rw [going]
      refine iff_of_false Bool.false_ne_true ?_
      rintro ⟨stage, background, read, -⟩
      cases refused.symm.trans read
  | apart pipeline table left read foreign =>
      refine iff_of_false (Bool.eq_false_iff.mp going) ?_
      rintro ⟨stage, background, again, exit, -⟩
      cases read.symm.trans again
      have own : ownStage? ⟨[stage], background⟩ = some stage :=
        ownStage?_eq_some.mpr ⟨rfl, .leave, Builtin.ofName?_eq_some.mpr (name_eq_exit.mpr exit), rfl⟩
      cases foreign.symm.trans own
  | own stage background command done read named mutates runs =>
      have only : shell.Exits line machine ↔ command = .leave ∧ shell.Opens stage machine := by
        rw [Builtin.ofName?_eq_some] at named
        constructor
        · rintro ⟨other, _, again, exit, opens⟩
          cases read.symm.trans again
          rw [← name_eq_exit, named] at exit
          exact ⟨by cases command <;> first | rfl | exact absurd exit (by decide), opens⟩
        · rintro ⟨rfl, opens⟩
          exact ⟨stage, background, read, name_eq_exit.mp named, opens⟩
      rw [only]
      cases runs with
      | refused trouble table left denied opened =>
          exact iff_of_false (Bool.eq_false_iff.mp going) fun both => denied both.2
      | ran table back left done granted opened runs =>
          have leaves := Builtin.run_leaves (shell.withDescriptors table) (stage.argv.drop 1) line
            left command
          have exiting : done.shell.exiting = (shell.exiting || command == .leave) := by
            rw [← runs]
            exact leaves.exiting
          change done.shell.exiting = true ↔ _
          rw [exiting, going, Bool.false_or, beq_iff_eq]
          exact (and_iff_left granted).symm

theorem withAhead_exits (shell : Shell) (ahead : Bytes) (line : Text) (machine : Machine) :
    let after := shell.remembering line machine
    let ahead := (shell.withAhead ahead).remembering line machine
    ahead.1.Exits line ahead.2 ↔ after.1.Exits line after.2 := by
  intro after ahead
  constructor
  · rintro ⟨stage, background, read, exit, opens⟩
    exact ⟨stage, background, read, exit, opens.input, opens.output⟩
  · rintro ⟨stage, background, read, exit, opens⟩
    exact ⟨stage, background, read, exit, opens.input, opens.output⟩

theorem Carried.of_unread {cause : SyntaxTrouble} (unread : shell.reading line machine = .error cause)
    {left : Shell × Machine} (carried : shell.Carried line machine left) :
    left = (shell, shell.process.complain (Trouble.ungrammatical cause).notice machine) := by
  cases carried with
  | unread other refused =>
      cases unread.symm.trans refused
      rfl
  | own stage background command done read => cases unread.symm.trans read
  | apart pipeline table left read => cases unread.symm.trans read

end Shell

variable {loader : Loader} {source : LineSource σ} {shell : Shell} {machine : Machine} {state : σ}

theorem step_line {line : Text}
    (command : (readCommand source shell machine state).command = .ok (some line)) :
    let read := readCommand source shell machine state
    let left := (shell.withAhead (source.ahead read.rest)).execute loader line read.machine
    step loader source shell machine state =
      ⟨if left.1.exiting then .stop else .proceed, left.1, left.2, read.rest⟩ := by
  simp only [step, command]

theorem step_flow (going : shell.exiting = false) :
    let read := readCommand source shell machine state
    let turn := step loader source shell machine state
    (turn.flow = .stop ↔ shell.StopsAt read.machine read.command) ∧
      (turn.flow = .proceed → turn.shell.exiting = false) := by
  intro read turn
  have apart : Flow.proceed ≠ .stop := by decide
  cases command : read.command with
  | error trouble =>
      have failed : (readCommand source shell machine state).command = .error trouble := command
      cases trouble with
      | commandTooLong limit =>
          have done : turn.flow = .proceed ∧ turn.shell = shell := by
            simp only [turn, step, failed, and_self]
          rw [done.1, done.2]
          exact ⟨iff_of_false apart id, fun _ => going⟩
      | _ =>
          have done : turn.flow = .stop := by simp only [turn, step, failed]
          rw [done]
          exact ⟨iff_of_true rfl trivial, fun contra => absurd contra.symm apart⟩
  | ok found =>
      cases found with
      | none =>
          have ended : (readCommand source shell machine state).command = .ok none := command
          have done : turn.flow = .stop := by simp only [turn, step, ended]
          rw [done]
          exact ⟨iff_of_true rfl trivial, fun contra => absurd contra.symm apart⟩
      | some line =>
          let ahead := shell.withAhead (source.ahead read.rest)
          have carried := ahead.execute_carried loader line read.machine
          have still : (ahead.remembering line read.machine).1.exiting = false := going
          have exits := (carried.exiting_iff still).trans (shell.withAhead_exits _ line read.machine)
          have done : turn = ⟨if (ahead.execute loader line read.machine).1.exiting then .stop
            else .proceed, _, _, _⟩ := step_line command
          rw [done]
          cases flag : (ahead.execute loader line read.machine).1.exiting with
          | true => exact ⟨iff_of_true rfl (exits.mp flag), fun contra => absurd contra.symm apart⟩
          | false =>
              refine ⟨iff_of_false apart fun stops => ?_, fun _ => rfl⟩
              rw [exits.mpr stops] at flag
              cases flag

theorem step_unread {line : Text} {cause : SyntaxTrouble} {before : Machine}
    (going : shell.exiting = false)
    (command : (readCommand source shell machine state).command = .ok (some line))
    (talks : shell.process.Talks before (readCommand source shell machine state).machine) :
    let met := (readCommand source shell machine state).machine
    let after := shell.remembering line met
    after.1.reading line after.2 = .error cause →
      shell.OnlyRemembers line before met (step loader source shell machine state) := by
  intro met after unread
  let ahead := shell.withAhead (source.ahead (readCommand source shell machine state).rest)
  let same := ahead.remembering line met
  have refused : same.1.reading line same.2 = .error cause := unread
  have left := (ahead.execute_carried loader line met).of_unread refused
  have done : step loader source shell machine state =
      ⟨if (ahead.execute loader line met).1.exiting then .stop else .proceed, _, _, _⟩ :=
    step_line command
  have still : same.1.exiting = false := going
  rw [left, still] at done
  rw [done]
  have said : same.1.process.Talks same.2
      (same.1.process.complain (Trouble.ungrammatical cause).notice same.2) :=
    Process.Talks.silent.complains _
  constructor
  case proceeds => rfl
  case memory => rfl
  case pids => exact said.nextPid.trans talks.nextPid
  case files =>
    intro fits location changed
    by_contra neither
    rw [not_or] at neither
    have hidden : ∀ fd handle, fd = standardOutput ∨ fd = standardError →
        shell.process.descriptors.get? fd = some handle → handle < before.streams.length ∧
          (before.stream handle).location? ≠ some location :=
      fun fd handle shown found =>
        ⟨fits fd handle found, fun here => neither.2 ⟨fd, handle, shown, found, here⟩⟩
    -- The complaint goes to the streams that were there before the command was read.
    have complained := said.elsewhere fun fd handle shown found => by
      obtain ⟨old, apart⟩ := hidden fd handle shown found
      exact ⟨Nat.lt_of_lt_of_le old talks.grown.length, talks.grown.location? old ▸ apart⟩
    have remembered := (shell.remembering_remembers line met).elsewhere neither.1
    have read := talks.elsewhere hidden
    exact changed (complained.trans (remembered.trans read))

/-- A turn stops the loop at the end of the input, at a failing source and at the command to
leave, and at nothing else. A line that is no pipeline leaves nothing but its trace in the
history and what the shell says. -/
theorem step_stops_iff (loader : Loader) (source : LineSource σ) (shell : Shell)
    (machine : Machine) (state : σ) (going : shell.exiting = false) :
    let read := readCommand source shell machine state
    let turn := step loader source shell machine state
    (turn.flow = .stop ↔ shell.StopsAt read.machine read.command) ∧
      (turn.flow = .proceed → turn.shell.exiting = false) ∧
      ∀ line cause, read.command = .ok (some line) →
        (shell.remembering line read.machine).1.reading line
            (shell.remembering line read.machine).2 = .error cause →
          shell.OnlyRemembers line read.machine read.machine turn ∧
            (source.Talks → shell.OnlyRemembers line machine read.machine turn) := by
  intro read turn
  obtain ⟨stops, goesOn⟩ := step_flow going
  refine ⟨stops, goesOn, ?_⟩
  intro line cause command unread
  constructor
  · exact step_unread going command .silent unread
  · intro talks
    exact step_unread going command (readCommand_talks talks shell machine state) unread

theorem readCommand_whole {line : Text}
    (answered : (source.next (shell.prompt machine) shell machine state).line = .ok (some line))
    (ends : line.getLast? ≠ some backslash) :
    let answer := source.next (shell.prompt machine) shell machine state
    readCommand source shell machine state = ⟨.ok (some line), answer.rest, answer.machine⟩ := by
  simp only [readCommand, answered]
  rw [continueCommand, if_neg ends]

/-- An alias for the command to leave stops the loop, and a line that ends in a bar does not. -/
theorem alias_of_exit_stops :
    let scope := JobScope.plain .idle .empty []
    let shell := { scope.shell with aliases := ⟨⟨[⟨"bye".toList, "exit > log".toList⟩], 8⟩, none⟩ }
    shell.exiting = false ∧
      (step .idle Script.source shell scope.machine ⟨["bye".toList], none, []⟩).flow = .stop ∧
        shell.OnlyRemembers "ls |".toList scope.machine scope.machine
          (step .idle Script.source shell scope.machine ⟨["ls |".toList], none, []⟩) := by
  intro scope shell
  have stops := step_stops_iff .idle Script.source shell scope.machine
    ⟨["bye".toList], none, []⟩ rfl
  have goesOn := step_stops_iff .idle Script.source shell scope.machine
    ⟨["ls |".toList], none, []⟩ rfl
  have first : readCommand Script.source shell scope.machine ⟨["bye".toList], none, []⟩ =
      ⟨.ok (some "bye".toList), _, scope.machine⟩ := readCommand_whole rfl (by decide)
  have second : readCommand Script.source shell scope.machine ⟨["ls |".toList], none, []⟩ =
      ⟨.ok (some "ls |".toList), _, scope.machine⟩ := readCommand_whole rfl (by decide)
  have exits : (shell.remembering "bye".toList scope.machine).1.Exits "bye".toList
      (shell.remembering "bye".toList scope.machine).2 := by
    refine ⟨⟨["exit".toList], none, some "log".toList⟩, false, rfl, rfl, granted_none _, ?_⟩
    rintro _ ⟨⟩
    have walked : FileTree.empty.walk .write mostLinks [] [encode "log".toList] =
        .ok (.absent [] (encode "log".toList)) := by
      rw [FileTree.walk]
      rfl
    exact ⟨_, FileTree.writeTarget_eq_ok.mpr
      ⟨FileTree.arrive_eq_ok.mpr ⟨by decide, walked⟩, by simp⟩⟩
  simp only [first] at stops
  simp only [second] at goesOn
  exact ⟨rfl, stops.1.mpr exits, (goesOn.2.2 _ .emptyStage rfl rfl).2 Script.source_talks⟩

end CommandShell
