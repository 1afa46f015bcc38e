import CommandShell.Proofs.Job.Failures

/-!
What the shell says about a program that was run on its own. Four texts have a cause each, and the
fifth shows the code that the program ended with. But the shell learns of the cause through the
exit code alone, and so each text tells of its cause or of a program that was started and ended
with the same code of its own accord.
-/
namespace CommandShell

inductive Diagnosis
  | unknown
  | barred
  | unreadable
  | unwritable
  | ended (code : Int)

namespace Diagnosis

def opening : Diagnosis → Text
  | unknown => "Unknown command: ".toList
  | unreadable | unwritable => "mysh: cannot open ".toList
  | barred | ended _ => "mysh: ".toList

def closing : Diagnosis → Text
  | unknown => []
  | barred => ": permission denied".toList
  | unreadable => " for reading".toList
  | unwritable => " for writing".toList
  | ended code => ": exited with status ".toList ++ signedDigits code

/-- The text of a diagnosis about a name or a path. -/
def about (diagnosis : Diagnosis) (subject : Text) : Text :=
  diagnosis.opening ++ subject ++ diagnosis.closing

end Diagnosis

def Process.tell (process : Process) (message : Option Text) (machine : Machine) : Machine :=
  message.elim machine (process.complain · machine)

/-! No text is that of two diagnoses. -/

theorem isDigit_digits {n : Nat} {c : Char} (inside : c ∈ digits n) : c.isDigit = true :=
  Nat.isDigit_of_mem_toDigits (by decide) (Nat.le_refl 10) inside

theorem digits_injective : Function.Injective digits := by
  intro n m same
  calc n
    _ = Nat.ofDigitChars 10 (digits n) 0 := Nat.ofDigitChars_ten_toDigits.symm
    _ = Nat.ofDigitChars 10 (digits m) 0 := by rw [same]
    _ = m := Nat.ofDigitChars_ten_toDigits

theorem digits_ne_minus (n : Nat) (rest : Text) : digits n ≠ '-' :: rest := by
  intro signed
  exact absurd (isDigit_digits (signed ▸ List.mem_cons_self)) (by decide)

theorem signedDigits_injective : Function.Injective signedDigits := by
  intro n m same
  unfold signedDigits at same
  split at same
  · split at same
    · have size := digits_injective (List.cons.inj same).2
      omega
    · exact absurd same.symm (digits_ne_minus _ _)
  · split at same
    · exact absurd same (digits_ne_minus _ _)
    · have size := digits_injective same
      omega

theorem mem_signedDigits {n : Int} {c : Char} (inside : c ∈ signedDigits n) :
    c.isDigit = true ∨ c = '-' := by
  unfold signedDigits at inside
  split at inside
  · rcases List.mem_cons.mp inside with sign | digit
    · exact Or.inr sign
    · exact Or.inl (isDigit_digits digit)
  · exact Or.inl (isDigit_digits inside)

def lastWord (text : Text) : Text :=
  (text.reverse.takeWhile (· != ' ')).reverse

theorem lastWord_append (front : Text) {word : Text} (plain : ' ' ∉ word) :
    lastWord (front ++ ' ' :: word) = word := by
  have untilBlank : ∀ c ∈ word.reverse, (c != ' ') = true := fun c inside =>
    bne_iff_ne.mpr fun blank => plain (blank ▸ List.mem_reverse.mp inside)
  rw [lastWord, List.reverse_append, List.reverse_cons, List.append_assoc,
    List.takeWhile_append_of_pos untilBlank]
  simp

namespace Diagnosis

/-- The word that the text of a diagnosis ends with, where the subject is not the end. -/
def word? : Diagnosis → Option Text
  | unknown => none
  | barred => some "denied".toList
  | unreadable => some "reading".toList
  | unwritable => some "writing".toList
  | ended code => some (signedDigits code)

def wordOf? (text : Text) : Option Text :=
  if text.head? = some 'U' then none else some (lastWord text)

theorem wordOf?_closing {diagnosis : Diagnosis} {middle word : Text} (subject : Text)
    (opens : diagnosis.opening.head? = some 'm') (closes : diagnosis.closing = middle ++ ' ' :: word)
    (plain : ' ' ∉ word) : wordOf? (diagnosis.about subject) = some word := by
  have other : (diagnosis.about subject).head? ≠ some 'U' := by
    rw [about, List.append_assoc, List.head?_append, opens]
    exact fun same => absurd (Option.some.inj same) (by decide)
  rw [wordOf?, if_neg other, about, closes, ← List.append_assoc, lastWord_append _ plain]

theorem wordOf?_about (diagnosis : Diagnosis) (subject : Text) :
    wordOf? (diagnosis.about subject) = diagnosis.word? := by
  have permission : ": permission denied".toList = ": permission".toList ++ ' ' :: "denied".toList := rfl
  have reading : " for reading".toList = " for".toList ++ ' ' :: "reading".toList := rfl
  have writing : " for writing".toList = " for".toList ++ ' ' :: "writing".toList := rfl
  cases diagnosis with
  | unknown => rfl
  | barred => exact wordOf?_closing subject rfl permission (by decide)
  | unreadable => exact wordOf?_closing subject rfl reading (by decide)
  | unwritable => exact wordOf?_closing subject rfl writing (by decide)
  | ended code =>
      have whole : (ended code).closing = ": exited with status".toList ++ ' ' :: signedDigits code :=
        calc (ended code).closing
          _ = ": exited with status".toList ++ [' '] ++ signedDigits code := rfl
          _ = ": exited with status".toList ++ ' ' :: signedDigits code := List.append_assoc _ [' '] _
      exact wordOf?_closing subject rfl whole fun blank => absurd (mem_signedDigits blank) (by decide)

theorem some_signedDigits_ne (code : Int) {word : Option Text}
    (letters : word.all (·.any fun c => !c.isDigit && c != '-') = true) :
    some (signedDigits code) ≠ word := by
  rintro rfl
  obtain ⟨c, inside, other⟩ := List.any_eq_true.mp letters
  rcases mem_signedDigits inside with digit | rfl
  · simp [digit] at other
  · exact absurd other (by decide)

theorem word?_injective : Function.Injective word? := by
  intro one two same
  cases one with
  | ended code =>
      cases two with
      | ended other => exact congrArg ended (signedDigits_injective (Option.some.inj same))
      | _ => exact absurd same (some_signedDigits_ne code (by decide))
  | _ =>
      cases two with
      | ended code => exact absurd same.symm (some_signedDigits_ne code (by decide))
      | _ => first | rfl | exact absurd same (by decide)

theorem about_inj {one two : Diagnosis} {subject other : Text}
    (same : one.about subject = two.about other) : one = two ∧ subject = other := by
  have kinds : one = two := by
    apply word?_injective
    rw [← wordOf?_about one subject, same, wordOf?_about]
  subst kinds
  have opened : one.opening ++ subject = one.opening ++ other := List.append_cancel_right same
  exact ⟨rfl, List.append_cancel_left opened⟩

end Diagnosis

/-! From the exit code to the text. -/

namespace PreparedStage

variable (stage : PreparedStage)

/-- What is said about a stage that ends like this, and the name or path it is said of. -/
inductive Diagnosed : ExitStatus → Diagnosis → Text → Prop
  | unknown (missing : stage.isMissing = true) :
      Diagnosed (.exited exitNotFound) .unknown stage.name
  | barred : Diagnosed (.exited exitNotExecutable) .barred stage.name
  | unreadable (path : Text) (target : stage.input = some path) :
      Diagnosed (.exited exitInputFailed) .unreadable path
  | unwritable (path : Text) (target : stage.output = some path) :
      Diagnosed (.exited exitOutputFailed) .unwritable path
  | ended (code : Int) (bad : code ≠ 0) (known : code = exitNotFound → stage.isMissing = false)
      (free : code ≠ exitNotExecutable) (noInput : code = exitInputFailed → stage.input = none)
      (noOutput : code = exitOutputFailed → stage.output = none) :
      Diagnosed (.exited code) (.ended code) stage.name

variable {stage}

theorem report_diagnosed {status : ExitStatus} {diagnosis : Diagnosis} {subject : Text}
    (diagnosed : stage.Diagnosed status diagnosis subject) :
    stage.report status = some (diagnosis.about subject) := by
  unfold report
  cases diagnosed with
  | unknown missing =>
      have whole := (List.append_nil ("Unknown command: ".toList ++ stage.name)).symm
      dsimp only
      rw [if_neg (by decide), if_pos ⟨rfl, missing⟩]
      exact congrArg some whole
  | barred =>
      dsimp only
      rw [if_neg (by decide), if_neg (fun both => absurd both.1 (by decide)), if_pos rfl]
      rfl
  | unreadable path target =>
      dsimp only
      rw [if_neg (by decide), if_neg (fun both => absurd both.1 (by decide)), if_neg (by decide),
        if_pos ⟨rfl, Option.isSome_of_eq_some target⟩, target]
      rfl
  | unwritable path target =>
      dsimp only
      rw [if_neg (by decide), if_neg (fun both => absurd both.1 (by decide)), if_neg (by decide),
        if_neg (fun both => absurd both.1 (by decide)), if_pos ⟨rfl, Option.isSome_of_eq_some target⟩,
        target]
      rfl
  | ended code bad known free noInput noOutput =>
      have input : ¬ (code = exitInputFailed ∧ stage.input.isSome = true) := fun both => by
        simp [noInput both.1] at both
      have output : ¬ (code = exitOutputFailed ∧ stage.output.isSome = true) := fun both => by
        simp [noOutput both.1] at both
      have missing : ¬ (code = exitNotFound ∧ stage.isMissing = true) := fun both => by
        simp [known both.1] at both
      dsimp only
      rw [if_neg bad, if_neg missing, if_neg free, if_neg input, if_neg output, List.append_assoc]
      rfl

theorem exists_diagnosed {code : Int} (bad : code ≠ 0) :
    ∃ diagnosis subject, stage.Diagnosed (.exited code) diagnosis subject := by
  by_cases missing : code = exitNotFound ∧ stage.isMissing = true
  · obtain ⟨rfl, missing⟩ := missing
    exact ⟨_, _, .unknown missing⟩
  by_cases barred : code = exitNotExecutable
  · subst barred
    exact ⟨_, _, .barred⟩
  by_cases input : code = exitInputFailed ∧ stage.input ≠ none
  · obtain ⟨rfl, target⟩ := input
    obtain ⟨path, target⟩ := Option.ne_none_iff_exists'.mp target
    exact ⟨_, _, .unreadable path target⟩
  by_cases output : code = exitOutputFailed ∧ stage.output ≠ none
  · obtain ⟨rfl, target⟩ := output
    obtain ⟨path, target⟩ := Option.ne_none_iff_exists'.mp target
    exact ⟨_, _, .unwritable path target⟩
  · exact ⟨_, _, .ended code bad (by simpa using missing) barred (by simpa using input)
      (by simpa using output)⟩

-- A text tells which exit code it comes from.
theorem report_eq_some {status : ExitStatus} {diagnosis : Diagnosis} {subject : Text} :
    stage.report status = some (diagnosis.about subject) ↔ stage.Diagnosed status diagnosis subject := by
  refine ⟨fun told => ?_, report_diagnosed⟩
  cases status with
  | killed signal => cases told
  | exited code =>
      have bad : code ≠ 0 := by
        rintro rfl
        cases told
      obtain ⟨found, other, diagnosed⟩ : ∃ found other, stage.Diagnosed (.exited code) found other :=
        exists_diagnosed bad
      have same := (report_diagnosed diagnosed).symm.trans told
      obtain ⟨rfl, rfl⟩ := Diagnosis.about_inj (Option.some.inj same)
      exact diagnosed

end PreparedStage

theorem loadedStatus_refused {failure : Failure} (other : failure ≠ .noEntry) :
    loadedStatus (.error failure) = .exited exitNotExecutable := by
  cases failure with
  | noEntry => exact absurd rfl other
  | _ => rfl

namespace JobScope

variable (scope : JobScope) (stage : Stage)

structure Sole : Prop where
  stages : scope.pipeline.stages = [stage]
  foreground : scope.pipeline.background = false
  external : Builtin.ofName? stage.name = none

/-- The stage has got its targets, its name has led to a file and this came of running it. -/
def Loaded (result : Except Failure ExitStatus) : Prop :=
  ∃ path process started, scope.shell.search scope.machine stage.name = .found path ∧
    scope.start 0 stage = (.ok process, started) ∧
      (scope.loader path (stage.argv.map encode) process started).1 = result

def Ran (status : ExitStatus) : Prop :=
  scope.Loaded stage (.ok status)

def Readable : Prop :=
  scope.machine.tree.Readable scope.shell.cwd stage.input

def Writable : Prop :=
  scope.machine.tree.Writable scope.shell.cwd stage.output

/-- The name has led to a file that cannot be executed, or whose execution is refused. -/
def Barred : Prop :=
  (scope.Readable stage ∧ scope.Writable stage ∧
      ∃ path, scope.shell.search scope.machine stage.name = .notExecutable path) ∨
    ∃ failure, failure ≠ .noEntry ∧ scope.Loaded stage (.error failure)

/-- How the process of the stage ends, and what from. -/
inductive Comes : ExitStatus → Prop
  | unreadable (refused : ¬ scope.Readable stage) : Comes (.exited exitInputFailed)
  | unwritable (readable : scope.Readable stage) (refused : ¬ scope.Writable stage) :
      Comes (.exited exitOutputFailed)
  | unknown (readable : scope.Readable stage) (writable : scope.Writable stage)
      (missing : scope.shell.search scope.machine stage.name = .notFound) :
      Comes (.exited exitNotFound)
  | barred (barred : scope.Barred stage) : Comes (.exited exitNotExecutable)
  | vanished (gone : scope.Loaded stage (.error .noEntry)) : Comes (.exited exitNotFound)
  | ran (status : ExitStatus) (ran : scope.Ran stage status) : Comes status

/-- The texts that can stand for what became of the stage. -/
structure Accounts (message : Option Text) : Prop where
  unreadable : ∀ path, message = some (Diagnosis.unreadable.about path) ↔
    stage.input = some path ∧ (¬ scope.Readable stage ∨ scope.Ran stage (.exited exitInputFailed))
  unwritable : ∀ path, message = some (Diagnosis.unwritable.about path) ↔
    stage.output = some path ∧
      (scope.Readable stage ∧ ¬ scope.Writable stage ∨ scope.Ran stage (.exited exitOutputFailed))
  barred : ∀ name, message = some (Diagnosis.barred.about name) ↔
    name = stage.name ∧ (scope.Barred stage ∨ scope.Ran stage (.exited exitNotExecutable))
  unknown : ∀ name, message = some (Diagnosis.unknown.about name) ↔
    name = stage.name ∧ scope.Readable stage ∧ scope.Writable stage ∧
      scope.shell.search scope.machine stage.name = .notFound
  ended : ∀ code, scope.Ran stage (.exited code) → code ≠ 0 → code ≠ exitNotExecutable →
    (code = exitInputFailed → stage.input = none) → (code = exitOutputFailed → stage.output = none) →
      message = some ((Diagnosis.ended code).about stage.name)
  well : scope.Ran stage (.exited 0) → message = none
  killed : ∀ signal, scope.Ran stage (.killed signal) → message = none

variable {scope stage}

theorem comes_inputFailed : scope.Comes stage (.exited exitInputFailed) ↔
    ¬ scope.Readable stage ∨ scope.Ran stage (.exited exitInputFailed) := by
  constructor
  · intro comes
    cases comes with
    | unreadable refused => exact Or.inl refused
    | ran _ ran => exact Or.inr ran
  · rintro (refused | ran)
    · exact .unreadable refused
    · exact .ran _ ran

theorem comes_outputFailed : scope.Comes stage (.exited exitOutputFailed) ↔
    scope.Readable stage ∧ ¬ scope.Writable stage ∨
      scope.Ran stage (.exited exitOutputFailed) := by
  constructor
  · intro comes
    cases comes with
    | unwritable readable refused => exact Or.inl ⟨readable, refused⟩
    | ran _ ran => exact Or.inr ran
  · rintro (⟨readable, refused⟩ | ran)
    · exact .unwritable readable refused
    · exact .ran _ ran

theorem comes_notExecutable : scope.Comes stage (.exited exitNotExecutable) ↔
    scope.Barred stage ∨ scope.Ran stage (.exited exitNotExecutable) := by
  constructor
  · intro comes
    cases comes with
    | barred barred => exact Or.inl barred
    | ran _ ran => exact Or.inr ran
  · rintro (barred | ran)
    · exact .barred barred
    · exact .ran _ ran

namespace Sole

variable (sole : scope.Sole stage)

include sole

-- One stage needs no pipes.
theorem opened_eq : scope.opened = ([], scope.table, scope.machine) := by
  have count : scope.count = 1 := congrArg List.length sole.stages
  rw [opened, count]
  rfl

theorem met_zero_tree : (scope.met 0).tree = scope.machine.tree := by
  rw [scope.met_zero sole.foreground, spawned_machine, sole.opened_eq]

theorem spawned_shell : scope.spawned.shell = scope.shell := by
  have count : scope.count = 1 := congrArg List.length sole.stages
  unfold spawned Shell.spawn
  rw [length_stages, count]
  rfl

theorem exists_start (readable : scope.Readable stage) (writable : scope.Writable stage) :
    ∃ process started, scope.start 0 stage = (.ok process, started) := by
  have reads : (scope.met 0).tree.Readable scope.shell.cwd stage.input :=
    sole.met_zero_tree ▸ readable
  have writes : (scope.met 0).tree.Writable scope.shell.cwd stage.output :=
    sole.met_zero_tree ▸ writable
  obtain ⟨process, started, opened, -⟩ := start_plugged reads writes
  exact ⟨process, started, opened⟩

theorem loaded_status {result : Except Failure ExitStatus} (loaded : scope.Loaded stage result) :
    (scope.stageRun 0 stage).1.status = loadedStatus result := by
  obtain ⟨path, process, started, found, opened, rfl⟩ := loaded
  rw [stageRun_ok opened]
  exact (runProgram_ends stage process started).found path sole.external found

theorem comes : scope.Comes stage (scope.stageRun 0 stage).1.status := by
  have ends : scope.Ends 0 stage (scope.met 0) (scope.stageRun 0 stage).1
      (scope.stageRun 0 stage).2 := stageRunOn_ends 0 stage (scope.met 0)
  have onFirst := sole.met_zero_tree
  by_cases readable : scope.Readable stage
  · by_cases writable : scope.Writable stage
    · obtain ⟨process, started, opened, -, -, program⟩ :=
        ends.started (onFirst ▸ readable) (onFirst ▸ writable)
      cases search : scope.shell.search scope.machine stage.name with
      | notFound =>
          rw [(program.notFound sole.external search).1]
          exact .unknown readable writable search
      | notExecutable path =>
          rw [(program.notExecutable path sole.external search).1]
          exact .barred (Or.inl ⟨readable, writable, path, search⟩)
      | found path =>
          have loaded : scope.Loaded stage _ := ⟨path, process, started, search, opened, rfl⟩
          rw [program.found path sole.external search]
          -- A file that is gone by now counts as not found, and any other failure as refusal.
          cases result : (scope.loader path (stage.argv.map encode) process started).1 with
          | ok status => exact .ran status (result ▸ loaded :)
          | error failure =>
              rw [result] at loaded
              by_cases gone : failure = .noEntry
              · subst gone
                exact .vanished loaded
              · rw [loadedStatus_refused gone]
                exact .barred (Or.inr ⟨failure, gone, loaded⟩)
    · rw [(ends.outputRefused (onFirst ▸ readable) (onFirst ▸ writable)).1]
      exact .unwritable readable writable
  · rw [(ends.inputRefused (onFirst ▸ readable)).1]
    exact .unreadable readable

theorem status_iff {status : ExitStatus} :
    (scope.stageRun 0 stage).1.status = status ↔ scope.Comes stage status := by
  refine ⟨fun same => same ▸ sole.comes, fun comes => ?_⟩
  have ends : scope.Ends 0 stage (scope.met 0) (scope.stageRun 0 stage).1
      (scope.stageRun 0 stage).2 := stageRunOn_ends 0 stage (scope.met 0)
  have onFirst := sole.met_zero_tree
  cases comes with
  | unreadable refused => exact (ends.inputRefused (onFirst ▸ refused)).1
  | unwritable readable refused => exact (ends.outputRefused (onFirst ▸ readable) (onFirst ▸ refused)).1
  | unknown readable writable missing =>
      obtain ⟨process, started, -, -, -, program⟩ :=
        ends.started (onFirst ▸ readable) (onFirst ▸ writable)
      exact (program.notFound sole.external missing).1
  | barred barred =>
      rcases barred with ⟨readable, writable, path, search⟩ | ⟨failure, other, loaded⟩
      · obtain ⟨process, started, -, -, -, program⟩ :=
          ends.started (onFirst ▸ readable) (onFirst ▸ writable)
        exact (program.notExecutable path sole.external search).1
      · rw [sole.loaded_status loaded, loadedStatus_refused other]
  | vanished gone => exact sole.loaded_status gone
  | ran status ran => exact sole.loaded_status ran

theorem isBuiltin_eq : (scope.prepare stage).isBuiltin = false := by
  have prepared : (scope.prepare stage).program = programOf scope.shell scope.machine stage.name :=
    rfl
  rw [PreparedStage.isBuiltin, prepared, programOf, sole.external]
  cases scope.shell.search scope.machine stage.name <;> rfl

theorem isMissing_eq : (scope.prepare stage).isMissing =
    match scope.shell.search scope.machine stage.name with
    | .found _ => false
    | _ => true := by
  have prepared : (scope.prepare stage).program = programOf scope.shell scope.machine stage.name :=
    rfl
  rw [PreparedStage.isMissing, prepared, programOf, sole.external]
  cases scope.shell.search scope.machine stage.name <;> rfl

theorem found_of_loaded {result : Except Failure ExitStatus} (loaded : scope.Loaded stage result) :
    (scope.prepare stage).isMissing = false := by
  obtain ⟨path, process, started, found, -⟩ := loaded
  rw [sole.isMissing_eq, found]

-- A file that is gone when it is to be run is not an unknown name.
theorem notFound (comes : scope.Comes stage (.exited exitNotFound))
    (missing : (scope.prepare stage).isMissing = true) :
    scope.Readable stage ∧ scope.Writable stage ∧
      scope.shell.search scope.machine stage.name = .notFound := by
  have unloaded {result : Except Failure ExitStatus} : ¬ scope.Loaded stage result := fun loaded =>
    absurd (missing.symm.trans (sole.found_of_loaded loaded)) (by decide)
  cases comes with
  | unknown readable writable search => exact ⟨readable, writable, search⟩
  | vanished gone => exact absurd gone unloaded
  | ran _ ran => exact absurd ran unloaded

theorem runs_eq : scope.job.runs = [(scope.stageRun 0 stage).1] := by
  have count : scope.count = 1 := congrArg List.length sole.stages
  obtain ⟨run, runs⟩ := List.length_eq_one_iff.mp (length_runs.trans count)
  have first : scope.job.runs[0]? = some (scope.stageRun 0 stage).1 :=
    getElem?_runs (congrArg (·[0]?) sole.stages)
  rw [runs] at first
  rw [runs, Option.some.inj first]

theorem job_eq : scope.job = ⟨false, [(scope.stageRun 0 stage).1]⟩ := by
  have background : scope.job.background = false := sole.foreground
  rw [← background, ← sole.runs_eq]

theorem run_clean (clean : scope.pipeline.Clean) :
    scope.run = ⟨.ok scope.job, scope.shell,
      scope.shell.process.tell ((scope.prepare stage).report (scope.stageRun 0 stage).1.status)
        (scope.stageRun 0 stage).2⟩ := by
  have count : scope.count = 1 := congrArg List.length sole.stages
  have stages : scope.stages = [scope.prepare stage] := congrArg (List.map scope.prepare) sole.stages
  rw [JobScope.run_clean clean, sole.spawned_shell, count, met_succ (congrArg (·[0]?) sole.stages), stages,
    sole.job_eq, reportJob_single _ _ _ _ _ sole.isBuiltin_eq]
  rfl

theorem told_iff {diagnosis : Diagnosis} {subject : Text} :
    (scope.prepare stage).report (scope.stageRun 0 stage).1.status = some (diagnosis.about subject) ↔
      ∃ status, scope.Comes stage status ∧
        (scope.prepare stage).Diagnosed status diagnosis subject := by
  rw [PreparedStage.report_eq_some]
  constructor
  · intro diagnosed
    exact ⟨_, sole.comes, diagnosed⟩
  · rintro ⟨status, comes, diagnosed⟩
    rwa [sole.status_iff.mpr comes]

theorem accounts : scope.Accounts stage
    ((scope.prepare stage).report (scope.stageRun 0 stage).1.status) := by
  constructor
  case unreadable =>
    intro path
    rw [sole.told_iff]
    constructor
    · rintro ⟨status, comes, diagnosed⟩
      cases diagnosed with
      | unreadable path target => exact ⟨target, comes_inputFailed.mp comes⟩
    · rintro ⟨target, cause⟩
      exact ⟨_, comes_inputFailed.mpr cause, .unreadable path target⟩
  case unwritable =>
    intro path
    rw [sole.told_iff]
    constructor
    · rintro ⟨status, comes, diagnosed⟩
      cases diagnosed with
      | unwritable path target => exact ⟨target, comes_outputFailed.mp comes⟩
    · rintro ⟨target, cause⟩
      exact ⟨_, comes_outputFailed.mpr cause, .unwritable path target⟩
  case barred =>
    intro name
    rw [sole.told_iff]
    constructor
    · rintro ⟨status, comes, diagnosed⟩
      cases diagnosed with
      | barred => exact ⟨rfl, comes_notExecutable.mp comes⟩
    · rintro ⟨rfl, cause⟩
      exact ⟨_, comes_notExecutable.mpr cause, .barred⟩
  case unknown =>
    intro name
    rw [sole.told_iff]
    constructor
    · rintro ⟨status, comes, diagnosed⟩
      cases diagnosed with
      | unknown missing => exact ⟨rfl, sole.notFound comes missing⟩
    · rintro ⟨rfl, readable, writable, search⟩
      have missing : (scope.prepare stage).isMissing = true := by
        rw [sole.isMissing_eq, search]
      exact ⟨_, .unknown readable writable search, .unknown missing⟩
  case ended =>
    intro code ran bad free noInput noOutput
    have known := sole.found_of_loaded ran
    exact sole.told_iff.mpr ⟨_, .ran _ ran, .ended code bad (fun _ => known) free noInput noOutput⟩
  case well =>
    intro ran
    rw [sole.status_iff.mpr (.ran _ ran)]
    rfl
  case killed =>
    intro signal ran
    rw [sole.status_iff.mpr (.ran _ ran)]
    rfl

end Sole

/-- What the shell says of a program that was run on its own, for every way of ending. -/
theorem sole_stage_accounted (sole : scope.Sole stage) :
    (scope.pipeline.Clean → ∃ job message, scope.run =
        ⟨.ok job, scope.shell, scope.shell.process.tell message (scope.stageRun 0 stage).2⟩ ∧
      scope.Accounts stage message) ∧
    (¬ scope.pipeline.Clean → ∃ trouble, scope.run = ⟨.error trouble, scope.shell, scope.machine⟩) :=
  ⟨fun clean => ⟨scope.job, _, sole.run_clean clean, sole.accounts⟩, run_not_clean⟩

section Lone

variable (code : Int) (input output : Option Text)

def loneStage : Stage :=
  ⟨["./p".toList], input, output⟩

def loneTree : FileTree :=
  ⟨[([encode "p".toList], .file [] 0o755)]⟩

/-- A program that ends with a code and does nothing else. -/
def lone : JobScope :=
  plain (fun _ _ _ machine => (.ok (.exited code), machine)) loneTree [loneStage input output]

theorem loneTree_open :
    loneTree.open? [] (encode "./p".toList) = .ok ([encode "p".toList], .file [] 0o755) := by
  have walked : loneTree.walk .use mostLinks [] [dot, encode "p".toList] =
      .ok (.present [encode "p".toList] (.file [] 0o755)) := by
    rw [FileTree.walk, FileTree.walk]
    rfl
  rw [FileTree.open?, FileTree.arrive_eq_ok.mpr ⟨by decide, walked⟩]

theorem loneTree_write :
    loneTree.writeTarget [] (encode "o".toList) = .ok (.absent [] (encode "o".toList)) := by
  have walked : loneTree.walk .write mostLinks [] [encode "o".toList] =
      .ok (.absent [] (encode "o".toList)) := by
    rw [FileTree.walk]
    rfl
  rw [FileTree.writeTarget, FileTree.arrive_eq_ok.mpr ⟨by decide, walked⟩]

theorem lone_sole : (lone code input output).Sole (loneStage input output) :=
  ⟨rfl, rfl, rfl⟩

theorem lone_found : (lone code input output).shell.search (lone code input output).machine
    (loneStage input output).name = .found (encode "./p".toList) := by
  change checkProgram loneTree [] (encode "./p".toList) = .found (encode "./p".toList)
  simp only [checkProgram, FileTree.isFile, FileTree.isExecutable, loneTree_open]
  rfl

variable {input output}

theorem lone_ran (readable : (lone code input output).Readable (loneStage input output))
    (writable : (lone code input output).Writable (loneStage input output)) :
    (lone code input output).Ran (loneStage input output) (.exited code) := by
  obtain ⟨process, started, opened⟩ := (lone_sole code input output).exists_start readable writable
  exact ⟨_, process, started, lone_found code input output, opened, rfl⟩

end Lone

/-- The code for an unknown name, from a program that was found. -/
theorem own_127_reported :
    let scope := lone exitNotFound none none
    scope.Sole (loneStage none none) ∧ scope.pipeline.Clean ∧ ∃ job message, scope.run =
        ⟨.ok job, scope.shell,
          scope.shell.process.tell message (scope.stageRun 0 (loneStage none none)).2⟩ ∧
      message = some "mysh: ./p: exited with status 127".toList := by
  intro scope
  have sole := lone_sole exitNotFound none none
  have clean : scope.pipeline.Clean := by decide
  obtain ⟨job, message, run, accounts⟩ := (sole_stage_accounted sole).1 clean
  have ran := lone_ran exitNotFound (granted_none _) (granted_none _)
  exact ⟨sole, clean, job, message, run,
    accounts.ended exitNotFound ran (by decide) (by decide) (by decide) (by decide)⟩

/-- A program that was executed with its targets and has ended with a code, and the text for
something else. -/
structure Mistaken (scope : JobScope) (stage : Stage) (code : Int) (text : Text) : Prop where
  sole : scope.Sole stage
  readable : scope.Readable stage
  writable : scope.Writable stage
  executed : ¬ scope.Barred stage
  ran : scope.Ran stage (.exited code)
  told : ∃ job, scope.run =
    ⟨.ok job, scope.shell, scope.shell.process.tell (some text) (scope.stageRun 0 stage).2⟩
  other : text ≠ (Diagnosis.ended code).about stage.name

theorem lone_mistaken {code : Int} {input output : Option Text} {text : Text}
    (clean : (lone code input output).pipeline.Clean)
    (readable : (lone code input output).Readable (loneStage input output))
    (writable : (lone code input output).Writable (loneStage input output))
    (reported : ∀ message, (lone code input output).Accounts (loneStage input output) message →
      message = some text)
    (other : text ≠ (Diagnosis.ended code).about "./p".toList) :
    (lone code input output).Mistaken (loneStage input output) code text where
  sole := lone_sole code input output
  readable := readable
  writable := writable
  executed := by
    rintro (⟨-, -, path, barred⟩ | ⟨failure, -, path, process, started, -, -, failed⟩)
    · cases (lone_found code input output).symm.trans barred
    · cases failed
  ran := lone_ran code readable writable
  told := by
    have sole := lone_sole code input output
    have run := sole.run_clean clean
    rw [reported _ (sole.accounts)] at run
    exact ⟨_, run⟩
  other := other

/-- Three programs that are executed and end with a code of the shell's own. -/
theorem own_codes_mistaken :
    (lone exitNotExecutable none none).Mistaken (loneStage none none) 126
        "mysh: ./p: permission denied".toList ∧
      (lone exitInputFailed (some "./p".toList) none).Mistaken (loneStage (some "./p".toList) none) 125
        "mysh: cannot open ./p for reading".toList ∧
      (lone exitOutputFailed none (some "o".toList)).Mistaken (loneStage none (some "o".toList)) 124
        "mysh: cannot open o for writing".toList := by
  have readable : (lone exitInputFailed (some "./p".toList) none).Readable
      (loneStage (some "./p".toList) none) := by
    rintro _ ⟨⟩
    exact ⟨_, loneTree_open⟩
  have writable : (lone exitOutputFailed none (some "o".toList)).Writable
      (loneStage none (some "o".toList)) := by
    rintro _ ⟨⟩
    exact ⟨_, loneTree_write⟩
  refine ⟨lone_mistaken (by decide) (granted_none _) (granted_none _) ?_ (by decide),
    lone_mistaken (by decide) readable (granted_none _) ?_ (by decide),
    lone_mistaken (by decide) (granted_none _) writable ?_ (by decide)⟩
  · intro message accounts
    exact (accounts.barred _).mpr
      ⟨rfl, Or.inr (lone_ran exitNotExecutable (granted_none _) (granted_none _))⟩
  · intro message accounts
    exact (accounts.unreadable _).mpr
      ⟨rfl, Or.inr (lone_ran exitInputFailed readable (granted_none _))⟩
  · intro message accounts
    exact (accounts.unwritable _).mpr
      ⟨rfl, Or.inr (lone_ran exitOutputFailed (granted_none _) writable)⟩

end JobScope

end CommandShell
