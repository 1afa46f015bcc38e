import CommandShell.Proofs.Session.Execution
import CommandShell.Proofs.System.Twins

/-!
Entering a line whose first word is an alias, beside entering the line that the alias stands
for. A command that changes the shell gets the same words either way, and a definition of an
alias is the only one to look at the line itself, which is the one that was entered. So the
two agree unless a definition is read differently from the two lines.
-/
namespace CommandShell

def firstWord (line : Text) : Text :=
  (trimStart line).takeWhile fun c => !isBlank c

theorem parse_expandAlias {table : AliasTable} {names : List Text} {line : Text}
    (filled : isBlankText (expandAlias table line) = false)
    (plain : table.get? (firstWord (expandAlias table line)) = none) :
    Pipeline.parse table names (expandAlias table line) = Pipeline.parse table names line := by
  generalize effective : expandAlias table line = text at filled plain
  have solid : (trimStart text).isEmpty = false := by
    refine Bool.eq_false_iff.mpr fun nothing => ?_
    have blank : isBlankText text = true :=
      List.all_eq_true.mpr (List.dropWhile_eq_nil_iff.mp (List.isEmpty_iff.mp nothing))
    rw [filled] at blank
    cases blank
  have again : expandAlias table text = text := by
    unfold firstWord at plain
    simp only [expandAlias, solid, plain, Bool.false_eq_true, if_false]
  rw [Pipeline.parse, Pipeline.parse, again, effective]

namespace FileTree.Twins

variable {left right : FileTree}

theorem readable (twins : left.Twins right) {cwd : Location} {target : Option Text}
    (granted : left.Readable cwd target) : right.Readable cwd target := by
  intro path given
  obtain ⟨⟨location, node⟩, found⟩ := granted path given
  exact ⟨_, (open?_grown twins.onward found).2⟩

theorem writable (twins : left.Twins right) {cwd : Location} {target : Option Text}
    (granted : left.Writable cwd target) : right.Writable cwd target := by
  intro path given
  obtain ⟨arrival, found⟩ := granted path given
  obtain ⟨again, there, -⟩ := twins.writeTarget found
  exact ⟨again, there⟩

theorem opened {before after other done : Machine} (twins : before.tree.Twins other.tree)
    {output : Option Text} {cwd : Location} (first : Opened output cwd before after)
    (second : Opened output cwd other done) : after.tree.Twins done.tree := by
  cases output with
  | none =>
      rw [first.kept rfl, second.kept rfl]
      exact twins
  | some path => exact twins.editFile (first.emptied path rfl) (second.emptied path rfl)

end FileTree.Twins

namespace Shell

/-- The same aliases, the same working folder and the same wish to stop. -/
structure SameMemory (left right : Shell) : Prop where
  aliases : left.aliases = right.aliases
  cwd : left.cwd = right.cwd
  exiting : left.exiting = right.exiting

/-- What two shells have in common that are given the same words: all that a command which
changes the shell looks at, but for the line. -/
structure Alike (left right : Shell) (machine other : Machine) : Prop where
  memory : left.SameMemory right
  env : left.env = right.env
  account : machine.account = other.account
  twins : machine.tree.Twins other.tree

variable {left right : Shell} {machine other : Machine}

theorem Alike.opens (alike : left.Alike right machine other) {stage : Stage} :
    left.Opens stage machine ↔ right.Opens stage other := by
  constructor
  · intro opens
    have input := alike.twins.readable opens.input
    have output := alike.twins.writable opens.output
    rw [alike.memory.cwd] at input output
    exact ⟨input, output⟩
  · intro opens
    have input := alike.twins.symm.readable opens.input
    have output := alike.twins.symm.writable opens.output
    rw [← alike.memory.cwd] at input output
    exact ⟨input, output⟩

theorem Alike.changeFolder (alike : left.Alike right machine other) (arguments : List Text) :
    (left.changeFolder machine arguments).2.cwd = (right.changeFolder other arguments).2.cwd := by
  have target : left.folderTarget machine arguments.head? =
      right.folderTarget other arguments.head? := by
    unfold folderTarget
    rw [alike.account, alike.env, alike.memory.cwd]
  unfold Shell.changeFolder
  split
  · exact alike.memory.cwd
  · simp only [target, alike.memory.cwd]
    cases mine : machine.tree.enter right.cwd (right.folderTarget other arguments.head?) with
    | ok folder =>
        rw [alike.twins.enter mine]
        rfl
    | error failure =>
        cases theirs : other.tree.enter right.cwd (right.folderTarget other arguments.head?) with
        | ok folder => cases mine.symm.trans (alike.twins.symm.enter theirs)
        | error => exact alike.memory.cwd

theorem tableAfter_eq_iff (command : Builtin) (table : AliasTable) (arguments : List Text)
    (line text : Text) :
    command.tableAfter table arguments line = command.tableAfter table arguments text ↔
      (command = .defineAlias → arguments ≠ [] →
        table.insertLines [Builtin.lineBody line] = table.insertLines [Builtin.lineBody text]) := by
  cases command with
  | defineAlias =>
      unfold Builtin.tableAfter
      cases arguments with
      | nil => simp
      | cons => simp
  | _ => exact iff_of_true rfl fun contra => nomatch contra

theorem Alike.folderAfter (alike : left.Alike right machine other) (command : Builtin)
    (arguments : List Text) :
    command.folderAfter left arguments machine = command.folderAfter right arguments other := by
  cases command with
  | changeFolder => exact alike.changeFolder arguments
  | _ => exact alike.memory.cwd

theorem Alike.leaves_iff (alike : left.Alike right machine other) {command : Builtin}
    {arguments : List Text} {line text : Text} {mine theirs : Shell}
    (first : Builtin.Leaves left arguments line machine command mine)
    (second : Builtin.Leaves right arguments text other command theirs) :
    mine.SameMemory theirs ↔ command.tableAfter left.aliases.table arguments line =
      command.tableAfter left.aliases.table arguments text := by
  constructor
  · intro same
    have tables := congrArg AliasStore.table same.aliases
    rw [first.aliases, second.aliases, ← alike.memory.aliases] at tables
    exact tables
  · intro same
    constructor
    case aliases => rw [first.aliases, second.aliases, ← alike.memory.aliases, same]
    case cwd =>
      have folder := alike.folderAfter command arguments
      rw [cwd, cwd, first.process, second.process]
      exact folder
    case exiting => rw [first.exiting, second.exiting, alike.memory.exiting]

theorem Alike.runsHere_iff (alike : left.Alike right machine other) {command : Builtin}
    {stage : Stage} {line text : Text} {one two : Except Trouble Unit × Shell × Machine}
    (first : left.RunsHere command stage line machine one)
    (second : right.RunsHere command stage text other two) :
    one.2.1.SameMemory two.2.1 ↔ (left.Opens stage machine →
      command.tableAfter left.aliases.table (stage.argv.drop 1) line =
        command.tableAfter left.aliases.table (stage.argv.drop 1) text) := by
  obtain ⟨aliases, cwd, exiting⟩ := alike.memory
  cases first with
  | refused trouble table met denied opened =>
      cases second with
      | refused _ back _ _ _ =>
          exact iff_of_true ⟨aliases, cwd, exiting⟩ fun opens => absurd opens denied
      | ran _ _ _ _ granted => exact absurd (alike.opens.mpr granted) denied
  | ran table back met done granted opened runs =>
      cases second with
      | refused _ _ _ denied _ => exact absurd (alike.opens.mp granted) denied
      | ran table' back' met' done' granted' opened' runs' =>
          have mine := Builtin.run_leaves (left.withDescriptors table) (stage.argv.drop 1) line met
            command
          have theirs := Builtin.run_leaves (right.withDescriptors table') (stage.argv.drop 1) text
            met' command
          -- Each runs with its own descriptors, and no such command looks at them.
          have account : met.account = met'.account :=
            opened.account.trans (alike.account.trans opened'.account.symm)
          rw [← cwd] at opened'
          have diverted : (left.withDescriptors table).Alike (right.withDescriptors table') met met' :=
            ⟨⟨aliases, cwd, exiting⟩, alike.env, account, alike.twins.opened opened opened'⟩
          rw [runs] at mine
          rw [runs'] at theirs
          have agree := diverted.leaves_iff mine theirs
          have same : (done.shell.withDescriptors back).SameMemory
              (done'.shell.withDescriptors back') ↔ done.shell.SameMemory done'.shell :=
            ⟨fun ⟨a, b, c⟩ => ⟨a, b, c⟩, fun ⟨a, b, c⟩ => ⟨a, b, c⟩⟩
          exact same.trans (agree.trans ⟨fun tables _ => tables, fun tables => tables granted⟩)

/-- Remembering one of the two lines does not make the history file when remembering the other
does not. -/
def Steady (shell : Shell) (machine : Machine) (line text : Text) : Prop :=
  shell.history.log.accepts line = shell.history.log.accepts text ∨
    ∀ path ∈ shell.history.file, ∀ folder name,
      machine.tree.writeTarget shell.cwd path ≠ .ok (.absent folder name)

variable {shell : Shell} {line text : Text}

theorem Steady.symm (steady : shell.Steady machine line text) :
    shell.Steady machine text line :=
  steady.imp_left Eq.symm

theorem Steady.twins_appended (steady : shell.Steady machine line text) {path : Path}
    {grown : FileTree} (file : shell.history.file = some path)
    (accepted : shell.history.log.accepts line = true)
    (written : machine.tree.appendFile shell.cwd path (lineBytes line) = .ok grown)
    (passed : ∀ path ∈ shell.history.file, ∀ grown, shell.history.log.accepts text = true →
      machine.tree.appendFile shell.cwd path (lineBytes text) ≠ .ok grown) :
    machine.tree.Twins grown := by
  rcases steady with same | there
  · -- The other line would have been appended as well.
    obtain ⟨arrival, target, -⟩ := FileTree.editFile_eq_ok.mp written
    have again : machine.tree.appendFile shell.cwd path (lineBytes text) = .ok _ :=
      FileTree.editFile_eq_ok.mpr ⟨arrival, target, rfl⟩
    exact absurd again (passed path file _ (same.symm.trans accepted))
  · exact FileTree.twins_editFile written (there path file)

theorem Steady.twins (steady : shell.Steady machine line text) {first second : FileTree}
    (mine : shell.Remembers line machine first) (theirs : shell.Remembers text machine second) :
    first.Twins second := by
  cases mine with
  | untouched passed =>
      cases theirs with
      | untouched => exact .refl _
      | appended path grown file accepted written =>
          exact steady.symm.twins_appended file accepted written passed
  | appended path grown file accepted written =>
      cases theirs with
      | untouched passed =>
          exact (steady.twins_appended file accepted written passed).symm
      | appended other _ named _ again =>
          cases file.symm.trans named
          exact (FileTree.Twins.refl _).editFile written again

theorem Steady.alike (steady : shell.Steady machine line text) :
    (shell.remembering line machine).1.Alike (shell.remembering text machine).1
      (shell.remembering line machine).2 (shell.remembering text machine).2 :=
  ⟨⟨rfl, rfl, rfl⟩, rfl, rfl, steady.twins (shell.remembering_remembers line machine)
    (shell.remembering_remembers text machine)⟩

/-- A line and the line that its alias stands for leave the same aliases, working folder and
wish to stop, if the latter is a single command that changes the shell. The exception is a
definition that is read differently from the two lines. -/
theorem alias_transparent_iff (loader : Loader) (shell : Shell) (machine : Machine) (line : Text)
    (plain : shell.aliases.table.get? (firstWord (expandAlias shell.aliases.table line)) = none)
    (stage : Stage) (background : Bool) (command : Builtin)
    (named : Builtin.ofName? stage.name = some command) (mutates : command.mutates = true) :
    let effective := expandAlias shell.aliases.table line
    let after := shell.remembering effective machine
    after.1.reading effective after.2 = .ok ⟨[stage], background⟩ →
      shell.Steady machine line effective →
        ((shell.execute loader line machine).1.SameMemory
            (shell.execute loader effective machine).1 ↔
          (command = .defineAlias → stage.argv.drop 1 ≠ [] → after.1.Opens stage after.2 →
            shell.aliases.table.insertLines [Builtin.lineBody line] =
              shell.aliases.table.insertLines [Builtin.lineBody effective])) := by
  intro effective after read steady
  let typed := shell.remembering line machine
  have alike : typed.1.Alike after.1 typed.2 after.2 := steady.alike
  have filled : isBlankText effective = false := by
    refine Bool.eq_false_iff.mpr fun blank => ?_
    have nothing : after.1.reading effective after.2 = .ok ⟨[], false⟩ := parse_blank blank
    cases nothing.symm.trans read
  -- Wildcards see the history file after both lines or after neither.
  have names : typed.1.visibleNames typed.2 = after.1.visibleNames after.2 :=
    alike.twins.textNames _ _
  have expanded : typed.1.reading line typed.2 = .ok ⟨[stage], background⟩ := by
    rw [← read, reading, names]
    exact (parse_expandAlias filled plain).symm
  obtain ⟨one, first, left⟩ :=
    (shell.execute_carried loader line machine).of_own expanded named mutates
  obtain ⟨two, second, right⟩ :=
    (shell.execute_carried loader effective machine).of_own read named mutates
  have agree := alike.runsHere_iff first second
  rw [alike.opens, tableAfter_eq_iff] at agree
  rw [left, right]
  exact agree.trans ⟨fun same defines given opens => same opens defines given,
    fun same opens defines given => same defines given opens⟩

/-- An alias for the word `alias` leaves the definition as it was entered. -/
theorem definition_behind_alias_kept :
    let scope := JobScope.plain .idle .empty []
    let shell := { scope.shell with aliases := ⟨⟨[⟨"al".toList, "alias".toList⟩], 8⟩, none⟩ }
    (shell.execute .idle "al x='1'".toList scope.machine).1.SameMemory
      (shell.execute .idle "alias x='1'".toList scope.machine).1 := by
  intro scope shell
  have agree := alias_transparent_iff .idle shell scope.machine "al x='1'".toList rfl
    ⟨["alias".toList, "x='1'".toList], none, none⟩ false .defineAlias rfl rfl rfl
    (Or.inr fun _ inside => nomatch inside)
  exact agree.mpr fun _ _ _ => rfl

/-- A definition that stands in the text of an alias is not found in the line that was
entered. -/
theorem definition_in_alias_lost :
    let scope := JobScope.plain .idle .empty []
    let shell := { scope.shell with aliases := ⟨⟨[⟨"dx".toList, "alias x='1'".toList⟩], 8⟩, none⟩ }
    expandAlias shell.aliases.table "dx".toList = "alias x='1'".toList ∧
      shell.aliases.table.get? (firstWord "alias x='1'".toList) = none ∧
      shell.reading "alias x='1'".toList scope.machine =
        .ok ⟨[⟨["alias".toList, "x='1'".toList], none, none⟩], false⟩ ∧
      (shell.execute .idle "alias x='1'".toList scope.machine).1.aliases.table.get? "x".toList =
        some "1".toList ∧
      (shell.execute .idle "dx".toList scope.machine).1.aliases.table.get? "x".toList = none ∧
      ¬ (shell.execute .idle "dx".toList scope.machine).1.SameMemory
        (shell.execute .idle "alias x='1'".toList scope.machine).1 := by
  intro scope shell
  have lost : (shell.execute .idle "dx".toList scope.machine).1.aliases.table.get? "x".toList =
      none := rfl
  have made : (shell.execute .idle "alias x='1'".toList scope.machine).1.aliases.table.get?
      "x".toList = some "1".toList := rfl
  refine ⟨rfl, rfl, rfl, made, lost, fun same => ?_⟩
  rw [same.aliases, made] at lost
  cases lost

end Shell

end CommandShell
