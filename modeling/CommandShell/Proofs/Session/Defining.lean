import CommandShell.Proofs.Alias.Persistence
import CommandShell.Proofs.Command.Words
import CommandShell.Proofs.Session.Execution

/-!
Lines that define an alias. The line is read twice: its words say what runs and where its
streams lead, and the definition is taken from the line as a whole. Quotes mean nothing to the
first reading, so a bar in the text ends the stage and a sign in it redirects the command.
Where the first reading still comes to the one command with something to define, the second
gets the text as it was entered; else the aliases are left alone.
-/
namespace CommandShell

def definitionLine (name text : Text) : Text :=
  "alias ".toList ++ AliasEntry.print ⟨name, text⟩

/-! The words of the line. -/

theorem quote_ordinary : Ordinary '\'' := by
  unfold Ordinary
  decide

/-- The first word is the command, and there is at least one word more, which ends in the
closing quote. -/
theorem expandWords_definitionLine (names : List Text) (name text : Text) :
    ∃ middle final, expandWords names (definitionLine name text) =
      "alias".toList :: (middle ++ [final]) ∧ final.getLast? = some '\'' := by
  let front : Text := name ++ '=' :: '\'' :: text
  have whole : definitionLine name text = "alias".toList ++ ' ' :: (front ++ ['\'']) := by
    rw [← AliasEntry.print_concat]
    rfl
  obtain ⟨others, last, ends⟩ := words_append_last (c := '\'') rfl front
  have cut : words (definitionLine name text) = "alias".toList :: (others ++ [last ++ ['\'']]) := by
    rw [whole, words_append_blank rfl, ends]
    rfl
  have quoted : (last ++ ['\'']).getLast? = some '\'' := List.getLast?_concat
  have expanded := expandWildcard_last names quoted quote_ordinary
  rcases (expandWildcard names (last ++ ['\''])).eq_nil_or_concat with nothing | ⟨more, final, same⟩
  · exact absurd nothing (expandWildcard_ne_nil names _)
  · rw [List.concat_eq_append] at same
    refine ⟨others.flatMap (expandWildcard names) ++ more, final, ?_, ?_⟩
    · rw [expandWords, cut, List.flatMap_cons, List.flatMap_append, List.flatMap_singleton, same,
        expandWildcard_tame names _ rfl]
      simp
    · exact expanded final (by rw [same]; simp)

theorem expandAlias_definitionLine {table : AliasTable}
    (unaliased : table.get? "alias".toList = none) (name text : Text) :
    expandAlias table (definitionLine name text) = definitionLine name text := by
  have solid : (trimStart (definitionLine name text)).isEmpty = false := rfl
  have first : ((trimStart (definitionLine name text)).takeWhile fun c => !isBlank c) =
      "alias".toList := rfl
  simp only [expandAlias, solid, first, unaliased, Bool.false_eq_true, if_false]

theorem readWords_begins {stage first : Stage} {others : List Stage} {words : List Text}
    (read : readWords stage words = .ok (first :: others)) : stage.argv <+: first.argv := by
  induction words using reading_induction generalizing stage first others with
  | nothing =>
      rw [readWords_nil] at read
      split at read
      · cases read
      · cases read
        exact List.prefix_refl _
  | bar rest ih =>
      rw [readWords_bar] at read
      split at read
      · cases read
      · cases tail : readWords Stage.empty rest with
        | error cause =>
            rw [tail] at read
            cases read
        | ok stages =>
            rw [tail] at read
            cases read
            exact List.prefix_refl _
  | redirect kind target rest plain ih =>
      rw [readWords_redirect stage kind target rest plain] at read
      have later := ih read
      cases kind with
      | input => exact later
      | output => exact later
  | lacking kind rest lacking =>
      rw [readWords_lacking stage kind rest lacking] at read
      cases read
  | word text rest plain ih =>
      rw [readWords_word stage text rest plain] at read
      exact (List.prefix_append _ _).trans (ih read)

theorem readWords_plain {words : List Text} (plain : ∀ word ∈ words, Plain word) {stage : Stage}
    (begun : stage.argv ≠ []) :
    readWords stage words = .ok [{ stage with argv := stage.argv ++ words }] := by
  induction words generalizing stage with
  | nil =>
      rw [readWords_nil, if_neg begun, List.append_nil]
  | cons word rest ih =>
      have first := plain word List.mem_cons_self
      have others := fun other inside => plain other (List.mem_cons_of_mem word inside)
      have more : (stage.addWord word).argv ≠ [] := by simp [Stage.addWord]
      rw [readWords_word stage word rest first, ih others more, Stage.addWord]
      simp

namespace Shell

variable {shell : Shell} {machine : Machine} {name text : Text}

theorem reading_definitionLine (machine : Machine)
    (unaliased : shell.aliases.table.get? "alias".toList = none)
    (name text : Text) :
    ∃ rest, expandWords (shell.visibleNames machine) (definitionLine name text) =
        "alias".toList :: rest ∧ rest ≠ [] ∧
      shell.reading (definitionLine name text) machine =
        (readWords ⟨["alias".toList], none, none⟩ rest).map (⟨·, false⟩) := by
  obtain ⟨middle, final, expanded, quoted⟩ :=
    expandWords_definitionLine (shell.visibleNames machine) name text
  -- The last word ends in a quote, so the job is not sent to the background.
  have foreground : ("alias".toList :: (middle ++ [final])).getLast? ≠ some ampersand := by
    rw [← List.cons_append, List.getLast?_concat]
    intro same
    rw [Option.some.inj same] at quoted
    cases quoted
  have nowhere : (("alias".toList :: (middle ++ [final])).getLast? == some ampersand) = false :=
    beq_false_of_ne foreground
  refine ⟨middle ++ [final], expanded, by simp, ?_⟩
  rw [reading, Pipeline.parse, expandAlias_definitionLine unaliased, expanded, ofWords_eq, nowhere,
    CommandShell.foreground, if_neg foreground, if_neg (List.cons_ne_nil _ _),
    readWords_word _ _ _ (by decide)]
  rfl

theorem named_definitionLine (unaliased : shell.aliases.table.get? "alias".toList = none)
    {stage : Stage} {background : Bool}
    (read : shell.reading (definitionLine name text) machine = .ok ⟨[stage], background⟩) :
    Builtin.ofName? stage.name = some .defineAlias := by
  obtain ⟨rest, -, -, same⟩ := reading_definitionLine machine unaliased name text
  rw [same] at read
  cases stages : readWords ⟨["alias".toList], none, none⟩ rest with
  | error cause =>
      rw [stages] at read
      cases read
  | ok found =>
      rw [stages] at read
      cases read
      -- Whatever the other words are, the stage begins with the one before them.
      obtain ⟨more, begins⟩ := readWords_begins stages
      refine Builtin.ofName?_eq_some.mpr ?_
      rw [Stage.name, ← begins]
      rfl

theorem reading_plain (unaliased : shell.aliases.table.get? "alias".toList = none)
    (plain : ∀ word ∈ expandWords (shell.visibleNames machine) (definitionLine name text),
      Plain word) :
    ∃ rest, rest ≠ [] ∧ shell.reading (definitionLine name text) machine =
      .ok ⟨[⟨"alias".toList :: rest, none, none⟩], false⟩ := by
  obtain ⟨rest, expanded, filled, same⟩ :=
    reading_definitionLine machine unaliased name text
  rw [expanded] at plain
  have others := fun word inside => plain word (List.mem_cons_of_mem _ inside)
  refine ⟨rest, filled, ?_⟩
  rw [same, readWords_plain others (by decide)]
  rfl

end Shell

theorem Builtin.runDefineAlias_ok {shell : Shell} {arguments : List Text} {line : Text}
    {machine : Machine} {entry : AliasEntry} {next : AliasTable} {written : FileTree}
    (given : arguments ≠ []) (defines : AliasEntry.define? (lineBody line) = some entry)
    (inserted : shell.aliases.table.insert entry.name entry.text = .ok next)
    (persisted : ({ shell.aliases with table := next } : AliasStore).persist machine.tree shell.cwd =
      .ok written) :
    runDefineAlias shell arguments line machine =
      ⟨.ok (), { shell with aliases := { shell.aliases with table := next } },
        machine.withTree written⟩ := by
  have filled : arguments.isEmpty = false := List.isEmpty_eq_false_iff.mpr given
  simp only [runDefineAlias, filled, Bool.false_eq_true, if_false, defines, AliasStore.define,
    inserted, AliasStore.commit, persisted, aliasOutcome]
  rfl

namespace Shell

/-- The file that the aliases are kept in. -/
def aliasesAt? (shell : Shell) (machine : Machine) : Option Location :=
  shell.aliases.file.bind fun path => machine.tree.writesAt? shell.cwd path

/-- An alias of this name can be defined. -/
structure Definable (shell : Shell) (machine : Machine) (name : Text) : Prop where
  valid : ValidName name
  apart : '=' ∉ name
  unaliased : shell.aliases.table.get? "alias".toList = none
  room : shell.aliases.table.has name = true ∨
    shell.aliases.table.entries.length < shell.aliases.table.capacity
  writable : ∀ path ∈ shell.aliases.file, ∃ arrival,
    machine.tree.writeTarget shell.cwd path = .ok arrival

/-- The name stands for the text, and that is all that has changed, beside the history: every
other entry is as it was, no process was started, and no file was written but the given ones. -/
structure Defined (shell : Shell) (machine : Machine) (name text : Text)
    (files : List (Option Location)) (left : Shell × Machine) : Prop where
  known : left.1.aliases.table.get? name = some text
  others : left.1.aliases.table.entries.filter (fun entry => entry.name != name) =
    shell.aliases.table.entries.filter fun entry => entry.name != name
  pids : left.2.nextPid = machine.nextPid
  elsewhere : ∀ location, some location ∉ files →
    left.2.tree.node? location = machine.tree.node? location

/-- Where the output of a stage goes. -/
def targetAt? (shell : Shell) (stage : Stage) (machine : Machine) : Option Location :=
  stage.output.bind fun path => machine.tree.writesAt? shell.cwd (encode path)

/-- The file that the output goes to has been made or emptied. If it is the file of the aliases,
that has been written since. -/
def Emptied (shell : Shell) (stage : Stage) (machine left : Machine) : Prop :=
  ∀ location, shell.targetAt? stage machine = some location →
    shell.aliasesAt? machine ≠ some location →
      ∃ mode, left.tree.node? location = some (.file [] mode)

variable {shell : Shell} {machine : Machine} {name text : Text}

theorem lineBody_definitionLine (valid : ValidName name) (text : Text) :
    Builtin.lineBody (definitionLine name text) = AliasEntry.print ⟨name, text⟩ := by
  have body : Builtin.lineBody (definitionLine name text) =
      trim (AliasEntry.print ⟨name, text⟩) := rfl
  rw [body, AliasEntry.print_concat]
  apply trim_solid
  · intro c first
    obtain ⟨head, rest, same⟩ := List.exists_cons_of_ne_nil valid.filled
    rw [same] at first
    cases first
    exact valid.unbroken _ (same ▸ List.mem_cons_self)
  · intro c last
    rw [List.getLast?_concat] at last
    cases last
    rfl

theorem define_definitionLine (definable : shell.Definable machine name) (text : Text) :
    AliasEntry.define? (Builtin.lineBody (definitionLine name text)) = some ⟨name, text⟩ := by
  rw [lineBody_definitionLine definable.valid, AliasEntry.define?_print definable.apart,
    definable.valid.trim_eq]

theorem Definable.remembering (definable : shell.Definable machine name) (line : Text) :
    (shell.remembering line machine).1.Definable (shell.remembering line machine).2 name := by
  refine ⟨definable.valid, definable.apart, definable.unaliased, definable.room, ?_⟩
  intro path file
  obtain ⟨arrival, target⟩ := definable.writable path file
  obtain ⟨again, there, -⟩ :=
    FileTree.writeTarget_grown (shell.remembering_remembers line machine).grown target
  exact ⟨again, there⟩

theorem Definable.aliasesAt?_remembering (definable : shell.Definable machine name) (line : Text) :
    (shell.remembering line machine).1.aliasesAt? (shell.remembering line machine).2 =
      shell.aliasesAt? machine := by
  cases file : shell.aliases.file with
  | none => simp only [aliasesAt?, Shell.remembering, record, file, Option.bind_none]
  | some path =>
      obtain ⟨arrival, target⟩ := definable.writable path file
      have same := FileTree.writesAt?_grown (shell.remembering_remembers line machine).grown target
      have kept : (shell.remembering line machine).1.aliases.file = some path := file
      rw [aliasesAt?, aliasesAt?, kept, file, Option.bind_some, Option.bind_some]
      exact same

/-- The command to define, with words that are left and targets that open, defines what the
line says. -/
theorem Definable.runs (definable : shell.Definable machine name) {stage : Stage} {line : Text}
    {done : Except Trouble Unit × Shell × Machine}
    (defines : AliasEntry.define? (Builtin.lineBody line) = some ⟨name, text⟩)
    (given : stage.argv.drop 1 ≠ []) (opens : shell.Opens stage machine)
    (runs : shell.RunsHere .defineAlias stage line machine done) :
    done.1 = .ok () ∧
      shell.Defined machine name text
        [shell.aliasesAt? machine, shell.targetAt? stage machine] done.2 ∧
          shell.Emptied stage machine done.2.2 := by
  cases runs with
  | refused trouble table left denied => exact absurd opens denied
  | ran table back left done granted opened runs =>
      obtain ⟨next, inserted, known, others⟩ :=
        AliasTable.insert_defines definable.valid definable.room text
      -- Opening the output has not moved the file of the aliases either.
      have target : ∀ path ∈ shell.aliases.file, ∃ arrival,
          left.tree.writeTarget shell.cwd path = .ok arrival ∧
            left.tree.writesAt? shell.cwd path = machine.tree.writesAt? shell.cwd path := by
        intro path file
        obtain ⟨arrival, before⟩ := definable.writable path file
        obtain ⟨again, after, -⟩ := FileTree.writeTarget_grown opened.grown before
        exact ⟨again, after, FileTree.writesAt?_grown opened.grown before⟩
      obtain ⟨written, persisted, elsewhere⟩ :=
        AliasStore.persist_ok { shell.aliases with table := next }
          fun path file => (target path file).imp fun _ found => found.1
      have outcome : Builtin.run .defineAlias (shell.withDescriptors table) (stage.argv.drop 1)
          line left = ⟨.ok (), { shell.withDescriptors table with
            aliases := { shell.aliases with table := next } }, left.withTree written⟩ :=
        Builtin.runDefineAlias_ok given defines inserted persisted
      rw [outcome] at runs
      subst runs
      have unwritten : ∀ location, shell.aliasesAt? machine ≠ some location →
          written.node? location = left.tree.node? location := by
        refine fun location apart => elsewhere location fun path file here => apart ?_
        rw [aliasesAt?, show shell.aliases.file = some path from file, Option.bind_some]
        obtain ⟨_, -, same⟩ := target path file
        exact same.symm.trans here
      refine ⟨rfl, ⟨known, others, opened.pids, fun location apart => ?_⟩, ?_⟩
      · simp only [List.mem_cons, List.not_mem_nil, or_false, not_or] at apart
        have emptied := opened.elsewhere fun path file here => apart.2 <| by
          rw [targetAt?, show stage.output = some path from file, Option.bind_some]
          exact here.symm
        exact (unwritten location (Ne.symm apart.1)).trans emptied
      · intro location leads apart
        obtain ⟨path, file, leads⟩ := Option.bind_eq_some_iff.mp leads
        obtain ⟨after, old, mode, emptied, stands⟩ := FileTree.editFile_written leads fun _ => []
        cases (opened.emptied path file).symm.trans emptied
        exact ⟨mode, (unwritten location apart).trans stands⟩

theorem Defined.of_remembering {line : Text} {files : List (Option Location)}
    {left : Shell × Machine}
    (defined : (shell.remembering line machine).1.Defined (shell.remembering line machine).2 name
      text files left) :
    shell.Defined machine name text (shell.historyAt? machine :: files) left := by
  refine ⟨defined.known, defined.others, defined.pids, fun location apart => ?_⟩
  rw [List.mem_cons, not_or] at apart
  exact (defined.elsewhere location apart.2).trans
    ((shell.remembering_remembers line machine).elsewhere (Ne.symm apart.1))

theorem defined_of_opens (loader : Loader) (definable : shell.Definable machine name)
    (text : Text) {stage : Stage} {background : Bool} :
    let line := definitionLine name text
    let after := shell.remembering line machine
    after.1.reading line after.2 = .ok ⟨[stage], background⟩ → stage.argv.drop 1 ≠ [] →
      after.1.Opens stage after.2 →
        shell.Defined machine name text [shell.historyAt? machine, shell.aliasesAt? machine,
          after.1.targetAt? stage after.2] (shell.execute loader line machine) ∧
            after.1.Emptied stage after.2 (shell.execute loader line machine).2 := by
  intro line after read given opens
  obtain ⟨⟨result, left⟩, runs, executed⟩ :=
    (shell.execute_carried loader line machine).of_own read
      (named_definitionLine definable.unaliased read) rfl
  obtain ⟨fine, defined, emptied⟩ :=
    (definable.remembering line).runs (define_definitionLine definable text) given opens runs
  have quiet : result = .ok () := fine
  subst quiet
  rw [definable.aliasesAt?_remembering line] at defined
  rw [executed]
  exact ⟨defined.of_remembering, emptied⟩

theorem kept_of_refused (loader : Loader)
    (unaliased : shell.aliases.table.get? "alias".toList = none) (text : Text) :
    let line := definitionLine name text
    let after := shell.remembering line machine
    (¬ ∃ stage background, after.1.reading line after.2 = .ok ⟨[stage], background⟩ ∧
        stage.argv.drop 1 ≠ [] ∧ after.1.Opens stage after.2) →
      (shell.execute loader line machine).1.aliases = shell.aliases := by
  intro line after otherwise
  have carried := shell.execute_carried loader line machine
  generalize shell.execute loader line machine = left at carried ⊢
  cases carried with
  | unread => rfl
  | apart => rfl
  | own stage background command done read named mutates runs =>
      cases runs with
      | refused => rfl
      | ran table back met done granted opened ran =>
          have leaves := (Builtin.run_leaves (after.1.withDescriptors table) (stage.argv.drop 1)
            line met command).aliases
          rw [ran] at leaves
          cases named.symm.trans (named_definitionLine unaliased read)
          -- Nothing is left to define, so the aliases are only listed.
          have nothing : stage.argv.drop 1 = [] := by
            by_contra given
            exact otherwise ⟨stage, background, read, given, granted⟩
          rw [nothing] at leaves
          exact leaves

/-- What a line that defines an alias does, whatever the text. When no word of it is a sign,
the name stands for the text and nothing else has changed. When the signs among its words
still leave the command with something to define, the same holds but for the file
that the output is sent to, which is made or emptied. Else the aliases are left alone. -/
theorem definitionLine_defines (loader : Loader) (shell : Shell) (machine : Machine)
    (name text : Text) (definable : shell.Definable machine name) :
    let line := definitionLine name text
    let after := shell.remembering line machine
    let left := shell.execute loader line machine
    ((∀ word ∈ expandWords (after.1.visibleNames after.2) line, Plain word) →
        shell.Defined machine name text
          [shell.historyAt? machine, shell.aliasesAt? machine] left) ∧
      (∀ stage background, after.1.reading line after.2 = .ok ⟨[stage], background⟩ →
        stage.argv.drop 1 ≠ [] → after.1.Opens stage after.2 →
          shell.Defined machine name text [shell.historyAt? machine, shell.aliasesAt? machine,
            after.1.targetAt? stage after.2] left ∧ after.1.Emptied stage after.2 left.2) ∧
      ((¬ ∃ stage background, after.1.reading line after.2 = .ok ⟨[stage], background⟩ ∧
          stage.argv.drop 1 ≠ [] ∧ after.1.Opens stage after.2) →
        left.1.aliases = shell.aliases) := by
  intro line after left
  refine ⟨fun plain => ?_, fun stage background read given opens => ?_, fun otherwise => ?_⟩
  · obtain ⟨rest, filled, read⟩ := reading_plain definable.unaliased plain
    have opens : after.1.Opens ⟨"alias".toList :: rest, none, none⟩ after.2 :=
      ⟨granted_none _, granted_none _⟩
    obtain ⟨⟨known, others, pids, elsewhere⟩, -⟩ :=
      defined_of_opens loader definable text read filled opens
    refine ⟨known, others, pids, fun location apart => elsewhere location ?_⟩
    have nowhere : after.1.targetAt? ⟨"alias".toList :: rest, none, none⟩ after.2 = none := rfl
    rw [nowhere]
    simpa using apart
  · exact defined_of_opens loader definable text read given opens
  · exact kept_of_refused loader definable.unaliased text otherwise

/-- A text of two words is defined as it was entered, and the file of the aliases is made. -/
theorem two_words_defined :
    let scope := JobScope.plain .idle .empty []
    let shell := { scope.shell with aliases := ⟨⟨[], 8⟩, some [97]⟩ }
    shell.Definable scope.machine "ll".toList ∧
      shell.Defined scope.machine "ll".toList "ls -l".toList [none, some [[97]]]
        (shell.execute .idle (definitionLine "ll".toList "ls -l".toList) scope.machine) := by
  intro scope shell
  have target : scope.machine.tree.writeTarget shell.cwd [97] = .ok (.absent [] [97]) := by
    have walked : FileTree.empty.walk .write mostLinks [] [[97]] = .ok (.absent [] [97]) := by
      rw [FileTree.walk]
      rfl
    exact FileTree.writeTarget_eq_ok.mpr ⟨walked, by simp⟩
  have definable : shell.Definable scope.machine "ll".toList := by
    refine ⟨by decide, by decide, rfl, .inr (by decide), ?_⟩
    rintro _ ⟨⟩
    exact ⟨_, target⟩
  have file : shell.aliasesAt? scope.machine = some [[97]] := FileTree.writesAt?_eq target
  have defines := definitionLine_defines .idle shell scope.machine "ll".toList "ls -l".toList
    definable
  have cut : expandWords (shell.visibleNames scope.machine)
      (definitionLine "ll".toList "ls -l".toList) =
        ["alias".toList, "ll='ls".toList, "-l'".toList] := rfl
  have plain : ∀ word ∈ ["alias".toList, "ll='ls".toList, "-l'".toList], Plain word := by decide
  rw [file] at defines
  exact ⟨definable, defines.1 fun word inside => plain word (cut ▸ inside)⟩

/-- A bar between blanks ends the command, and the text is not defined. -/
theorem bar_in_text_lost :
    let scope := JobScope.plain .idle .empty []
    let line := definitionLine "g".toList "a | b".toList
    scope.shell.Definable scope.machine "g".toList ∧
      (scope.shell.execute .idle line scope.machine).1.aliases.table.get? "g".toList = none := by
  intro scope line
  have definable : scope.shell.Definable scope.machine "g".toList :=
    ⟨by decide, by decide, rfl, .inr (by decide),
      fun path kept => absurd kept (Option.not_mem_none path)⟩
  have read : (scope.shell.remembering line scope.machine).1.reading line
      (scope.shell.remembering line scope.machine).2 =
        .ok ⟨[⟨["alias".toList, "g='a".toList], none, none⟩, ⟨["b'".toList], none, none⟩], false⟩ :=
    rfl
  have kept := kept_of_refused .idle definable.unaliased "a | b".toList <| by
    rintro ⟨_, _, single, -⟩
    cases read.symm.trans single
  refine ⟨definable, ?_⟩
  rw [kept]
  rfl

end Shell

end CommandShell
