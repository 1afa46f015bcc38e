import CommandShell.Proofs.Alias.Definition
import CommandShell.Proofs.Command.Structure
import CommandShell.Proofs.Session.Course
import Mathlib.Data.List.TakeWhile

/-!
Entering a single word, and what the shell says the word means. What happens is decided on
the way through the shell: an alias text takes the word's place first, then a built-in
command of that name runs, then a program that is found. The explanation asks for a
built-in command first.
-/
namespace CommandShell

/-- A word that a line can consist of: without blanks and wildcards, and no sign. -/
structure SingleWord (word : Text) : Prop where
  filled : word ≠ []
  unbroken : word.any isBlank = false
  tame : hasWildcard word = false
  plain : Plain word
  foreground : word ≠ ampersand

namespace SingleWord

variable {word : Text}

theorem not_blank_of_mem (single : SingleWord word) : ∀ c ∈ word, isBlank c = false :=
  fun c inside => Bool.eq_false_iff.mpr (List.any_eq_false.mp single.unbroken c inside)

theorem words_eq (single : SingleWord word) : words word = [word] :=
  ValidName.words_eq ⟨single.filled, single.not_blank_of_mem⟩

theorem expandWords_eq (single : SingleWord word) (names : List Text) :
    expandWords names word = [word] := by
  rw [expandWords, single.words_eq, List.flatMap_singleton,
    expandWildcard_tame names word single.tame]

theorem ofWords_eq (single : SingleWord word) :
    Pipeline.ofWords [word] = .ok ⟨[⟨[word], none, none⟩], false⟩ := by
  have foreground := single.foreground
  simp [Pipeline.ofWords, foreground, ofWord_plain single.plain, readStages, Stage.addWord,
    Stage.empty]

theorem not_blank (single : SingleWord word) : isBlankText word = false := by
  obtain ⟨first, rest, rfl⟩ := List.exists_cons_of_ne_nil single.filled
  have filled : isBlank first = false := single.not_blank_of_mem first (List.mem_cons_self ..)
  simp [isBlankText, filled]

theorem expandAlias_eq (single : SingleWord word) (table : AliasTable) :
    expandAlias table word = (table.get? word).getD word := by
  have body : trimStart word = word := by
    obtain ⟨first, rest, rfl⟩ := List.exists_cons_of_ne_nil single.filled
    have filled : isBlank first = false := single.not_blank_of_mem first (List.mem_cons_self ..)
    simp [trimStart, filled]
  have name : word.takeWhile (fun c => !isBlank c) = word :=
    List.takeWhile_eq_self_iff.mpr fun c inside => by simp [single.not_blank_of_mem c inside]
  have behind : word.dropWhile (fun c => !isBlank c) = [] :=
    List.dropWhile_eq_nil_iff.mpr fun c inside => by simp [single.not_blank_of_mem c inside]
  unfold expandAlias
  simp only [body, name, behind, List.append_nil]
  rw [if_neg (by simpa using single.filled)]
  cases table.get? word <;> rfl

end SingleWord

namespace Shell

def remembering (shell : Shell) (line : Text) (machine : Machine) : Shell × Machine :=
  (shell.record machine line).2

theorem record_samePrograms (shell : Shell) (line : Text) (machine : Machine) :
    machine.tree.SamePrograms (shell.remembering line machine).2.tree := by
  have same : machine.tree.SamePrograms machine.tree := fun _ => .same _
  simp only [remembering, record, HistoryStore.record]
  split
  · simp only [HistoryStore.append]
    split
    · exact same
    · split
      · next written => exact FileTree.editFile_samePrograms written
      · exact same
  · exact same

theorem execute_remembering (loader : Loader) (shell : Shell) {line : Text}
    (filled : isBlankText line = false) (machine : Machine) :
    let after := shell.remembering line machine
    shell.execute loader line machine =
      after.1.carryOut loader (expandAlias after.1.aliases.table line) line after.2 := by
  unfold execute
  rw [if_neg (Bool.eq_false_iff.mp filled)]
  rfl

theorem execute_enacts (loader : Loader) (shell : Shell) {word : Text} (single : SingleWord word)
    (machine : Machine) :
    let after := shell.remembering word machine
    after.1.Enacts loader word after.2 (shell.execute loader word machine)
      (after.1.course after.2 word) := by
  intro after
  rw [execute_remembering loader shell single.not_blank, single.expandAlias_eq]
  cases aliased : after.1.aliases.table.get? word with
  | some text =>
      simp only [course, aliased, Enacts]
      rfl
  | none =>
      have parsed := single.expandWords_eq (after.1.visibleNames after.2)
      have carried : after.1.carryOut loader word word after.2 =
          after.1.perform loader (singleStage word) word after.2 := by
        simp only [carryOut, parsed, single.ofWords_eq]
        rfl
      rw [Option.getD_none, carried]
      exact perform_enacts loader after.1 word after.2 aliased

theorem search_remembering (shell : Shell) (line : Text) (machine : Machine) (word : Text)
    (path : Path) :
    shell.search machine word = .found path ↔
      (shell.remembering line machine).1.search (shell.remembering line machine).2 word =
        .found path :=
  findCommand_samePrograms (shell.record_samePrograms line machine) shell.cwd shell.searchPath
    word path

/-- The course that a word takes when it is entered. -/
def entered (shell : Shell) (machine : Machine) (word : Text) : Course :=
  (shell.remembering word machine).1.course (shell.remembering word machine).2 word

theorem nothing_found {shell : Shell} {machine : Machine} {word : Text}
    (unaliased : shell.aliases.table.get? word = none) (unnamed : Builtin.ofName? word = none)
    (missed : ∀ path, shell.search machine word ≠ .found path) :
    shell.course machine word = .nothing ∧ shell.meaning? machine word = none := by
  cases searched : shell.search machine word with
  | found path => exact absurd searched (missed path)
  | notFound => simp only [course, programOf, meaning?, unaliased, unnamed, searched, and_self]
  | notExecutable path => simp only [course, programOf, meaning?, unaliased, unnamed, searched, and_self]

/-- The meaning that a word is given, beside the course that it takes. -/
inductive Told (word : Text) : Course → Option Meaning → Prop
  | builtin {command : Builtin} (named : Builtin.ofName? word = some command) :
      Told word (.command command) (some (.builtin command))
  /-- The meaning looks past an alias that the course has taken. -/
  | shadowed {command : Builtin} (text : Text) (named : Builtin.ofName? word = some command) :
      Told word (.text text) (some (.builtin command))
  | aliased (text : Text) (unnamed : Builtin.ofName? word = none) :
      Told word (.text text) (some (.aliased text))
  | program (path : Path) : Told word (.file path) (some (.program path))
  | unknown : Told word .nothing none

theorem told (shell : Shell) (machine : Machine) (word : Text) :
    Told word (shell.entered machine word) (shell.meaning? machine word) := by
  have search := shell.search_remembering word machine word
  have aliases : (shell.remembering word machine).1.aliases = shell.aliases := rfl
  cases named : Builtin.ofName? word with
  | some command =>
      have meaning : shell.meaning? machine word = some (.builtin command) := by
        simp only [meaning?, named]
      rw [meaning]
      unfold entered course programOf
      rw [aliases, named]
      cases shell.aliases.table.get? word with
      | some text => exact .shadowed text named
      | none => exact .builtin named
  | none =>
      cases aliased : shell.aliases.table.get? word with
      | some text =>
          simp only [entered, course, meaning?, aliases, aliased, named]
          exact .aliased text named
      | none =>
          -- The searches can fail in two ways before and after, so only what they find
          -- is compared.
          by_cases found : ∃ path, shell.search machine word = .found path
          · obtain ⟨path, early⟩ := found
            have late := (search path).mp early
            simp only [entered, course, programOf, meaning?, aliases, aliased, named, early, late]
            exact .program path
          · have missed := not_exists.mp found
            have late : (shell.remembering word machine).1.aliases.table.get? word = none := aliased
            have missedLate := fun path hit => missed path ((search path).mpr hit)
            rw [entered, (nothing_found late named missedLate).1,
              (nothing_found aliased named missed).2]
            exact .unknown

namespace Told

variable {word : Text} {course : Course} {meaning : Option Meaning}

theorem eq_builtin_iff (told : Told word course meaning) (command : Builtin) :
    meaning = some (.builtin command) ↔ course = .command command ∨
      Builtin.ofName? word = some command ∧ ∃ text, course = .text text := by
  cases told with
  | builtin named => simp
  | shadowed text named => simp [named]
  | aliased text unnamed => simp [unnamed]
  | program path => simp
  | unknown => simp

theorem eq_aliased_iff (told : Told word course meaning) (text : Text) :
    meaning = some (.aliased text) ↔ course = .text text ∧ Builtin.ofName? word = none := by
  cases told with
  | builtin named => simp
  | shadowed other named => simp [named]
  | aliased other unnamed => simp [unnamed]
  | program path => simp
  | unknown => simp

theorem eq_program_iff (told : Told word course meaning) (path : Path) :
    meaning = some (.program path) ↔ course = .file path := by
  cases told <;> simp

theorem eq_none_iff (told : Told word course meaning) : meaning = none ↔ course = .nothing := by
  cases told <;> simp

end Told

/-- What the explanation of a word and the entering of it have to do with each other. -/
structure Explains (loader : Loader) (shell : Shell) (machine : Machine) (word : Text) : Prop where
  enacts : (shell.remembering word machine).1.Enacts loader word (shell.remembering word machine).2
    (shell.execute loader word machine) (shell.entered machine word)
  said : Builtin.runExplain shell [word] machine =
    match shell.meaning? machine word with
    | some meaning =>
        .look shell machine (.ok ()) (lineBytes (word ++ " is ".toList ++ meaning.describe))
    | none => .look shell machine (.error (.unexplained [word])) []
  builtin : ∀ command, shell.meaning? machine word = some (.builtin command) ↔
    shell.entered machine word = .command command ∨
      Builtin.ofName? word = some command ∧ ∃ text, shell.entered machine word = .text text
  aliased : ∀ text, shell.meaning? machine word = some (.aliased text) ↔
    shell.entered machine word = .text text ∧ Builtin.ofName? word = none
  program : ∀ path, shell.meaning? machine word = some (.program path) ↔
    shell.entered machine word = .file path
  unknown : shell.meaning? machine word = none ↔ shell.entered machine word = .nothing

/-- The explanation tells what entering the word comes to, but for built-in commands whose
name has been given to an alias as well. -/
theorem explains_entered (loader : Loader) (shell : Shell) (machine : Machine) {word : Text}
    (single : SingleWord word) : shell.Explains loader machine word := by
  have told := shell.told machine word
  constructor
  case enacts => exact execute_enacts loader shell single machine
  case said =>
    cases known : shell.meaning? machine word <;>
      simp [Builtin.runExplain, known, writeLines]
  case builtin => exact told.eq_builtin_iff
  case aliased => exact told.eq_aliased_iff
  case program => exact told.eq_program_iff
  case unknown => exact told.eq_none_iff

/-- A program of the search path is explained by its path, and its file is what is run. -/
theorem program_explained :
    let scope := JobScope.plain .idle
      ⟨[([encode "bin".toList], .folder folderMode),
        ([encode "bin".toList, encode "tool".toList], .file [] 0o755)]⟩ []
    let shell := { scope.shell with process := { scope.shell.process with
      env := [(encode "PATH".toList, encode "/bin".toList)] } }
    SingleWord "tool".toList ∧ shell.Explains .idle scope.machine "tool".toList ∧
      shell.meaning? scope.machine "tool".toList = some (.program (encode "/bin/tool".toList)) ∧
        shell.entered scope.machine "tool".toList = .file (encode "/bin/tool".toList) := by
  intro scope shell
  have single : SingleWord "tool".toList := ⟨by decide, rfl, rfl, by decide, by decide⟩
  have explains := explains_entered .idle shell scope.machine single
  have walked : scope.machine.tree.walk .use mostLinks []
      [encode "bin".toList, encode "tool".toList] = .ok (.present
        [encode "bin".toList, encode "tool".toList] (.file [] 0o755)) := by
    rw [FileTree.walk]
    change scope.machine.tree.walk .use mostLinks [encode "bin".toList] [encode "tool".toList] = _
    rw [FileTree.walk]
    rfl
  have runs : scope.machine.tree.isExecutable [] (encode "/bin/tool".toList) = true :=
    FileTree.isExecutable_iff.mpr
      ⟨_, _, _, FileTree.arrive_eq_ok.mpr ⟨by decide, walked⟩, rfl⟩
  have searched : shell.search scope.machine "tool".toList = .found (encode "/bin/tool".toList) :=
    findCommand_eq_found.mpr ⟨by decide, List.find?_cons_of_pos runs⟩
  have known : shell.meaning? scope.machine "tool".toList =
      some (.program (encode "/bin/tool".toList)) := by
    unfold meaning?
    rw [searched]
    rfl
  exact ⟨single, explains, known, (explains.program _).mp known⟩

/-- The name of a built-in command that an alias has taken: it is explained as the command,
and the text of the alias is carried out. -/
theorem shadowed_builtin_runs_text :
    let scope := JobScope.plain .idle .empty []
    let shell := { scope.shell with
      aliases := ⟨⟨[⟨"cd".toList, "echo shadowed".toList⟩], 8⟩, none⟩ }
    SingleWord "cd".toList ∧
      shell.meaning? scope.machine "cd".toList = some (.builtin .changeFolder) ∧
        shell.entered scope.machine "cd".toList = .text "echo shadowed".toList ∧
          (shell.execute .idle "cd".toList scope.machine).2.stream standardOutput =
            .outlet (lineBytes "shadowed".toList) := by
  intro scope shell
  exact ⟨⟨by decide, rfl, rfl, by decide, by decide⟩, rfl, rfl, rfl⟩

end Shell

end CommandShell
