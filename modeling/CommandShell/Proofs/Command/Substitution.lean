import CommandShell.Proofs.Alias.OrderedMap
import CommandShell.Proofs.Command.Words
import Mathlib.Data.List.TakeWhile

/-!
Aliases as a substitution of words. The text of an alias is put into the line itself, in the place
of the characters of the first word, and only then the line is cut into words. What follows the
first word begins with a blank if it is not empty, so that no word grows together with the text,
and the words are those of the text and then the others. Blanks make no difference, and the words
of the text are not looked up again.
-/
namespace CommandShell

/-! Words from the left. -/

theorem words_cons_blank {c : Char} (blank : isBlank c = true) (rest : Text) :
    words (c :: rest) = words rest := by
  rw [← List.nil_append (c :: rest), words_append_blank blank]
  rfl

theorem words_trimStart (line : Text) : words (trimStart line) = words line := by
  induction line with
  | nil => rfl
  | cons c rest ih =>
      cases blank : isBlank c with
      | true =>
          rw [trimStart, List.dropWhile_cons_of_pos blank, words_cons_blank blank]
          exact ih
      | false => rw [trimStart, List.dropWhile_cons_of_neg (by simp [blank])]

/-- A text that is empty or begins with a blank goes on with no word. -/
def StandsOff (rest : Text) : Prop :=
  ∀ c ∈ rest.head?, isBlank c = true

instance (rest : Text) : Decidable (StandsOff rest) :=
  decidable_of_iff (rest.head?.all isBlank = true) (by cases rest <;> simp [StandsOff])

theorem words_append_apart {rest : Text} (apart : StandsOff rest) (front : Text) :
    words (front ++ rest) = words front ++ words rest := by
  cases rest with
  | nil => rw [List.append_nil, show words [] = [] from rfl, List.append_nil]
  | cons c rest =>
      have blank : isBlank c = true := apart c rfl
      rw [words_append_blank blank, words_cons_blank blank]

theorem standsOff_dropWhile (line : Text) :
    StandsOff (line.dropWhile fun c => !isBlank c) := by
  intro c begins
  have stops := List.head?_dropWhile_not (fun c => !isBlank c) line
  rw [Option.mem_def.mp begins] at stops
  simpa using stops

theorem words_first {c : Char} (solid : isBlank c = false) (rest : Text) :
    words (c :: rest) = ((c :: rest).takeWhile fun c => !isBlank c) ::
      words ((c :: rest).dropWhile fun c => !isBlank c) := by
  have name : ValidName ((c :: rest).takeWhile fun c => !isBlank c) := by
    constructor
    · simp [solid]
    · intro other inside
      simpa using List.mem_takeWhile_imp inside
  have whole := List.takeWhile_append_dropWhile (p := fun c => !isBlank c) (l := c :: rest)
  calc words (c :: rest)
    _ = words ((c :: rest).takeWhile (fun c => !isBlank c) ++
          (c :: rest).dropWhile fun c => !isBlank c) := by rw [whole]
    _ = _ := by rw [words_append_apart (standsOff_dropWhile _), name.words_eq]; rfl

namespace AliasTable

variable {table : AliasTable} {name text : Text}

/-- The first word gives way to the words of its text, if it is an alias. -/
def substitute (table : AliasTable) : List Text → List Text
  | [] => []
  | first :: others =>
      match table.get? first with
      | some text => words text ++ others
      | none => first :: others

theorem substitute_empty (capacity : Nat) (words : List Text) :
    (empty capacity).substitute words = words := by
  cases words <;> rfl

theorem Proper.validName (proper : table.Proper) (known : table.get? name = some text) :
    ValidName name := by
  by_cases listed : name ∈ table.names
  · exact proper.valid name listed
  · rw [get?_unknown listed] at known
    cases known

end AliasTable

theorem commandWords_eq (table : AliasTable) (line : Text) :
    commandWords table line = table.substitute (words line) := by
  rw [commandWords, expandAlias, ← words_trimStart line]
  cases body : trimStart line with
  | nil => rfl
  | cons c rest =>
      have solid : isBlank c = false := by
        have stops := List.head?_dropWhile_not isBlank line
        rw [show line.dropWhile isBlank = c :: rest from body] at stops
        simpa using stops
      rw [words_first solid]
      simp only [List.isEmpty_cons, Bool.false_eq_true, if_false, AliasTable.substitute]
      cases table.get? ((c :: rest).takeWhile fun c => !isBlank c) with
      | some text => exact words_append_apart (standsOff_dropWhile _) text
      | none =>
          have same := words_trimStart line
          rw [body, words_first solid] at same
          exact same.symm

theorem parse_eq (table : AliasTable) (names : List Text) (line : Text) :
    Pipeline.parse table names line =
      Pipeline.ofWords ((table.substitute (words line)).flatMap (expandWildcard names)) := by
  rw [← commandWords_eq]
  rfl

/-- The words that are expanded are those of the line with the first one substituted. So a line is
read by its words alone; a line that is left blank is the empty pipeline; and an alias of a table
that the program can have stands for its text, whatever follows it and whatever the text itself
begins with. -/
theorem parse_substitutes (table : AliasTable) (names : List Text) :
    (∀ line, commandWords table line = table.substitute (words line) ∧
      Pipeline.parse table names line =
        Pipeline.ofWords ((commandWords table line).flatMap (expandWildcard names))) ∧
      (∀ line other, words line = words other →
        Pipeline.parse table names line = Pipeline.parse table names other) ∧
      (∀ line, isBlankText (expandAlias table line) = true →
        Pipeline.parse table names line = .ok ⟨[], false⟩) ∧
      ∀ capacity store, AliasStore.Reached capacity store → store.table = table →
        ∀ name text rest, table.get? name = some text → StandsOff rest → ∀ room,
          Pipeline.parse table names (name ++ rest) =
            Pipeline.parse (AliasTable.empty room) names (text ++ rest) := by
  refine ⟨fun line => ⟨commandWords_eq table line, rfl⟩, ?_, ?_, ?_⟩
  · intro line other same
    rw [parse_eq, parse_eq, same]
  · intro line blank
    have nothing : commandWords table line = [] :=
      words_eq_nil_iff.mpr (List.all_eq_true.mp blank)
    rw [parse_eq, ← commandWords_eq, nothing]
    rfl
  · rintro capacity store reached rfl name text rest known apart room
    have valid := reached.proper.1.validName known
    have substituted : store.table.substitute (words (name ++ rest)) = words (text ++ rest) := by
      rw [words_append_apart apart, words_append_apart apart, valid.words_eq,
        List.singleton_append, AliasTable.substitute, known]
    rw [parse_eq, parse_eq, substituted, AliasTable.substitute_empty]

/-- An alias whose text begins with its own name, and a blank of three bytes behind the name. -/
theorem alias_of_itself_substituted_once :
    let store := (AliasStore.change [] (AliasStore.ephemeral 1, FileTree.empty)
      (.define "ls".toList "ls -l".toList)).1
    store.table.get? "ls".toList = some "ls -l".toList ∧
      Pipeline.parse store.table [] "ls\u3000a".toList =
        Pipeline.parse (AliasTable.empty 0) [] "ls -l\u3000a".toList := by
  intro store
  have reached : AliasStore.Reached 1 store := .changed _ _ _ .new
  have known : store.table.get? "ls".toList = some "ls -l".toList := by cbv
  have once := (parse_substitutes store.table []).2.2.2 1 store reached rfl "ls".toList
  exact ⟨known, once "ls -l".toList "\u3000a".toList known (by decide) 0⟩

end CommandShell
