import CommandShell.Alias.Store
import CommandShell.Proofs.Alias.Definition
import CommandShell.Proofs.System.Contents
import CommandShell.Proofs.Text.Lines
import Mathlib.Data.List.Nodup
import Mathlib.Data.List.Permutation
import Mathlib.Data.List.TakeWhile

/-!
An alias table over a whole run. Aliases are defined and removed in any order, and each time the
file is written anew. What is carried along is that the table could have been read from lines:
its names are valid, different and without an equals sign, its texts fit on a line, and there
are no more of them than there is room for. Printing such a table and reading the lines
gives it back. A file that nothing was written to yet may hold anything; reading it
again makes the same of it.
-/
namespace CommandShell

theorem trim_subset (text : Text) : trim text ⊆ text := by
  intro c inside
  have front : c ∈ (trimStart text).reverse.dropWhile isBlank := by
    simpa [trim, trimEnd, dropEndWhile] using inside
  have whole : c ∈ trimStart text := List.mem_reverse.mp ((List.dropWhile_sublist _).subset front)
  exact (List.dropWhile_sublist _).subset whole

theorem dropEndWhile_subset {α : Type} (test : α → Bool) (items : List α) :
    dropEndWhile test items ⊆ items := by
  intro item inside
  have front : item ∈ items.reverse.dropWhile test := List.mem_reverse.mp inside
  exact List.mem_reverse.mp ((List.dropWhile_sublist _).subset front)

theorem unquote_subset (text : Text) : unquote text ⊆ text := by
  cases text with
  | nil => exact List.Subset.refl []
  | cons first middle =>
      rw [unquote]
      split
      · exact List.Subset.trans (List.dropLast_subset middle) (List.subset_cons_self first middle)
      · exact List.Subset.refl _

namespace AliasEntry

/-- An entry that can be told from the line it is printed on. -/
structure Printable (entry : AliasEntry) : Prop where
  valid : ValidName entry.name
  apart : '=' ∉ entry.name
  unbroken : '\n' ∉ entry.text

variable {entry : AliasEntry}

theorem Printable.isLine (printable : entry.Printable) : IsLine entry.print := by
  rw [print_eq]
  constructor
  · intro broken
    rcases List.mem_append.mp broken with name | rest
    · have solid := printable.valid.unbroken '\n' name
      cases solid
    · simp [printable.unbroken] at rest
  · rw [← List.cons_append, ← List.cons_append, ← List.append_assoc, List.getLast?_concat]
    decide

theorem define?_parts {line : Text} (defines : define? line = some entry) :
    '=' ∉ entry.name ∧ entry.text ⊆ line := by
  rw [define?] at defines
  split at defines
  · cases defines
  next sign text rest =>
    cases defines
    constructor
    · intro inside
      have before := List.mem_takeWhile_imp (trim_subset _ inside)
      cases before
    · have behind : text ⊆ line := fun c inside =>
        (List.dropWhile_sublist _).subset (rest ▸ List.mem_cons_of_mem sign inside)
      exact List.Subset.trans (unquote_subset _) (List.Subset.trans (dropEndWhile_subset _ text) behind)

end AliasEntry

namespace AliasTable

/-- A table that lines can describe. -/
structure Sound (table : AliasTable) : Prop where
  printable : ∀ entry ∈ table.entries, entry.Printable
  distinct : (table.entries.map AliasEntry.name).Nodup
  fits : table.entries.length ≤ table.capacity

variable {table next : AliasTable} {name text : Text}

theorem has_iff : table.has name = true ↔ name ∈ table.entries.map AliasEntry.name := by
  simp [has]

/-- All that an insertion can do: a new text for a known name, or an entry behind the others. -/
theorem insert_cases (inserted : table.insert name text = .ok next) :
    ValidName (trim name) ∧
      ((table.has (trim name) = true ∧ next = { table with entries := table.entries.map fun entry =>
          if entry.name == (trim name) then ⟨trim name, text⟩ else entry }) ∨
        (table.has (trim name) = false ∧ table.entries.length < table.capacity ∧
          next = { table with entries := table.entries ++ [⟨trim name, text⟩] })) := by
  simp only [insert] at inserted
  by_cases refused : ((trim name).isEmpty || (trim name).any isBlank) = true
  · rw [if_pos refused] at inserted
    cases inserted
  rw [if_neg refused] at inserted
  simp only [Bool.or_eq_true, not_or, List.isEmpty_iff, List.any_eq_true, not_exists, not_and,
    Bool.not_eq_true] at refused
  refine ⟨⟨refused.1, refused.2⟩, ?_⟩
  by_cases known : table.has (trim name) = true
  · rw [if_pos known] at inserted
    exact Or.inl ⟨known, (Except.ok.inj inserted).symm⟩
  rw [if_neg known] at inserted
  by_cases full : table.capacity ≤ table.entries.length
  · rw [if_pos full] at inserted
    cases inserted
  rw [if_neg full] at inserted
  exact Or.inr ⟨Bool.eq_false_iff.mpr known, Nat.lt_of_not_le full, (Except.ok.inj inserted).symm⟩

theorem insert_fresh (valid : ValidName name) (unknown : table.has name = false)
    (room : table.entries.length < table.capacity) (text : Text) :
    table.insert name text = .ok { table with entries := table.entries ++ [⟨name, text⟩] } := by
  simp only [insert, valid.trim_eq, valid.accepted, unknown, Bool.false_eq_true, if_false]
  rw [if_neg (Nat.not_le_of_lt room)]

theorem insert_capacity (inserted : table.insert name text = .ok next) :
    next.capacity = table.capacity := by
  obtain ⟨-, ⟨-, rfl⟩ | ⟨-, -, rfl⟩⟩ := insert_cases inserted
  · rfl
  · rfl

theorem names_replaced (entries : List AliasEntry) (name text : Text) :
    (entries.map fun entry => if entry.name == name then ⟨name, text⟩ else entry).map
      AliasEntry.name = entries.map AliasEntry.name := by
  rw [List.map_map]
  apply List.map_congr_left
  intro entry _
  by_cases here : entry.name = name
  · simp [here]
  · simp [here]

theorem Sound.replace (sound : table.Sound) (fresh : AliasEntry.Printable ⟨name, text⟩) :
    Sound { table with entries := table.entries.map fun entry =>
      if entry.name == name then ⟨name, text⟩ else entry } := by
  constructor
  case printable =>
    intro entry inside
    obtain ⟨old, member, rfl⟩ := List.mem_map.mp inside
    split
    · exact fresh
    · exact sound.printable old member
  case distinct =>
    rw [names_replaced]
    exact sound.distinct
  case fits => simpa using sound.fits

theorem Sound.extend (sound : table.Sound) (fresh : AliasEntry.Printable ⟨name, text⟩)
    (unknown : table.has name = false) (room : table.entries.length < table.capacity) :
    Sound { table with entries := table.entries ++ [⟨name, text⟩] } := by
  constructor
  case printable =>
    intro entry inside
    rcases List.mem_append.mp inside with old | new
    · exact sound.printable entry old
    · rw [List.mem_singleton.mp new]
      exact fresh
  case distinct =>
    have absent : name ∉ table.entries.map AliasEntry.name := fun inside =>
      Bool.eq_false_iff.mp unknown (has_iff.mpr inside)
    rw [List.map_append]
    simpa [List.nodup_append] using ⟨sound.distinct, by simpa using absent⟩
  case fits =>
    rw [List.length_append]
    exact room

theorem Sound.insert (sound : table.Sound) (apart : '=' ∉ name) (unbroken : '\n' ∉ text)
    (inserted : table.insert name text = .ok next) : next.Sound := by
  obtain ⟨valid, taken⟩ := insert_cases inserted
  have fresh : AliasEntry.Printable ⟨trim name, text⟩ :=
    ⟨valid, fun inside => apart (trim_subset name inside), unbroken⟩
  rcases taken with ⟨-, rfl⟩ | ⟨unknown, room, rfl⟩
  · exact sound.replace fresh
  · exact sound.extend fresh unknown room

theorem Sound.erase (sound : table.Sound) (erased : table.erase name = .ok next) :
    next.Sound ∧ next.capacity = table.capacity := by
  rw [AliasTable.erase] at erased
  split at erased
  · cases erased
    have fewer : (table.entries.eraseP fun entry => entry.name == name).Sublist table.entries :=
      List.eraseP_sublist
    refine ⟨⟨?_, ?_, ?_⟩, rfl⟩
    · exact fun entry inside => sound.printable entry (fewer.subset inside)
    · exact sound.distinct.sublist (fewer.map AliasEntry.name)
    · exact fewer.length_le.trans sound.fits
  · cases erased

theorem Sound.empty (capacity : Nat) : (empty capacity).Sound := by
  constructor
  · intro entry inside
    cases inside
  · exact List.nodup_nil
  · exact Nat.zero_le capacity

theorem insertLines_keeps {motive : AliasTable → Prop} {lines : List Text} (before : motive table)
    (step : ∀ line ∈ lines, ∀ entry, AliasEntry.define? line = some entry → ∀ table next,
      motive table → table.insert entry.name entry.text = .ok next → motive next) :
    motive (table.insertLines lines) := by
  induction lines generalizing table with
  | nil => exact before
  | cons line rest ih =>
      have first : motive (table.insertLines [line]) := by
        rw [insertLines_one]
        cases defines : AliasEntry.define? line with
        | none => exact before
        | some entry =>
            simp only
            cases inserted : table.insert entry.name entry.text with
            | error trouble => exact before
            | ok next => exact step line List.mem_cons_self entry defines table next before inserted
      exact ih first fun other inside => step other (List.mem_cons_of_mem line inside)

theorem Sound.insertLines {lines : List Text} (sound : table.Sound)
    (unbroken : ∀ line ∈ lines, '\n' ∉ line) :
    (table.insertLines lines).Sound ∧ (table.insertLines lines).capacity = table.capacity := by
  refine insertLines_keeps (motive := fun later => later.Sound ∧ later.capacity = table.capacity)
    ⟨sound, rfl⟩ ?_
  intro line inside entry defines before next ⟨sound, same⟩ inserted
  obtain ⟨apart, within⟩ := AliasEntry.define?_parts defines
  refine ⟨sound.insert apart ?_ inserted, (insert_capacity inserted).trans same⟩
  exact fun broken => unbroken line inside (within broken)

theorem insertLines_print {capacity : Nat} {front rest : List AliasEntry}
    (sound : Sound ⟨front ++ rest, capacity⟩) :
    (⟨front, capacity⟩ : AliasTable).insertLines (rest.map AliasEntry.print) =
      ⟨front ++ rest, capacity⟩ := by
  induction rest generalizing front with
  | nil =>
      rw [List.append_nil]
      rfl
  | cons entry rest ih =>
      have printable := sound.printable entry (by simp)
      have unknown : (⟨front, capacity⟩ : AliasTable).has entry.name = false := by
        have distinct := sound.distinct
        simp only [List.map_append, List.map_cons, List.nodup_append] at distinct
        refine Bool.eq_false_iff.mpr fun known => ?_
        exact distinct.2.2 _ (has_iff.mp known) _ (List.mem_cons_self ..) rfl
      have room : front.length < capacity := by
        have fits := sound.fits
        simp only [List.length_append, List.length_cons] at fits
        omega
      have first : (⟨front, capacity⟩ : AliasTable).insertLines [entry.print] =
          ⟨front ++ [entry], capacity⟩ := by
        rw [insertLines_one, AliasEntry.define?_print printable.apart, printable.valid.trim_eq]
        simp only [insert_fresh printable.valid unknown room]
        rfl
      have step : (⟨front, capacity⟩ : AliasTable).insertLines
          ((entry :: rest).map AliasEntry.print) =
            ((⟨front, capacity⟩ : AliasTable).insertLines [entry.print]).insertLines
              (rest.map AliasEntry.print) := rfl
      rw [List.append_cons] at sound
      rw [step, first, ih sound, ← List.append_cons]

theorem Sound.fileContent (sound : table.Sound) :
    ∃ lines, textLines? table.fileContent = some lines ∧
      (AliasTable.empty table.capacity).insertLines lines = table := by
  refine ⟨table.entries.map AliasEntry.print, IsLine.textLines?_writeLines ?_, ?_⟩
  · intro line inside
    obtain ⟨entry, member, rfl⟩ := List.mem_map.mp inside
    exact (sound.printable entry member).isLine
  · exact insertLines_print (List.nil_append table.entries ▸ sound)

end AliasTable

inductive AliasChange
  | define (name text : Text)
  | remove (name : Text)
  deriving Repr, DecidableEq

namespace AliasStore

/-- What a change leaves, whether it succeeds or not. -/
def change (cwd : Location) (state : AliasStore × FileTree) : AliasChange → AliasStore × FileTree
  | .define name text => (state.1.define state.2 cwd name text).2
  | .remove name => (state.1.remove state.2 cwd name).2

def changeAll (store : AliasStore) (tree : FileTree) (cwd : Location)
    (changes : List AliasChange) : AliasStore × FileTree :=
  changes.foldl (change cwd) (store, tree)

/-! What a change leaves in memory, and when it is written. -/

theorem commit_store (store : AliasStore) (tree : FileTree) (cwd : Location) (table : AliasTable) :
    (store.commit tree cwd table).2.1 = { store with table := table } := by
  unfold commit
  simp only
  split <;> rfl

theorem define_store (store : AliasStore) (tree : FileTree) (cwd : Location) (name text : Text) :
    (store.define tree cwd name text).2.1 =
      { store with table := (store.table.insert name text).toOption.getD store.table } := by
  unfold define
  split
  · next refused => rw [refused]; rfl
  · next accepted => rw [accepted, commit_store]; rfl

theorem remove_store (store : AliasStore) (tree : FileTree) (cwd : Location) (name : Text) :
    (store.remove tree cwd name).2.1 =
      { store with table := (store.table.erase name).toOption.getD store.table } := by
  unfold remove
  split
  · next refused => rw [refused]; rfl
  · next accepted => rw [accepted, commit_store]; rfl

variable {tree : FileTree} {cwd : Location} {path : Path} {capacity : Nat}

theorem load_eq {content : Option Bytes} {lines : List Text} (stands : tree.Holds cwd path content)
    (read : textLines? (content.getD []) = some lines) (capacity : Nat) :
    load tree cwd path capacity =
      .ok ⟨(AliasTable.empty capacity).insertLines lines, some path⟩ := by
  rw [load, stands.storeLines read]
  rfl

theorem persist_ok (store : AliasStore)
    (writable : ∀ path ∈ store.file, ∃ arrival, tree.writeTarget cwd path = .ok arrival) :
    ∃ written, store.persist tree cwd = .ok written ∧
      ∀ location, (∀ path ∈ store.file, tree.writesAt? cwd path ≠ some location) →
        written.node? location = tree.node? location := by
  unfold persist
  cases file : store.file with
  | none => exact ⟨tree, rfl, fun _ _ => rfl⟩
  | some path =>
      obtain ⟨arrival, target⟩ := writable path file
      have done : tree.editFile cwd path (fun _ => store.table.fileContent) = .ok _ :=
        FileTree.editFile_eq_ok.mpr ⟨arrival, target, rfl⟩
      exact ⟨_, done, fun location apart => FileTree.editFile_elsewhere done (apart path rfl)⟩

/-- What a run keeps: reading the file gives the table. -/
structure Kept (cwd : Location) (path : Path) (capacity : Nat) (state : AliasStore × FileTree) :
    Prop where
  file : state.1.file = some path
  sound : state.1.table.Sound
  room : state.1.table.capacity = capacity
  stands : ∃ content, state.2.Holds cwd path content
  again : load state.2 cwd path capacity = .ok state.1

variable {state : AliasStore × FileTree}

theorem Kept.commit (kept : Kept cwd path capacity state) {next : AliasTable} (sound : next.Sound)
    (room : next.capacity = capacity) :
    Kept cwd path capacity (state.1.commit state.2 cwd next).2 := by
  obtain ⟨content, stands⟩ := kept.stands
  obtain ⟨after, written, held⟩ := stands.writeFile next.fileContent
  have committed : state.1.commit state.2 cwd next = (.ok (), ⟨next, some path⟩, after) := by
    simp only [AliasStore.commit, persist, kept.file, written]
  obtain ⟨lines, read, whole⟩ := sound.fileContent
  rw [room] at whole
  rw [committed]
  constructor
  case file => rfl
  case sound => exact sound
  case room => exact room
  case stands => exact ⟨_, held⟩
  case again => rw [load_eq held read, whole]

theorem Kept.change (kept : Kept cwd path capacity state) {change : AliasChange}
    (clean : ∀ name text, change = .define name text → '=' ∉ name ∧ '\n' ∉ text) :
    Kept cwd path capacity (AliasStore.change cwd state change) := by
  cases change with
  | define name text =>
      obtain ⟨apart, unbroken⟩ := clean name text rfl
      simp only [AliasStore.change, define]
      cases inserted : state.1.table.insert name text with
      | error trouble => exact kept
      | ok next =>
          have room := AliasTable.insert_capacity inserted
          exact kept.commit (kept.sound.insert apart unbroken inserted) (room.trans kept.room)
  | remove name =>
      simp only [AliasStore.change, remove]
      cases erased : state.1.table.erase name with
      | error trouble => exact kept
      | ok next =>
          obtain ⟨sound, room⟩ := kept.sound.erase erased
          exact kept.commit sound (room.trans kept.room)

theorem Kept.changeAll {changes : List AliasChange} (kept : Kept cwd path capacity state)
    (clean : ∀ name text, .define name text ∈ changes → '=' ∉ name ∧ '\n' ∉ text) :
    Kept cwd path capacity (state.1.changeAll state.2 cwd changes) := by
  induction changes generalizing state with
  | nil => exact kept
  | cons change rest ih =>
      apply ih
      · apply kept.change
        rintro name text rfl
        exact clean name text (List.mem_cons_self ..)
      · intro name text inside
        exact clean name text (List.mem_cons_of_mem _ inside)

/-- A file that holds any text, or is still to be made. After any definitions and removals, taken
or refused, reading it gives the aliases in memory again. -/
theorem aliases_reload (tree : FileTree) (cwd : Location) (path : Path) (capacity : Nat)
    (initial : Option Text) (holds : tree.Holds cwd path (initial.map encode))
    (changes : List AliasChange)
    (clean : ∀ name text, .define name text ∈ changes → '=' ∉ name ∧ '\n' ∉ text) :
    ∃ store, load tree cwd path capacity = .ok store ∧
      let after := store.changeAll tree cwd changes
      load after.2 cwd path capacity = .ok after.1 := by
  have read : ∃ lines, textLines? ((initial.map encode).getD []) = some lines ∧
      ∀ line ∈ lines, '\n' ∉ line := by
    cases initial with
    | none => exact exists_textLines []
    | some text => exact exists_textLines text
  obtain ⟨lines, read, unbroken⟩ := read
  have loaded := load_eq holds read capacity
  obtain ⟨sound, room⟩ := (AliasTable.Sound.empty capacity).insertLines unbroken
  have kept : Kept cwd path capacity (_, tree) := ⟨rfl, sound, room, ⟨_, holds⟩, loaded⟩
  exact ⟨_, loaded, (kept.changeAll clean).again⟩

/-- A file with a line that defines nothing. One alias is given a text with quotes and a carriage
return, one has no valid name, and one is removed. -/
theorem quoted_text_reloaded :
    let tree := FileTree.onlyFile (encode "rest\nb=x".toList)
    let changes : List AliasChange := [.define "a".toList "'it's\r".toList,
      .define "a b".toList "c".toList, .remove "b".toList]
    ∃ store, load tree [] [104] 2 = .ok store ∧
      store.table.entries = [⟨"b".toList, "x".toList⟩] ∧
      let after := store.changeAll tree [] changes
      after.1.table.entries = [⟨"a".toList, "'it's\r".toList⟩] ∧
        load after.2 [] [104] 2 = .ok after.1 := by
  intro tree changes
  have clean : ∀ name text, .define name text ∈ changes → '=' ∉ name ∧ '\n' ∉ text := by
    simp only [changes, List.mem_cons, List.not_mem_nil, AliasChange.define.injEq, reduceCtorEq,
      or_false]
    rintro _ _ (⟨rfl, rfl⟩ | ⟨rfl, rfl⟩)
    all_goals decide
  obtain ⟨store, loaded, again⟩ := aliases_reload tree [] [104] 2 (some "rest\nb=x".toList)
    (FileTree.onlyFile_held _) changes clean
  have lines : textLines? (encode "rest\nb=x".toList) = some ["rest".toList, "b=x".toList] := by
    decide +kernel
  cases (load_eq (FileTree.onlyFile_held _) lines 2).symm.trans loaded
  refine ⟨_, loaded, by decide +kernel, ?_, again⟩
  cbv

end AliasStore

end CommandShell
