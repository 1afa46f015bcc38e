import CommandShell.History.Store
import CommandShell.Proofs.Alias.OrderedMap

/-!
Operations on a store that report an error. A definition or a removal that the table refuses has
changed nothing. One that the table takes is in memory before the file is written, and so is
the clearing of the history: where the file cannot be written the error comes too late, and
the change stays. So an error means that nothing has changed if the file could be
written, or if there was nothing to change.
-/
namespace CommandShell

namespace AliasTable

variable {table next : AliasTable} {name text : Text}

/-- The table gives the name this text already. -/
def Gives (table : AliasTable) (name text : Text) : Prop :=
  name ∈ table.names ∧ ∀ entry ∈ table.entries, entry.name = name → entry.text = text

theorem insert_same_iff (inserted : table.insert name text = .ok next) :
    next.entries = table.entries ↔ table.Gives (trim name) text := by
  obtain ⟨-, ⟨known, rfl⟩ | ⟨unknown, -, rfl⟩⟩ := insert_cases inserted
  · have each : ∀ entry : AliasEntry,
        (if entry.name == trim name then (⟨trim name, text⟩ : AliasEntry) else entry) = entry ↔
          (entry.name = trim name → entry.text = text) := by
      rintro ⟨other, old⟩
      by_cases here : other = trim name
      · simp [here, eq_comm]
      · simp [here]
    have member : trim name ∈ table.names := has_iff.mp known
    rw [Gives, and_iff_right member]
    constructor
    · intro same entry inside
      have mapped := same.trans (List.map_id table.entries).symm
      exact (each entry).mp (List.map_inj_left.mp mapped entry inside)
    · intro gives
      refine Eq.trans (List.map_congr_left fun entry inside => ?_) (List.map_id table.entries)
      exact (each entry).mpr (gives entry inside)
  · have absent : ¬ table.Gives (trim name) text := fun gives =>
      Bool.eq_false_iff.mp unknown (has_iff.mpr gives.1)
    simp [absent]

theorem erase_shorter (erased : table.erase name = .ok next) : next.entries ≠ table.entries := by
  intro same
  have drops := (erase_drops erased).1
  have lengths := congrArg List.length same
  generalize table.entries = before at drops lengths
  generalize next.entries = after at drops lengths
  cases drops with
  | dropped front text back =>
      simp only [List.length_append, List.length_cons] at lengths
      omega

end AliasTable

namespace AliasStore

variable {store : AliasStore} {tree : FileTree} {cwd : Location}

theorem commit_fails_iff (table : AliasTable) :
    (∃ trouble, (store.commit tree cwd table).1 = .error trouble) ↔
      ¬ tree.CanWrite cwd store.file := by
  rw [commit, persist]
  simp only
  cases file : store.file with
  | none => simp [FileTree.CanWrite]
  | some path =>
      rw [← FileTree.editFile_fails_iff fun _ => table.fileContent, ← FileTree.writeFile]
      simp only
      split
      · next written => simp [written]
      · next failed => simp [failed]

/-- A change that the table took is kept, so that an error leaves the entries alone only if it
was no change or could not fail. -/
theorem attempt_kept_iff (changed : Except Trouble AliasTable) :
    (∀ trouble, (store.attempt tree cwd changed).1 = .error trouble →
        (store.attempt tree cwd changed).2.1.table.entries = store.table.entries) ↔
      (∀ next, changed = .ok next → next.entries = store.table.entries) ∨
        tree.CanWrite cwd store.file := by
  cases changed with
  | error trouble => simp [attempt]
  | ok next =>
      have memory : (store.commit tree cwd next).2.1.table = next := by rw [commit_store]
      simp only [attempt, memory, Except.ok.injEq, forall_eq']
      constructor
      · intro kept
        by_cases writable : tree.CanWrite cwd store.file
        · exact .inr writable
        · obtain ⟨trouble, failed⟩ := (commit_fails_iff next).mpr writable
          exact .inl (kept trouble failed)
      · rintro (same | writable) trouble failed
        · exact same
        · exact absurd writable ((commit_fails_iff next).mp ⟨trouble, failed⟩)

theorem define_kept_iff (name text : Text) :
    (∀ trouble, (store.define tree cwd name text).1 = .error trouble →
        (store.define tree cwd name text).2.1.table.entries = store.table.entries) ↔
      (¬ ValidName (trim name) ∨
          trim name ∉ store.table.names ∧ store.table.capacity ≤ store.table.entries.length) ∨
        store.table.Gives (trim name) text ∨ tree.CanWrite cwd store.file := by
  rw [define_eq, attempt_kept_iff, ← or_assoc]
  refine or_congr_left' fun _ => ?_
  have refused : (¬ ValidName (trim name) ∨
      trim name ∉ store.table.names ∧ store.table.capacity ≤ store.table.entries.length) ↔
        ¬ ∃ next, store.table.insert name text = .ok next := by
    rw [AliasTable.insert_ok_iff, ← not_lt]
    tauto
  rw [refused]
  constructor
  · intro same
    by_cases taken : ∃ next, store.table.insert name text = .ok next
    · obtain ⟨next, inserted⟩ := taken
      exact .inr ((AliasTable.insert_same_iff inserted).mp (same next inserted))
    · exact .inl taken
  · rintro (none | gives) next inserted
    · exact absurd ⟨next, inserted⟩ none
    · exact (AliasTable.insert_same_iff inserted).mpr gives

theorem remove_kept_iff (name : Text) :
    (∀ trouble, (store.remove tree cwd name).1 = .error trouble →
        (store.remove tree cwd name).2.1.table.entries = store.table.entries) ↔
      name ∉ store.table.names ∨ tree.CanWrite cwd store.file := by
  rw [remove_eq, attempt_kept_iff, ← AliasTable.erase_ok_iff]
  refine or_congr_left' fun _ => ?_
  constructor
  · rintro same ⟨next, erased⟩
    exact AliasTable.erase_shorter erased (same next erased)
  · intro none next erased
    exact absurd ⟨next, erased⟩ none

end AliasStore

theorem HistoryStore.clear_kept_iff {store : HistoryStore} {tree : FileTree} {cwd : Location} :
    (∀ failure, (store.clear tree cwd).1 = .error failure →
        (store.clear tree cwd).2.1.log.entries = store.log.entries) ↔
      store.log.entries = [] ∨ tree.CanWrite cwd store.file := by
  rw [clear]
  cases file : store.file with
  | none => simp [FileTree.CanWrite]
  | some path =>
      have fails : (∃ failure, tree.writeFile cwd path [] = .error failure) ↔
          ¬ tree.CanWrite cwd (some path) := FileTree.editFile_fails_iff fun _ => []
      cases written : tree.writeFile cwd path [] with
      | ok after =>
          have writable : tree.CanWrite cwd (some path) := by
            by_contra refused
            obtain ⟨failure, failed⟩ := fails.mpr refused
            cases written.symm.trans failed
          simp [written, writable]
      | error failure =>
          have refused := fails.mp ⟨failure, written⟩
          simp [written, refused, HistoryLog.clear, eq_comm]

/-- When an error means that the entries are those from before: for each operation, if the file
could be written, or else if there was nothing for the operation to change. -/
theorem failed_change_kept_iff (aliases : AliasStore) (history : HistoryStore) (tree : FileTree)
    (cwd : Location) :
    (∀ name text, (∀ trouble, (aliases.define tree cwd name text).1 = .error trouble →
        (aliases.define tree cwd name text).2.1.table.entries = aliases.table.entries) ↔
      (¬ ValidName (trim name) ∨
          trim name ∉ aliases.table.names ∧
            aliases.table.capacity ≤ aliases.table.entries.length) ∨
        aliases.table.Gives (trim name) text ∨ tree.CanWrite cwd aliases.file) ∧
    (∀ name, (∀ trouble, (aliases.remove tree cwd name).1 = .error trouble →
        (aliases.remove tree cwd name).2.1.table.entries = aliases.table.entries) ↔
      name ∉ aliases.table.names ∨ tree.CanWrite cwd aliases.file) ∧
    ((∀ failure, (history.clear tree cwd).1 = .error failure →
        (history.clear tree cwd).2.1.log.entries = history.log.entries) ↔
      history.log.entries = [] ∨ tree.CanWrite cwd history.file) := by
  refine ⟨fun name text => ?_, fun name => ?_, ?_⟩
  · exact AliasStore.define_kept_iff name text
  · exact AliasStore.remove_kept_iff name
  · exact HistoryStore.clear_kept_iff

/-- In a folder that is missing nothing can be written. The new alias stays, the old one is gone,
and the history is forgotten, while each of them is reported as failed. -/
theorem failed_changes_kept :
    let file : Option Path := some (encode "no/f".toList)
    let aliases : AliasStore := ⟨⟨[⟨"a".toList, "1".toList⟩], 8⟩, file⟩
    let history : HistoryStore := ⟨⟨["ls".toList], 8⟩, file⟩
    aliases.define .empty [] "b".toList "2".toList = (.error (.failed .noEntry),
      ⟨⟨[⟨"a".toList, "1".toList⟩, ⟨"b".toList, "2".toList⟩], 8⟩, file⟩, .empty) ∧
    aliases.remove .empty [] "a".toList = (.error (.failed .noEntry), ⟨⟨[], 8⟩, file⟩, .empty) ∧
    history.clear .empty [] = (.error .noEntry, ⟨⟨[], 8⟩, file⟩, .empty) := by
  intro file aliases history
  have walked : FileTree.empty.walk .write mostLinks [] [[110, 111], [102]] = .error .noEntry := by
    rw [FileTree.walk]
    rfl
  have steps : Path.steps (encode "no/f".toList) = [[110, 111], [102]] := by cbv
  have target : FileTree.empty.writeTarget [] (encode "no/f".toList) = .error .noEntry := by
    have arrived : FileTree.empty.arrive [] .write (encode "no/f".toList) = .error .noEntry := by
      rw [FileTree.arrive, steps]
      exact walked
    rw [FileTree.writeTarget, arrived]
  have denied : ∀ edit, FileTree.empty.editFile [] (encode "no/f".toList) edit =
      .error .noEntry := fun edit => FileTree.editFile_eq_error.mpr target
  have defined : aliases.table.insert "b".toList "2".toList =
      .ok ⟨[⟨"a".toList, "1".toList⟩, ⟨"b".toList, "2".toList⟩], 8⟩ := by cbv
  have removed : aliases.table.erase "a".toList = .ok ⟨[], 8⟩ := by cbv
  refine ⟨?_, ?_, ?_⟩
  · simp only [AliasStore.define, defined, AliasStore.commit, AliasStore.persist, aliases, file,
      FileTree.writeFile, denied]
  · simp only [AliasStore.remove, removed, AliasStore.commit, AliasStore.persist, aliases, file,
      FileTree.writeFile, denied]
  · simp only [HistoryStore.clear, HistoryLog.clear, history, file, FileTree.writeFile, denied]

end CommandShell
