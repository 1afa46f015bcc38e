import CommandShell.Proofs.Alias.Persistence

/-!
The alias table as a bounded ordered map. Its names are pairwise different, so that the entry a
search comes to first is the only one of its name. A definition changes the text of that entry
in its place, or adds an entry behind all others; a removal takes the entry out. Neither
touches another entry. The names stay different over every run, since a file is read by
the same insertions that a user makes.
-/
namespace CommandShell

namespace AliasTable

def names (table : AliasTable) : List Text :=
  table.entries.map AliasEntry.name

/-- The second list of entries is the first with this text for the name: in the place of the old
text, or behind all other entries. -/
inductive Assigns (name text : Text) : List AliasEntry → List AliasEntry → Prop
  | replaced (front : List AliasEntry) (old : Text) (back : List AliasEntry) :
      Assigns name text (front ++ ⟨name, old⟩ :: back) (front ++ ⟨name, text⟩ :: back)
  | added (entries : List AliasEntry) (unknown : name ∉ entries.map AliasEntry.name) :
      Assigns name text entries (entries ++ [⟨name, text⟩])

/-- The second list of entries is the first without the entry of the name. -/
inductive Drops (name : Text) : List AliasEntry → List AliasEntry → Prop
  | dropped (front : List AliasEntry) (text : Text) (back : List AliasEntry) :
      Drops name (front ++ ⟨name, text⟩ :: back) (front ++ back)

/-- A bounded map from valid names. -/
structure Proper (table : AliasTable) : Prop where
  valid : ∀ name ∈ table.names, ValidName name
  distinct : table.names.Nodup
  fits : table.entries.length ≤ table.capacity

variable {table next : AliasTable} {name text : Text}

/-! What the names say about a place in the list. -/

theorem unknown_around {front back : List AliasEntry} {entry : AliasEntry}
    (distinct : ((front ++ entry :: back).map AliasEntry.name).Nodup) :
    entry.name ∉ front.map AliasEntry.name ∧ entry.name ∉ back.map AliasEntry.name := by
  rw [List.map_append, List.map_cons, List.nodup_append] at distinct
  obtain ⟨-, behind, apart⟩ := distinct
  refine ⟨fun inside => ?_, (List.nodup_cons.mp behind).1⟩
  exact apart _ inside _ List.mem_cons_self rfl

theorem find?_unknown {entries : List AliasEntry} (unknown : name ∉ entries.map AliasEntry.name) :
    entries.find? (fun entry => entry.name == name) = none := by
  rw [List.find?_eq_none]
  intro entry inside hit
  exact unknown (List.mem_map.mpr ⟨entry, inside, beq_iff_eq.mp hit⟩)

theorem replace_unknown {entries : List AliasEntry}
    (unknown : name ∉ entries.map AliasEntry.name) (text : Text) :
    (entries.map fun entry => if entry.name == name then ⟨name, text⟩ else entry) = entries := by
  have same : ∀ entry ∈ entries,
      (if entry.name == name then (⟨name, text⟩ : AliasEntry) else entry) = id entry := by
    intro entry inside
    rw [if_neg]
    · rfl
    · exact fun hit => unknown (List.mem_map.mpr ⟨entry, inside, beq_iff_eq.mp hit⟩)
  rw [List.map_congr_left same, List.map_id]

theorem get?_of_parts {front back : List AliasEntry}
    (parts : table.entries = front ++ ⟨name, text⟩ :: back)
    (unknown : name ∉ front.map AliasEntry.name) : table.get? name = some text := by
  rw [get?, parts, List.find?_append, find?_unknown unknown]
  simp

theorem get?_unknown (unknown : name ∉ table.names) : table.get? name = none := by
  rw [get?, find?_unknown unknown]
  rfl

/-! What each of the two changes does to the names and to a search. -/

namespace Assigns

variable {before after : List AliasEntry}

theorem names (assigns : Assigns name text before after) :
    after.map AliasEntry.name = before.map AliasEntry.name ∨
      name ∉ before.map AliasEntry.name ∧
        after.map AliasEntry.name = before.map AliasEntry.name ++ [name] := by
  cases assigns with
  | replaced front old back => simp
  | added entries unknown => exact .inr ⟨unknown, by simp⟩

theorem get? (assigns : Assigns name text table.entries next.entries)
    (distinct : table.names.Nodup) : next.get? name = some text := by
  generalize told : table.entries = before at assigns
  generalize known : next.entries = after at assigns
  cases assigns with
  | replaced front old back =>
      rw [AliasTable.names, told] at distinct
      exact get?_of_parts known (unknown_around distinct).1
  | added entries unknown => exact get?_of_parts known unknown

theorem find?_other (assigns : Assigns name text before after) {other : Text}
    (apart : other ≠ name) :
    after.find? (fun entry => entry.name == other) =
      before.find? fun entry => entry.name == other := by
  have miss : (name == other) = false := beq_false_of_ne (Ne.symm apart)
  cases assigns with
  | replaced front old back => simp only [List.find?_append, List.find?_cons, miss]
  | added entries unknown => simp [List.find?_append, miss]

end Assigns

theorem Drops.unknown (drops : Drops name table.entries next.entries)
    (distinct : table.names.Nodup) : name ∉ next.names := by
  rw [names] at distinct ⊢
  generalize table.entries = before at drops distinct
  generalize next.entries = after at drops ⊢
  cases drops with
  | dropped front text back =>
      obtain ⟨before, behind⟩ := unknown_around distinct
      rw [List.map_append, List.mem_append, not_or]
      exact ⟨before, behind⟩

theorem Drops.find?_other {before after : List AliasEntry} (drops : Drops name before after)
    {other : Text} (apart : other ≠ name) :
    after.find? (fun entry => entry.name == other) =
      before.find? fun entry => entry.name == other := by
  have miss : (name == other) = false := beq_false_of_ne (Ne.symm apart)
  cases drops with
  | dropped front text back => simp only [List.find?_append, List.find?_cons, miss]

theorem Drops.sublist {before after : List AliasEntry} (drops : Drops name before after) :
    after.Sublist before := by
  cases drops with
  | dropped front text back =>
      exact (List.Sublist.refl front).append (List.sublist_cons_self ⟨name, text⟩ back)

/-! The two operations make these changes, and are refused where there is none to make. -/

theorem insert_assigns (distinct : table.names.Nodup)
    (inserted : table.insert name text = .ok next) :
    Assigns (trim name) text table.entries next.entries := by
  obtain ⟨-, ⟨known, rfl⟩ | ⟨unknown, -, rfl⟩⟩ := insert_cases inserted
  · obtain ⟨⟨_, old⟩, inside, rfl⟩ := List.mem_map.mp (has_iff.mp known)
    obtain ⟨front, back, parts⟩ := List.append_of_mem inside
    rw [names, parts] at distinct
    obtain ⟨before, behind⟩ := unknown_around distinct
    simp only [parts, List.map_append, List.map_cons, beq_self_eq_true, if_true,
      replace_unknown before, replace_unknown behind]
    exact .replaced front old back
  · exact .added table.entries fun inside =>
      Bool.eq_false_iff.mp unknown (has_iff.mpr inside)

theorem insert_ok_iff :
    (∃ next, table.insert name text = .ok next) ↔
      ValidName (trim name) ∧
        (trim name ∈ table.names ∨ table.entries.length < table.capacity) := by
  constructor
  · rintro ⟨next, inserted⟩
    obtain ⟨valid, ⟨known, -⟩ | ⟨-, room, -⟩⟩ := insert_cases inserted
    · exact ⟨valid, .inl (has_iff.mp known)⟩
    · exact ⟨valid, .inr room⟩
  · rintro ⟨valid, room⟩
    simp only [insert, valid.accepted, Bool.false_eq_true, if_false]
    by_cases known : table.has (trim name) = true
    · exact ⟨_, if_pos known⟩
    · have fits : ¬ table.capacity ≤ table.entries.length :=
        Nat.not_le_of_lt (room.resolve_left fun inside => known (has_iff.mpr inside))
      rw [if_neg known, if_neg fits]
      exact ⟨_, rfl⟩

theorem erase_ok_iff : (∃ next, table.erase name = .ok next) ↔ name ∈ table.names := by
  rw [erase, names, ← has_iff]
  by_cases known : table.has name = true
  · simp [known]
  · simp [known]

theorem erase_drops (erased : table.erase name = .ok next) :
    Drops name table.entries next.entries ∧ next.capacity = table.capacity := by
  rw [erase] at erased
  split at erased
  · next known =>
      cases erased
      obtain ⟨entry, inside, hit⟩ := List.any_eq_true.mp known
      obtain ⟨⟨found, text⟩, front, back, -, same, parts, rest⟩ :=
        List.exists_of_eraseP (p := fun entry : AliasEntry => entry.name == name) inside hit
      cases beq_iff_eq.mp same
      refine ⟨?_, rfl⟩
      simp only [parts] at rest ⊢
      rw [rest]
      exact .dropped front text back
  · cases erased

/-! The invariant. -/

namespace Proper

theorem empty (capacity : Nat) : (empty capacity).Proper := by
  constructor
  · intro name inside
    cases inside
  · exact List.nodup_nil
  · exact Nat.zero_le capacity

theorem insert (proper : table.Proper) (inserted : table.insert name text = .ok next) :
    next.Proper := by
  obtain ⟨valid, taken⟩ := insert_cases inserted
  have fits : next.entries.length ≤ next.capacity := by
    rcases taken with ⟨-, rfl⟩ | ⟨-, room, rfl⟩
    · simpa using proper.fits
    · rw [List.length_append]
      exact room
  rcases (insert_assigns proper.distinct inserted).names with same | ⟨unknown, more⟩
  · have kept : next.names = table.names := same
    exact ⟨kept ▸ proper.valid, kept ▸ proper.distinct, fits⟩
  · have kept : next.names = table.names ++ [trim name] := more
    refine ⟨?_, ?_, fits⟩
    · intro other inside
      rw [kept, List.mem_append, List.mem_singleton] at inside
      rcases inside with old | rfl
      · exact proper.valid other old
      · exact valid
    · rw [kept, ← List.concat_eq_append, List.nodup_concat]
      exact ⟨unknown, proper.distinct⟩

theorem erase (proper : table.Proper) (erased : table.erase name = .ok next) : next.Proper := by
  obtain ⟨drops, room⟩ := erase_drops erased
  have fewer := drops.sublist
  constructor
  · exact fun other inside => proper.valid other ((fewer.map AliasEntry.name).subset inside)
  · exact proper.distinct.sublist (fewer.map AliasEntry.name)
  · exact fewer.length_le.trans (room ▸ proper.fits)

theorem insertLines (proper : table.Proper) (lines : List Text) :
    (table.insertLines lines).Proper ∧ (table.insertLines lines).capacity = table.capacity := by
  refine insertLines_keeps (motive := fun later => later.Proper ∧ later.capacity = table.capacity)
    ⟨proper, rfl⟩ ?_
  intro line _ entry _ before next ⟨sound, same⟩ inserted
  exact ⟨sound.insert inserted, (insert_capacity inserted).trans same⟩

end Proper

end AliasTable

namespace AliasStore

/-- The stores of this capacity that a run comes to: a new or a loaded one, after any definitions
and removals, each of them made from any folder and with any files about. -/
inductive Reached (capacity : Nat) : AliasStore → Prop
  | new : Reached capacity (ephemeral capacity)
  | loaded {tree : FileTree} {cwd : Location} {path : Path} {store : AliasStore}
      (opened : load tree cwd path capacity = .ok store) : Reached capacity store
  | changed {store : AliasStore} (tree : FileTree) (cwd : Location) (next : AliasChange)
      (before : Reached capacity store) : Reached capacity (change cwd (store, tree) next).1

variable {store : AliasStore} {capacity : Nat} {tree : FileTree} {cwd : Location}
  {name text : Text}

theorem proper_of_load {path : Path} (opened : load tree cwd path capacity = .ok store) :
    store.table.Proper ∧ store.table.capacity = capacity := by
  have start := AliasTable.Proper.empty capacity
  rw [load] at opened
  cases read : tree.storeLines cwd path with
  | error failure =>
      rw [read] at opened
      cases opened
  | ok lines =>
      rw [read] at opened
      cases opened
      exact start.insertLines lines

theorem proper_of_change (proper : store.table.Proper ∧ store.table.capacity = capacity)
    (tree : FileTree) (cwd : Location) (next : AliasChange) :
    (change cwd (store, tree) next).1.table.Proper ∧
      (change cwd (store, tree) next).1.table.capacity = capacity := by
  obtain ⟨sound, room⟩ := proper
  cases next with
  | define name text =>
      simp only [change, define_store]
      cases inserted : store.table.insert name text with
      | error trouble => exact ⟨sound, room⟩
      | ok table =>
          exact ⟨sound.insert inserted, (AliasTable.insert_capacity inserted).trans room⟩
  | remove name =>
      simp only [change, remove_store]
      cases erased : store.table.erase name with
      | error trouble => exact ⟨sound, room⟩
      | ok table => exact ⟨sound.erase erased, (AliasTable.erase_drops erased).2.trans room⟩

theorem Reached.proper (reached : Reached capacity store) :
    store.table.Proper ∧ store.table.capacity = capacity := by
  induction reached with
  | new => exact ⟨AliasTable.Proper.empty capacity, rfl⟩
  | loaded opened => exact proper_of_load opened
  | changed tree cwd next before ih => exact proper_of_change ih tree cwd next

/-! Both operations take over a changed table, if there is one, and write it. -/

/-- What comes of a change to the table that may have been refused. -/
def attempt (store : AliasStore) (tree : FileTree) (cwd : Location) :
    Except Trouble AliasTable → Except Trouble Unit × AliasStore × FileTree
  | .error trouble => (.error trouble, store, tree)
  | .ok table => store.commit tree cwd table

theorem define_eq (store : AliasStore) (tree : FileTree) (cwd : Location) (name text : Text) :
    store.define tree cwd name text = store.attempt tree cwd (store.table.insert name text) := by
  rw [define]
  cases store.table.insert name text with
  | error trouble => rfl
  | ok next => rfl

theorem remove_eq (store : AliasStore) (tree : FileTree) (cwd : Location) (name : Text) :
    store.remove tree cwd name = store.attempt tree cwd (store.table.erase name) := by
  rw [remove]
  cases store.table.erase name with
  | error trouble => rfl
  | ok next => rfl

/-- The outcome of an operation that is refused in this case only. Refused, it leaves everything
in memory alone; else it makes such a table. -/
structure Settles (store : AliasStore) (refused : Prop) (makes : AliasTable → Prop)
    (outcome : Except Trouble Unit × AliasStore × FileTree) : Prop where
  fails : (∃ trouble, outcome.1 = .error trouble) ↔ refused
  kept : refused → outcome.2.1 = store
  done : ¬ refused → makes outcome.2.1.table

theorem attempt_settles {refused : Prop} {makes : AliasTable → Prop}
    {changed : Except Trouble AliasTable}
    (writable : tree.CanWrite cwd store.file)
    (succeeds : (∃ next, changed = .ok next) ↔ ¬ refused)
    (made : ∀ next, changed = .ok next → makes next) :
    store.Settles refused makes (store.attempt tree cwd changed) := by
  cases changed with
  | error trouble =>
      have because : refused := by
        by_contra allowed
        obtain ⟨next, taken⟩ := succeeds.mpr allowed
        cases taken
      exact ⟨⟨fun _ => because, fun _ => ⟨trouble, rfl⟩⟩, fun _ => rfl,
        fun allowed => absurd because allowed⟩
  | ok next =>
      have allowed : ¬ refused := succeeds.mp ⟨next, rfl⟩
      obtain ⟨written, persisted, -⟩ := persist_ok { store with table := next } writable
      have committed : store.attempt tree cwd (.ok next) =
          (.ok (), { store with table := next }, written) := by
        simp only [attempt, commit, persisted]
      rw [committed]
      refine ⟨⟨?_, fun because => absurd because allowed⟩, fun because => absurd because allowed,
        fun _ => made next rfl⟩
      rintro ⟨trouble, failed⟩
      cases failed

theorem define_settles (reached : Reached capacity store)
    (writable : tree.CanWrite cwd store.file)
    (name text : Text) :
    store.Settles
      (¬ ValidName (trim name) ∨
        trim name ∉ store.table.names ∧ store.table.entries.length = capacity)
      (fun after => AliasTable.Assigns (trim name) text store.table.entries after.entries ∧
        after.get? (trim name) = some text ∧
        ∀ other, other ≠ trim name → after.get? other = store.table.get? other)
      (store.define tree cwd name text) := by
  obtain ⟨proper, room⟩ := reached.proper
  have full : store.table.entries.length = capacity ↔
      ¬ store.table.entries.length < store.table.capacity := by
    have fits := proper.fits
    omega
  rw [define_eq]
  apply attempt_settles writable
  case succeeds =>
    rw [AliasTable.insert_ok_iff, full]
    tauto
  case made =>
    intro next inserted
    have assigns := AliasTable.insert_assigns proper.distinct inserted
    refine ⟨assigns, assigns.get? proper.distinct, ?_⟩
    intro other apart
    rw [AliasTable.get?, AliasTable.get?, assigns.find?_other apart]

theorem remove_settles (reached : Reached capacity store)
    (writable : tree.CanWrite cwd store.file)
    (name : Text) :
    store.Settles (name ∉ store.table.names)
      (fun after => AliasTable.Drops name store.table.entries after.entries ∧
        after.get? name = none ∧
        ∀ other, other ≠ name → after.get? other = store.table.get? other)
      (store.remove tree cwd name) := by
  have distinct := reached.proper.1.distinct
  rw [remove_eq]
  apply attempt_settles writable
  case succeeds => rw [AliasTable.erase_ok_iff, not_not]
  case made =>
    intro next erased
    have drops := (AliasTable.erase_drops erased).1
    refine ⟨drops, AliasTable.get?_unknown (drops.unknown distinct), ?_⟩
    intro other apart
    rw [AliasTable.get?, AliasTable.get?, drops.find?_other apart]

/-- A table that started empty, or as any file that could be read, is a bounded ordered map after
any definitions and removals, and the next one changes it as such a map is changed. -/
theorem ordered_map (reached : Reached capacity store) (tree : FileTree) (cwd : Location)
    (writable : tree.CanWrite cwd store.file) :
    (store.table.Proper ∧ store.table.capacity = capacity) ∧
      (∀ name text, store.Settles
        (¬ ValidName (trim name) ∨
          trim name ∉ store.table.names ∧ store.table.entries.length = capacity)
        (fun after => AliasTable.Assigns (trim name) text store.table.entries after.entries ∧
          after.get? (trim name) = some text ∧
          ∀ other, other ≠ trim name → after.get? other = store.table.get? other)
        (store.define tree cwd name text)) ∧
      ∀ name, store.Settles (name ∉ store.table.names)
        (fun after => AliasTable.Drops name store.table.entries after.entries ∧
          after.get? name = none ∧
          ∀ other, other ≠ name → after.get? other = store.table.get? other)
        (store.remove tree cwd name) := by
  refine ⟨reached.proper, fun name text => ?_, fun name => ?_⟩
  · exact define_settles reached writable name text
  · exact remove_settles reached writable name

/-- A full table read from a file. A name with a blank around it is known to a definition and
unknown to a removal. -/
theorem full_table_redefined :
    let tree := FileTree.onlyFile (encode "a=1\nb=2".toList)
    ∃ store, load tree [] [104] 2 = .ok store ∧ Reached 2 store ∧
      store.table.entries = [⟨"a".toList, "1".toList⟩, ⟨"b".toList, "2".toList⟩] ∧
      (∃ trouble, (store.define tree [] "c".toList "3".toList).1 = .error trouble) ∧
      (store.define tree [] " a".toList "3".toList).2.1.table.get? "a".toList =
        some "3".toList ∧
      (∃ trouble, (store.remove tree [] " a".toList).1 = .error trouble) ∧
      AliasTable.Drops "a".toList store.table.entries
        (store.remove tree [] "a".toList).2.1.table.entries := by
  intro tree
  have held := FileTree.onlyFile_held (encode "a=1\nb=2".toList)
  have lines : textLines? (encode "a=1\nb=2".toList) = some ["a=1".toList, "b=2".toList] := by
    decide +kernel
  have loaded := load_eq held lines 2
  have reached : Reached 2 _ := .loaded loaded
  have entries : ((AliasTable.empty 2).insertLines ["a=1".toList, "b=2".toList]).entries =
      [⟨"a".toList, "1".toList⟩, ⟨"b".toList, "2".toList⟩] := by
    cbv
  have known : ((AliasTable.empty 2).insertLines ["a=1".toList, "b=2".toList]).names =
      ["a".toList, "b".toList] := by
    rw [AliasTable.names, entries]
    rfl
  obtain ⟨-, defines, removes⟩ := ordered_map reached tree [] <| by
    rintro path ⟨⟩
    cases held with
    | present location data mode target => exact ⟨_, target⟩
  refine ⟨_, loaded, reached, entries, ?_, ?_, ?_, ?_⟩
  · apply (defines "c".toList "3".toList).fails.mpr
    exact .inr ⟨known ▸ by decide, by rw [entries]; rfl⟩
  · refine ((defines " a".toList "3".toList).done ?_).2.1
    rintro (invalid | ⟨unknown, -⟩)
    · exact invalid (by decide)
    · exact unknown (known ▸ by decide)
  · exact (removes " a".toList).fails.mpr (known ▸ by decide)
  · exact ((removes "a".toList).done (not_not.mpr (known ▸ by decide))).1

end AliasStore

end CommandShell
