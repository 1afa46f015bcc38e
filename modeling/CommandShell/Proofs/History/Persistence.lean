import CommandShell.Proofs.History.Backing
import Mathlib.Data.List.Permutation

/-!
A history log over a whole run. Lines are recorded, the log is cleared and flushed, in any order.
What is carried along is that the log is the end of the lines accepted since it was last cleared,
and the end of the lines of its file as well. The file may be longer than the log: a line that
was forgotten stays in it until the file is written anew.
-/
namespace CommandShell

inductive HistoryChange
  | record (line : Text)
  | clear
  | flush
  deriving Repr, DecidableEq

/-- How far a run has come. -/
structure HistoryRun where
  store : HistoryStore
  tree : FileTree
  /-- The lines accepted since the log was last cleared, oldest first. -/
  accepted : List Text

namespace HistoryRun

def change (cwd : Location) (run : HistoryRun) : HistoryChange → HistoryRun
  | .record line =>
      let (kept, store, tree) := run.store.record run.tree cwd line
      ⟨store, tree, if kept then run.accepted ++ [line] else run.accepted⟩
  | .clear =>
      let (_, store, tree) := run.store.clear run.tree cwd
      ⟨store, tree, []⟩
  | .flush =>
      match run.store.flush run.tree cwd with
      | .ok tree => { run with tree := tree }
      | .error _ => run

def changeAll (cwd : Location) (run : HistoryRun) (changes : List HistoryChange) : HistoryRun :=
  changes.foldl (change cwd) run

end HistoryRun

namespace HistoryLog

/-- What is worth remembering, and nothing twice. -/
structure Proper (log : HistoryLog) : Prop where
  distinct : log.entries.Nodup
  filled : ∀ line ∈ log.entries, isBlankText line = false
  clean : ∀ line ∈ log.entries, ∀ c ∈ line, isControl c = true → isBlank c = true

variable {log : HistoryLog}

theorem accepts_iff {line : Text} :
    log.accepts line = true ↔ isBlankText line = false ∧
      (∀ c ∈ line, isControl c = true → isBlank c = true) ∧ line ∉ log.entries := by
  simp [accepts, and_assoc]

theorem push_entries (log : HistoryLog) (line : Text) :
    ∃ kept, (log.push line).entries = kept ++ [line] ∧ kept.Sublist log.entries := by
  refine ⟨_, rfl, ?_⟩
  split
  · exact List.drop_sublist 1 log.entries
  · exact List.Sublist.refl log.entries

theorem mem_push {line other : Text} (inside : other ∈ (log.push line).entries) :
    other ∈ log.entries ∨ other = line := by
  obtain ⟨kept, entries, older⟩ := log.push_entries line
  rw [entries] at inside
  rcases List.mem_append.mp inside with old | new
  · exact Or.inl (older.subset old)
  · exact Or.inr (List.mem_singleton.mp new)

theorem Proper.push (proper : log.Proper) {line : Text} (accepted : log.accepts line = true) :
    (log.push line).Proper := by
  obtain ⟨filled, clean, fresh⟩ := accepts_iff.mp accepted
  constructor
  case distinct =>
    obtain ⟨kept, entries, older⟩ := log.push_entries line
    rw [entries, List.nodup_append]
    refine ⟨proper.distinct.sublist older, by simp, ?_⟩
    intro old inside new same
    rw [List.mem_singleton.mp same]
    rintro rfl
    exact fresh (older.subset inside)
  case filled =>
    intro other inside
    rcases mem_push inside with old | rfl
    · exact proper.filled other old
    · exact filled
  case clean =>
    intro other inside
    rcases mem_push inside with old | rfl
    · exact proper.clean other old
    · exact clean

theorem Proper.nothing (capacity : Nat) : (latest capacity []).Proper := by
  rw [latest_nil]
  constructor
  · exact List.nodup_nil
  · intro line inside
    cases inside
  · intro line inside
    cases inside

end HistoryLog

namespace HistoryRun

variable {cwd : Location} {path : Path} {capacity : Nat} {run : HistoryRun}

/-- What a run keeps: the log is the end of the lines that were accepted, and the end of the
lines of its file. -/
structure Sound (cwd : Location) (path : Path) (capacity : Nat) (run : HistoryRun) : Prop where
  memory : run.store = ⟨HistoryLog.latest capacity run.accepted, some path⟩
  file : ∃ lines, run.tree.HoldsLines cwd path lines ∧
    HistoryLog.latest capacity lines = HistoryLog.latest capacity run.accepted
  proper : run.store.log.Proper
  lines : ∀ line ∈ run.store.log.entries, IsLine line

theorem Sound.empty {tree : FileTree} (holds : tree.HoldsLines cwd path []) :
    Sound cwd path capacity ⟨⟨HistoryLog.latest capacity [], some path⟩, tree, []⟩ := by
  constructor
  case memory => rfl
  case file => exact ⟨[], holds, rfl⟩
  case proper => exact .nothing capacity
  case lines =>
    rw [HistoryLog.latest_nil]
    intro line inside
    cases inside

theorem Sound.record (sound : run.Sound cwd path capacity) {line : Text} (isLine : IsLine line) :
    (run.change cwd (.record line)).Sound cwd path capacity := by
  by_cases accepted : run.store.log.accepts line = true
  · obtain ⟨lines, holds, same⟩ := sound.file
    obtain ⟨after, done, held⟩ := holds.appendFile isLine
    have file : run.store.file = some path := by rw [sound.memory]
    have recorded : run.store.record run.tree cwd line =
        (true, { run.store with log := run.store.log.push line }, after) := by
      simp only [HistoryStore.record, accepted, if_true, HistoryStore.append, file, done]
    have grown : ∀ old, HistoryLog.latest capacity (old ++ [line]) =
        (HistoryLog.latest capacity old).push line :=
      fun old => (HistoryLog.push_latest capacity old line).symm
    simp only [change, recorded, if_true]
    constructor
    case memory => rw [grown, sound.memory]
    case file => exact ⟨lines ++ [line], held, by rw [grown, grown, same]⟩
    case proper => exact sound.proper.push accepted
    case lines =>
      intro other inside
      rcases HistoryLog.mem_push inside with old | rfl
      · exact sound.lines other old
      · exact isLine
  · have refused : run.store.record run.tree cwd line = (false, run.store, run.tree) := by
      simp only [HistoryStore.record, accepted, Bool.false_eq_true, if_false]
    simp only [change, refused, Bool.false_eq_true, if_false]
    exact sound

theorem Sound.clear (sound : run.Sound cwd path capacity) :
    (run.change cwd .clear).Sound cwd path capacity := by
  obtain ⟨lines, holds, -⟩ := sound.file
  obtain ⟨after, done, held⟩ := holds.writeFile fun line inside =>
    absurd inside (List.not_mem_nil (a := line))
  have cleared : run.store.clear run.tree cwd =
      (.ok (), ⟨HistoryLog.latest capacity [], some path⟩, after) := by
    have emptied : run.tree.writeFile cwd path [] = .ok after := done
    simp only [HistoryStore.clear, sound.memory, emptied, HistoryLog.clear_latest]
  simp only [change, cleared]
  exact .empty held

theorem Sound.flush (sound : run.Sound cwd path capacity) :
    (run.change cwd .flush).Sound cwd path capacity := by
  obtain ⟨lines, holds, same⟩ := sound.file
  obtain ⟨after, done, held⟩ := holds.writeFile sound.lines
  have flushed : run.store.flush run.tree cwd = .ok after := by
    have file : run.store.file = some path := by rw [sound.memory]
    simp only [HistoryStore.flush, file]
    exact done
  simp only [change, flushed]
  refine ⟨sound.memory, ⟨_, held, ?_⟩, sound.proper, sound.lines⟩
  rw [sound.memory]
  exact HistoryLog.latest_entries capacity run.accepted

theorem Sound.changeAll {changes : List HistoryChange} (sound : run.Sound cwd path capacity)
    (clean : ∀ line, .record line ∈ changes → IsLine line) :
    (run.changeAll cwd changes).Sound cwd path capacity := by
  induction changes generalizing run with
  | nil => exact sound
  | cons change rest ih =>
      apply ih
      · cases change with
        | record line => exact sound.record (clean line (List.mem_cons_self ..))
        | clear => exact sound.clear
        | flush => exact sound.flush
      · intro line inside
        exact clean line (List.mem_cons_of_mem _ inside)

/-- A log that starts without a file. After any run it is as full as it may be with the latest
lines that were accepted, no two the same and all worth remembering, and reading its file gives
the log again. -/
theorem history_reloads (tree : FileTree) (cwd : Location) (path : Path) (capacity : Nat)
    (missing : tree.Holds cwd path none) (changes : List HistoryChange)
    (clean : ∀ line, .record line ∈ changes → IsLine line) :
    ∃ store, HistoryStore.load tree cwd path capacity = .ok store ∧
      let run := (⟨store, tree, []⟩ : HistoryRun).changeAll cwd changes
      (run.store.log.entries.length ≤ max 1 capacity ∧ run.store.log.Proper) ∧
        run.store.log.entries = run.accepted.rtake (max 1 capacity) ∧
        HistoryStore.load run.tree cwd path capacity = .ok run.store := by
  refine ⟨_, HistoryStore.load_eq missing rfl capacity, ?_⟩
  intro run
  have sound : run.Sound cwd path capacity := (Sound.empty missing.no_lines).changeAll clean
  obtain ⟨lines, ⟨content, stands, closed, read⟩, same⟩ := sound.file
  refine ⟨⟨?_, sound.proper⟩, ?_, ?_⟩
  · rw [sound.memory]
    exact HistoryLog.length_latest_le capacity run.accepted
  · rw [sound.memory]
    rfl
  · rw [HistoryStore.load_eq stands read, same, sound.memory]

/-- A line comes twice in a row, then two others drive it out, and after a flush it is accepted
again. -/
theorem forgotten_line_accepted_again :
    let changes : List HistoryChange := [.record "a".toList, .record "a".toList,
      .record "b".toList, .record "c".toList, .flush, .record "a".toList]
    ∃ store, HistoryStore.load .empty [] [104] 2 = .ok store ∧
      let run := (⟨store, .empty, []⟩ : HistoryRun).changeAll [] changes
      run.store.log.entries = ["c".toList, "a".toList] ∧
        HistoryStore.load run.tree [] [104] 2 = .ok run.store := by
  intro changes
  have clean : ∀ line, .record line ∈ changes → IsLine line := by
    simp only [changes, List.mem_cons, List.not_mem_nil, HistoryChange.record.injEq, reduceCtorEq,
      or_false, false_or]
    rintro _ (rfl | rfl | rfl | rfl | rfl)
    all_goals decide
  obtain ⟨store, loaded, -, entries, again⟩ :=
    history_reloads .empty [] [104] 2 FileTree.missing_held changes clean
  refine ⟨store, loaded, ?_, again⟩
  rw [entries]
  cases (HistoryStore.load_eq FileTree.missing_held rfl 2).symm.trans loaded
  cbv

end HistoryRun

end CommandShell
