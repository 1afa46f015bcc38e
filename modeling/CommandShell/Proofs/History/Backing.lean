import CommandShell.History.Store
import CommandShell.Proofs.System.Contents
import CommandShell.Proofs.Text.Lines
import Mathlib.Data.List.DropRight

/-!
A log and the lines of its file. The log is the end of a list of lines, as long as there is room
for, and pushing a line onto it is the same as putting the line behind the list. So a log
that is read from a file agrees with the log in memory as soon as both are the end of
their lines in the same way; the file may well hold lines that the log has forgotten.
-/
namespace CommandShell

namespace HistoryLog

/-- The log of these lines: the latest ones that there is room for. -/
def latest (capacity : Nat) (lines : List Text) : HistoryLog :=
  ⟨lines.rtake (max 1 capacity), max 1 capacity⟩

theorem latest_nil (capacity : Nat) : latest capacity [] = ⟨[], max 1 capacity⟩ := by
  simp [latest, List.rtake]

theorem empty_eq (capacity : Nat) : empty capacity = latest capacity [] :=
  (latest_nil capacity).symm

theorem clear_latest (capacity : Nat) (lines : List Text) :
    (latest capacity lines).clear = latest capacity [] :=
  (latest_nil capacity).symm

theorem length_latest_le (capacity : Nat) (lines : List Text) :
    (latest capacity lines).entries.length ≤ max 1 capacity := by
  simp only [latest, List.rtake, List.length_drop]
  omega

theorem push_latest (capacity : Nat) (lines : List Text) (line : Text) :
    (latest capacity lines).push line = latest capacity (lines ++ [line]) := by
  have room : 0 < max 1 capacity := by omega
  simp only [push, latest, List.rtake, List.length_drop, List.length_append, List.length_singleton]
  congr 1
  by_cases full : max 1 capacity ≤ lines.length
  · -- The first entry makes room.
    have behind : lines.length + 1 - max 1 capacity ≤ lines.length := by omega
    rw [if_pos (by omega), List.drop_drop, List.drop_append_of_le_length behind]
    congr 2
    omega
  · have whole : lines.length - max 1 capacity = 0 := by omega
    have wider : lines.length + 1 - max 1 capacity = 0 := by omega
    rw [if_neg (by omega), whole, wider, List.drop_zero, List.drop_zero]

theorem pushAll_latest (capacity : Nat) (lines more : List Text) :
    (latest capacity lines).pushAll more = latest capacity (lines ++ more) := by
  induction more generalizing lines with
  | nil => rw [List.append_nil]; rfl
  | cons line rest ih =>
      have step : (latest capacity lines).pushAll (line :: rest) =
          ((latest capacity lines).push line).pushAll rest := rfl
      rw [step, push_latest, ih, List.append_assoc]
      rfl

theorem latest_entries (capacity : Nat) (lines : List Text) :
    latest capacity (latest capacity lines).entries = latest capacity lines := by
  simp only [latest, List.rtake, List.length_drop, List.drop_drop]
  congr 2
  omega

end HistoryLog

namespace FileTree

variable {tree : FileTree} {cwd : Location} {path : Path}

/-- The path means a file that can be written, and these are its lines, each of them closed. A
file that has still to be made has no lines. -/
def HoldsLines (tree : FileTree) (cwd : Location) (path : Path) (lines : List Text) : Prop :=
  ∃ content, tree.Holds cwd path content ∧ Closed (content.getD []) ∧
    textLines? (content.getD []) = some lines

theorem Holds.no_lines (missing : tree.Holds cwd path none) : tree.HoldsLines cwd path [] :=
  ⟨none, missing, Or.inl rfl, rfl⟩

theorem HoldsLines.appendFile {lines : List Text} {line : Text}
    (holds : tree.HoldsLines cwd path lines) (isLine : IsLine line) :
    ∃ after, tree.appendFile cwd path (lineBytes line) = .ok after ∧
      after.HoldsLines cwd path (lines ++ [line]) := by
  obtain ⟨content, stands, closed, read⟩ := holds
  obtain ⟨after, done, stood⟩ := stands.appendFile (lineBytes line)
  refine ⟨after, done, _, stood, closed.append (closed_lineBytes line), ?_⟩
  exact closed.textLines?_append read isLine.textLines?_lineBytes

theorem HoldsLines.writeFile {lines fresh : List Text} (holds : tree.HoldsLines cwd path lines)
    (each : ∀ line ∈ fresh, IsLine line) :
    ∃ after, tree.writeFile cwd path (writeLines fresh) = .ok after ∧
      after.HoldsLines cwd path fresh := by
  obtain ⟨content, stands, -, -⟩ := holds
  obtain ⟨after, done, stood⟩ := stands.writeFile (writeLines fresh)
  exact ⟨after, done, _, stood, closed_writeLines fresh, IsLine.textLines?_writeLines each⟩

end FileTree

theorem HistoryStore.load_eq {tree : FileTree} {cwd : Location} {path : Path}
    {content : Option Bytes} {lines : List Text} (stands : tree.Holds cwd path content)
    (read : textLines? (content.getD []) = some lines) (capacity : Nat) :
    load tree cwd path capacity = .ok ⟨HistoryLog.latest capacity lines, some path⟩ := by
  rw [load, stands.storeLines read, HistoryLog.empty_eq]
  simp only [Except.map, HistoryLog.pushAll_latest, List.nil_append]

end CommandShell
