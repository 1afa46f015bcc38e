import CommandShell.Text.Line

/-!
The history log: the most recent lines, oldest first. A log has room for one line at
least. `accepts` is the rule for what is worth remembering.
-/
namespace CommandShell

structure HistoryLog where
  entries : List Text
  capacity : Nat
  deriving Repr, DecidableEq

namespace HistoryLog

def empty (capacity : Nat) : HistoryLog :=
  ⟨[], max 1 capacity⟩

def push (log : HistoryLog) (line : Text) : HistoryLog :=
  let kept := if log.capacity ≤ log.entries.length then log.entries.drop 1 else log.entries
  { log with entries := kept ++ [line] }

def pushAll (log : HistoryLog) (lines : List Text) : HistoryLog :=
  lines.foldl push log

def clear (log : HistoryLog) : HistoryLog :=
  { log with entries := [] }

/-- A line is remembered unless it is blank, holds a control character that is not
blank, or is in the log already. -/
def accepts (log : HistoryLog) (line : Text) : Bool :=
  !isBlankText line && !(line.any fun c => isControl c && !isBlank c) &&
    !log.entries.contains line

def fileContent (log : HistoryLog) : Bytes :=
  writeLines log.entries

end HistoryLog

end CommandShell
