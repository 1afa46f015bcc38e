import CommandShell.Text.Decimal
import CommandShell.Tool.Basic

/-!
Names of signals, as scripts write them, and the words for a death by each of them.
-/
namespace CommandShell

namespace Script

def signalCount : Nat := 65

def firstFreeSignal : Nat := 34

/-- Names by number. A signal without a name goes by its number. -/
def plainSignalNames : List String :=
  ["EXIT", "HUP", "INT", "QUIT", "ILL", "TRAP", "ABRT", "BUS", "FPE", "KILL", "USR1", "SEGV",
    "USR2", "PIPE", "ALRM", "TERM", "16", "CHLD", "CONT", "STOP", "TSTP", "TTIN", "TTOU", "URG",
    "XCPU", "XFSZ", "VTALRM", "PROF", "WINCH", "IO", "PWR", "SYS", "32", "33"]

def signalName (signal : Nat) : Text :=
  match plainSignalNames[signal]? with
  | some name => name.toList
  | none =>
      let up := signal - firstFreeSignal
      let down := signalCount - 1 - signal
      if up ≤ 15 then "RTMIN".toList ++ (if up = 0 then [] else '+' :: digits up)
      else "RTMAX".toList ++ (if down = 0 then [] else '-' :: digits down)

def signal? (least : Nat) (word : Text) : Option Nat :=
  if !word.isEmpty && word.all Char.isDigit then
    (Tool.natural? word).filter fun n => n < signalCount
  else
    (List.range signalCount).find? fun n =>
      least ≤ n && (signalName n).map lowerAscii == word.map lowerAscii

def deaths : List String :=
  ["", "Hangup", "Interrupt", "Quit", "Illegal instruction", "Trace/breakpoint trap", "Aborted",
    "Bus error", "Floating point exception", "Killed", "User defined signal 1",
    "Segmentation fault", "User defined signal 2", "Broken pipe", "Alarm clock", "Terminated",
    "Stack fault", "Child exited", "Continued", "Stopped (signal)", "Stopped",
    "Stopped (tty input)",
    "Stopped (tty output)", "Urgent I/O condition", "CPU time limit exceeded",
    "File size limit exceeded", "Virtual timer expired", "Profiling timer expired",
    "Window changed", "I/O possible", "Power failure", "Bad system call", "Unknown signal 32",
    "Unknown signal 33"]

def describeDeath (signal : Nat) : Text :=
  match deaths[signal]? with
  | some words => words.toList
  | none => "Real-time signal ".toList ++ digits (signal - firstFreeSignal)

def quietDeaths : List Nat := [2, 13]

/-- Signals that do not end a process unless it asks for them, and the one that the
processes of a pipeline ignore. -/
def harmlessSignals : List Nat := [0, 13, 17, 18, 23, 28]

def deafSignals : List Nat := [0, 13]

def absoluteSignals : List Nat := [9, 19]

end Script

end CommandShell
