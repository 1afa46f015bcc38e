import CommandShell.System.Machine

/-!
How a process ends, and what it takes to run a file. The shell works with any loader;
nothing in it depends on which programs there are or on what they do.
-/
namespace CommandShell

inductive ExitStatus
  | exited (code : Int)
  | killed (signal : Nat)
  deriving Repr, DecidableEq

/-- Runs the file at a path with the words of a command in a process. A file that cannot
be run is a failure. -/
abbrev Loader := Path → List Bytes → Process → Machine → Except Failure ExitStatus × Machine

end CommandShell
