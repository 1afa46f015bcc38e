import CommandShell.Builtin.Basic

/-!
Commands that change the shell: the working folder, the aliases, the history and the
wish to stop.
-/
namespace CommandShell

namespace Builtin

def runChangeFolder (shell : Shell) (arguments : List Text) (machine : Machine) : Outcome :=
  let (result, shell) := shell.changeFolder machine arguments
  ⟨result, shell, machine⟩

def lineBody (line : Text) : Text :=
  trim (((trimStart line).dropWhile fun c => !isBlank c).drop 1)

def aliasOutcome (shell : Shell) (machine : Machine)
    (change : Except Trouble Unit × AliasStore × FileTree) : Outcome :=
  ⟨change.1, { shell with aliases := change.2.1 }, { machine with tree := change.2.2 }⟩

/-- Lists the aliases, or defines one. The definition is read from the line as it was
typed, since the words have lost their blanks. -/
def runDefineAlias (shell : Shell) (arguments : List Text) (line : Text) (machine : Machine) :
    Outcome :=
  if arguments.isEmpty then
    .look shell machine (.ok ()) (writeLines (shell.aliases.table.entries.map fun entry =>
      "alias ".toList ++ entry.print))
  else
    match AliasEntry.define? (lineBody line) with
    | none => .look shell machine (.error .malformedAlias) []
    | some entry =>
        aliasOutcome shell machine
          (shell.aliases.define machine.tree shell.cwd entry.name entry.text)

def runRemoveAlias (shell : Shell) (arguments : List Text) (machine : Machine) : Outcome :=
  match arguments with
  | [] => .look shell machine (.error .missingAliasName) []
  | name :: _ =>
      aliasOutcome shell machine (shell.aliases.remove machine.tree shell.cwd name)

def historyLines (number : Nat) : List Text → List Text
  | [] => []
  | entry :: rest => (digits number ++ ' ' :: entry) :: historyLines (number + 1) rest

def historySkip? (count : Nat) : Option Text → Option Nat
  | none => some 0
  | some argument =>
      match readWord? argument with
      | some n => if 0 < n && n ≤ count then some (count - n) else none
      | none => none

def runShowHistory (shell : Shell) (arguments : List Text) (machine : Machine) : Outcome :=
  let entries := shell.history.log.entries
  match historySkip? entries.length arguments.head? with
  | some skip =>
      .look shell machine (.ok ()) (writeLines (historyLines (skip + 1) (entries.drop skip)))
  | none =>
      .look shell machine (.error (.invalidHistoryNumber (arguments.head?.getD []))) []

def runClearHistory (shell : Shell) (machine : Machine) : Outcome :=
  let (result, history, tree) := shell.history.clear machine.tree shell.cwd
  let shell := { shell with history := history }
  let machine := { machine with tree := tree }
  match result with
  | .ok () => .look shell machine (.ok ()) (lineBytes "History cleared".toList)
  | .error failure => ⟨.error (.failed failure), shell, machine⟩

def runLeave (shell : Shell) (machine : Machine) : Outcome :=
  ⟨.ok (), { shell with exiting := true }, machine⟩

end Builtin

end CommandShell
