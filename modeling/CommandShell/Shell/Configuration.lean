import CommandShell.System.Machine
import CommandShell.Text.Decimal

/-!
Settings of the shell, with defaults and the environment variables that change them.
A variable that makes no sense is passed over.
-/
namespace CommandShell

inductive LogLevel
  | error
  | warn
  | info
  | debug
  | trace
  deriving Repr, DecidableEq

structure Configuration where
  historyFile : Path
  aliasFile : Path
  historyCapacity : Nat
  aliasCapacity : Nat
  maxLine : Nat
  maxCommand : Nat
  prompt : Option Text
  logLevel : LogLevel
  deriving Repr, DecidableEq

namespace LogLevel

def ofName? (text : Text) : Option LogLevel :=
  let name := text.map lowerAscii
  if name = "error".toList then some .error
  else if name = "warn".toList then some .warn
  else if name = "info".toList then some .info
  else if name = "debug".toList then some .debug
  else if name = "trace".toList then some .trace
  else none

def ofText? (text : Text) : Option LogLevel :=
  match readWord? text with
  | some 1 => some .error
  | some 2 => some .warn
  | some 3 => some .info
  | some 4 => some .debug
  | some 5 => some .trace
  | _ => ofName? text

end LogLevel

def homeFolder (account : Account) (env : Environment) : Path :=
  match env.get? (encode "HOME".toList) with
  | some home => if home.isEmpty then account.home else home
  | none => account.home

namespace Configuration

def defaults (home : Path) : Configuration where
  historyFile := home.join (encode ".mysh_history".toList)
  aliasFile := home.join (encode ".mysh_aliases".toList)
  historyCapacity := 100
  aliasCapacity := 100
  maxLine := 1023
  maxCommand := 2048
  prompt := none
  logLevel := .warn

def readSize? (text : Text) : Option Nat :=
  match readWord? (trim text) with
  | some n => if n = 0 then none else some n
  | none => none

def ofEnvironment (account : Account) (env : Environment) : Configuration :=
  let base := defaults (homeFolder account env)
  { base with
    historyFile := (env.get? (encode "MYSH_HISTFILE".toList)).getD base.historyFile
    aliasFile := (env.get? (encode "MYSH_ALIASFILE".toList)).getD base.aliasFile
    historyCapacity :=
      ((env.text? "MYSH_HISTSIZE".toList).bind readSize?).getD base.historyCapacity
    prompt := env.text? "MYSH_PROMPT".toList
    logLevel :=
      ((env.text? "MYSH_LOG".toList).bind fun text => LogLevel.ofText? (trim text)).getD
        base.logLevel }

end Configuration

end CommandShell
