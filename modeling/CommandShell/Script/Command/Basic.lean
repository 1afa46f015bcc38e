import CommandShell.Script.Expansion
import CommandShell.Script.Program

/-!
Commands that the interpreter carries out itself and that run no other commands. Each gets
the words behind its name and answers with an exit code. Output comes when a command is
done, complaints come at once.
-/
namespace CommandShell

namespace Script

abbrev Plain := List Text → Run Int

/-- Reads letters behind a dash. The last of them may wait for its value. -/
def lettersOf (flags valued : Text) : Text → Run (List (Char × Text) × Option Char)
  | [] => return ([], none)
  | letter :: rest =>
      if valued.contains letter then
        return if rest.isEmpty then ([], some letter) else ([(letter, rest)], none)
      else if flags.contains letter then do
        let (options, waiting) ← lettersOf flags valued rest
        return ((letter, []) :: options, waiting)
      else refuse ("Illegal option -".toList ++ [letter])

def optionsOf (flags valued : Text) : List Text → Run (List (Char × Text) × List Text)
  | [] => return ([], [])
  | ['-', '-'] :: rest => return ([], rest)
  | ('-' :: letter :: letters) :: rest => do
      match ← lettersOf flags valued (letter :: letters), rest with
      | (options, none), rest => do
          let (others, operands) ← optionsOf flags valued rest
          return (options ++ others, operands)
      | (options, some waiting), value :: rest => do
          let (others, operands) ← optionsOf flags valued rest
          return (options ++ (waiting, value) :: others, operands)
      | (_, some waiting), [] => refuse ("No arg for -".toList ++ waiting :: " option".toList)
  | operands => return ([], operands)

def noOptions (words : List Text) : Run (List Text) := do
  return (← optionsOf [] [] words).2

def mostCode : Nat := 0x7fffffff

def count (word : Text) : Run Nat := do
  match (Tool.natural? word).filter (· ≤ mostCode) with
  | some n => return n
  | none => refuse ("Illegal number: ".toList ++ word)

def checkName (name : Text) : Run Unit := do
  if !isName name then refuse (name ++ ": bad variable name".toList)

def quoteWord (steps : Nat) (word : Text) : Text :=
  match steps with
  | 0 => []
  | steps + 1 =>
      let plain := word.takeWhile (· != '\'')
      let behind := word.drop plain.length
      let quotes := behind.takeWhile (· == '\'')
      let rest := behind.drop quotes.length
      ['\''] ++ plain ++ ['\''] ++ (if quotes.isEmpty then [] else ['"'] ++ quotes ++ ['"']) ++
        (if rest.isEmpty then [] else quoteWord steps rest)

def quoted (word : Text) : Text :=
  quoteWord (word.length + 1) word

end Script

end CommandShell
