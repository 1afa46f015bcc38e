import CommandShell.Script.Command.Basic

/-!
Commands that write their words, plainly or under a format.
-/
namespace CommandShell

namespace Script

/-- Escapes of the interpreter. In a word an octal number may begin with a zero that does not
count, and `\c` ends the output. -/
def wordEscape (inWord : Bool) : Text → Tool.Escape
  | [] => .shows ['\\'] []
  | c :: rest =>
      if c == 'c' && inWord then .stops
      else if c == 'e' then .shows [Char.ofNat 27] rest
      else if Tool.isOctal c then
        let body := if inWord && c == '0' then rest else c :: rest
        let figures := (body.take 3).takeWhile Tool.isOctal
        .shows [Char.ofNat (Tool.octalValue figures % 256)] (body.drop figures.length)
      else
        match Tool.escapedChar? c with
        | some shown => .shows [shown] rest
        | none => .shows ['\\'] (c :: rest)

def formatStyle : Tool.FormatStyle where
  escape := wordEscape
  notNumeric word := word ++ ": expected numeric value".toList
  partlyNumeric word := word ++ ": not completely converted".toList
  outOfRange word := word ++ ": Numerical result out of range".toList
  badDirective text :=
    if text.length ≤ 1 then "missing format character".toList
    else text ++ ": invalid directive".toList
  numbers := ⟨53, 1024⟩
  flags := "-+ #0".toList
  sizes := []
  quotes := false
  strict := false

def echoText : List Text → Text × Bool
  | [] => ([], false)
  | word :: rest =>
      let (text, printed) := Tool.expandWord formatStyle word.length word (.start [])
      if printed.stopped then (text, true)
      else
        let (others, stopped) := echoText rest
        (text ++ (if rest.isEmpty then [] else [' ']) ++ others, stopped)

def echo : Plain := fun words => do
  let silent := words.head? == some ['-', 'n']
  let (text, stopped) := echoText (if silent then words.drop 1 else words)
  say (if silent || stopped then text else text ++ ['\n'])
  return 0

def printWords : Plain := fun words => do
  match ← noOptions words with
  | [] => refuse "usage: printf format [arg ...]".toList
  | format :: arguments =>
      let printed := Tool.printFormat formatStyle format arguments
      printed.complaints.forM warn
      say printed.output
      match printed.fatal with
      | some complaint => refuse complaint
      | none => return if printed.failed then 1 else 0

end Script

end CommandShell
