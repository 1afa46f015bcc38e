import CommandShell.Tool.Options

/-!
Runs of neighbouring lines that are alike: each run is written once, or only with its
length, or only if it repeats a line, or only if it does not.
-/
namespace CommandShell

namespace Tool

def groupLetter : Char := ' '

def uniqueForms : OptionForms where
  flags := "cdDiuz0123456789".toList
  valued := "fsw".toList
  long := [("count", 'c'), ("repeated", 'd'), ("all-repeated", 'D'), ("group", groupLetter),
    ("ignore-case", 'i'), ("unique", 'u'), ("zero-terminated", 'z'), ("skip-fields", 'f'),
    ("skip-chars", 's'), ("check-chars", 'w')]
  maybeValued := ['D', groupLetter]
  leading := false

def dropFieldsAndGaps : Nat → Text → Text
  | 0, line => line
  | count + 1, line =>
      dropFieldsAndGaps count ((line.dropWhile isFieldGap).dropWhile fun c => !isFieldGap c)

def comparedPart (call : Call) (skipFields skipChars : Nat) (width : Option Nat)
    (line : Text) : Text :=
  let rest := (dropFieldsAndGaps skipFields line).drop skipChars
  let part := match width with
    | some width => rest.take width
    | none => rest
  if call.has 'i' then part.map upperAscii else part

def runsOf (part : Text → Text) : List Text → List (List Text)
  | [] => []
  | line :: rest =>
      match runsOf part rest with
      | [] => [[line]]
      | [] :: others => [line] :: others
      | (next :: run) :: others =>
          if part line = part next then (line :: next :: run) :: others
          else [line] :: (next :: run) :: others

def showRun (call : Call) (run : List Text) : List Text :=
  let repeated := 1 < run.length
  if (call.has 'd' && !repeated) || (call.has 'u' && repeated) then []
  else
    let count := if call.has 'c' then alignRight 7 (digits run.length) ++ [' '] else []
    [count ++ run.head?.getD []]

structure Spacing where
  first : Bool
  between : Bool
  last : Bool

def Spacing.ofWord (word : String) : Spacing where
  first := word == "prepend" || word == "both"
  between := word != "none"
  last := word == "append" || word == "both"

def spaced (spacing : Spacing) (runs : List (List Text)) : List Text :=
  if runs.isEmpty then []
  else
    (if spacing.first then [[]] else []) ++
      joinWith (if spacing.between then [[]] else []) runs ++
      (if spacing.last then [[]] else [])

def groupChoices : Choices :=
  [["prepend"], ["append"], ["separate"], ["both"]]

def repeatChoices : Choices :=
  [["none"], ["prepend"], ["separate"]]

def spacingWord (call : Call) (letter : Char) (choices : Choices) (option usual : String) :
    Except (List Text) String :=
  match call.value? letter with
  | none | some [] => .ok usual
  | some word => chosen choices option word

def showRuns (call : Call) (repeats groups : Spacing) (runs : List (List Text)) : List Text :=
  if call.has groupLetter then spaced groups runs
  else if call.has 'D' then
    spaced repeats ((runs.filter fun run => 1 < run.length).map fun run =>
      if call.has 'u' then run.dropLast else run)
  else runs.flatMap (showRun call)

def countOption (call : Call) (letter : Char) (what : String) : Except Text (Option Nat) :=
  match call.value? letter with
  | none => .ok none
  | some value =>
      match natural? value with
      | some n => .ok (some n)
      | none => .error (value ++ ": invalid number of ".toList ++ what.toList)

def oldSkip? (operand : Text) : Option Nat :=
  match operand with
  | '+' :: figures => natural? figures
  | _ => none

def discord? (call : Call) : Option Text :=
  if call.has groupLetter && "cdDu".toList.any call.has then
    some "--group is mutually exclusive with -c/-d/-D/-u".toList
  else if call.has 'c' && call.has 'D' then
    some "printing all duplicated lines and repeat counts is meaningless".toList
  else none

def openOperands (source : Text) (target : Option Text) :
    Action (Except (Text × Failure) Unit) := do
  let opened ← if source = ['-'] then pure (.ok []) else readFile source
  match opened, target with
  | .error .isFolder, none | .ok _, none => return .ok ()
  | .error .isFolder, some target | .ok _, some target =>
      return (← saveFile target []).mapError fun failure => (target, failure)
  | .error failure, _ => return .error (source, failure)

def writeUnique (call : Call) (files : List Text) (part : Text → Text)
    (repeats groups : Spacing) : Action ExitStatus := do
  let name := files.head?.getD ['-']
  let target := files[1]?.filter (· ≠ ['-'])
  match ← openOperands name target with
  | .error (name, failure) =>
      call.complainOf (quotedText name) failure
      return .exited 1
  | .ok () =>
      match ← readOperand name with
      | .error failure =>
          call.complainOf ("error reading ".toList ++ nameInQuotes name) failure
          return .exited 1
      | .ok content =>
          let ending := if call.has 'z' then Char.ofNat 0 else '\n'
          let pieces := fields (· == ending) content
          let lines := if pieces.getLast? == some [] then pieces.dropLast else pieces
          let output := (showRuns call repeats groups (runsOf part lines)).flatMap (· ++ [ending])
          match target with
          | none => say output
          | some target => discard (saveFile target output)
          return .exited 0

def unique : Tool :=
  withOptions uniqueForms 1 fun call => do
    let oldFields := natural? ((call.options.map (·.1)).filter Char.isDigit)
    let oldChars := (call.operands.filterMap oldSkip?).getLast?
    let files := call.operands.filter fun operand => (oldSkip? operand).isNone
    match countOption call 'f' "fields to skip", countOption call 's' "bytes to skip",
        countOption call 'w' "bytes to compare" with
    | .error complaint, _, _ | _, .error complaint, _ | _, _, .error complaint => do
        call.complain complaint
        return .exited 1
    | .ok skipFields, .ok skipChars, .ok width =>
        let part := comparedPart call ((skipFields <|> oldFields).getD 0)
          ((skipChars <|> oldChars).getD 0) width
        match spacingWord call 'D' repeatChoices "all-repeated" "none",
            spacingWord call groupLetter groupChoices "group" "separate", files.drop 2,
            discord? call with
        | .error complaints, _, _, _ | _, .error complaints, _, _ => call.misuse 1 complaints
        | _, _, extra :: _, _ => call.misuse 1 ["extra operand ".toList ++ wordInQuotes extra]
        | _, _, _, some complaint => call.misuse 1 [complaint]
        | .ok repeats, .ok groups, [], none =>
            writeUnique call files part (.ofWord repeats) (.ofWord groups)

end Tool

end CommandShell
