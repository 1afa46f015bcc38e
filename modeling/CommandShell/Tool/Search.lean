import CommandShell.Tool.LinePattern
import CommandShell.Tool.Options

/-!
Searching files for lines that contain a match of one of several patterns. The options say
what makes a match, which lines are selected by it and what is written of them.
-/
namespace CommandShell

namespace Tool

def searchForms : OptionForms where
  flags := "EFGPabchHilLnoqrRsvwxyz0123456789".toList
  valued := "efmABC".toList
  long := [("extended-regexp", 'E'), ("fixed-strings", 'F'), ("basic-regexp", 'G'),
    ("perl-regexp", 'P'), ("regexp", 'e'), ("file", 'f'), ("ignore-case", 'i'),
    ("word-regexp", 'w'), ("line-regexp", 'x'), ("null-data", 'z'), ("no-messages", 's'),
    ("invert-match", 'v'),
    ("max-count", 'm'), ("byte-offset", 'b'), ("line-number", 'n'), ("with-filename", 'H'),
    ("no-filename", 'h'), ("only-matching", 'o'), ("quiet", 'q'), ("silent", 'q'),
    ("text", 'a'), ("recursive", 'r'), ("count", 'c'), ("files-without-match", 'L'),
    ("files-with-matches", 'l'), ("after-context", 'A'), ("before-context", 'B'),
    ("context", 'C'), ("color", ' '), ("colour", ' ')]
  maybeValued := [' ']
  leading := false

structure SearchRule where
  patterns : List LinePattern
  fold : Char → Char
  words : Bool
  wholeLines : Bool

def SearchRule.matchAt? (rule : SearchRule) (spot : Spot) : Option Spot :=
  let found := rule.patterns.flatMap fun pattern => LinePattern.ends rule.fold pattern spot
  let fits := found.filter fun last =>
    if rule.wholeLines then spot.before.isNone && last.rest.isEmpty
    else !rule.words ||
      (!spot.before.any isWordChar && !last.rest.head?.any isWordChar)
  fits.foldl (fun best last =>
    match best with
    | some kept => if last.rest.length < kept.rest.length then some last else best
    | none => some last) none

def SearchRule.firstMatch? (rule : SearchRule) (before : Option Char) :
    Text → Option (Spot × Spot)
  | [] => (rule.matchAt? ⟨before, [], []⟩).map fun last => (⟨before, [], []⟩, last)
  | c :: rest =>
      match rule.matchAt? ⟨before, c :: rest, []⟩ with
      | some last => some (⟨before, c :: rest, []⟩, last)
      | none => rule.firstMatch? (some c) rest

def SearchRule.matches (rule : SearchRule) (length : Nat) :
    Nat → Option Char → Text → List (Nat × Text)
  | 0, _, _ => []
  | steps + 1, before, text =>
      match rule.firstMatch? before text with
      | none => []
      | some (first, last) =>
          let size := first.rest.length - last.rest.length
          if size = 0 then
            match first.rest with
            | [] => []
            | c :: rest => rule.matches length steps (some c) rest
          else
            (length - first.rest.length, first.rest.take size) ::
              rule.matches length steps last.before last.rest

structure NumberedLine where
  number : Nat
  offset : Nat
  text : Text

def numberedLines (number offset : Nat) : List Text → List NumberedLine
  | [] => []
  | line :: rest =>
      ⟨number, offset, line⟩ :: numberedLines (number + 1) (offset + line.length + 1) rest

structure SearchView where
  call : Call
  named : Bool
  before : Option Nat
  after : Option Nat
  most : Option Nat

namespace SearchView

def label (view : SearchView) (mark : Char) (name : Text) (number offset : Nat) : Text :=
  (if view.named then name ++ [mark] else []) ++
    (if view.call.has 'n' then digits number ++ [mark] else []) ++
    (if view.call.has 'b' then digits offset ++ [mark] else [])

def withNeighbours (view : SearchView) (lines : List NumberedLine) (selected : List Nat) :
    List (Bool × NumberedLine) :=
  lines.filterMap fun line =>
    if selected.contains line.number then some (true, line)
    else if selected.any fun n =>
      (n < line.number && line.number ≤ n + view.after.getD 0) ||
        (line.number < n && n ≤ line.number + view.before.getD 0) then some (false, line)
    else none

def showLines (view : SearchView) (rule : SearchRule) (ending : Char) (name : Text)
    (apart : Bool) (previous : Option Nat) : List (Bool × NumberedLine) → Text
  | [] => []
  | (chosen, line) :: rest =>
      let gap :=
        if (view.before.isSome || view.after.isSome) && apart &&
            previous.map (· + 1) ≠ some line.number then "--\n".toList else []
      let mark := if chosen then ':' else '-'
      let shown :=
        if view.call.has 'o' then
          if chosen != view.call.has 'v' then
            (rule.matches line.text.length (line.text.length + 1) none line.text).flatMap
              fun (start, part) =>
                view.label mark name line.number (line.offset + start) ++ part ++ [ending]
          else []
        else view.label mark name line.number line.offset ++ line.text ++ [ending]
      gap ++ shown ++ showLines view rule ending name true (some line.number) rest

end SearchView

def Call.listing? (call : Call) : Option Char :=
  (call.options.reverse.map (·.1)).find? fun c => c == 'l' || c == 'L'

structure SearchState where
  found : Bool
  failed : Bool
  shown : Bool

def reportName (name : Text) : Text :=
  if name = ['-'] then "(standard input)".toList else name

def isOutput (name : Text) : Action Bool := fun process machine =>
  let target : Option Location :=
    (process.descriptors.get? standardOutput).bind fun handle =>
      match machine.stream handle with
      | .file location _ | .append location => some location
      | _ => none
  let source : Option Location :=
    if name = ['-'] then none
    else
      match machine.tree.open? process.cwd (Latin.toBytes name) with
      | .ok (location, .file _ _) => some location
      | _ => none
  (source.isSome && source == target, machine)

def searchContent (view : SearchView) (rule : SearchRule) (name content : Text)
    (state : SearchState) : Action SearchState := do
  let call := view.call
  let ending := if call.has 'z' then Char.ofNat 0 else '\n'
  let pieces := fields (· == ending) content
  let lines := numberedLines 1 0 (if pieces.getLast? == some [] then pieces.dropLast else pieces)
  let all := lines.filterMap fun line =>
    if (rule.firstMatch? none line.text).isSome != call.has 'v' then some line.number else none
  let selected := match view.most with
    | some most => all.take most
    | none => all
  let title := reportName name
  let hit := !selected.isEmpty
  let next := { state with found := state.found || hit }
  if call.has 'q' then return next
  else if let some letter := call.listing? then
    if hit == (letter == 'l') then say (title ++ ['\n'])
    return next
  else if call.has 'c' then
    say ((if view.named then title ++ [':'] else []) ++ digits selected.length ++ ['\n'])
    return next
  else if hit && !call.has 'a' && !call.has 'z' && content.contains (Char.ofNat 0) then
    call.complain (title ++ ": binary file matches".toList)
    return next
  else
    let shown := view.withNeighbours lines selected
    say (view.showLines rule ending title state.shown none shown)
    return { next with shown := state.shown || !shown.isEmpty }

def filesBelow (tree : FileTree) : Nat → Location → Text → List Text
  | 0, _, _ => []
  | depth + 1, location, name =>
      (tree.names location).flatMap fun part =>
        let path := (if name.getLast? == some '/' then name else name ++ ['/']) ++
          Latin.ofBytes part
        match tree.node? (location ++ [part]) with
        | some (.folder _) => filesBelow tree depth (location ++ [part]) path
        | some (.file _ _) => [path]
        | _ => []

def inDepth (operands : List Text) : Action (List Text × Bool) := fun process machine =>
  let spread := operands.map fun name =>
    match machine.tree.open? process.cwd (Latin.toBytes name) with
    | .ok (location, .folder _) => (filesBelow machine.tree longestPath location name, true)
    | _ => ([name], false)
  ((spread.flatMap (·.1), spread.any (·.2)), machine)

def searchOperands (view : SearchView) (rule : SearchRule) (state : SearchState) :
    List Text → Action SearchState
  | [] => pure state
  | name :: rest => do
      let call := view.call
      let report := fun (failure : Failure) => do
        if !call.has 's' then call.complainOf (reportName name) failure
        return { state with failed := true }
      let state ←
        if (← isOutput name) && !(call.has 'q' || call.listing?.isSome ||
            view.most == some 1) then do
          if !call.has 's' then
            call.complain (reportName name ++ ": input file is also the output".toList)
          pure { state with failed := true }
        else
          match ← readOperand name with
          | .error .isFolder => do
              let state ← report .isFolder
              searchContent view rule name [] state
          | .error failure => report failure
          | .ok content => searchContent view rule name content state
      if call.has 'q' && state.found then return state
      else searchOperands view rule state rest

def spellingOf (call : Call) : Char :=
  ("EFGP".toList.find? call.has).getD 'G'

def readPatterns (call : Call) (style : PatternStyle) :
    List Text → Except PatternFault (List LinePattern × List String)
  | [] => .ok ([], [])
  | text :: rest =>
      let read := if spellingOf call == 'F' then .ok (fixedPattern style text, [])
        else readLinePattern style text
      match read with
      | .error fault => .error fault
      | .ok (pattern, loose) =>
          (readPatterns call style rest).map fun others => (pattern :: others.1, loose ++ others.2)

def patternFiles (call : Call) : List Text → Action (Except Unit (List Text))
  | [] => pure (.ok [])
  | name :: rest => do
      match ← readOperand name with
      | .error failure =>
          call.complainOf name failure
          return .error ()
      | .ok content => return (← patternFiles call rest).map (linesOf content ++ ·)

def searchUsage (call : Call) : Action ExitStatus := do
  let short := (fields (· == '/') call.name).getLast?.getD []
  warn ("Usage: ".toList ++ short ++ " [OPTION]... PATTERNS [FILE]...".toList)
  warn ("Try '".toList ++ short ++ " --help' for more information.".toList)
  return .exited 2

def lineCount? (call : Call) (letters : List Char) (complaint : String) :
    Except Text (Option Nat) :=
  match (call.options.reverse.find? fun option => letters.contains option.1) with
  | none => .ok none
  | some (_, value) =>
      match natural? value with
      | some n => .ok (some n)
      | none => .error (complaint.toList ++
          (if letters.length = 1 then [] else value ++ ": invalid context length argument".toList))

def refuseSearch (call : Call) (complaint : Text) : Action ExitStatus := do
  call.complain complaint
  return .exited 2

def runSearch (call : Call) (written files : List Text) : Action ExitStatus := do
  let spelling := spellingOf call
  let style : PatternStyle := ⟨spelling == 'E' || spelling == 'P', call.has 'i' || call.has 'y'⟩
  let texts := written.flatMap fun text => fields (· == '\n') text
  match readPatterns call style texts, lineCount? call ['m'] "invalid max count",
      lineCount? call ['A', 'C'] "", lineCount? call ['B', 'C'] "" with
  | .error fault, _, _, _ => refuseSearch call fault.message
  | _, .error complaint, _, _ | _, _, .error complaint, _ | _, _, _, .error complaint =>
      refuseSearch call complaint
  | .ok (patterns, loose), .ok most, .ok after, .ok before =>
      loose.forM fun sign =>
        call.complain ("warning: ".toList ++ sign.toList ++ " at start of expression".toList)
      let around := natural? ((call.options.map (·.1)).filter Char.isDigit)
      let deep := call.has 'r' || call.has 'R'
      let inputs := if files.isEmpty then [if deep then ['.'] else ['-']] else files
      let rule : SearchRule := ⟨patterns, style.folded, call.has 'w', call.has 'x'⟩
      if most = some 0 && call.listing? != some 'L' then return .exited 1
      else
        let (operands, spread) ← if deep then inDepth inputs else pure (inputs, false)
        let view : SearchView :=
          { call := call
            named := !call.has 'h' && (call.has 'H' || spread || 1 < inputs.length)
            before := before <|> around
            after := after <|> around
            most := most }
        let shown := fun (name : Text) =>
          if files.isEmpty && deep then name.drop 2 else name
        let state ← searchOperands view rule ⟨false, false, false⟩ (operands.map shown)
        return .exited (if state.failed && !(call.has 'q' && state.found) then 2
          else if state.found then 0 else 1)

def search : Tool := fun argv => do
  let words := argv.map Latin.ofBytes
  let name := words.head?.getD []
  match readWords searchForms (words.drop 1) with
  | .error fault =>
      let call : Call := ⟨name, [], []⟩
      call.complain fault.message
      searchUsage call
  | .ok (options, operands) =>
      let call : Call := ⟨name, options, operands⟩
      if 1 < ("EFGP".toList.filter call.has).length then
        return ← refuseSearch call "conflicting matchers specified".toList
      let written := options.filterMap fun option =>
        if option.1 == 'e' then some option.2 else none
      let named := options.filterMap fun option =>
        if option.1 == 'f' then some option.2 else none
      match ← patternFiles call named with
      | .error () => return .exited 2
      | .ok listed =>
          if call.has 'e' || call.has 'f' then runSearch call (written ++ listed) operands
          else
            match operands with
            | [] => searchUsage call
            | pattern :: files => runSearch call [pattern] files

end Tool

end CommandShell
