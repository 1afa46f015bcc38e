import CommandShell.Tool.Options
import CommandShell.Tool.SortOrder

/-!
Sorting lines by the whole line or by keys. A key is a part of a line, cut out by field and
character numbers, with an order of its own; lines that all keys leave equal are
told apart by their bytes.
-/
namespace CommandShell

namespace Tool

def kindLetter : Char := ' '

def sortForms : OptionForms where
  flags := "bcdCfghiMmnrsuVz".toList
  valued := "koStT".toList ++ [kindLetter]
  long := [("ignore-leading-blanks", 'b'), ("dictionary-order", 'd'), ("ignore-case", 'f'),
    ("ignore-nonprinting", 'i'), ("numeric-sort", 'n'), ("general-numeric-sort", 'g'),
    ("reverse", 'r'), ("check", 'c'), ("key", 'k'), ("merge", 'm'), ("output", 'o'),
    ("human-numeric-sort", 'h'), ("month-sort", 'M'), ("version-sort", 'V'),
    ("sort", kindLetter), ("buffer-size", 'S'), ("temporary-directory", 'T'),
    ("stable", 's'), ("field-separator", 't'), ("unique", 'u'), ("zero-terminated", 'z')]
  maybeValued := ['c']
  leading := false

structure SortKey where
  startField : Nat
  startChar : Nat
  skipStart : Bool
  endField : Option Nat
  endChar : Nat
  skipEnd : Bool
  order : SortOrder
  reverse : Bool

abbrev Separator := Option Char

/-- Drops fields from the start of a line. Without a separator a field takes the blanks
before it along. -/
def dropFields (separator : Separator) : Nat → Text → Text
  | 0, line => line
  | count + 1, line =>
      match separator with
      | some c => dropFields separator count ((line.dropWhile (· != c)).drop 1)
      | none => dropFields separator count
          ((line.dropWhile isFieldGap).dropWhile fun c => !isFieldGap c)

/-- What is left of a line behind the end of a key. A separator behind the last whole field
does not belong to the key. -/
def afterFields (separator : Separator) (whole : Bool) : Nat → Text → Text
  | 0, line => line
  | count + 1, line =>
      match separator with
      | some c =>
          let rest := line.dropWhile (· != c)
          if count = 0 && whole then rest else afterFields separator whole count (rest.drop 1)
      | none => afterFields separator whole count
          ((line.dropWhile isFieldGap).dropWhile fun c => !isFieldGap c)

namespace SortKey

def cut (separator : Separator) (key : SortKey) (line : Text) : Text :=
  let fromField := dropFields separator key.startField line
  let fromText := if key.skipStart then fromField.dropWhile isFieldGap else fromField
  let start := fromText.drop key.startChar
  match key.endField with
  | none => start
  | some field =>
      let rest :=
        if key.endChar = 0 then afterFields separator true (field + 1) line
        else
          let there := afterFields separator false field line
          (if key.skipEnd then there.dropWhile isFieldGap else there).drop key.endChar
      start.take (start.length - rest.length)

end SortKey

structure Sorting where
  keys : List SortKey
  separator : Separator
  reverse : Bool
  keysOnly : Bool

def turn (reverse : Bool) (ordering : Ordering) : Ordering :=
  if reverse then ordering.swap else ordering

def compareKeys (separator : Separator) (left right : Text) : List SortKey → Ordering
  | [] => .eq
  | key :: rest =>
      (turn key.reverse (key.order.compare (key.cut separator left) (key.cut separator right))).then
        (compareKeys separator left right rest)

namespace Sorting

def compare (sorting : Sorting) (left right : Text) : Ordering :=
  let byKeys := compareKeys sorting.separator left right sorting.keys
  if sorting.keysOnly && !sorting.keys.isEmpty then byKeys
  else byKeys.then (turn sorting.reverse (compareLatin left right))

def le (sorting : Sorting) (left right : Text) : Bool :=
  (sorting.compare left right).isLE

end Sorting

def keepFirst (sorting : Sorting) : List Text → List Text
  | [] => []
  | line :: rest =>
      line :: keepFirst sorting (rest.dropWhile fun other => sorting.compare line other == .eq)
termination_by lines => lines.length
decreasing_by
  have := (List.dropWhile_sublist (fun other => sorting.compare line other == .eq)
    (l := rest)).length_le
  simp only [List.length_cons]
  omega

def leadingNatural? (text : Text) : Option (Nat × Text) :=
  let figures := text.takeWhile Char.isDigit
  (natural? figures).map fun value => (value, text.drop figures.length)

def orderLetters : Text := "bdfghiMnV".toList

def kindOfLetters (letters : Text) : SortKind :=
  if letters.contains 'n' then .number
  else if letters.contains 'g' then .general
  else if letters.contains 'h' then .sized
  else if letters.contains 'M' then .month
  else if letters.contains 'V' then .version
  else .text

def discordant? (letters : Text) : Option Text :=
  let kinds := "ghMn".toList.filter letters.contains
  let filters := "diV".toList.filter letters.contains
  if 1 < kinds.length + (if filters.isEmpty then 0 else 1) then
    -- Of the two filters only one is kept.
    let kept := if letters.contains 'd' then letters.filter (· != 'i') else letters
    some ("dfghiMnV".toList.filter kept.contains)
  else none

def keyOfLetters (letters : Text) : SortKey where
  startField := 0
  startChar := 0
  skipStart := letters.contains 'b'
  endField := none
  endChar := 0
  skipEnd := letters.contains 'b'
  order :=
    { kind := kindOfLetters letters
      fold := letters.contains 'f'
      dictionary := letters.contains 'd'
      printable := letters.contains 'i' }
  reverse := letters.contains 'r'

def noCount (why : String) (text : Text) : Text :=
  why.toList ++ ": invalid count at start of ".toList ++ wordInQuotes text

/-- Reads a key such as `2.1n,3`. A key without letters takes over those of the call. -/
def sortKey? (common text : Text) : Except Text SortKey :=
  let refuse := fun {α : Type} (why : String) => (Except.error : Text → Except Text α)
    (why.toList ++ ": invalid field specification ".toList ++ wordInQuotes text)
  let letters := fun (rest : Text) => rest.takeWhile fun c => orderLetters.contains c || c == 'r'
  match leadingNatural? text with
  | none => .error (noCount "invalid number at field start" text)
  | some (0, _) => refuse "field number is zero"
  | some (field + 1, rest) =>
      let first : Except Text (Nat × Text) := match rest with
        | '.' :: behind =>
            match leadingNatural? behind with
            | none => .error (noCount "invalid number after '.'" behind)
            | some (0, _) => refuse "character offset is zero"
            | some (char + 1, rest) => .ok (char, rest)
        | _ => .ok (0, rest)
      match first with
      | .error complaint => .error complaint
      | .ok (char, rest) =>
          let opening := letters rest
          let ending : Except Text (Option Nat × Nat × Text × Text) :=
            match rest.drop opening.length with
            | ',' :: behind =>
                match leadingNatural? behind with
                | none => .error (noCount "invalid number after ','" behind)
                | some (0, _) => refuse "field number is zero"
                | some (field + 1, rest) =>
                    match rest with
                    | '.' :: behind =>
                        match leadingNatural? behind with
                        | none => .error (noCount "invalid number after '.'" behind)
                        | some (char, rest) =>
                            .ok (some field, char, letters rest, rest.drop (letters rest).length)
                    | _ => .ok (some field, 0, letters rest, rest.drop (letters rest).length)
            | rest => .ok (none, 0, [], rest)
          match ending with
          | .error complaint => .error complaint
          | .ok (endField, endChar, closing, rest) =>
              if rest.isEmpty then
                let own := opening ++ closing
                let letters := if own.isEmpty then common else own
                let base := keyOfLetters letters
                match discordant? letters with
                | some opts => .error ("options '-".toList ++ opts ++ "' are incompatible".toList)
                | none =>
                    .ok
                      { base with
                        startField := field
                        startChar := char
                        skipStart := if own.isEmpty then base.skipStart else opening.contains 'b'
                        endField := endField
                        endChar := endChar
                        skipEnd := if own.isEmpty then base.skipEnd else closing.contains 'b' }
              else refuse "stray character in field spec"

def sortKeys (common : Text) : List Text → Except Text (List SortKey)
  | [] => .ok []
  | text :: rest =>
      match sortKey? common text with
      | .error complaint => .error complaint
      | .ok key => (sortKeys common rest).map (key :: ·)

def separatorOf (value : Option Text) : Except Text Separator :=
  match value with
  | none => .ok none
  | some [] => .error "empty tab".toList
  | some [c] => .ok (some c)
  | some ['\\', '0'] => .ok (some (Char.ofNat 0))
  | some word => .error ("multi-character tab ".toList ++ wordInQuotes word)

def contradiction? (call : Call) (check : Option Char) : Option Text :=
  let given := fun (letter : Char) =>
    call.options.filterMap fun option => if option.1 == letter then some option.2 else none
  let differ := fun (values : List Text) => values.any fun value => some value ≠ values.head?
  if differ (given 'o') then some "multiple output files specified".toList
  else if differ (given 't') then some "incompatible tabs".toList
  else if call.has 'c' && call.has 'C' then some "options '-cC' are incompatible".toList
  else
    match check, call.inputs, given 'o' with
    | some letter, _ :: extra :: _, _ =>
        some ("extra operand ".toList ++ nameInQuotes extra ++
          " not allowed with -".toList ++ [letter])
    | some letter, _, _ :: _ => some ("options '-".toList ++ letter :: "o' are incompatible".toList)
    | _, _, _ => none

def sortingOf (call : Call) (kinds : Text) : Except Text Sorting :=
  let common := (call.options.map (·.1) ++ kinds).filter fun c =>
    orderLetters.contains c || c == 'r'
  let written := call.options.filterMap fun option =>
    if option.1 == 'k' then some option.2 else none
  match sortKeys common written with
  | .error complaint => .error complaint
  | .ok keys =>
      match separatorOf (call.value? 't') with
      | .error complaint => .error complaint
      | .ok separator =>
          let whole := common.any orderLetters.contains
          match if keys.isEmpty then discordant? common else none with
          | some opts => .error ("options '-".toList ++ opts ++ "' are incompatible".toList)
          | none =>
              .ok
                { keys := if keys.isEmpty && whole then [keyOfLetters common] else keys
                  separator := separator
                  reverse := common.contains 'r'
                  keysOnly := call.has 's' || call.has 'u' }

def missingInput (call : Call) : List Text → Action Bool
  | [] => pure false
  | name :: rest => fun process machine =>
      match machine.tree.open? process.cwd (Latin.toBytes name) with
      | .error failure =>
          if name = ['-'] then missingInput call rest process machine
          else
            let said := call.complainOf ("cannot read: ".toList ++ quotedText name) failure
            (true, (said process machine).2)
      | .ok _ => missingInput call rest process machine

def readSorted (call : Call) (cut : Text → List Text) :
    List Text → Action (Option (List (List Text)))
  | [] => pure (some [])
  | name :: rest => do
      match ← readOperand name with
      | .error failure =>
          let step := if failure matches .isFolder then "read failed: " else "open failed: "
          call.complainOf (step.toList ++ quotedText name) failure
          return none
      | .ok content =>
          return (← readSorted call cut rest).map (cut content :: ·)

def disorder? (sorting : Sorting) (strict : Bool) : Nat → List Text → Option (Nat × Text)
  | n, line :: next :: rest =>
      let ordering := sorting.compare line next
      if ordering == .gt || (strict && ordering == .eq) then some (n + 1, next)
      else disorder? sorting strict (n + 1) (next :: rest)
  | _, _ => none

def refuseOutput (call : Call) (name : Text) (failure : Failure) : Action ExitStatus := do
  call.complainOf ("open failed: ".toList ++ quotedText name) failure
  return .exited 2

def putSorted (call : Call) (output : Text) : Action ExitStatus := do
  match call.value? 'o' with
  | none =>
      say output
      return .exited 0
  | some name =>
      match ← saveFile name output with
      | .ok () => return .exited 0
      | .error failure => refuseOutput call name failure

def refuseSort (call : Call) (complaint : Text) : Action ExitStatus := do
  call.complain complaint
  return .exited 2

def kindChoices : Choices :=
  [["general-numeric"], ["human-numeric"], ["month"], ["numeric"], ["random"], ["version"]]

def kindLetterOf (word : String) : Char :=
  match word with
  | "general-numeric" => 'g'
  | "human-numeric" => 'h'
  | "month" => 'M'
  | "numeric" => 'n'
  | "version" => 'V'
  | _ => 'R'

def checkChoices : Choices :=
  [["quiet", "silent"], ["diagnose-first"]]

def namedKinds (call : Call) : Except (List Text) Text :=
  (call.options.filter fun option => option.1 == kindLetter).mapM fun option =>
    (chosen kindChoices "sort" option.2).map kindLetterOf

def checkLetter? (call : Call) : Except (List Text) (Option Char) :=
  let given := call.options.filter fun option => option.1 == 'c' || option.1 == 'C'
  match given.getLast? with
  | none => .ok none
  | some ('c', word) =>
      if word.isEmpty then .ok (some 'c')
      else (chosen checkChoices "check" word).map fun way =>
        some (if way == "quiet" then 'C' else 'c')
  | some (letter, _) => .ok (some letter)

def checkOrder (call : Call) (sorting : Sorting) (letter : Char) (lines : List Text) :
    Action ExitStatus := do
  match disorder? sorting (call.has 'u') 1 lines with
  | none => return .exited 0
  | some (number, line) =>
      if letter == 'c' then
        call.complain (call.inputs.head?.getD [] ++ ':' :: digits number ++
          ": disorder: ".toList ++ line)
      return .exited 1

/-- Sorts what the operands hold, or checks its order. The file for the output is made before
anything is read. -/
def sortInputs (call : Call) (sorting : Sorting) (check : Option Char) : Action ExitStatus := do
  let ending := if call.has 'z' then Char.ofNat 0 else '\n'
  let cut := fun (content : Text) =>
    let pieces := fields (· == ending) content
    if pieces.getLast? == some [] then pieces.dropLast else pieces
  match check with
  | some letter =>
      match ← readSorted call cut call.inputs with
      | none => return .exited 2
      | some contents => checkOrder call sorting letter contents.flatten
  | none =>
      if ← missingInput call call.inputs then return .exited 2
      if let some name := call.value? 'o' then
        if let .error failure := ← makeFile name then
          return ← refuseOutput call name failure
      match ← readSorted call cut call.inputs with
      | none => return .exited 2
      | some contents =>
          let ordered :=
            if call.has 'm' then
              contents.foldl (fun merged lines => merged.merge lines sorting.le) []
            else contents.flatten.mergeSort sorting.le
          let kept := if call.has 'u' then keepFirst sorting ordered else ordered
          putSorted call (kept.flatMap (· ++ [ending]))

def sort : Tool :=
  withOptions sortForms 2 fun call =>
    match namedKinds call, checkLetter? call with
    | .error complaints, _ | _, .error complaints => call.misuse 2 complaints
    | .ok kinds, .ok check =>
        match sortingOf call kinds, contradiction? call check with
        | .error complaint, _ | _, some complaint => refuseSort call complaint
        | .ok sorting, none => sortInputs call sorting check

end Tool

end CommandShell
