import CommandShell.Tool.Options

/-!
Replacing, deleting and squeezing characters of sets. A set is written as characters,
ranges, named classes and repeats; its order matters when one set takes the place of
another.
-/
namespace CommandShell

namespace Tool

def replaceForms : OptionForms where
  flags := "cCdst".toList
  valued := []
  long := [("complement", 'c'), ("delete", 'd'), ("squeeze-repeats", 's'),
    ("truncate-set1", 't')]
  maybeValued := []
  leading := true

structure SetChar where
  char : Char
  escaped : Bool
  deriving DecidableEq

inductive SetPart
  | chars (text : Text)
  | members (text : Text)
  | letters (text : Text)
  | likes (c : Char)
  | filler (c : Char)
  deriving DecidableEq

def charRange (first last : Nat) : Text :=
  (List.range (last + 1 - first)).map fun n => Char.ofNat (first + n)

def allChars : Text :=
  charRange 0 255

def charClass? (name : Text) : Option (Char → Bool) :=
  match String.ofList name with
  | "alnum" => some Char.isAlphanum
  | "alpha" => some Char.isAlpha
  | "blank" => some isGap
  | "cntrl" => some fun c => c.toNat < 32 || c.toNat = 127
  | "digit" => some Char.isDigit
  | "graph" => some fun c => isPrintable c && c != ' '
  | "lower" => some Char.isLower
  | "print" => some isPrintable
  | "punct" => some fun c => isPrintable c && c != ' ' && !c.isAlphanum
  | "space" => some isSpace
  | "upper" => some Char.isUpper
  | "xdigit" => some fun c => c.isDigit || ('a' ≤ c && c ≤ 'f') || ('A' ≤ c && c ≤ 'F')
  | _ => none

def escapedChar? : Char → Option Char
  | 'a' => some (Char.ofNat 7)
  | 'b' => some (Char.ofNat 8)
  | 'f' => some (Char.ofNat 12)
  | 'n' => some '\n'
  | 'r' => some '\r'
  | 't' => some '\t'
  | 'v' => some (Char.ofNat 11)
  | '\\' => some '\\'
  | _ => none

def isOctal (c : Char) : Bool :=
  '0' ≤ c && c ≤ '7'

def octalValue (figures : Text) : Nat :=
  figures.foldl (fun value figure => value * 8 + (figure.toNat - 48)) 0

def octalEscape (text : Text) : Text :=
  let figures := (text.take 3).takeWhile isOctal
  if 255 < octalValue figures then figures.take 2 else figures

def setChars : Nat → Text → List SetChar
  | 0, _ | _, [] => []
  | steps + 1, '\\' :: c :: rest =>
      let figures := octalEscape (c :: rest)
      if figures.isEmpty then ⟨(escapedChar? c).getD c, true⟩ :: setChars steps rest
      else
        ⟨Char.ofNat (octalValue figures), true⟩ :: setChars steps ((c :: rest).drop figures.length)
  | steps + 1, c :: rest => ⟨c, false⟩ :: setChars steps rest

def plain (c : Char) : SetChar :=
  ⟨c, false⟩

def bareText (chars : List SetChar) : Text :=
  chars.map (·.char)

def untilMark? (mark : Char) : List SetChar → Option (List SetChar × List SetChar)
  | [] => none
  | c :: rest =>
      match rest with
      | close :: after =>
          if c == plain mark && close == plain ']' then some ([], after)
          else (untilMark? mark rest).map fun found => (c :: found.1, found.2)
      | [] => none

/-- How often a repeat repeats, with what follows it. No number stands for as often as it
takes. -/
def repeatCount? (chars : List SetChar) : Option (Nat × List SetChar) :=
  let figures := chars.takeWhile fun c => c.char.isDigit && !c.escaped
  match chars.drop figures.length with
  | close :: rest =>
      if close == plain ']' then
        let text := bareText figures
        if text.head? == some '0' then some (octalValue text, rest)
        else some ((natural? text).getD 0, rest)
      else none
  | [] => none

def bracketed? (chars : List SetChar) :
    Except Text (Option (SetPart × List SetChar)) :=
  match chars with
  | ⟨'[', false⟩ :: ⟨':', false⟩ :: rest =>
      match untilMark? ':' rest with
      | none => .ok none
      | some (name, after) =>
          match charClass? (bareText name) with
          | some admits =>
              let members := allChars.filter admits
              if bareText name = "upper".toList ∨ bareText name = "lower".toList then
                .ok (some (.letters members, after))
              else .ok (some (.members members, after))
          | none =>
              .error ("invalid character class ".toList ++ wordInQuotes (bareText name))
  | ⟨'[', false⟩ :: ⟨'=', false⟩ :: rest =>
      match untilMark? '=' rest with
      | some ([c], after) => .ok (some (.likes c.char, after))
      | some (others, _) =>
          if others.isEmpty then .ok none
          else .error (bareText others ++
            ": equivalence class operand must be a single character".toList)
      | none => .ok none
  | ⟨'[', false⟩ :: c :: ⟨'*', false⟩ :: rest =>
      match repeatCount? rest with
      | none => .ok none
      | some (0, after) => .ok (some (.filler c.char, after))
      | some (count, after) => .ok (some (.chars (List.replicate count c.char), after))
  | _ => .ok none

def shownChar (c : Char) : Text :=
  if isPrintable c then [c] else '\\' :: escapeName c

def setParts : Nat → List SetChar → Except Text (List SetPart)
  | 0, _ | _, [] => .ok []
  | steps + 1, c :: rest =>
      match bracketed? (c :: rest) with
      | .error complaint => .error complaint
      | .ok (some (part, after)) => (setParts steps after).map (part :: ·)
      | .ok none =>
          match rest with
          | ⟨'-', false⟩ :: last :: after =>
              if last.char < c.char then
                .error ("range-endpoints of '".toList ++ shownChar c.char ++ '-' ::
                  shownChar last.char ++
                  "' are in reverse collating sequence order".toList)
              else (setParts steps after).map (.chars (charRange c.char.toNat last.char.toNat) :: ·)
          | _ => (setParts steps rest).map (.chars [c.char] :: ·)

def readSet (word : Text) : Except Text (List SetPart) :=
  let chars := setChars word.length word
  setParts chars.length chars

def partText (fill : Nat) : SetPart → Text
  | .chars text | .members text | .letters text => text
  | .likes c => [c]
  | .filler c => List.replicate fill c

def setText (fill : Nat) (parts : List SetPart) : Text :=
  parts.flatMap (partText fill)

def isFiller : SetPart → Bool
  | .filler _ => true
  | _ => false

def isClass : SetPart → Bool
  | .members _ | .letters _ => true
  | _ => false

def letterStarts (fill start : Nat) : List SetPart → List Nat
  | [] => []
  | part :: rest =>
      let others := letterStarts fill (start + (partText fill part).length) rest
      match part with
      | .letters _ => start :: others
      | _ => others

def matchSets (call : Call) (first : Text) (firstParts secondParts : List SetPart) :
    Except Text (Text × Text) :=
  let complement := call.has 'c' || call.has 'C'
  let fill := first.length - (setText 0 secondParts).length
  let second := setText fill secondParts
  let starts := letterStarts 0 0 firstParts
  if 1 < (secondParts.filter isFiller).length then
    .error "only one [c*] repeat construct may appear in string2".toList
  else if secondParts.any fun part => part matches .likes _ then
    .error "[=c=] expressions may not appear in string2 when translating".toList
  else if secondParts.any fun part => part matches .members _ then
    .error ("when translating, the only character classes that may appear in\n".toList ++
      "string2 are 'upper' and 'lower'".toList)
  else if !complement && !(letterStarts fill 0 secondParts).all starts.contains then
    .error "misaligned [:upper:] and/or [:lower:] construct".toList
  else
    let short := second.length < first.length && !call.has 't'
    if short && second.isEmpty then
      .error "when not truncating set1, string2 must be non-empty".toList
    else if short && secondParts.getLast?.any isClass then
      .error ("when translating with string1 longer than string2,\n".toList ++
        "the latter string must not end with a character class".toList)
    else
      let padded := if short then
          second ++ List.replicate (first.length - second.length) ((second.getLast?).getD ' ')
        else second
      if complement && firstParts.any isClass &&
          !(padded.length = first.length && padded.all fun c => some c == padded.head?) then
        .error ("when translating with complemented character classes,\n".toList ++
          "string2 must map all characters in the domain to one".toList)
      else .ok (first.take padded.length, padded)

/-- The character that takes another one's place. The last place of a character counts. -/
def replaceChar (first second : Text) (c : Char) : Char :=
  match (first.zip second).reverse.find? fun pair => pair.1 == c with
  | some pair => pair.2
  | none => c

def squeeze (set : Text) : Text → Text
  | first :: second :: rest =>
      if first == second && set.contains first then squeeze set (second :: rest)
      else first :: squeeze set (second :: rest)
  | text => text

def setComplaints (call : Call) : List Text :=
  let delete := call.has 'd'
  let squeezes := call.has 's'
  let least := if delete == squeezes then 2 else 1
  let most := if delete && !squeezes then 1 else 2
  if call.operands.length < least then
    match call.operands.getLast? with
    | none => ["missing operand".toList]
    | some last => ["missing operand after ".toList ++ wordInQuotes last,
        (if squeezes then "Two strings must be given when both deleting and squeezing repeats."
        else "Two strings must be given when translating.").toList]
  else
    match call.operands.drop most with
    | [] => []
    | extra :: _ =>
        ["extra operand ".toList ++ wordInQuotes extra] ++
          (if call.operands.length = 2 then
            ["Only one string may be given when deleting without squeezing repeats.".toList]
          else [])

def replacement (call : Call) : Except Text (Text → Text) :=
  match readSet (call.operands.head?.getD []), readSet ((call.operands[1]?).getD []) with
  | .error complaint, _ | _, .error complaint => .error complaint
  | .ok firstParts, .ok secondParts =>
      let named := setText 0 firstParts
      let first := if call.has 'c' || call.has 'C' then
        allChars.filter fun c => !named.contains c else named
      if firstParts.any isFiller then
        .error "the [c*] repeat construct may not appear in string1".toList
      else if call.has 'd' || call.operands.length < 2 then
        if secondParts.any isFiller then
          .error "the [c*] construct may appear in string2 only when translating".toList
        else
          let second := setText 0 secondParts
          .ok fun text =>
            let kept := if call.has 'd' then text.filter fun c => !first.contains c else text
            if !call.has 's' then kept
            else squeeze (if call.has 'd' then second else first) kept
      else
        match matchSets call first firstParts secondParts with
        | .error complaint => .error complaint
        | .ok (first, second) =>
            let table := allChars.map (replaceChar first second)
            .ok fun text =>
              let changed := text.map fun c => (table[c.toNat]?).getD c
              if call.has 's' then squeeze second changed else changed

def replaceBytes : Tool :=
  withOptions replaceForms 1 fun call => do
    match setComplaints call with
    | complaint :: others => call.misuse 1 (complaint :: others)
    | [] =>
        if call.operands.any fun word => word.getLast? == some '\\' && (word.length = 1 ||
            word.dropLast.getLast? != some '\\') then
          call.complain "warning: an unescaped backslash at end of string is not portable".toList
        match replacement call with
        | .error complaint =>
            call.complain complaint
            return .exited 1
        | .ok change =>
            match ← readInput with
            | .error failure =>
                call.complainOf "read error".toList failure
                return .exited 1
            | .ok content =>
                say (change content)
                return .exited 0

end Tool

end CommandShell
