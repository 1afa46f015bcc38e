import CommandShell.Tool.ReplaceBytes

/-!
Patterns for parts of lines. There are two spellings: in the basic one parentheses, braces,
bars and two of the repeat signs need a backslash, in the extended one they go without.
A matcher follows all ways through a pattern at once, so it finds the longest match.
-/
namespace CommandShell

namespace Tool

inductive LinePattern
  | empty
  | char (admits : Char → Bool)
  | seq (first second : LinePattern)
  | either (first second : LinePattern)
  | again (body : LinePattern) (least : Nat) (most : Option Nat)
  | group (number : Nat) (body : LinePattern)
  | same (number : Nat)
  | place (holds : Option Char → Option Char → Bool)

structure Spot where
  before : Option Char
  rest : Text
  groups : List (Nat × Text)
  deriving DecidableEq

def isWordChar (c : Char) : Bool :=
  c.isAlphanum || c == '_'

namespace LinePattern

def skip? (spot : Spot) (fold : Char → Char) : Text → Option Spot
  | [] => some spot
  | c :: text =>
      match spot.rest with
      | [] => none
      | d :: rest =>
          if fold c == fold d then skip? { spot with before := some d, rest := rest } fold text
          else none

/-- Repeats a step. Further repeats have to get on. -/
def iterate (advance : Spot → List Spot) (most : Option Nat) :
    Nat → Nat → List Spot → List Spot
  | 0, _, spots => spots
  | steps + 1, count, spots =>
      if most = some count || spots.isEmpty then spots
      else
        let further := (spots.flatMap fun spot =>
          (advance spot).filter fun next => next.rest.length < spot.rest.length).eraseDups
        (spots ++ iterate advance most steps (count + 1) further).eraseDups

def times (advance : Spot → List Spot) : Nat → List Spot → List Spot
  | 0, spots => spots
  | count + 1, spots => times advance count ((spots.flatMap advance).eraseDups)

def ends (fold : Char → Char) : LinePattern → Spot → List Spot
  | .empty, spot => [spot]
  | .char admits, spot =>
      match spot.rest with
      | c :: rest => if admits c then [{ spot with before := some c, rest := rest }] else []
      | [] => []
  | .seq first second, spot => ((ends fold first spot).flatMap (ends fold second)).eraseDups
  | .either first second, spot => (ends fold first spot ++ ends fold second spot).eraseDups
  | .again body least most, spot =>
      iterate (ends fold body) most (spot.rest.length + 1) least
        (times (ends fold body) least [spot])
  | .group number body, spot =>
      (ends fold body spot).map fun next =>
        { next with
          groups := (number, spot.rest.take (spot.rest.length - next.rest.length)) ::
            next.groups.filter fun entry => entry.1 != number }
  | .same number, spot =>
      match spot.groups.find? fun entry => entry.1 == number with
      | some (_, text) => (skip? spot fold text).toList
      | none => []
  | .place holds, spot => if holds spot.before spot.rest.head? then [spot] else []

end LinePattern

inductive PatternToken
  | char (admits : Char → Bool)
  | opening
  | closing
  | bar
  | interval (least : Nat) (most : Option Nat)
  | same (number : Nat)
  | place (holds : Option Char → Option Char → Bool)
  | loose (sign : String)

inductive PatternFault
  | unmatchedBracket
  | unmatchedOpening
  | unmatchedClosing
  | unmatchedBrace
  | badInterval
  | badRange
  | badClass
  | classOutside
  | badSame
  | tooBig
  | badBracket
  | badElement
  | trailingBackslash

def PatternFault.message : PatternFault → Text
  | .unmatchedBracket => "Unmatched [, [^, [:, [., or [=".toList
  | .unmatchedOpening => "Unmatched ( or \\(".toList
  | .unmatchedClosing => "Unmatched ) or \\)".toList
  | .unmatchedBrace => "Unmatched \\\x7b".toList
  | .badInterval => "Invalid content of \\\x7b\\\x7d".toList
  | .badRange => "Invalid range end".toList
  | .badClass => "Invalid character class name".toList
  | .classOutside => "character class syntax is [[:space:]], not [:space:]".toList
  | .badSame => "Invalid back reference".toList
  | .tooBig => "Regular expression too big".toList
  | .badBracket => "Invalid regular expression".toList
  | .badElement => "Invalid collation character".toList
  | .trailingBackslash => "Trailing backslash".toList

structure PatternStyle where
  extended : Bool
  fold : Bool

namespace PatternStyle

def folded (style : PatternStyle) : Char → Char :=
  if style.fold then lowerAscii else id

def widen (style : PatternStyle) (admits : Char → Bool) : Char → Bool :=
  if style.fold then fun c => admits c || admits (lowerAscii c) || admits (upperAscii c)
  else admits

end PatternStyle

def cutAtMark? (mark : Char) : Text → Option (Text × Text)
  | c :: ']' :: rest =>
      if c == mark then some ([], rest)
      else (cutAtMark? mark (']' :: rest)).map fun cut => (c :: cut.1, cut.2)
  | c :: rest => (cutAtMark? mark rest).map fun cut => (c :: cut.1, cut.2)
  | [] => none

def bracketItem (text : Text) : Except PatternFault ((Char → Bool) × Option Char × Text) :=
  match text with
  | '[' :: ':' :: rest =>
      match cutAtMark? ':' rest with
      | none => .error .unmatchedBracket
      | some (name, rest) =>
          match charClass? name with
          | some admits => .ok (admits, none, rest)
          | none => .error .badClass
  | '[' :: mark :: rest =>
      if mark == '=' || mark == '.' then
        match cutAtMark? mark rest with
        | some ([c], rest) => .ok ((· == c), some c, rest)
        | some _ => .error .badElement
        | none => .error .unmatchedBracket
      else .ok ((· == '['), some '[', mark :: rest)
  | c :: rest => .ok ((· == c), some c, rest)
  | [] => .error .unmatchedBracket

def bracketItems (first : Bool) : Nat → Text → Except PatternFault ((Char → Bool) × Text)
  | 0, _ => .error .unmatchedBracket
  | steps + 1, text =>
      match text with
      | [] => .error .unmatchedBracket
      | c :: rest =>
          if c == ']' && !first then .ok (fun _ => false, rest)
          else
            match bracketItem (c :: rest) with
            | .error fault => .error fault
            | .ok (admits, single, rest) =>
                let plain := fun (_ : Unit) =>
                  (bracketItems false steps rest).map fun read =>
                    ((fun c => admits c || read.1 c), read.2)
                match single, rest with
                | some low, '-' :: next :: behind =>
                    if next == ']' then plain ()
                    else
                      match bracketItem (next :: behind) with
                      | .error fault => .error fault
                      | .ok (_, none, _) => .error .badRange
                      | .ok (_, some high, rest) =>
                          if high < low then .error .badRange
                          else
                            (bracketItems false steps rest).map fun read =>
                              ((fun c => (low ≤ c && c ≤ high) || read.1 c), read.2)
                | none, '-' :: next :: _ => if next == ']' then plain () else .error .badRange
                | _, _ => plain ()

def readBracket (style : PatternStyle) (text : Text) :
    Except PatternFault ((Char → Bool) × Text) :=
  match text with
  | [] | ['^'] => .error .badBracket
  | '^' :: rest =>
      (bracketItems true (rest.length + 1) rest).map fun read =>
        let admits := style.widen read.1
        ((fun c => !admits c), read.2)
  | _ =>
      (bracketItems true (text.length + 1) text).map fun read => (style.widen read.1, read.2)

def isBareClass (text : Text) : Bool :=
  match text with
  | ':' :: rest =>
      let name := rest.takeWhile Char.isAlpha
      match rest.drop name.length with
      | ':' :: ']' :: _ => !name.isEmpty
      | _ => false
  | _ => false

inductive Interval
  | repeats (least : Nat) (most : Option Nat) (rest : Text)
  | invalid
  | unclosed
  | tooBig
  | other

def mostRepeats : Nat := 32767

def readInterval (extended : Bool) (text : Text) : Interval :=
  let low := text.takeWhile Char.isDigit
  let rest := text.drop low.length
  let (high, behind) : Option Text × Text := match rest with
    | ',' :: behind =>
        let high := behind.takeWhile Char.isDigit
        (some high, behind.drop high.length)
    | _ => (none, rest)
  let closed : Option Text := match extended, behind with
    | true, '\x7d' :: rest => some rest
    | false, '\\' :: '\x7d' :: rest => some rest
    | _, _ => none
  match closed with
  | none => if behind.isEmpty then .unclosed else .other
  | some rest =>
      let least := (natural? low).getD 0
      let most := match high with
        | some high => natural? high
        | none => some least
      if low.isEmpty && high.isNone then .invalid
      else if most.any fun most => most < least then .invalid
      else if mostRepeats < most.getD least then .tooBig
      else .repeats least most rest

def wordEdge (before after : Option Char) : Bool :=
  before.any isWordChar != after.any isWordChar

def backslashToken? : Char → Option PatternToken
  | '<' => some (.place fun before after => !before.any isWordChar && after.any isWordChar)
  | '>' => some (.place fun before after => before.any isWordChar && !after.any isWordChar)
  | 'b' => some (.place wordEdge)
  | 'B' => some (.place fun before after => !wordEdge before after)
  | 'w' => some (.char isWordChar)
  | 'W' => some (.char fun c => !isWordChar c)
  | 's' => some (.char isSpace)
  | 'S' => some (.char fun c => !isSpace c)
  | '`' => some (.place fun before _ => before.isNone)
  | '\'' => some (.place fun _ after => after.isNone)
  | c => if '1' ≤ c && c ≤ '9' then some (.same (c.toNat - 48)) else none

def lineStart : PatternToken :=
  .place fun before _ => before.isNone

def endOfLine : PatternToken :=
  .place fun _ after => after.isNone

def endsPart : Text → Bool
  | [] => true
  | '\\' :: ')' :: _ => true
  | '\\' :: '|' :: _ => true
  | _ => false

def signToken? : Char → Option PatternToken
  | '(' => some .opening
  | ')' => some .closing
  | '|' => some .bar
  | '+' => some (.interval 1 none)
  | '?' => some (.interval 0 (some 1))
  | _ => none

/-- Cuts a pattern into tokens. `start` holds where a part begins, and there a star of a
basic pattern stands for itself. -/
def patternTokens (style : PatternStyle) (start : Bool) :
    Nat → Text → Except PatternFault (List PatternToken)
  | 0, _ | _, [] => .ok []
  | steps + 1, c :: rest =>
      let go := fun (start : Bool) (token : PatternToken) (rest : Text) =>
        (patternTokens style start steps rest).map (token :: ·)
      let loose := fun (sign : String) (token : PatternToken) (rest : Text) =>
        (patternTokens style false steps rest).map fun tokens => .loose sign :: token :: tokens
      let literal := fun (c : Char) (rest : Text) =>
        go false (.char (style.widen (· == c))) rest
      let sign := fun (c : Char) (rest : Text) =>
        match signToken? c with
        | some .opening => go true .opening rest
        | some .bar => go true .bar rest
        | some token => go false token rest
        | none => literal c rest
      if c == '\\' then
        match rest with
        | [] => .error .trailingBackslash
        | d :: rest =>
            match backslashToken? d with
            | some (.place holds) => go start (.place holds) rest
            | some token => go false token rest
            | none =>
                if style.extended || (start && "+?\x7b".toList.contains d) then literal d rest
                else if d == '\x7b' then
                  match readInterval false rest with
                  | .repeats least most rest => go false (.interval least most) rest
                  | .unclosed => .error .unmatchedBrace
                  | .tooBig => .error .tooBig
                  | .invalid | .other => .error .badInterval
                else sign d rest
      else if c == '[' then
        if isBareClass rest then .error .classOutside
        else
          match readBracket style rest with
          | .error fault => .error fault
          | .ok (admits, rest) => go false (.char admits) rest
      else if c == '.' then go false (.char fun _ => true) rest
      else if c == '*' then
        if start then
          if style.extended then loose "*" (.interval 0 none) rest else literal c rest
        else go false (.interval 0 none) rest
      else if c == '^' && (style.extended || start) then go start lineStart rest
      else if c == '$' && (style.extended || endsPart rest) then go start endOfLine rest
      else if style.extended then
        if c == '\x7b' then
          match readInterval true rest with
          | .repeats least most rest =>
              if start then loose "\x7b...\x7d" (.interval least most) rest
              else go false (.interval least most) rest
          | .tooBig => .error .tooBig
          | .invalid => .error .badInterval
          | .unclosed | .other => literal c rest
        else if start && c == '+' then loose "+" (.interval 1 none) rest
        else if start && c == '?' then loose "?" (.interval 0 (some 1)) rest
        else sign c rest
      else literal c rest

structure PatternRead where
  pattern : LinePattern
  rest : List PatternToken
  groups : Nat

def addRepeats (pattern : LinePattern) : List PatternToken → LinePattern × List PatternToken
  | .interval least most :: rest => addRepeats (.again pattern least most) rest
  | .loose _ :: rest => addRepeats pattern rest
  | tokens => (pattern, tokens)

/-- Reads alternatives up to the end or to a closing parenthesis, which is left. `done` is
what has been read of the present one. A parenthesis that closes nothing is a character in
the extended spelling. -/
def readAlternatives (extended inside : Bool) : Nat → LinePattern → Nat → List PatternToken →
    Except PatternFault PatternRead
  | 0, done, groups, tokens => .ok ⟨done, tokens, groups⟩
  | steps + 1, done, groups, tokens =>
      let more := fun (pattern : LinePattern) (groups : Nat) (rest : List PatternToken) =>
        let (pattern, rest) := addRepeats pattern rest
        readAlternatives extended inside steps (.seq done pattern) groups rest
      match tokens with
      | [] => if inside then .error .unmatchedOpening else .ok ⟨done, [], groups⟩
      | .closing :: rest =>
          if inside then .ok ⟨done, .closing :: rest, groups⟩
          else if extended then more (.char (· == ')')) groups rest
          else .error .unmatchedClosing
      | .bar :: rest =>
          match readAlternatives extended inside steps .empty groups rest with
          | .error fault => .error fault
          | .ok read => .ok { read with pattern := .either done read.pattern }
      | .opening :: rest =>
          let number := groups + 1
          match readAlternatives extended true steps .empty number rest with
          | .error fault => .error fault
          | .ok read => more (.group number read.pattern) read.groups (read.rest.drop 1)
      | .char admits :: rest => more (.char admits) groups rest
      | .same number :: rest =>
          if groups < number then .error .badSame else more (.same number) groups rest
      | .place holds :: rest => more (.place holds) groups rest
      | .interval least most :: rest => more (.again .empty least most) groups rest
      | .loose _ :: rest => readAlternatives extended inside steps done groups rest

def readLinePattern (style : PatternStyle) (text : Text) :
    Except PatternFault (LinePattern × List String) :=
  match patternTokens style true text.length text with
  | .error fault => .error fault
  | .ok tokens =>
      let loose := tokens.filterMap fun token =>
        match token with
        | .loose sign => some sign
        | _ => none
      (readAlternatives style.extended false (2 * tokens.length + 2) .empty 0 tokens).map
        fun read => (read.pattern, loose)

def fixedPattern (style : PatternStyle) (text : Text) : LinePattern :=
  text.foldr (fun c rest => .seq (.char (style.widen (· == c))) rest) .empty

end Tool

end CommandShell
