import CommandShell.Tool.ReplaceBytes

/-!
Patterns for names and texts in scripts: a star for any text, a question mark for any
character and brackets for one of several. Characters that were quoted stand for
themselves.
-/
namespace CommandShell

namespace Script

structure PatternChar where
  char : Char
  live : Bool
  deriving DecidableEq

inductive NamePart
  | one (admits : Char → Bool)
  | any

def PatternChar.isSign (c : PatternChar) (sign : Char) : Bool :=
  c.live && c.char == sign

def quoteBehind : List PatternChar → List PatternChar
  | [] => []
  | [c] => [c]
  | c :: next :: rest =>
      if c.isSign '\\' then { next with live := false } :: quoteBehind rest
      else c :: quoteBehind (next :: rest)

def hasSigns (text : List PatternChar) : Bool :=
  text.any fun c => c.live && "*?[".toList.contains c.char

def className? : List PatternChar → Option (Text × List PatternChar)
  | c :: rest =>
      if c.char == ':' then
        match rest with
        | close :: rest => if close.char == ']' then some ([], rest) else none
        | [] => none
      else if c.char.isAlpha then (className? rest).map fun read => (c.char :: read.1, read.2)
      else none
  | [] => none

def bracket? (first : Bool) : Nat → List PatternChar →
    Option ((Char → Bool) × List PatternChar)
  | 0, _ | _, [] => none
  | steps + 1, c :: rest =>
      let single := fun (_ : Unit) =>
        match rest with
        | dash :: last :: behind =>
            if dash.isSign '-' && !last.isSign ']' then
              (bracket? false steps behind).map fun read =>
                ((fun d => (c.char ≤ d && d ≤ last.char) || read.1 d), read.2)
            else
              (bracket? false steps rest).map fun read =>
                ((fun d => d == c.char || read.1 d), read.2)
        | _ =>
            (bracket? false steps rest).map fun read => ((fun d => d == c.char || read.1 d), read.2)
      if c.isSign ']' && !first then some (fun _ => false, rest)
      else if c.isSign '[' && rest.head?.any fun next => next.isSign ':' then
        match className? (rest.drop 1) with
        | some (name, behind) =>
            (bracket? false steps behind).map fun read =>
              ((fun d => ((Tool.charClass? name).getD fun _ => false) d || read.1 d), read.2)
        | none => single ()
      else single ()

def nameParts : Nat → List PatternChar → List NamePart
  | 0, _ | _, [] => []
  | steps + 1, c :: rest =>
      if c.isSign '*' then .any :: nameParts steps rest
      else if c.isSign '?' then .one (fun _ => true) :: nameParts steps rest
      else if c.isSign '[' then
        let negated := rest.head?.any fun next => next.isSign '!'
        match bracket? true rest.length (if negated then rest.drop 1 else rest) with
        | some (admits, behind) =>
            .one (fun d => admits d != negated) :: nameParts steps behind
        | none => .one (· == '[') :: nameParts steps rest
      else .one (· == c.char) :: nameParts steps rest

def takeAny (tryRest : Text → Bool) : Text → Bool
  | [] => tryRest []
  | c :: rest => tryRest (c :: rest) || takeAny tryRest rest

def matchParts : List NamePart → Text → Bool
  | [], text => text.isEmpty
  | .any :: parts, text => takeAny (matchParts parts) text
  | .one admits :: parts, text =>
      match text with
      | c :: rest => admits c && matchParts parts rest
      | [] => false

def accepts (pattern : List PatternChar) (text : Text) : Bool :=
  matchParts (nameParts pattern.length pattern) text

def startCut? (longest : Bool) (pattern : List PatternChar) (text : Text) : Option Nat :=
  let sizes := List.range (text.length + 1)
  (if longest then sizes.reverse else sizes).find? fun n => accepts pattern (text.take n)

def endCut? (longest : Bool) (pattern : List PatternChar) (text : Text) : Option Nat :=
  let sizes := List.range (text.length + 1)
  (if longest then sizes else sizes.reverse).find? fun n => accepts pattern (text.drop n)

def cutStart (longest : Bool) (pattern : List PatternChar) (text : Text) : Text :=
  text.drop ((startCut? longest pattern text).getD 0)

def cutEnd (longest : Bool) (pattern : List PatternChar) (text : Text) : Text :=
  text.take ((endCut? longest pattern text).getD text.length)

/-- Cuts the beginning of several texts. Nothing is left of them if the longest beginning is
asked for and the whole first text matches. -/
def cutStarts (longest : Bool) (pattern : List PatternChar) : List Text → List Text
  | [] => []
  | text :: rest =>
      if longest && accepts pattern text then [[]] else cutStart longest pattern text :: rest

def cutLastEnd? (pattern : List PatternChar) : List Text → Option (List Text)
  | [] => none
  | text :: rest =>
      match cutLastEnd? pattern rest with
      | some kept => some (text :: kept)
      | none => (endCut? false pattern text).map fun n => [text.take n]

/-- Cuts the end of several texts. The longest ending is looked for in the first text only, and
an ending takes all texts behind it along. -/
def cutEnds (longest : Bool) (pattern : List PatternChar) (texts : List Text) : List Text :=
  let cut := if longest then
      texts.head?.bind fun text => (endCut? true pattern text).map fun n => [text.take n]
    else cutLastEnd? pattern texts
  cut.getD texts

def acceptsName (pattern : List PatternChar) (name : Text) : Bool :=
  accepts pattern name &&
    (name.head? != some '.' || pattern.head?.any fun c => c.char == '.')

end Script

end CommandShell
