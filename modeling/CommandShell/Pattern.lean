import CommandShell.Text.Basic

/-!
Wildcard patterns for file names. `?` stands for one character, `*` for a run
without a slash, `**` for whole path components and `[...]` for one character
of a set. A leading dot is matched by a dot in the pattern only.

A match attempt has three answers: besides success and failure it can run out
of characters, and then a longer run for an earlier `*` cannot help.
-/
namespace CommandShell

inductive CharSpan
  | one (c : Char)
  | range (first last : Char)
  deriving Repr, DecidableEq

inductive Glyph
  | literal (c : Char)
  | anyChar
  | anyRun
  | anyPath
  | within (spans : List CharSpan)
  | except (spans : List CharSpan)
  deriving Repr, DecidableEq

abbrev Pattern := List Glyph

def CharSpan.has (c : Char) : CharSpan → Bool
  | .one d => c == d
  | .range first last => first ≤ c && c ≤ last

def charSpans : Text → List CharSpan
  | first :: '-' :: last :: rest => .range first last :: charSpans rest
  | c :: rest => .one c :: charSpans rest
  | [] => []

/-- Splits a set at its closing bracket. The first member stands on its own, so
that a bracket may be the first member. -/
def splitSet : Text → Option (Text × Text)
  | [] => none
  | first :: rest =>
      match rest.dropWhile (· != ']') with
      | [] => none
      | _ :: after => some (first :: rest.takeWhile (· != ']'), after)

theorem splitSet_shorter {text members after : Text}
    (found : splitSet text = some (members, after)) : after.length < text.length := by
  cases text with
  | nil => simp [splitSet] at found
  | cons first rest =>
      have whole := List.takeWhile_append_dropWhile (p := (· != ']')) (l := rest)
      have size := congrArg List.length whole
      simp only [splitSet] at found
      split at found
      · simp at found
      · next close tail cut =>
          simp only [Option.some.injEq, Prod.mk.injEq] at found
          rw [cut, List.length_append, List.length_cons, found.2] at size
          simp only [List.length_cons]
          omega

/-- Adds `**` to the steps so far, read from the right, unless the one before it is a
`**` that is not the first step. -/
def pushPath (steps : List Glyph) : List Glyph :=
  match steps with
  | .anyPath :: _ :: _ => steps
  | _ => .anyPath :: steps

def readPattern (atStart : Bool) (steps : List Glyph) (text : Text) : Option Pattern :=
  match text with
  | [] => some steps.reverse
  | '?' :: rest => readPattern false (.anyChar :: steps) rest
  | '*' :: '*' :: '*' :: _ => none
  | ['*', '*'] => if atStart then some (pushPath steps).reverse else none
  | '*' :: '*' :: '/' :: rest =>
      if atStart then readPattern true (pushPath steps) rest else none
  | '*' :: '*' :: _ => none
  | '*' :: rest => readPattern false (.anyRun :: steps) rest
  | '[' :: '!' :: rest =>
      match found : splitSet rest with
      | some (members, after) =>
          have : after.length < rest.length := splitSet_shorter found
          readPattern false (.except (charSpans members) :: steps) after
      | none => none
  | '[' :: rest =>
      match found : splitSet rest with
      | some (members, after) =>
          have : after.length < rest.length := splitSet_shorter found
          readPattern false (.within (charSpans members) :: steps) after
      | none => none
  | c :: rest => readPattern (c == '/') (.literal c :: steps) rest
termination_by text.length

/-- The pattern written in a word. A run of three stars, a `**` that is not a whole
component and a set without its closing bracket are not patterns. -/
def Pattern.ofText? (text : Text) : Option Pattern :=
  readPattern true [] text

inductive Attempt
  | matched
  | mismatch
  | exhausted
  deriving Repr, DecidableEq

def Glyph.admits (afterSlash : Bool) (c : Char) : Glyph → Bool
  | .literal d => c == d
  | .anyChar => c != '/' && !(afterSlash && c == '.')
  | .within spans => (c != '/' && !(afterSlash && c == '.')) && spans.any (·.has c)
  | .except spans => (c != '/' && !(afterSlash && c == '.')) && !spans.any (·.has c)
  | .anyRun | .anyPath => false

/-- Lets a run take one character more at a time and tries the rest of the pattern after
each. A run of `**` is tried after slashes only, and one of `*` ends before a slash. When
all characters are taken the rest of the pattern is tried on nothing. -/
def extendRun (wholePaths : Bool) (tryRest : Bool → Text → Attempt) (afterSlash : Bool) :
    Text → Attempt
  | [] => tryRest afterSlash []
  | c :: rest =>
      if afterSlash && c == '.' then .mismatch
      else if wholePaths then
        if c == '/' then
          match tryRest true rest with
          | .mismatch => extendRun wholePaths tryRest true rest
          | answer => answer
        else extendRun wholePaths tryRest false rest
      else if c == '/' then .mismatch
      else
        match tryRest false rest with
        | .mismatch => extendRun wholePaths tryRest false rest
        | answer => answer

-- A run first tries to be empty. Only a mismatch makes it longer: once the characters have
-- run out, a longer run has even fewer to offer.
def Pattern.attempt : Pattern → Bool → Text → Attempt
  | [], _, [] => .matched
  | [], _, _ :: _ => .mismatch
  | .anyRun :: rest, afterSlash, text =>
      match Pattern.attempt rest afterSlash text with
      | .mismatch => extendRun false (Pattern.attempt rest) afterSlash text
      | answer => answer
  | .anyPath :: rest, afterSlash, text =>
      match Pattern.attempt rest afterSlash text with
      | .mismatch => extendRun true (Pattern.attempt rest) afterSlash text
      | answer => answer
  | _ :: _, _, [] => .exhausted
  | step :: rest, afterSlash, c :: text =>
      if step.admits afterSlash c then Pattern.attempt rest (c == '/') text else .mismatch

def Pattern.accepts (pattern : Pattern) (name : Text) : Bool :=
  pattern.attempt true name == .matched

def hasWildcard (word : Text) : Bool :=
  word.any fun c => c == '*' || c == '?' || c == '['

def matchesPattern (word name : Text) : Bool :=
  match Pattern.ofText? word with
  | some pattern => pattern.accepts name
  | none => false

end CommandShell
