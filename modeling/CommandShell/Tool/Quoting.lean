import CommandShell.Text.Latin

/-!
File names in messages, written so that a command interpreter reads them back. A name of
harmless characters stands as it is, one with a single quote and nothing worse gets
double quotes, and any other is quoted piece by piece.
-/
namespace CommandShell

namespace Tool

def isPrintable (c : Char) : Bool :=
  ' ' ≤ c && c ≤ '~'

def isHarmless (c : Char) : Bool :=
  c.isAlphanum || "%+,-./:@]_".toList.contains c

/-- Braces are harmless unless they stand alone, and two signs unless they come first. -/
def isHarmlessAt (name : Text) (index : Nat) (c : Char) : Bool :=
  isHarmless c || ((c == '\x7b' || c == '\x7d') && name.length ≠ 1) ||
    ((c == '#' || c == '~') && index ≠ 0)

def octalFigures (c : Char) : Text :=
  [c.toNat / 64, c.toNat / 8 % 8, c.toNat % 8].map fun figure => Char.ofNat (48 + figure)

def escapeName (c : Char) : Text :=
  match c.toNat with
  | 7 => ['a']
  | 8 => ['b']
  | 9 => ['t']
  | 10 => ['n']
  | 11 => ['v']
  | 12 => ['f']
  | 13 => ['r']
  | _ => octalFigures c

/-- Quotes a name piece by piece. `escaping` holds inside quotes that allow escapes. -/
def quotePieces (escaping : Bool) : Text → Text
  | [] => ['\'']
  | c :: rest =>
      if c == '\'' then "'\\''".toList ++ quotePieces false rest
      else if isPrintable c then
        (if escaping then "''".toList else []) ++ c :: quotePieces false rest
      else (if escaping then [] else "'$'".toList) ++ '\\' :: escapeName c ++ quotePieces true rest

def isPlainInDouble (index : Nat) (c : Char) : Bool :=
  isHarmless c || c == ' ' || c == '\'' || ((c == '#' || c == '~') && index = 0)

def everywhere (test : Nat → Char → Bool) (name : Text) : Bool :=
  name.zipIdx.all fun (c, index) => test index c

def quotedText (name : Text) : Text :=
  if !name.isEmpty && everywhere (isHarmlessAt name) name then name
  else if name.contains '\'' && everywhere isPlainInDouble name then
    ['"'] ++ name ++ ['"']
  else '\'' :: quotePieces false name

def nameInQuotes (name : Text) : Text :=
  let quoted := quotedText name
  if quoted = name then ['\''] ++ name ++ ['\''] else quoted

def wordInQuotes (word : Text) : Text :=
  ['\''] ++ (word.flatMap fun c =>
    if c == '\'' || c == '\\' then ['\\', c]
    else if isPrintable c then [c]
    else '\\' :: escapeName c) ++ ['\'']

end Tool

end CommandShell
