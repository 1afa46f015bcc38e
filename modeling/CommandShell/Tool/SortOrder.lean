import CommandShell.Tool.Decimals

/-!
Orders of texts: by their bytes, by the number, the month or the size they begin with, or as
the names of versions, in which runs of figures count as numbers.
-/
namespace CommandShell

namespace Tool

inductive SortKind
  | text
  | number
  | general
  | sized
  | month
  | version
  deriving DecidableEq

structure SortOrder where
  kind : SortKind
  fold : Bool
  dictionary : Bool
  printable : Bool
  deriving DecidableEq

structure NumberText where
  negative : Bool
  whole : Text
  fraction : Text

def NumberText.ofText (text : Text) : NumberText :=
  let body := text.dropWhile isFieldGap
  let (negative, rest) : Bool × Text := match body with
    | '-' :: rest => (true, rest)
    | _ => (false, body)
  let figures := rest.takeWhile Char.isDigit
  let fraction := match rest.drop figures.length with
    | '.' :: behind => behind.takeWhile Char.isDigit
    | _ => []
  ⟨negative, figures.dropWhile (· == '0'), dropEndWhile (· == '0') fraction⟩

def compareSizes (left right : NumberText) : Ordering :=
  (compare left.whole.length right.whole.length).then
    (if left.whole = right.whole then
      (if left.fraction = right.fraction then .eq
      else if latinLe left.fraction right.fraction then .lt else .gt)
    else if latinLe left.whole right.whole then .lt else .gt)

def NumberText.isZero (number : NumberText) : Bool :=
  number.whole.isEmpty && number.fraction.isEmpty

def compareNumbers (left right : NumberText) : Ordering :=
  match left.negative && !left.isZero, right.negative && !right.isZero with
  | true, false => .lt
  | false, true => .gt
  | false, false => compareSizes left right
  | true, true => compareSizes right left

def compareLatin (left right : Text) : Ordering :=
  if left = right then .eq else if latinLe left right then .lt else .gt

def sizeLetters : Text := "KMGTPEZYRQ".toList

def sizeRank (text : Text) : Int :=
  let number := NumberText.ofText text
  let unsigned := match text.dropWhile isFieldGap with
    | '-' :: rest => rest
    | body => body
  let behind := match unsigned.dropWhile Char.isDigit with
    | '.' :: rest => rest.dropWhile Char.isDigit
    | behind => behind
  let rank : Nat := match behind with
    | 'k' :: _ => 1
    | c :: _ => ((sizeLetters.findIdx? (· == c)).map (· + 1)).getD 0
    | [] => 0
  if number.isZero then 0 else if number.negative then -(rank : Int) else rank

def compareSized (left right : Text) : Ordering :=
  (compare (sizeRank left) (sizeRank right)).then (compareNumbers (.ofText left) (.ofText right))

def monthNames : List String :=
  ["JAN", "FEB", "MAR", "APR", "MAY", "JUN", "JUL", "AUG", "SEP", "OCT", "NOV", "DEC"]

def monthOf (text : Text) : Nat :=
  let name := ((text.dropWhile isFieldGap).take 3).map upperAscii
  ((monthNames.findIdx? fun month => month.toList == name).map (· + 1)).getD 0

def compareGeneral (left right : Text) : Ordering :=
  match writtenNumber? left, writtenNumber? right with
  | none, none => .eq
  | none, some _ => .lt
  | some _, none => .gt
  | some left, some right => left.compare ⟨64, 16384⟩ right

def versionRank (text : Text) : Int :=
  match text with
  | [] => -1
  | c :: _ =>
      if c.isDigit then 0
      else if c.isAlpha then c.toNat
      else if c == '~' then -2
      else c.toNat + 256

def compareToFigures : Nat → Text → Text → Except Ordering (Text × Text)
  | 0, left, right => .ok (left, right)
  | steps + 1, left, right =>
      let isOpen := fun (text : Text) => text.head?.any fun c => !c.isDigit
      if isOpen left || isOpen right then
        match compare (versionRank left) (versionRank right) with
        | .eq => compareToFigures steps (left.drop 1) (right.drop 1)
        | ordering => .error ordering
      else .ok (left, right)

def compareVersionParts : Nat → Text → Text → Ordering
  | 0, _, _ => .eq
  | steps + 1, left, right =>
      if left.isEmpty && right.isEmpty then .eq
      else
        match compareToFigures (max left.length right.length) left right with
        | .error ordering => ordering
        | .ok (left, right) =>
            let left := left.dropWhile (· == '0')
            let right := right.dropWhile (· == '0')
            let first := left.takeWhile Char.isDigit
            let second := right.takeWhile Char.isDigit
            ((compare first.length second.length).then (compareLatin first second)).then
              (compareVersionParts steps (left.drop first.length) (right.drop second.length))

def isEnding (text : Text) : Bool :=
  match fields (· == '.') text with
  | [] :: parts => parts.all fun part =>
      match part with
      | c :: rest => (c.isAlpha || c == '~') && rest.all fun c => c.isAlphanum || c == '~'
      | [] => false
  | _ => text.isEmpty

def withoutEnding (text : Text) : Text :=
  match ((List.range text.length).drop 1).find? fun n => isEnding (text.drop n) with
  | some n => text.take n
  | none => text

/-- Compares names of versions. Names that begin with a point come first. -/
def compareVersions (left right : Text) : Ordering :=
  let rank := fun (text : Text) =>
    if text.isEmpty then 0
    else if text = ['.'] then 1
    else if text = ['.', '.'] then 2
    else if text.head? == some '.' then 3
    else 4
  let parts := fun (left right : Text) =>
    compareVersionParts (left.length + right.length + 1) left right
  ((compare (rank left) (rank right)).then (parts (withoutEnding left) (withoutEnding right))).then
    (parts left right)

def SortOrder.shown (order : SortOrder) (text : Text) : Text :=
  let counts := fun (c : Char) =>
    if order.dictionary then isFieldGap c || c.isAlphanum else !order.printable || isPrintable c
  (text.filter counts).map fun c => if order.fold then upperAscii c else c

def SortOrder.compare (order : SortOrder) (left right : Text) : Ordering :=
  match order.kind with
  | .number => compareNumbers (.ofText left) (.ofText right)
  | .general => compareGeneral left right
  | .sized => compareSized left right
  | .month => Ord.compare (monthOf left) (monthOf right)
  | .version => compareVersions (order.shown left) (order.shown right)
  | .text => compareLatin (order.shown left) (order.shown right)

end Tool

end CommandShell
