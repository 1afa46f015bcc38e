import CommandShell.Tool.Basic

/-!
Decimal forms of binary fractions. A number in writing is rounded to so many binary
figures, and what results is written exactly and cut to so many decimal places, where a
half goes to the even neighbour.
-/
namespace CommandShell

namespace Tool

structure Fraction where
  above : Nat
  below : Nat

def Fraction.round (fraction : Fraction) : Nat :=
  let whole := fraction.above / fraction.below
  let twice := 2 * (fraction.above % fraction.below)
  if twice < fraction.below then whole
  else if fraction.below < twice then whole + 1
  else whole + whole % 2

def Fraction.scale (fraction : Fraction) (base : Nat) (power : Int) : Fraction :=
  if 0 ≤ power then ⟨fraction.above * Nat.pow base power.toNat, fraction.below⟩
  else ⟨fraction.above, fraction.below * Nat.pow base (-power).toNat⟩

structure BinaryForm where
  figures : Nat
  range : Nat

def BinaryForm.finest (form : BinaryForm) : Int :=
  form.range + form.figures - 3

/-- The nearest number in a binary form. Very small numbers have fewer figures. -/
def Fraction.toBinary (form : BinaryForm) (fraction : Fraction) : Fraction :=
  if fraction.above = 0 then fraction
  else
    let size : Int := (Nat.log2 fraction.above : Int) - (Nat.log2 fraction.below : Int)
    let guess : Int := (form.figures : Int) - 1 - size
    let scaled := fraction.scale 2 guess
    let power :=
      if scaled.above < scaled.below * Nat.pow 2 (form.figures - 1) then guess + 1 else guess
    let power := min power form.finest
    (Fraction.mk (fraction.scale 2 power).round 1).scale 2 (-power)

def Fraction.compare (left right : Fraction) : Ordering :=
  Ord.compare (left.above * right.below) (right.above * left.below)

inductive Magnitude
  | finite (size : Fraction)
  | infinite
  | undefined

def Magnitude.toBinary (form : BinaryForm) (size : Magnitude) : Magnitude × Bool :=
  match size with
  | .finite size =>
      let kept := size.toBinary form
      let isTiny := size.above * Nat.pow 2 (form.range - 2) < size.below
      if kept.below * Nat.pow 2 form.range ≤ kept.above then (.infinite, false)
      else (.finite kept, !isTiny || kept.compare size == .eq)
  | other => (other, true)

structure WrittenNumber where
  negative : Bool
  size : Magnitude
  rest : Text

def WrittenNumber.compare (form : BinaryForm) (left right : WrittenNumber) : Ordering :=
  let rank := fun (number : WrittenNumber) =>
    match number.size with
    | .undefined => 0
    | .infinite => if number.negative then 1 else 3
    | .finite _ => 2
  match left.size, right.size with
  | .finite first, .finite second =>
      let first := first.toBinary form
      let second := second.toBinary form
      match left.negative && first.above ≠ 0, right.negative && second.above ≠ 0 with
      | true, false => .lt
      | false, true => .gt
      | false, false => first.compare second
      | true, true => second.compare first
  | _, _ => Ord.compare (rank left) (rank right)

def isHex (c : Char) : Bool :=
  c.isDigit || ('a' ≤ c && c ≤ 'f') || ('A' ≤ c && c ≤ 'F')

def hexValue (figures : Text) : Nat :=
  figures.foldl (fun value c =>
    value * 16 + (if c.isDigit then c.toNat - 48 else (lowerAscii c).toNat - 87)) 0

/-- The power behind a letter. Without a number behind it the letter means nothing. -/
def readExponent (letter : Char) (text : Text) : Int × Text :=
  match text with
  | e :: rest =>
      if lowerAscii e == letter then
        let (sign, body) : Int × Text := match rest with
          | '-' :: body => (-1, body)
          | '+' :: body => (1, body)
          | _ => (1, rest)
        let figures := body.takeWhile Char.isDigit
        match natural? figures with
        | some n => (sign * (min n 20000 : Nat), body.drop figures.length)
        | none => (0, text)
      else (0, text)
  | [] => (0, [])

structure FigureStyle where
  isFigure : Char → Bool
  value : Text → Nat
  letter : Char
  powerBase : Nat
  place : Nat

def decimalFigures : FigureStyle :=
  ⟨Char.isDigit, fun figures => (natural? figures).getD 0, 'e', 10, 1⟩

def hexadecimalFigures : FigureStyle :=
  ⟨isHex, hexValue, 'p', 2, 4⟩

def writtenFigures? (style : FigureStyle) (text : Text) : Option (Magnitude × Text) :=
  let whole := text.takeWhile style.isFigure
  let behind := text.drop whole.length
  let fraction := match behind with
    | '.' :: rest => rest.takeWhile style.isFigure
    | _ => []
  if whole.isEmpty && fraction.isEmpty then none
  else
    let after := match behind with
      | '.' :: rest => rest.drop fraction.length
      | _ => behind
    let (power, rest) := readExponent style.letter after
    let value := Fraction.mk (style.value (whole ++ fraction)) 1
    some (.finite (value.scale style.powerBase (power - style.place * fraction.length)), rest)

def dropWord? (word : String) (text : Text) : Option Text :=
  if startsWith (text.map lowerAscii) word.toList then some (text.drop word.length) else none

def writtenSize? (text : Text) : Option (Magnitude × Text) :=
  match dropWord? "infinity" text <|> dropWord? "inf" text, dropWord? "nan" text,
      dropWord? "0x" text with
  | some rest, _, _ => some (.infinite, rest)
  | _, some rest, _ => some (.undefined, rest)
  | _, _, some rest =>
      writtenFigures? hexadecimalFigures rest <|> writtenFigures? decimalFigures text
  | none, none, none => writtenFigures? decimalFigures text

def writtenNumber? (text : Text) : Option WrittenNumber :=
  let body := text.dropWhile isSpace
  let (negative, unsigned) : Bool × Text := match body with
    | '-' :: rest => (true, rest)
    | '+' :: rest => (false, rest)
    | _ => (false, body)
  (writtenSize? unsigned).map fun (size, rest) => ⟨negative, size, rest⟩

def zeros (count : Nat) : Text :=
  List.replicate count '0'

def placePoint (places : Nat) (point : Bool) (units : Nat) : Text :=
  let figures := digits units
  let padded := zeros (places + 1 - figures.length) ++ figures
  let whole := padded.take (padded.length - places)
  whole ++ (if 0 < places || point then ['.'] else []) ++ padded.drop whole.length

def Fraction.fixed (fraction : Fraction) (places : Nat) (point : Bool) : Text :=
  placePoint places point (fraction.scale 10 places).round

def Fraction.leading (fraction : Fraction) (places : Nat) : Int × Nat :=
  if fraction.above = 0 then (0, 0)
  else
    let size : Int :=
      ((digits fraction.above).length : Int) - ((digits fraction.below).length : Int)
    let scaled := fraction.scale 10 (-size)
    let power := if scaled.above < scaled.below then size - 1 else size
    let units := (fraction.scale 10 (places - power)).round
    if units < Nat.pow 10 (places + 1) then (power, units) else (power + 1, units / 10)

def exponentText (power : Int) : Text :=
  let size := digits power.natAbs
  'e' :: (if power < 0 then '-' else '+') :: (zeros (2 - size.length) ++ size)

def Fraction.scientific (fraction : Fraction) (places : Nat) (point : Bool) : Text :=
  let (power, units) := fraction.leading places
  placePoint places point units ++ exponentText power

def dropPlaces (text : Text) : Text :=
  if text.contains '.' then
    let kept := dropEndWhile (· == '0') text
    if kept.getLast? == some '.' then kept.dropLast else kept
  else text

def Fraction.general (fraction : Fraction) (figures : Nat) (keepZeros : Bool) : Text :=
  let figures := max 1 figures
  let (power, units) := fraction.leading (figures - 1)
  let tidy := fun (text : Text) => if keepZeros then text else dropPlaces text
  if power < -4 || (figures : Int) ≤ power then
    tidy (placePoint (figures - 1) keepZeros units) ++ exponentText power
  else tidy (fraction.fixed ((figures : Int) - 1 - power).toNat keepZeros)

end Tool

end CommandShell
