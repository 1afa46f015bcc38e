import CommandShell.Tool.Decimals
import CommandShell.Tool.Options
import CommandShell.Tool.ReplaceBytes

/-!
Printing words under a format. The format is used again as long as it uses up words. What
differs between programs that print so, escapes and messages, is a `FormatStyle`.
-/
namespace CommandShell

namespace Tool

inductive Escape
  | shows (text : Text) (rest : Text)
  | stops
  | fails (complaint : Text)

structure FormatStyle where
  escape : (inWord : Bool) → Text → Escape
  notNumeric : Text → Text
  partlyNumeric : Text → Text
  outOfRange : Text → Text
  badDirective : Text → Text
  numbers : BinaryForm
  flags : Text
  sizes : Text
  quotes : Bool
  strict : Bool

structure Printed where
  output : Text
  complaints : List Text
  words : List Text
  failed : Bool
  stopped : Bool
  fatal : Option Text

namespace Printed

def start (words : List Text) : Printed :=
  ⟨[], [], words, false, false, none⟩

def put (printed : Printed) (text : Text) : Printed :=
  { printed with output := printed.output ++ text }

def warn (printed : Printed) (complaint : Text) : Printed :=
  { printed with complaints := printed.complaints ++ [complaint] }

def fault (printed : Printed) (complaint : Text) : Printed :=
  { printed.warn complaint with failed := true }

def isOver (printed : Printed) : Bool :=
  printed.stopped || printed.fatal.isSome

/-- Takes the next word; one that is missing is empty. -/
def next (printed : Printed) : Text × Printed :=
  (printed.words.head?.getD [], { printed with words := printed.words.drop 1 })

end Printed

structure Directive where
  flags : Text
  width : Nat
  left : Bool
  precision : Option Nat

namespace Directive

def pad (directive : Directive) (text : Text) : Text :=
  if directive.left then alignLeft directive.width text else alignRight directive.width text

def padNumber (directive : Directive) (zeroFill : Bool) (sign body : Text) : Text :=
  if zeroFill && directive.flags.contains '0' && !directive.left then
    sign ++ zeros (directive.width - sign.length - body.length) ++ body
  else directive.pad (sign ++ body)

def signOf (directive : Directive) (negative : Bool) : Text :=
  if negative then ['-']
  else if directive.flags.contains '+' then ['+']
  else if directive.flags.contains ' ' then [' ']
  else []

def figures (directive : Directive) (body : Text) : Text :=
  match directive.precision with
  | some 0 => if body = ['0'] then [] else body
  | some least => zeros (least - body.length) ++ body
  | none => body

def showSigned (directive : Directive) (value : Int) : Text :=
  directive.padNumber directive.precision.isNone (directive.signOf (value < 0))
    (directive.figures (digits value.natAbs))

def showUnsigned (directive : Directive) (letter : Char) (value : Nat) : Text :=
  let raw := match letter with
    | 'o' => Nat.toDigits 8 value
    | 'x' => Nat.toDigits 16 value
    | 'X' => (Nat.toDigits 16 value).map upperAscii
    | _ => digits value
  let body := directive.figures raw
  let alternate := directive.flags.contains '#'
  let marked := if alternate && letter == 'o' && body.head? != some '0' then '0' :: body else body
  let sign := if alternate && value ≠ 0 && (letter == 'x' || letter == 'X') then ['0', letter]
    else []
  directive.padNumber directive.precision.isNone sign marked

def showNumber (directive : Directive) (letter : Char) (negative : Bool) (size : Magnitude) :
    Text :=
  let places := directive.precision.getD 6
  let alternate := directive.flags.contains '#'
  let (isFinite, body) : Bool × Text := match size with
    | .infinite => (false, "inf".toList)
    | .undefined => (false, "nan".toList)
    | .finite size =>
        (true, match letter with
          | 'e' | 'E' => size.scientific places alternate
          | 'g' | 'G' => size.general places alternate
          | _ => size.fixed places alternate)
  directive.padNumber isFinite (directive.signOf negative)
    (if letter.isUpper then body.map upperAscii else body)

end Directive

def binaryValue (figures : Text) : Nat :=
  figures.foldl (fun value c => value * 2 + (c.toNat - 48)) 0

def isBinary (c : Char) : Bool :=
  c == '0' || c == '1'

def leadingInteger? (text : Text) : Option (Int × Text) :=
  let body := text.dropWhile isSpace
  let (sign, unsigned) : Int × Text := match body with
    | '-' :: rest => (-1, rest)
    | '+' :: rest => (1, rest)
    | _ => (1, body)
  match unsigned with
  | '0' :: x :: rest =>
      let figures := rest.takeWhile isHex
      if (x == 'x' || x == 'X') && !figures.isEmpty then
        some (sign * hexValue figures, rest.drop figures.length)
      else if (x == 'b' || x == 'B') && rest.head?.any isBinary then
        let figures := rest.takeWhile isBinary
        some (sign * binaryValue figures, rest.drop figures.length)
      else
        let figures := unsigned.takeWhile isOctal
        some (sign * octalValue figures, unsigned.drop figures.length)
  | _ =>
      let figures := unsigned.takeWhile Char.isDigit
      (natural? figures).map fun value => (sign * (value : Int), unsigned.drop figures.length)

def FormatStyle.quotedNumber? (style : FormatStyle) (word : Text) : Option (Nat × Text) :=
  match word with
  | quote :: rest =>
      if quote == '"' || quote == '\'' then
        match rest with
        | c :: rest => some (c.toNat, rest)
        | [] => if style.strict then none else some (0, [])
      else none
  | [] => none

def FormatStyle.checkQuoted (style : FormatStyle) (rest : Text) (printed : Printed) : Printed :=
  if style.strict && !rest.isEmpty then
    printed.warn ("warning: ".toList ++ rest ++
      ": character(s) following character constant have been ignored".toList)
  else printed

def mostSigned : Int := 0x7fffffffffffffff

def mostUnsigned : Int := 0xffffffffffffffff

def integerOf (style : FormatStyle) (least most : Int) (word : Text) (printed : Printed) :
    Int × Printed :=
  match style.quotedNumber? word with
  | some (n, rest) => (n, style.checkQuoted rest printed)
  | none =>
      match leadingInteger? word with
      | none =>
          (0, if word.isEmpty then printed else printed.fault (style.notNumeric word))
      | some (value, rest) =>
          let kept := max least (min most value)
          if !rest.isEmpty then (kept, printed.fault (style.partlyNumeric word))
          else if kept ≠ value then (kept, printed.fault (style.outOfRange word))
          else (kept, printed)

def fractionOf (style : FormatStyle) (word : Text) (printed : Printed) :
    Bool × Magnitude × Printed :=
  match style.quotedNumber? word with
  | some (n, rest) => (false, .finite ⟨n, 1⟩, style.checkQuoted rest printed)
  | none =>
      match writtenNumber? word with
      | none =>
          (false, .finite ⟨0, 1⟩,
            if word.isEmpty then printed else printed.fault (style.notNumeric word))
      | some number =>
          let kept := number.size.toBinary style.numbers
          (number.negative, kept.1,
            if !number.rest.isEmpty then printed.fault (style.partlyNumeric word)
            else if kept.2 then printed else printed.fault (style.outOfRange word))

def expandWord (style : FormatStyle) : Nat → Text → Printed → Text × Printed
  | 0, _, printed | _, [], printed => ([], printed)
  | steps + 1, '\\' :: rest, printed =>
      match style.escape true rest with
      | .shows text rest =>
          let (others, printed) := expandWord style steps rest printed
          (text ++ others, printed)
      | .stops => ([], { printed with stopped := true })
      | .fails complaint => ([], { printed with fatal := some complaint })
  | steps + 1, c :: rest, printed =>
      let (others, printed) := expandWord style steps rest printed
      (c :: others, printed)

def convert (style : FormatStyle) (directive : Directive) (letter : Char) (printed : Printed) :
    Printed :=
  let missing := printed.words.isEmpty
  let (word, printed) := printed.next
  match letter with
  | 'd' | 'i' =>
      let (value, printed) := integerOf style (-mostSigned - 1) mostSigned word printed
      printed.put (directive.showSigned value)
  | 'o' | 'u' | 'x' | 'X' =>
      let (value, printed) := integerOf style (-mostUnsigned) mostUnsigned word printed
      printed.put (directive.showUnsigned letter (value % (mostUnsigned + 1)).toNat)
  | 'c' => printed.put (directive.pad [word.head?.getD (Char.ofNat 0)])
  | 's' =>
      printed.put (directive.pad (match directive.precision with
        | some most => word.take most
        | none => word))
  | 'b' =>
      let (text, printed) := expandWord style word.length word printed
      printed.put (directive.pad (match directive.precision with
        | some most => text.take most
        | none => text))
  | 'q' => printed.put (directive.pad (if missing then [] else quotedText word))
  | _ =>
      let (negative, size, printed) := fractionOf style word printed
      printed.put (directive.showNumber letter negative size)

def directiveNumber (style : FormatStyle) (format : Text) (printed : Printed) :
    Option Int × Text × Printed :=
  match format with
  | '*' :: rest =>
      let (word, printed) := printed.next
      let (value, printed) := integerOf style (-mostSigned) mostSigned word printed
      (some value, rest, printed)
  | _ =>
      let figures := format.takeWhile Char.isDigit
      ((natural? figures).map Int.ofNat, format.drop figures.length, printed)

def FormatStyle.allowsFlags (style : FormatStyle) (letter : Char) (flags : Text) : Bool :=
  !style.strict ||
    (!(flags.contains '#' && "cdisu".toList.contains letter) &&
      !(flags.contains '0' && "cs".toList.contains letter) &&
      !((flags.contains '\'' || flags.contains 'I') && "ceEosxX".toList.contains letter))

def directive (style : FormatStyle) (format : Text) (printed : Printed) : Text × Printed :=
  let flags := format.takeWhile style.flags.contains
  let (width, rest, printed) := directiveNumber style (format.drop flags.length) printed
  let (precision, rest, printed) : Option (Option Int) × Text × Printed := match rest with
    | '.' :: rest =>
        let (number, rest, printed) := directiveNumber style rest printed
        (some number, rest, printed)
    | _ => (none, rest, printed)
  let rest := rest.dropWhile style.sizes.contains
  let read : Directive :=
    { flags := flags
      width := (width.getD 0).natAbs
      left := flags.contains '-' || width.getD 0 < 0
      precision := precision.bind fun number =>
        if number.getD 0 < 0 then none else some (number.getD 0).toNat }
  let bad := fun (rest : Text) =>
    ([], { printed with
      fatal := some (style.badDirective ('%' :: format.take (format.length - rest.length)))
      failed := true })
  match rest with
  | [] => bad []
  | letter :: rest =>
      if letter == '%' && format.head? == some '%' then (rest, printed.put ['%'])
      else if (letter == 'b' && (!style.strict || format.head? == some 'b')) ||
          (letter == 'q' && style.quotes && format.head? == some 'q') then
        (rest, convert style read letter printed)
      else if "diouxXcsfFeEgG".toList.contains letter && style.allowsFlags letter flags then
        (rest, convert style read letter printed)
      else bad rest

def printOnce (style : FormatStyle) : Nat → Text → Printed → Printed
  | 0, _, printed | _, [], printed => printed
  | steps + 1, c :: rest, printed =>
      if printed.isOver then printed
      else if c == '%' then
        let (rest, printed) := directive style rest printed
        printOnce style steps rest printed
      else if c == '\\' then
        match style.escape false rest with
        | .shows text rest => printOnce style steps rest (printed.put text)
        | .stops => { printed with stopped := true }
        | .fails complaint => { printed with fatal := some complaint, failed := true }
      else printOnce style steps rest (printed.put [c])

def printAll (style : FormatStyle) (format : Text) : Nat → Printed → Printed
  | 0, printed => printed
  | passes + 1, printed =>
      let after := printOnce style format.length format printed
      if after.isOver || after.words.isEmpty || after.words.length = printed.words.length then after
      else printAll style format passes after

def printFormat (style : FormatStyle) (format : Text) (words : List Text) : Printed :=
  printAll style format (words.length + 1) (.start words)

def hexFigures (size value : Nat) : Text :=
  let figures := (Nat.toDigits 16 value).map upperAscii
  List.replicate (size - figures.length) '0' ++ figures

/-- A character by its number. One that is no byte of its own shows its number again. -/
def namedCharacter (letter : Char) (size : Nat) (text : Text) : Escape :=
  let figures := text.take size
  if figures.length < size || !figures.all isHex then
    .fails "missing hexadecimal number in escape".toList
  else
    let value := hexValue figures
    if 0xd800 ≤ value && value < 0xe000 then
      .fails ("invalid universal character name \\".toList ++ letter :: figures)
    else if value < 0x80 then .shows [Char.ofNat value] (text.drop size)
    else if value < 0x10000 then .shows ('\\' :: 'u' :: hexFigures 4 value) (text.drop size)
    else .shows ('\\' :: 'U' :: hexFigures 8 value) (text.drop size)

/-- Escapes of the tool: letters, octal and hexadecimal numbers of bytes. In a word an octal
number begins with a zero that does not count. -/
def toolEscape (inWord : Bool) : Text → Escape
  | [] => .shows ['\\'] []
  | 'x' :: rest =>
      let figures := (rest.take 2).takeWhile isHex
      if figures.isEmpty then .fails "missing hexadecimal number in escape".toList
      else .shows [Char.ofNat (hexValue figures)] (rest.drop figures.length)
  | 'c' :: _ => .stops
  | 'e' :: rest => .shows [Char.ofNat 27] rest
  | '"' :: rest => .shows ['"'] rest
  | 'u' :: rest => namedCharacter 'u' 4 rest
  | 'U' :: rest => namedCharacter 'U' 8 rest
  | c :: rest =>
      if isOctal c then
        let body := if inWord && c == '0' then rest else c :: rest
        let figures := (body.take 3).takeWhile isOctal
        .shows [Char.ofNat (octalValue figures % 256)] (body.drop figures.length)
      else
        match escapedChar? c with
        | some shown => .shows [shown] rest
        | none => .shows ['\\', c] rest

def toolStyle : FormatStyle where
  escape := toolEscape
  notNumeric word := wordInQuotes word ++ ": expected a numeric value".toList
  partlyNumeric word := wordInQuotes word ++ ": value not completely converted".toList
  outOfRange word := wordInQuotes word ++ ": Numerical result out of range".toList
  badDirective text := text ++ ": invalid conversion specification".toList
  numbers := ⟨64, 16384⟩
  flags := "-+ #0'I".toList
  sizes := "lLhjtz".toList
  quotes := true
  strict := true

/-- Prints words under a format. Complaints come first, since output is held back. -/
def printFormatted : Tool := fun argv => do
  let words := argv.map Latin.ofBytes
  let call : Call := ⟨words.head?.getD [], [], []⟩
  let operands := match words.drop 1 with
    | ['-', '-'] :: rest => rest
    | rest => rest
  match operands with
  | [] => call.misuse 1 ["missing operand".toList]
  | format :: arguments =>
      let printed := printFormat toolStyle format arguments
      printed.complaints.forM call.complain
      match printed.fatal with
      | some complaint => call.complain complaint
      | none =>
          match printed.words with
          | unused :: _ =>
              if !printed.stopped then
                call.complain ("warning: ignoring excess arguments, starting with ".toList ++
                  wordInQuotes unused)
          | [] => pure ()
      say printed.output
      -- An escape that ends the output makes up for every fault before it.
      return exitCode (!printed.stopped && (printed.failed || printed.fatal.isSome)) 1

end Tool

end CommandShell
