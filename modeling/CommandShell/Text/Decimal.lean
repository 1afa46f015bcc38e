import CommandShell.Text.Basic

/-!
Decimal numbers in text: reading a machine word and writing numbers into columns.
-/
namespace CommandShell

def digits (n : Nat) : Text :=
  Nat.toDigits 10 n

def signedDigits (n : Int) : Text :=
  if n < 0 then '-' :: digits n.natAbs else digits n.natAbs

def largestWord : Nat := 0xffffffffffffffff

def digitValue? (c : Char) : Option Nat :=
  if c.isDigit then some (c.toNat - '0'.toNat) else none

def readDigits (value : Nat) : Text → Option Nat
  | [] => some value
  | c :: rest =>
      match digitValue? c with
      | none => none
      | some d => readDigits (value * 10 + d) rest

/-- Reads a word: an optional plus sign and at least one digit, nothing else, and no
more than the largest word. -/
def readWord? (text : Text) : Option Nat :=
  let figures := match text with
    | '+' :: rest => rest
    | _ => text
  if figures.isEmpty then none else
    match readDigits 0 figures with
    | some n => if n ≤ largestWord then some n else none
    | none => none

def alignRight (width : Nat) (text : Text) : Text :=
  List.replicate (width - text.length) ' ' ++ text

def alignLeft (width : Nat) (text : Text) : Text :=
  text ++ List.replicate (width - text.length) ' '

end CommandShell
