import CommandShell.Tool.Format

/-!
Whole-number expressions of scripts: reading them by the rank of their operators, and the
operations on numbers of 64 bits.
-/
namespace CommandShell

namespace Script

inductive Arith
  | number (value : Int)
  | named (name : Text)
  | unary (operator : Char) (operand : Arith)
  | binary (operator : String) (left right : Arith)
  | choose (condition yes no : Arith)
  | assign (operator : Option String) (name : Text) (value : Arith)
  | broken (fault : String)

inductive ArithToken
  | number (value : Int)
  | name (text : Text)
  | operator (text : String)
  deriving DecidableEq

/-- Operators that join two numbers; a greater rank binds tighter. -/
def ranks : List (String × Nat) :=
  [("||", 1), ("&&", 2), ("|", 3), ("^", 4), ("&", 5), ("==", 6), ("!=", 6), ("<=", 7),
    (">=", 7), ("<", 7), (">", 7), ("<<", 8), (">>", 8), ("+", 9), ("-", 9), ("*", 10),
    ("/", 10), ("%", 10)]

def lowestRank : Nat := 1

def highestRank : Nat := 10

def arithOperators : List String :=
  ["<<=", ">>=", "||", "&&", "==", "!=", "<=", ">=", "<<", ">>", "+=", "-=", "*=", "/=", "%=",
    "&=", "|=", "^=", "=", "|", "^", "&", "<", ">", "+", "-", "*", "/", "%", "!", "~", "(", ")",
    "?", ":"]

def isNameStartChar (c : Char) : Bool :=
  c.isAlpha || c == '_'

def arithTokens : Nat → Text → Option (List ArithToken)
  | 0, _ | _, [] => some []
  | steps + 1, c :: rest =>
      let text := c :: rest
      if Tool.isSpace c then arithTokens steps rest
      else if c.isDigit then
        match Tool.leadingInteger? text with
        | some (value, rest) =>
            (arithTokens steps rest).map (.number (min value Tool.mostSigned) :: ·)
        | none => none
      else if isNameStartChar c then
        let name := text.takeWhile fun c => c.isAlphanum || c == '_'
        (arithTokens steps (text.drop name.length)).map (.name name :: ·)
      else
        match arithOperators.find? fun word => startsWith text word.toList with
        | some word => (arithTokens steps (text.drop word.length)).map (.operator word :: ·)
        | none => (arithTokens steps rest).map (.operator (String.ofList [c]) :: ·)

/-- An expression and what follows it, unless it is broken. -/
abbrev ArithRead := Arith × Option (List ArithToken)

def Arith.breakOff (fault : String) : ArithRead :=
  (.broken fault, none)

def assigningSign? (sign : String) : Option (Option String) :=
  if sign = "=" then some none
  else
    ["<<", ">>", "+", "-", "*", "/", "%", "&", "|", "^"].findSome? fun operator =>
      if operator ++ "=" = sign then some (some operator) else none

mutual

def readArith (steps : Nat) (tokens : List ArithToken) : ArithRead :=
  match steps with
  | 0 => Arith.breakOff "expecting primary"
  | steps + 1 =>
      match tokens with
      | .name name :: .operator sign :: rest =>
          match assigningSign? sign with
          | some operator =>
              let (value, rest) := readArith steps rest
              (.assign operator name value, rest)
          | none => readChoice steps tokens
      | _ => readChoice steps tokens

/-- Reads a choice. An assignment may stand between its signs but not behind them. -/
def readChoice (steps : Nat) (tokens : List ArithToken) : ArithRead :=
  match steps with
  | 0 => Arith.breakOff "expecting primary"
  | steps + 1 =>
      match readRank steps lowestRank tokens with
      | (condition, some (.operator "?" :: rest)) =>
          match readArith steps rest with
          | (yes, some (.operator ":" :: rest)) =>
              let (no, rest) := readChoice steps rest
              (.choose condition yes no, rest)
          | (yes, some _) => (.choose condition yes (.broken "expecting ':'"), none)
          | (yes, none) => (.choose condition yes (.number 0), none)
      | read => read

def readRank (steps : Nat) (rank : Nat) (tokens : List ArithToken) : ArithRead :=
  match steps with
  | 0 => Arith.breakOff "expecting primary"
  | steps + 1 =>
      if highestRank < rank then readPrimary steps tokens
      else
        match readRank steps (rank + 1) tokens with
        | (left, some rest) => readMore steps rank left rest
        | read => read

def readMore (steps : Nat) (rank : Nat) (left : Arith) (tokens : List ArithToken) : ArithRead :=
  match steps with
  | 0 => Arith.breakOff "expecting primary"
  | steps + 1 =>
      match tokens with
      | .operator sign :: rest =>
          if ranks.contains (sign, rank) then
            match readRank steps (rank + 1) rest with
            | (right, some rest) => readMore steps rank (.binary sign left right) rest
            | (right, none) => (.binary sign left right, none)
          else (left, some tokens)
      | _ => (left, some tokens)

def readPrimary (steps : Nat) (tokens : List ArithToken) : ArithRead :=
  match steps with
  | 0 => Arith.breakOff "expecting primary"
  | steps + 1 =>
      match tokens with
      | .number value :: rest => (.number value, some rest)
      | .name name :: rest => (.named name, some rest)
      | .operator "(" :: rest =>
          match readArith steps rest with
          | (inner, some (.operator ")" :: rest)) => (inner, some rest)
          | (inner, some _) => (.binary "+" inner (.broken "expecting ')'"), none)
          | read => read
      | .operator sign :: rest =>
          match sign.toList with
          | [c] =>
              if "!~+-".toList.contains c then
                let (operand, rest) := readPrimary steps rest
                (.unary c operand, rest)
              else Arith.breakOff "expecting primary"
          | _ => Arith.breakOff "expecting primary"
      | [] => Arith.breakOff "expecting primary"

end

def Arith.ofText (text : Text) : Arith :=
  match arithTokens text.length text with
  | none => .broken "expecting primary"
  | some tokens =>
      match readArith (16 * tokens.length + 16) tokens with
      | (expression, some (_ :: _)) => .binary "+" expression (.broken "expecting EOF")
      | (expression, _) => expression

def Arith.fault? : Arith → Option String
  | .number _ | .named _ => none
  | .unary _ operand => operand.fault?
  | .binary _ left right => left.fault? <|> right.fault?
  | .choose condition yes no => condition.fault? <|> yes.fault? <|> no.fault?
  | .assign _ _ value => value.fault?
  | .broken fault => some fault

def wrap (value : Int) : Int :=
  value.bmod 0x10000000000000000

def ofBool (holds : Bool) : Int :=
  if holds then 1 else 0

def toWord (value : Int) : UInt64 :=
  UInt64.ofNat (value % 0x10000000000000000).toNat

def ofWord (word : UInt64) : Int :=
  wrap word.toNat

def applyUnary (operator : Char) (value : Int) : Int :=
  match operator with
  | '!' => ofBool (value = 0)
  | '~' => -value - 1
  | '-' => wrap (-value)
  | _ => value

def twoTo (bit : Nat) : Nat :=
  1 <<< bit

/-- Joins two numbers; there is no answer to a division by zero. -/
def applyBinary (operator : String) (left right : Int) : Option Int :=
  match operator with
  | "+" => some (wrap (left + right))
  | "-" => some (wrap (left - right))
  | "*" => some (wrap (left * right))
  | "/" => if right = 0 then none else some (wrap (left.tdiv right))
  | "%" => if right = 0 then none else some (wrap (left.tmod right))
  | "<<" => some (wrap (left * twoTo (right % 64).toNat))
  | ">>" => some (left / twoTo (right % 64).toNat)
  | "<" => some (ofBool (left < right))
  | "<=" => some (ofBool (left ≤ right))
  | ">" => some (ofBool (right < left))
  | ">=" => some (ofBool (right ≤ left))
  | "==" => some (ofBool (left = right))
  | "!=" => some (ofBool (left ≠ right))
  | "&" => some (ofWord (toWord left &&& toWord right))
  | "^" => some (ofWord (toWord left ^^^ toWord right))
  | "|" => some (ofWord (toWord left ||| toWord right))
  | _ => none

end Script

end CommandShell
