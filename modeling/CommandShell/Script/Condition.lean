import CommandShell.Script.State

/-!
Conditions of scripts: tests on texts, numbers and files, joined by signs. The words of a
condition decide by their number which of them are signs.
-/
namespace CommandShell

namespace Script

namespace Condition

def unarySigns : List String :=
  ["-r", "-w", "-x", "-e", "-f", "-d", "-c", "-b", "-p", "-u", "-g", "-k", "-s", "-t", "-z",
    "-n", "-h", "-L", "-O", "-G", "-S"]

def binarySigns : List String :=
  ["=", "!=", "<", ">", "-eq", "-ne", "-ge", "-gt", "-le", "-lt", "-nt", "-ot", "-ef"]

inductive Sign
  | unary (text : String)
  | binary (text : String)
  | not
  | both
  | either
  | opening
  | closing
  deriving DecidableEq

def sign? (word : Text) : Option Sign :=
  match String.ofList word with
  | "!" => some .not
  | "-a" => some .both
  | "-o" => some .either
  | "(" => some .opening
  | ")" => some .closing
  | text =>
      if unarySigns.contains text then some (.unary text)
      else if binarySigns.contains text then some (.binary text)
      else none

def binarySign? (word : Option Text) : Option String :=
  match word.bind sign? with
  | some (.binary text) => some text
  | _ => none

def standsForItself : List Text → Bool
  | [_] => true
  | [_, _] => false
  | _ :: next :: _ => (binarySign? (some next)).isSome
  | [] => false

def signAt (words : List Text) : Option Sign :=
  match words with
  | [] => none
  | word :: rest =>
      match sign? word with
      | some (.unary text) => if standsForItself words then none else some (.unary text)
      | some .opening => if rest.isEmpty then none else some .opening
      | other => other

def integer (word : Text) : Run Int := do
  let body := word.dropWhile Tool.isSpace
  let (sign, unsigned) : Int × Text := match body with
    | '-' :: rest => (-1, rest)
    | '+' :: rest => (1, rest)
    | _ => (1, body)
  let figures := unsigned.takeWhile Char.isDigit
  match Tool.natural? figures with
  | some value =>
      if (unsigned.drop figures.length).all Tool.isSpace then return sign * value
      else refuse ("Illegal number: ".toList ++ word)
  | none => refuse ("Illegal number: ".toList ++ word)

def unary (sign : String) (word : Text) : Run Bool := do
  let state ← get
  let tree := state.machine.tree
  let path := Latin.toBytes word
  let node : Option Node := (tree.open? state.process.cwd path).toOption.map (·.2)
  let itself : Option Node := (tree.inspect? state.process.cwd path).toOption.map (·.2)
  let modeHas := fun (bits : Nat) =>
    match node with
    | some node => FileTree.modeOf node &&& bits != 0
    | none => false
  match sign with
  | "-z" => return word.isEmpty
  | "-n" => return !word.isEmpty
  | "-e" | "-r" | "-w" | "-O" | "-G" => return node.isSome
  | "-x" =>
      match node with
      | some (.folder _) => return true
      | _ => return modeHas 0o111
  | "-f" =>
      match node with
      | some (.file _ _) => return true
      | _ => return false
  | "-d" =>
      match node with
      | some (.folder _) => return true
      | _ => return false
  | "-c" => return node == some .void
  | "-s" =>
      match node with
      | some node => return FileTree.sizeOf node ≠ 0
      | none => return false
  | "-h" | "-L" =>
      match itself with
      | some (.link _) => return true
      | _ => return false
  | "-u" => return modeHas 0o4000
  | "-g" => return modeHas 0o2000
  | "-k" => return modeHas 0o1000
  | "-t" => do
      let _ ← integer word
      return false
  | _ => return false

def binary (left : Text) (sign : String) (right : Text) : Run Bool := do
  match sign with
  | "=" => return left = right
  | "!=" => return left ≠ right
  | "<" => return left ≠ right && Tool.latinLe left right
  | ">" => return left ≠ right && Tool.latinLe right left
  | "-eq" => return (← integer left) = (← integer right)
  | "-ne" => return (← integer left) ≠ (← integer right)
  | "-ge" => return (← integer left) ≥ (← integer right)
  | "-gt" => return (← integer left) > (← integer right)
  | "-le" => return (← integer left) ≤ (← integer right)
  | "-lt" => return (← integer left) < (← integer right)
  | "-ef" => do
      let state ← get
      let place := fun (word : Text) =>
        ((state.machine.tree.open? state.process.cwd (Latin.toBytes word)).toOption.map (·.1))
      return (place left).isSome && place left == place right
  | _ => return false

mutual

/-- Reads and judges conditions joined by `-o`. What comes back begins with the last word
that was used. -/
def either (steps : Nat) (words : List Text) : Run (Bool × List Text) := do
  match steps with
  | 0 => return (false, words)
  | steps + 1 =>
      let (holds, last) ← both steps words
      match signAt (last.drop 1) with
      | some .either =>
          let (other, last) ← either steps (last.drop 2)
          return (holds || other, last)
      | _ => return (holds, last)

def both (steps : Nat) (words : List Text) : Run (Bool × List Text) := do
  match steps with
  | 0 => return (false, words)
  | steps + 1 =>
      let (holds, last) ← negation steps words
      match signAt (last.drop 1) with
      | some .both =>
          let (other, last) ← both steps (last.drop 2)
          return (holds && other, last)
      | _ => return (holds, last)

def negation (steps : Nat) (words : List Text) : Run (Bool × List Text) := do
  match steps with
  | 0 => return (false, words)
  | steps + 1 =>
      match signAt words with
      | some .not =>
          if (words.drop 1).isEmpty then return (true, words)
          else
            let (holds, last) ← negation steps (words.drop 1)
            return (!holds, last)
      | _ => primary steps words

def primary (steps : Nat) (words : List Text) : Run (Bool × List Text) := do
  match steps with
  | 0 => return (false, words)
  | steps + 1 =>
      match signAt words, words with
      | _, [] => return (false, [])
      | some .opening, _ :: rest =>
          if signAt rest == some .closing then return (false, rest)
          else
            let (holds, last) ← either steps rest
            if signAt (last.drop 1) == some .closing then return (holds, last.drop 1)
            else refuse "closing paren expected".toList
      | some (.unary sign), _ :: rest =>
          match rest with
          | [] => refuse (sign.toList ++ ": argument expected".toList)
          | word :: _ => return (← unary sign word, rest)
      | _, word :: rest =>
          match signAt rest with
          | some (.binary sign) =>
              match rest.drop 1 with
              | [] => refuse (sign.toList ++ ": argument expected".toList)
              | other :: after => return (← binary word sign other, other :: after)
          | _ => return (!word.isEmpty, words)

end

def judgeFrom (words : List Text) : Run Bool := do
  let (holds, last) ← either (4 * words.length + 8) words
  match last with
  | word :: _ :: _ =>
      refuse ((if word.isEmpty then [] else word ++ ": ".toList) ++ "unexpected operator".toList)
  | _ => return holds

/-- Judges a condition. Up to four words, their number says what the first of them is. Of two
signs that turn the outcome of the other two words around, only one counts. -/
def judge : List Text → Run Bool
  | [] => pure false
  | word :: rest =>
      let few := rest.length = 2 || rest.length = 3
      match rest.length, binarySign? rest.head? with
      | 2, some sign => binary word sign ((rest[1]?).getD [])
      | _, _ =>
          if few && word = ['('] && rest.getLast? == some [')'] then judgeFrom rest.dropLast
          else if rest.length = 3 && word = ['!'] && rest.head? == some ['!'] &&
              (binarySign? rest[1]?).isNone then judge rest
          else if few && word = ['!'] then do return !(← judge rest)
          else judgeFrom (word :: rest)

end Condition

end Script

end CommandShell
