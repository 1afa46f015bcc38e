import CommandShell.Script.Syntax

/-!
Tokens of scripts, and reading from the text that is left of a script: operators, gaps between
tokens, here-documents, and what surrounds a part of a word.
-/
namespace CommandShell

namespace Script

inductive Token
  | word (parts : Word)
  | redirect (fd : Nat) (kind : RedirectKind) (sign : Text)
  | newline
  | semicolon
  | doubleSemicolon
  | ampersand
  | doubleAmpersand
  | bar
  | doubleBar
  | opening
  | closing
  | finish

structure SyntaxFault where
  line : Nat
  message : Text

structure Source where
  rest : Text
  line : Nat
  taken : Nat
  ahead : Option Token

def Source.ofText (text : Text) : Source :=
  ⟨text, 1, 0, none⟩

abbrev Reading := StateT Source (Except SyntaxFault)

def fault {α : Type} (message : Text) : Reading α := fun source =>
  .error ⟨source.line, message⟩

def peekChars : Reading Text := fun source =>
  .ok (source.rest, source)

def advance (count : Nat) : Reading Unit := fun source =>
  let newlines := (source.rest.take count).count '\n'
  .ok ((), { source with
    rest := source.rest.drop count
    line := source.line + newlines + (if 0 < newlines then source.taken else 0)
    taken := if 0 < newlines then 0 else source.taken })

def bareText? : Word → Option Text
  | [.text chars false] => some chars
  | _ => none

def keywords : List String :=
  ["!", "\x7b", "\x7d", "case", "do", "done", "elif", "else", "esac", "fi", "for", "if", "in",
    "then", "until", "while"]

def Token.keyword? : Token → Option String
  | .word parts =>
      (bareText? parts).bind fun text => keywords.find? fun word => word.toList == text
  | _ => none

def Token.isKeyword (token : Token) (word : String) : Bool :=
  token.keyword? == some word

def Token.describe (token : Token) : Text :=
  match token.keyword? with
  | some keyword => ['"'] ++ keyword.toList ++ ['"']
  | none =>
      match token with
      | .word _ => "word".toList
      | .redirect _ _ _ => "redirection".toList
      | .newline => "newline".toList
      | .semicolon => "\";\"".toList
      | .doubleSemicolon => "\";;\"".toList
      | .ampersand => "\"&\"".toList
      | .doubleAmpersand => "\"&&\"".toList
      | .bar => "\"|\"".toList
      | .doubleBar => "\"||\"".toList
      | .opening => "\"(\"".toList
      | .closing => "\")\"".toList
      | .finish => "end of file".toList

def unexpected {α : Type} (token : Token) (wanted : Option String) : Reading α :=
  fault (token.describe ++ " unexpected".toList ++
    match wanted with
    | some word => " (expecting ".toList ++ word.toList ++ [')']
    | none => [])

inductive Around
  | nothing
  | doubleQuotes
  | braces (quoted : Bool)
  | arithmetic (depth : Nat)
  | hereText
  deriving DecidableEq

namespace Around

def quotes : Around → Bool
  | .nothing => false
  | .braces quoted => quoted
  | .doubleQuotes | .arithmetic _ | .hereText => true

def escapes (around : Around) (c : Char) : Bool :=
  match around with
  | .nothing | .braces false => true
  | .doubleQuotes => "$`\"\\".toList.contains c
  | .braces true => "$`\"\\\x7d".toList.contains c
  | .arithmetic _ => "$`\"\\".toList.contains c
  | .hereText => "$`\\".toList.contains c

end Around

def endsWord (c : Char) : Bool :=
  " \t\n;&|<>()".toList.contains c

def addText (parts : Word) (chars : Text) (quoted : Bool) : Word :=
  match parts.getLast? with
  | some (.text before same) =>
      if same == quoted then parts.dropLast ++ [.text (before ++ chars) quoted]
      else parts ++ [.text chars quoted]
  | _ => parts ++ [.text chars quoted]

/-- The text between backquotes, and what follows. Backslashes before some characters are
dropped. -/
def backquoted? (quoted : Bool) : Text → Option (Text × Text)
  | [] => none
  | '`' :: rest => some ([], rest)
  | '\\' :: c :: rest =>
      (backquoted? quoted rest).map fun read =>
        if c == '`' || c == '\\' || c == '$' || (quoted && c == '"') then (c :: read.1, read.2)
        else ('\\' :: c :: read.1, read.2)
  | c :: rest => (backquoted? quoted rest).map fun read => (c :: read.1, read.2)

/-- The name of a parameter behind a dollar sign or an opening brace. Without braces a
number has one figure. -/
def parameterName (braces : Bool) (text : Text) : Text :=
  match text with
  | [] => []
  | c :: rest =>
      if isNameStart c then c :: rest.takeWhile isNameChar
      else if c.isDigit then (if braces then text.takeWhile Char.isDigit else [c])
      else if isSpecial c then [c]
      else []

def useOfSign (text : Text) : ParameterUse × Nat :=
  match text with
  | '\x7d' :: _ => (.value, 0)
  | ':' :: '-' :: _ => (.default true, 2)
  | ':' :: '=' :: _ => (.assign true, 2)
  | ':' :: '+' :: _ => (.alternative true, 2)
  | ':' :: '?' :: _ => (.demand true, 2)
  | '-' :: _ => (.default false, 1)
  | '=' :: _ => (.assign false, 1)
  | '+' :: _ => (.alternative false, 1)
  | '?' :: _ => (.demand false, 1)
  | '#' :: '#' :: _ => (.cutStart true, 2)
  | '#' :: _ => (.cutStart false, 1)
  | '%' :: '%' :: _ => (.cutEnd true, 2)
  | '%' :: _ => (.cutEnd false, 1)
  | _ => (.unknown, 0)

def ParameterUse.cuts : ParameterUse → Bool
  | .cutStart _ | .cutEnd _ => true
  | _ => false

def plainText (word : Word) : Text :=
  word.flatMap fun part =>
    match part with
    | .text chars _ => chars
    | _ => []

def hasQuotes (word : Word) : Bool :=
  word.any fun part =>
    match part with
    | .text _ quoted => quoted
    | _ => false

def hereLines (strip : Bool) (last : Text) : Nat → Text → Text × Nat × Text
  | 0, text => ([], 0, text)
  | _, [] => ([], 0, [])
  | steps + 1, text =>
      let raw := text.takeWhile (· != '\n')
      let rest := (text.drop raw.length).drop 1
      let line := if strip then raw.dropWhile (· == '\t') else raw
      if line = last then ([], 1, rest)
      else
        let (body, count, after) := hereLines strip last steps rest
        (line ++ '\n' :: body, count + 1, after)

/-- Takes the text of a here-document out of the script. It begins on the next line. -/
def takeHere (strip : Bool) (last : Text) : Reading Text := fun source =>
  let before := source.rest.takeWhile (· != '\n')
  let behind := (source.rest.drop before.length).drop 1
  let skipped := behind
  let (body, count, after) := hereLines strip last (skipped.length + 1) skipped
  .ok (body, { source with
    rest := before ++ '\n' :: after
    taken := source.taken + count })

def Token.closesList (token : Token) : Bool :=
  match token with
  | .finish | .closing | .doubleSemicolon => true
  | _ => ["do", "done", "elif", "else", "esac", "fi", "then", "\x7d"].any token.isKeyword

def redirectSign? : Text → Option (RedirectKind × Nat × Text)
  | '<' :: '<' :: '-' :: _ => some (.here, 0, "<<-".toList)
  | '<' :: '<' :: _ => some (.here, 0, "<<".toList)
  | '<' :: '&' :: _ => some (.duplicate, 0, "<&".toList)
  | '<' :: '>' :: _ => some (.readWrite, 0, "<>".toList)
  | '<' :: _ => some (.read, 0, "<".toList)
  | '>' :: '>' :: _ => some (.append, 1, ">>".toList)
  | '>' :: '&' :: _ => some (.duplicate, 1, ">&".toList)
  | '>' :: '|' :: _ => some (.write, 1, ">|".toList)
  | '>' :: _ => some (.write, 1, ">".toList)
  | _ => none

def operatorToken? : Text → Option (Token × Nat)
  | '\n' :: _ => some (.newline, 1)
  | ';' :: ';' :: _ => some (.doubleSemicolon, 2)
  | ';' :: _ => some (.semicolon, 1)
  | '&' :: '&' :: _ => some (.doubleAmpersand, 2)
  | '&' :: _ => some (.ampersand, 1)
  | '|' :: '|' :: _ => some (.doubleBar, 2)
  | '|' :: _ => some (.bar, 1)
  | '(' :: _ => some (.opening, 1)
  | ')' :: _ => some (.closing, 1)
  | [] => some (.finish, 0)
  | _ => none

def skipGaps : Nat → Reading Unit
  | 0 => pure ()
  | steps + 1 => do
      match ← peekChars with
      | ' ' :: _ | '\t' :: _ =>
          advance 1
          skipGaps steps
      | '\\' :: '\n' :: _ =>
          advance 2
          skipGaps steps
      | '#' :: rest =>
          advance (1 + (rest.takeWhile (· != '\n')).length)
          skipGaps steps
      | _ => pure ()

def setting? : Word → Option (Text × Word)
  | .text chars false :: rest =>
      let name := chars.takeWhile isNameChar
      match chars.drop name.length with
      | '=' :: value =>
          if isName name then
            some (name, (if value.isEmpty then [] else [.text value false]) ++ rest)
          else none
      | _ => none
  | _ => none

def reservedNames : List String :=
  [".", ":", "break", "continue", "eval", "exec", "exit", "export", "local", "readonly", "return",
    "set", "shift", "times", "trap", "unset"]

end Script

end CommandShell
