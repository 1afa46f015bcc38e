import CommandShell.Script.Token

/-!
Reading scripts, one line of commands at a time, so that a fault in a later line does not
keep an earlier one from running. The text of a here-document is taken out of the script as
soon as its sign is met.
-/
namespace CommandShell

namespace Script

mutual

def readParts (steps : Nat) (around : Around) (done : Word) : Reading Word := do
  match steps with
  | 0 => return done
  | steps + 1 =>
      match ← peekChars with
      | [] =>
          match around with
          | .nothing | .hereText => return done
          | .doubleQuotes => fault "Unterminated quoted string".toList
          | .braces _ => fault "Missing '\x7d'".toList
          | .arithmetic _ => fault "Missing '))'".toList
      | '\\' :: rest =>
          match rest with
          | '\n' :: _ =>
              advance 2
              readParts steps around done
          | c :: _ =>
              if around.escapes c then
                advance 2
                readParts steps around (addText done [c] true)
              else
                advance 1
                readParts steps around (addText done ['\\'] around.quotes)
          | [] =>
              advance 1
              readParts steps around (addText done ['\\'] true)
      | '\'' :: rest =>
          match around with
          | .nothing | .braces false =>
              let body := rest.takeWhile (· != '\'')
              if body.length = rest.length then
                advance (1 + rest.length)
                fault "Unterminated quoted string".toList
              else
                advance (body.length + 2)
                readParts steps around (addText done body true)
          | _ =>
              advance 1
              readParts steps around (addText done ['\''] true)
      | '"' :: _ =>
          match around with
          | .doubleQuotes =>
              advance 1
              return done
          | .hereText =>
              advance 1
              readParts steps around (addText done ['"'] true)
          | .arithmetic _ =>
              -- Quotes mean nothing inside an expression.
              advance 1
              readParts steps around done
          | _ =>
              advance 1
              let inner ← readParts steps .doubleQuotes []
              readParts steps around (addText done [] true ++ inner)
      | '`' :: rest =>
          match backquoted? around.quotes rest with
          | none =>
              advance (1 + rest.length)
              fault "EOF in backquote substitution".toList
          | some (text, after) =>
              let source ← get
              -- Such commands count their lines anew.
              set (Source.mk text 1 0 none)
              let body ← readList steps true []
              let line := source.line + (← get).line - 1
              match (← get).rest with
              | [] =>
                  set { source with rest := after, line := line }
                  readParts steps around (done ++ [.output body around.quotes])
              | _ => unexpected (← readToken steps) none
      | '$' :: _ =>
          advance 1
          match ← readDollar steps around.quotes with
          | some part => readParts steps around (done ++ [part])
          | none => readParts steps around (addText done ['$'] around.quotes)
      | c :: rest =>
          match around with
          | .nothing =>
              if endsWord c then return done
              else
                advance 1
                readParts steps around (addText done [c] false)
          | .braces quoted =>
              advance 1
              if c == '\x7d' then return done
              else readParts steps around (addText done [c] quoted)
          | .arithmetic depth =>
              if c == ')' then
                match depth, rest with
                | 0, ')' :: _ =>
                    advance 2
                    return done
                | depth, _ =>
                    -- One that nothing has opened is a fault of the expression.
                    advance 1
                    readParts steps (.arithmetic (depth - 1)) (addText done [c] true)
              else
                advance 1
                readParts steps (if c == '(' then .arithmetic (depth + 1) else around)
                  (addText done [c] true)
          | _ =>
              advance 1
              readParts steps around (addText done [c] true)

def readDollar (steps : Nat) (quoted : Bool) : Reading (Option WordPart) := do
  match steps with
  | 0 => return none
  | steps + 1 =>
      match ← peekChars with
      | '(' :: '(' :: _ =>
          advance 2
          return some (.arithmetic (← readParts steps (.arithmetic 0) []) quoted)
      | '(' :: _ =>
          advance 1
          let body ← readList steps true []
          match ← readToken steps with
          | .closing => return some (.output body quoted)
          | token => unexpected token (some "\")\"")
      | '\x7b' :: '#' :: text =>
          let name := parameterName true text
          match text.drop name.length with
          | '\x7d' :: _ =>
              if name.isEmpty then
                advance 3
                return some (.parameter ['#'] .value [] quoted)
              else
                advance (name.length + 3)
                return some (.parameter name .length [] quoted)
          | _ =>
              advance 2
              readUse steps ['#'] quoted
      | '\x7b' :: text =>
          let name := parameterName true text
          advance (name.length + 1)
          readUse steps name quoted
      | text =>
          let name := parameterName false text
          if name.isEmpty then return none
          else
            advance name.length
            return some (.parameter name .value [] quoted)

def readUse (steps : Nat) (name : Text) (quoted : Bool) : Reading (Option WordPart) := do
  match steps with
  | 0 => return none
  | steps + 1 =>
      let (use, size) := useOfSign (← peekChars)
      let use := if name.isEmpty then .unknown else use
      advance size
      let word ← readParts steps (.braces (quoted && !use.cuts)) []
      return some (.parameter name use word quoted)

def readToken (steps : Nat) : Reading Token := do
  match steps with
  | 0 => return .finish
  | steps + 1 =>
      match (← get).ahead with
      | some token =>
          modify fun source => { source with ahead := none }
          return token
      | none =>
          skipGaps ((← peekChars).length + 1)
          let text ← peekChars
          match redirectSign? text, redirectSign? (text.drop 1) with
          | some (kind, fd, sign), _ =>
              advance sign.length
              return .redirect fd kind sign
          | none, some (kind, _, sign) =>
              match text with
              | c :: _ =>
                  if c.isDigit then
                    advance (sign.length + 1)
                    return .redirect (c.toNat - 48) kind sign
                  else readOperator steps text
              | [] => return .finish
          | none, none => readOperator steps text

def readOperator (steps : Nat) (text : Text) : Reading Token := do
  match steps with
  | 0 => return .finish
  | steps + 1 =>
      match operatorToken? text with
      | some (token, size) =>
          advance size
          return token
      | none => return .word (← readParts steps .nothing [])

def peekToken (steps : Nat) (pastLines : Bool) : Reading Token := do
  match steps with
  | 0 => return .finish
  | steps + 1 =>
      match ← readToken steps with
      | .newline =>
          if pastLines then peekToken steps pastLines
          else
            modify fun source => { source with ahead := some .newline }
            return .newline
      | token =>
          modify fun source => { source with ahead := some token }
          return token

def expectKeyword (steps : Nat) (pastLines : Bool) (word : String) : Reading Unit := do
  match steps with
  | 0 => return ()
  | steps + 1 =>
      let token ← peekToken steps pastLines
      let _ ← readToken steps
      if token.isKeyword word then return ()
      else unexpected token (some ("\"" ++ word ++ "\""))

/-- Reads commands up to a token that closes a list. `mayEnd` holds once the list may end
here. -/
def readList (steps : Nat) (mayEnd : Bool) (done : List Command) : Reading (List Command) := do
  match steps with
  | 0 => return done
  | steps + 1 =>
      let token ← peekToken steps true
      let isOver := match token with
        | .finish => true
        | _ => false
      if isOver || (mayEnd && token.closesList) then return done
      else
        let command ← readChain steps
        match ← peekToken steps false with
        | .ampersand =>
            let _ ← readToken steps
            readList steps true (done ++ [.background command])
        | .semicolon | .newline =>
            let _ ← readToken steps
            readList steps true (done ++ [command])
        | _ => return done ++ [command]

def readChain (steps : Nat) : Reading Command := do
  match steps with
  | 0 => return .group []
  | steps + 1 => readChainFrom steps (← readPipeline steps)

def readChainFrom (steps : Nat) (first : Command) : Reading Command := do
  match steps with
  | 0 => return first
  | steps + 1 =>
      match ← peekToken steps false with
      | .doubleAmpersand =>
          let _ ← readToken steps
          let _ ← peekToken steps true
          readChainFrom steps (.chain false first (← readPipeline steps))
      | .doubleBar =>
          let _ ← readToken steps
          let _ ← peekToken steps true
          readChainFrom steps (.chain true first (← readPipeline steps))
      | _ => return first

def readPipeline (steps : Nat) : Reading Command := do
  match steps with
  | 0 => return .group []
  | steps + 1 =>
      let token ← peekToken steps true
      if token.isKeyword "!" then
        let _ ← readToken steps
        return .negated (← readStages steps [])
      else readStages steps []

def readStages (steps : Nat) (done : List Command) : Reading Command := do
  match steps with
  | 0 => return .pipeline done
  | steps + 1 =>
      let command ← readCommand steps
      match ← peekToken steps false with
      | .bar =>
          let _ ← readToken steps
          let _ ← peekToken steps true
          readStages steps (done ++ [command])
      | _ =>
          if done.isEmpty then return command
          else return .pipeline (done ++ [command])

def readCommand (steps : Nat) : Reading Command := do
  match steps with
  | 0 => return .group []
  | steps + 1 =>
      let token ← peekToken steps false
      let line := (← get).line
      match token.keyword?, token with
      | some "if", _ =>
          let _ ← readToken steps
          readRedirects steps line (← readBranch steps) []
      | some "while", _ =>
          let _ ← readToken steps
          readRedirects steps line (← readLoop steps true) []
      | some "until", _ =>
          let _ ← readToken steps
          readRedirects steps line (← readLoop steps false) []
      | some "for", _ =>
          let _ ← readToken steps
          readRedirects steps line (← readFor steps) []
      | some "case", _ =>
          let _ ← readToken steps
          readRedirects steps line (← readCase steps) []
      | some "\x7b", _ =>
          let _ ← readToken steps
          let body ← readList steps false []
          expectKeyword steps true "\x7d"
          readRedirects steps line (.group body) []
      | some _, _ =>
          let _ ← readToken steps
          unexpected token none
      | none, .opening =>
          let _ ← readToken steps
          let body ← readList steps false []
          match ← readToken steps with
          | .closing => readRedirects steps line (.subshell line body) []
          | token => unexpected token (some "\")\"")
      | none, .word _ | none, .redirect _ _ _ =>
          readSimple steps line [] [] []
      | none, _ =>
          let _ ← readToken steps
          unexpected token none

def readTarget (steps : Nat) (fd : Nat) (kind : RedirectKind) (sign : Text) :
    Reading Redirect := do
  match steps with
  | 0 => return .mk fd kind []
  | steps + 1 =>
      match ← readToken steps with
      | .word target =>
          match kind with
          | .here =>
              let body ← takeHere (sign == "<<-".toList) (plainText target)
              if hasQuotes target then return .mk fd kind [.text body true]
              else
                let source ← get
                set (Source.mk body (source.line + 1) 0 none)
                let parts ← readParts steps .hereText []
                set source
                return .mk fd kind parts
          | _ => return .mk fd kind target
      | token => unexpected token none

def readRedirects (steps : Nat) (line : Nat) (command : Command) (done : List Redirect) :
    Reading Command := do
  match steps with
  | 0 => return command
  | steps + 1 =>
      match ← peekToken steps false with
      | .redirect fd kind sign =>
          let _ ← readToken steps
          let redirect ← readTarget steps fd kind sign
          readRedirects steps line command (done ++ [redirect])
      | _ => if done.isEmpty then return command else return command.redirect line done

def readSimple (steps : Nat) (line : Nat) (settings : List (Text × Word)) (words : List Word)
    (redirects : List Redirect) : Reading Command := do
  match steps with
  | 0 => return .simple line settings words redirects
  | steps + 1 =>
      match ← peekToken steps false with
      | .word parts =>
          let _ ← readToken steps
          match words, setting? parts with
          | [], some setting => readSimple steps line (settings ++ [setting]) [] redirects
          | _, _ => readSimple steps line settings (words ++ [parts]) redirects
      | .redirect fd kind sign =>
          let _ ← readToken steps
          let redirect ← readTarget steps fd kind sign
          readSimple steps line settings words (redirects ++ [redirect])
      | .opening =>
          match settings, words, redirects with
          | [], [name], [] =>
              let _ ← readToken steps
              match ← readToken steps with
              | .closing =>
                  match bareText? name with
                  | some text =>
                      if isName text && !reservedNames.any fun word => word.toList == text then
                        let _ ← peekToken steps true
                        return .function text (← readCommand steps)
                      else fault "Bad function name".toList
                  | none => fault "Bad function name".toList
              | token => unexpected token (some "\")\"")
          | _, _, _ => return .simple line settings words redirects
      | _ => return .simple line settings words redirects

def readBranch (steps : Nat) : Reading Command := do
  match steps with
  | 0 => return .group []
  | steps + 1 =>
      let condition ← readList steps false []
      expectKeyword steps true "then"
      let yes ← readList steps false []
      let token ← peekToken steps true
      if token.isKeyword "elif" then
        let _ ← readToken steps
        return .branch condition yes [← readBranch steps]
      else if token.isKeyword "else" then
        let _ ← readToken steps
        let no ← readList steps false []
        expectKeyword steps true "fi"
        return .branch condition yes no
      else
        expectKeyword steps true "fi"
        return .branch condition yes []

def readLoop (steps : Nat) (holds : Bool) : Reading Command := do
  match steps with
  | 0 => return .group []
  | steps + 1 =>
      let condition ← readList steps false []
      return .loop holds condition (← readBody steps)

def readBody (steps : Nat) : Reading (List Command) := do
  match steps with
  | 0 => return []
  | steps + 1 =>
      expectKeyword steps true "do"
      let body ← readList steps false []
      expectKeyword steps true "done"
      return body

def readFor (steps : Nat) : Reading Command := do
  match steps with
  | 0 => return .group []
  | steps + 1 =>
      let line := (← get).line
      match ← readToken steps with
      | .word parts =>
          match bareText? parts with
          | some name =>
              if !isName name then fault "Bad for loop variable".toList
              else
                let token ← peekToken steps true
                if token.isKeyword "in" then
                  let _ ← readToken steps
                  let items ← readItems steps []
                  return .forEach line name (some items) (← readBody steps)
                else
                  match token with
                  | .semicolon =>
                      let _ ← readToken steps
                      return .forEach line name none (← readBody steps)
                  | _ => return .forEach line name none (← readBody steps)
          | none => fault "Bad for loop variable".toList
      | _ => fault "Bad for loop variable".toList

def readItems (steps : Nat) (done : List Word) : Reading (List Word) := do
  match steps with
  | 0 => return done
  | steps + 1 =>
      match ← readToken steps with
      | .word parts => readItems steps (done ++ [parts])
      | .newline | .semicolon => return done
      | token => unexpected token none

def readCase (steps : Nat) : Reading Command := do
  match steps with
  | 0 => return .group []
  | steps + 1 =>
      let line := (← get).line
      match ← readToken steps with
      | .word word =>
          expectKeyword steps true "in"
          return .choice line word (← readArms steps [])
      | token => unexpected token (some "word")

def readArms (steps : Nat) (done : List (List Word × List Command)) :
    Reading (List (List Word × List Command)) := do
  match steps with
  | 0 => return done
  | steps + 1 =>
      let token ← peekToken steps true
      if token.isKeyword "esac" then
        let _ ← readToken steps
        return done
      else
        match token with
        | .opening => let _ ← readToken steps
        | _ => pure ()
        let patterns ← readPatterns steps []
        let body ← readList steps true []
        let arms := done ++ [(patterns, body)]
        let token ← peekToken steps true
        let _ ← readToken steps
        if token.isKeyword "esac" then return arms
        else
          match token with
          | .doubleSemicolon => readArms steps arms
          | _ => unexpected token (some "\";;\"")

def readPatterns (steps : Nat) (done : List Word) : Reading (List Word) := do
  match steps with
  | 0 => return done
  | steps + 1 =>
      match ← readToken steps with
      | .word pattern =>
          match ← readToken steps with
          | .bar => readPatterns steps (done ++ [pattern])
          | .closing => return done ++ [pattern]
          | .word _ => fault "word unexpected (expecting \")\")".toList
          | token => unexpected token (some "\")\"")
      | token => unexpected token (some "word")

end

def readHereText (text : Text) : Word :=
  match readParts (16 * (text.length + 8)) .hereText [] (Source.ofText text) with
  | .ok (word, _) => word
  | .error _ => [.text text true]

def readLineFrom (steps : Nat) (done : List Command) : Reading (Option (List Command)) := do
  match steps with
  | 0 => return none
  | steps + 1 =>
      match ← peekToken steps false with
      | .newline =>
          let _ ← readToken steps
          return some done
      | .finish => if done.isEmpty then return none else return some done
      | _ =>
          let command ← readChain steps
          match ← peekToken steps false with
          | .ampersand =>
              let _ ← readToken steps
              readLineFrom steps (done ++ [.background command])
          | .semicolon =>
              let _ ← readToken steps
              readLineFrom steps (done ++ [command])
          | .newline | .finish => readLineFrom steps (done ++ [command])
          | token =>
              let _ ← readToken steps
              unexpected token none

def readingSteps (length : Nat) : Nat :=
  16 * (length + 8)

def readCommandLine (source : Source) :
    Except SyntaxFault (Option (List Command) × Source) :=
  readLineFrom (readingSteps source.rest.length) [] source

end Script

end CommandShell
