import CommandShell.Script.NamePattern
import CommandShell.Script.State

/-!
From words to texts: parts are filled in, what was filled in falls apart at separators, and
words with signs stand for the names of files. How the output of commands comes about is
left open here; it is given as `capture`.
-/
namespace CommandShell

namespace Script

inductive Origin
  | written
  | quoted
  | filled
  deriving DecidableEq

inductive Atom
  | char (c : Char) (origin : Origin)
  | between
  | quotes
  deriving DecidableEq

def atoms (origin : Origin) (text : Text) : List Atom :=
  text.map fun c => .char c origin

def filledAtoms (quoted : Bool) (text : Text) : List Atom :=
  if quoted then .quotes :: atoms .quoted text else atoms .filled text

def Atom.fill : Atom → Atom
  | .char c .written => .char c .filled
  | atom => atom

def joiner (state : State) : Text :=
  state.separators.take 1

def spread (quoted : Bool) (arguments : List Text) : List Atom :=
  joinWith [.between] (arguments.map (filledAtoms quoted))

def parameter? (state : State) (name : Text) : Option Text :=
  match name with
  | ['#'] => some (digits state.arguments.length)
  | ['?'] => some (signedDigits state.code)
  | ['$'] => some (digits state.ownPid)
  | ['!'] => state.lastBackground.map digits
  | ['-'] =>
      some ((if state.switches.demandSet then ['u'] else []) ++
        (if state.switches.exportAll then ['a'] else []) ++
        (if state.switches.trace then ['x'] else []) ++
        (if state.switches.literalWords then ['f'] else []) ++
        (if state.switches.stopOnFailure then ['e'] else []))
  | ['0'] => some state.name
  | ['@'] | ['*'] => some (joinWith (joiner state) state.arguments)
  | _ =>
      match Tool.natural? name with
      | some n => state.arguments[n - 1]?
      | none => state.value? name

def textOf (joiner : Text) (atoms : List Atom) : Text :=
  atoms.flatMap fun atom =>
    match atom with
    | .char c _ => [c]
    | .between => joiner
    | .quotes => []

def patternOf (atoms : List Atom) : List PatternChar :=
  quoteBehind (atoms.filterMap fun atom =>
    match atom with
    | .char c origin => some ⟨c, origin ≠ .quoted⟩
    | .between => some ⟨' ', true⟩
    | .quotes => none)

def notSet {α : Type} (name : Text) (empty : Bool) : Run α :=
  refuse (name ++ ": parameter not set".toList ++ if empty then " or null".toList else [])

def expandTilde (word : Word) : Run Word := do
  match word with
  | .text ('~' :: chars) false :: rest =>
      let user := chars.takeWhile (· != '/')
      let after := chars.drop user.length
      if after.isEmpty && !rest.isEmpty then return word
      else
        let state ← get
        let home := if user.isEmpty then state.value? "HOME".toList
          else if user = state.machine.account.name then
            some (Latin.ofBytes state.machine.account.home)
          else none
        match home with
        | some home => return .text home true :: .text after false :: rest
        | none => return word
  | _ => return word

def dropNewlines (text : Text) : Text :=
  dropEndWhile (· == '\n') (text.filter fun c => c.toNat ≠ 0)

section

variable (capture : List Command → Run Text)

mutual

def fillParts (steps : Nat) (word : Word) : Run (List Atom) := do
  match steps with
  | 0 => return []
  | steps + 1 =>
      match word with
      | [] => return []
      | part :: rest =>
          let here ← fillPart steps part
          return here ++ (← fillParts steps rest)

def fillPart (steps : Nat) (part : WordPart) : Run (List Atom) := do
  match steps with
  | 0 => return []
  | steps + 1 =>
      match part with
      | .text chars quoted =>
          return if quoted then .quotes :: atoms .quoted chars else atoms .written chars
      | .output body quoted =>
          return filledAtoms quoted (dropNewlines (← capture body))
      | .arithmetic body quoted =>
          let text := textOf [' '] (← fillParts steps body)
          return filledAtoms quoted (signedDigits (← calculate text))
      | .parameter name use word quoted => fillParameter steps name use word quoted

def fillParameter (steps : Nat) (name : Text) (use : ParameterUse) (word : Word)
    (quoted : Bool) : Run (List Atom) := do
  match steps with
  | 0 => return []
  | steps + 1 =>
      let state ← get
      let value := parameter? state name
      let several := name = ['@'] || (name = ['*'] && !quoted)
      let shown := if several then spread quoted state.arguments
        else filledAtoms quoted (value.getD [])
      let missing := fun (empty : Bool) =>
        value.isNone || (empty && value == some [])
      let given := fun (_ : Unit) => do
        let atoms ← fillParts steps (← expandTilde word)
        return (if quoted then Atom.quotes :: atoms else atoms.map Atom.fill)
      let check : Run Unit :=
        if value.isNone && state.switches.demandSet then
          notSet name false
        else pure ()
      match use with
      | .unknown => refuse "Bad substitution".toList
      | .value => do
          check
          return shown
      | .length => do
          check
          return filledAtoms quoted (digits (value.getD []).length)
      | .default empty => if missing empty then given () else return shown
      | .alternative empty =>
          if missing empty then return (if quoted then [.quotes] else []) else given ()
      | .assign empty =>
          if missing empty then
            if isName name then
              let text := textOf (joiner state) (← fillParts steps (← expandTilde word))
              assign name text
              return filledAtoms quoted text
            else refuse (name ++ ": bad variable name".toList)
          else return shown
      | .demand empty =>
          if missing empty then
            if word.isEmpty then notSet name empty
            else
              let text := textOf (joiner state) (← fillParts steps word)
              refuse (name ++ ": ".toList ++ text)
          else return shown
      | .cutStart longest => do
          check
          cutParameter steps name word quoted (cutStart longest) (cutStarts longest)
      | .cutEnd longest => do
          check
          cutParameter steps name word quoted (cutEnd longest) (cutEnds longest)

/-- Fills in a parameter without the part that matches a pattern. Arguments that are words of
their own stay so. -/
def cutParameter (steps : Nat) (name : Text) (word : Word) (quoted : Bool)
    (cut : List PatternChar → Text → Text) (cutAll : List PatternChar → List Text → List Text) :
    Run (List Atom) := do
  match steps with
  | 0 => return []
  | steps + 1 =>
      let state ← get
      match parameter? state name with
      | none => return filledAtoms quoted []
      | some value =>
          let pattern := patternOf (← fillParts steps (← expandTilde word))
          if name = ['@'] || (name = ['*'] && !quoted) then
            return spread quoted (cutAll pattern state.arguments)
          else return filledAtoms quoted (cut pattern value)

end

end

structure Splitting where
  done : List (List PatternChar)
  current : Option (List PatternChar)
  closed : Bool

namespace Splitting

def close (splitting : Splitting) : Splitting :=
  ⟨splitting.done ++ splitting.current.toList, none, false⟩

def add (splitting : Splitting) (chars : List PatternChar) : Splitting :=
  { splitting with current := some (splitting.current.getD [] ++ chars), closed := false }

def separate (splitting : Splitting) (blank : Bool) : Splitting :=
  match splitting.current with
  | some _ => { splitting.close with closed := !blank }
  | none =>
      if blank then splitting
      else if splitting.closed || splitting.done.isEmpty then
        { splitting with done := splitting.done ++ [[]], closed := true }
      else { splitting with closed := true }

end Splitting

def isBlankSeparator (c : Char) : Bool :=
  c == ' ' || c == '\t' || c == '\n'

def splitAtom (separators : Text) (splitting : Splitting) : Atom → Splitting
  | .quotes => splitting.add []
  | .between => splitting.close
  | .char c origin =>
      if origin = .filled && separators.contains c then splitting.separate (isBlankSeparator c)
      else splitting.add [⟨c, origin ≠ .quoted⟩]

/-- Lets what was filled in fall apart. Quotes around arguments that do not exist make no
word. -/
def splitAtoms (separators : Text) (noArguments : Bool) (atoms : List Atom) :
    List (List PatternChar) :=
  let words := (atoms.foldl (splitAtom separators) ⟨[], none, false⟩).close.done
  if noArguments && words == [[]] then [] else words

def plainChars (text : List PatternChar) : Text :=
  text.map (·.char)

def matchPath (tree : FileTree) (cwd : Location) (before : Text) :
    List (List PatternChar) → List Text
  | [] => []
  | part :: rest =>
      let go := fun (name : Text) =>
        if rest.isEmpty then
          match tree.inspect? cwd (Latin.toBytes (before ++ name)) with
          | .ok _ => [before ++ name]
          | .error _ => []
        else matchPath tree cwd (before ++ name ++ ['/']) rest
      if hasSigns part then
        let folder := if before.isEmpty then dot else Latin.toBytes before
        let names := match tree.list cwd folder with
          | .ok names => names.map Latin.ofBytes
          | .error _ => []
        ((["."].map String.toList ++ [".."].map String.toList ++ names).filter
          (acceptsName part)).flatMap go
      else go (plainChars part)

def globWord (state : State) (word : List PatternChar) : List Text :=
  if state.switches.literalWords || !hasSigns word then [plainChars word]
  else
    let parts := fields (fun (c : PatternChar) => c.char == '/') (quoteBehind word)
    let found := (matchPath state.machine.tree state.process.cwd [] parts).mergeSort Tool.latinLe
    if found.isEmpty then [plainChars word] else found

def asksForArguments (word : Word) : Bool :=
  word.any fun part =>
    match part with
    | .parameter ['@'] .value _ true => true
    | _ => false

def expandWord (capture : List Command → Run Text) (steps : Nat) (word : Word) :
    Run (List Text) := do
  let atoms ← fillParts capture steps (← expandTilde word)
  let state ← get
  let noArguments := asksForArguments word && state.arguments.isEmpty
  return (splitAtoms state.separators noArguments atoms).flatMap (globWord state)

def expandWords (capture : List Command → Run Text) (steps : Nat) :
    List Word → Run (List Text)
  | [] => pure []
  | word :: rest => do
      let here ← expandWord capture steps word
      return here ++ (← expandWords capture steps rest)

def expandOne (capture : List Command → Run Text) (steps : Nat) (word : Word) : Run Text := do
  let atoms ← fillParts capture steps (← expandTilde word)
  return textOf (joiner (← get)) atoms

def expandPattern (capture : List Command → Run Text) (steps : Nat) (word : Word) :
    Run (List PatternChar) := do
  return patternOf (← fillParts capture steps (← expandTilde word))

end Script

end CommandShell
