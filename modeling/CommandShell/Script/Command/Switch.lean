import CommandShell.Script.Command.Variable

/-!
Switches of the interpreter, and the options of the script itself, which it reads one by one.
-/
namespace CommandShell

namespace Script

/-- Switches by their letters. The last ones mean nothing to a script. -/
def Switches.turn (switches : Switches) (letter : Char) (value : Bool) : Option Switches :=
  match letter with
  | 'e' => some { switches with stopOnFailure := value }
  | 'u' => some { switches with demandSet := value }
  | 'x' => some { switches with trace := value }
  | 'f' => some { switches with literalWords := value }
  | 'n' => some { switches with readOnly := value }
  | 'a' => some { switches with exportAll := value }
  | _ => if "CEIVbimsv".toList.contains letter then some switches else none

def switchNames : List (String × Char) :=
  [("errexit", 'e'), ("noglob", 'f'), ("ignoreeof", 'I'), ("interactive", 'i'), ("monitor", 'm'),
    ("noexec", 'n'), ("stdin", 's'), ("xtrace", 'x'), ("verbose", 'v'), ("vi", 'V'),
    ("emacs", 'E'), ("noclobber", 'C'), ("allexport", 'a'), ("notify", 'b'), ("nounset", 'u')]

def turnSwitch (letter : Char) (value : Bool) : Run Unit := do
  let state ← get
  match state.switches.turn letter value with
  | some switches => set { state with switches := switches }
  | none => refuse ("Illegal option -".toList ++ [letter])

/-- Turns the switches that leading words name, and gives the other words. `none` means that
the switches came last and nothing is said about the arguments. -/
def turnSwitches : List Text → Run (Option (List Text))
  | [] => return none
  | word :: rest =>
      match word with
      | ['-'] => do
          turnSwitch 'x' false
          return if rest.isEmpty then none else some rest
      | ['-', '-'] => return some rest
      | sign :: letters => do
          if sign != '-' && sign != '+' then return some (word :: rest)
          else
            let value := sign == '-'
            if letters == ['o'] then
              match rest with
              | [] => return none
              | name :: rest =>
                  match switchNames.find? fun entry => entry.1.toList == name with
                  | some entry => do
                      turnSwitch entry.2 value
                      turnSwitches rest
                  | none => refuse ("Illegal option -o ".toList ++ name)
            else do
              letters.forM fun letter => turnSwitch letter value
              turnSwitches rest
      | [] => return some (word :: rest)

def setSwitches : Plain := fun words => do
  if words.isEmpty then
    showVariables [] ((← get).bindings.filter fun entry => entry.value.isSome)
  else
    match ← turnSwitches words with
    | some arguments =>
        modify fun state => { state with arguments := arguments, optionPlace := (1, 0) }
    | none => pure ()
  return 0

/-- What the next option among words is. `place` says which word and which letter of it come
next. -/
structure NextOption where
  letter : Char
  value : Option Text
  complaint : Option Text
  place : Nat × Nat
  done : Bool

def nextOption (forms : Text) (words : List Text) (place : Nat × Nat) : NextOption :=
  let quiet := forms.head? == some ':'
  let (index, offset) := place
  let current := (words[index - 1]?).getD []
  let inside := 1 < offset && offset < current.length
  let start : Option (Nat × Nat) :=
    if inside then some (index, offset)
    else
      let index := if 0 < offset then index + 1 else index
      match words[index - 1]? with
      | some ('-' :: _ :: _) => some (index, 1)
      | _ => none
  let last := if inside || offset = 0 then index else index + 1
  match start with
  | none => ⟨'?', none, none, (last, 0), true⟩
  | some (index, offset) =>
      let word := (words[index - 1]?).getD []
      if word = ['-', '-'] then ⟨'?', none, none, (index + 1, 0), true⟩
      else
        let letter := (word[offset]?).getD '?'
        let after := word.drop (offset + 1)
        let place := if after.isEmpty then (index + 1, 0) else (index, offset + 1)
        let rest := forms.dropWhile (· != letter)
        if letter == ':' || rest.isEmpty then
          if quiet then ⟨'?', some [letter], none, place, false⟩
          else ⟨'?', none, some ("Illegal option -".toList ++ [letter]), place, false⟩
        else if (rest.drop 1).head? == some ':' then
          if !after.isEmpty then ⟨letter, some after, none, (index + 1, 0), false⟩
          else
            match words[index]? with
            | some value => ⟨letter, some value, none, (index + 2, 0), false⟩
            | none =>
                if quiet then ⟨':', some [letter], none, (index + 1, 0), false⟩
                else ⟨'?', none, some ("No arg for -".toList ++ letter :: " option".toList),
                  (index + 1, 0), false⟩
        else ⟨letter, some [], none, place, false⟩

def readOptions : Plain := fun words => do
  match words with
  | forms :: name :: own =>
      let state ← get
      let index := ((state.value? "OPTIND".toList).bind Tool.natural?).getD 1
      let index := max index 1
      let place := if state.optionPlace.1 = index then state.optionPlace else (index, 0)
      let next := nextOption forms (if own.isEmpty then state.arguments else own) place
      match next.complaint with
      | some complaint => act (Tool.warn complaint)
      | none => pure ()
      if !next.done then
        match next.value with
        | some value => assign "OPTARG".toList value
        | none => modify fun state => state.dropVariable "OPTARG".toList
      assign "OPTIND".toList (digits next.place.1)
      checkName name
      assign name [next.letter]
      modify fun state => { state with optionPlace := next.place }
      return if next.done then 1 else 0
  | _ => refuse "Usage: getopts optstring var [arg...]".toList

end Script

end CommandShell
