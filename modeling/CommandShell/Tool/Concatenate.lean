import CommandShell.Tool.Options

/-!
Writing files one after the other, as they are or with lines numbered, squeezed or made
visible.
-/
namespace CommandShell

namespace Tool

def concatenateForms : OptionForms where
  flags := "AbeEnstTuv".toList
  valued := []
  long := [("number-nonblank", 'b'), ("number", 'n'), ("squeeze-blank", 's'),
    ("show-nonprinting", 'v'), ("show-ends", 'E'), ("show-tabs", 'T'), ("show-all", 'A')]
  maybeValued := []
  leading := false

structure LineStyle where
  numbered : Bool
  filledOnly : Bool
  squeezed : Bool
  ends : Bool
  tabs : Bool
  visible : Bool

def LineStyle.ofCall (call : Call) : LineStyle where
  numbered := call.has 'n' || call.has 'b'
  filledOnly := call.has 'b'
  squeezed := call.has 's'
  ends := call.has 'E' || call.has 'A' || call.has 'e'
  tabs := call.has 'T' || call.has 'A' || call.has 't'
  visible := call.has 'v' || call.has 'A' || call.has 'e' || call.has 't'

def showLow (style : LineStyle) (c : Char) : Text :=
  if c == '\t' then (if style.tabs then "^I".toList else ['\t'])
  else if !style.visible then [c]
  else if c.toNat < 32 then ['^', Char.ofNat (c.toNat + 64)]
  else if c.toNat = 127 then "^?".toList
  else [c]

def showChar (style : LineStyle) (c : Char) : Text :=
  if style.visible && 128 ≤ c.toNat then
    let low := Char.ofNat (c.toNat - 128)
    'M' :: '-' :: (if low == '\t' then "^I".toList
      else if low == '\n' then "^J".toList else showLow style low)
  else showLow style c

structure CopyState where
  number : Nat
  inside : Bool
  empties : Nat

def CopyState.start : CopyState :=
  ⟨0, false, 0⟩

def lineNumber (number : Nat) : Text :=
  alignRight 6 (digits number) ++ ['\t']

def shownEnd (style : LineStyle) : Text :=
  if style.ends then "$\n".toList else ['\n']

def copyChar (style : LineStyle) (state : CopyState) (c : Char) : CopyState × Text :=
  if c == '\n' then
    if state.inside then (⟨state.number, false, 0⟩, shownEnd style)
    else if style.squeezed && 0 < state.empties then (state, [])
    else if style.numbered && !style.filledOnly then
      (⟨state.number + 1, false, state.empties + 1⟩,
        lineNumber (state.number + 1) ++ shownEnd style)
    else ({ state with empties := state.empties + 1 }, shownEnd style)
  else if state.inside then (state, showChar style c)
  else if style.numbered then
    (⟨state.number + 1, true, 0⟩, lineNumber (state.number + 1) ++ showChar style c)
  else (⟨state.number, true, 0⟩, showChar style c)

def copyText (style : LineStyle) (state : CopyState) : Text → CopyState × Text
  | [] => (state, [])
  -- A carriage return before a visible end is made visible too.
  | '\r' :: '\n' :: rest =>
      if style.ends && !style.visible then
        let (state, shown) := copyChar { style with visible := true } state '\r'
        let (state, ended) := copyChar style state '\n'
        let (state, others) := copyText style state rest
        (state, shown ++ ended ++ others)
      else
        let (state, shown) := copyChar style state '\r'
        let (state, ended) := copyChar style state '\n'
        let (state, others) := copyText style state rest
        (state, shown ++ ended ++ others)
  | c :: rest =>
      let (state, shown) := copyChar style state c
      let (state, others) := copyText style state rest
      (state, shown ++ others)

/-- Does the standard output write behind the place where an operand is read, in the same
file? Copying would then never come to an end. -/
def feedsItself (name : Text) : Action Bool := fun process machine =>
  let target : Option (Location × Nat) :=
    (process.descriptors.get? standardOutput).bind fun handle =>
      match machine.stream handle with
      | .file location offset => some (location, offset)
      | .append location => some (location, machine.fileLength location)
      | _ => none
  let source : Option (Location × Nat) :=
    if name = ['-'] then
      (process.descriptors.get? standardInput).bind fun handle =>
        match machine.stream handle with
        | .file location offset => some (location, offset)
        | _ => none
    else
      match machine.tree.open? process.cwd (Latin.toBytes name) with
      | .ok (location, .file _ _) => some (location, 0)
      | _ => none
  let feeds := match source, target with
    | some (read, start), some (written, offset) => read == written && start < offset
    | _, _ => false
  (feeds, machine)

def copyOperands (call : Call) (style : LineStyle) (state : CopyState) :
    List Text → Action Bool
  | [] => pure false
  | name :: rest => do
      if ← feedsItself name then
        call.complain (quotedText name ++ ": input file is output file".toList)
        let _ ← copyOperands call style state rest
        return true
      else
        match ← readOperand name with
        | .error failure =>
            call.complainOf (quotedText name) failure
            let _ ← copyOperands call style state rest
            return true
        | .ok content =>
            let (state, shown) := copyText style state content
            say shown
            copyOperands call style state rest

def concatenate : Tool :=
  withOptions concatenateForms 1 fun call => do
    let failed ← copyOperands call (LineStyle.ofCall call) CopyState.start call.inputs
    return exitCode failed 1

end Tool

end CommandShell
