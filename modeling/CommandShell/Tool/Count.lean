import CommandShell.Tool.Options

/-!
Counting lines, words and bytes. The columns are as wide as the largest number can
become, judged by the sizes of the files before anything is read.
-/
namespace CommandShell

namespace Tool

def countForms : OptionForms where
  flags := "clLmw".toList
  valued := ['t']
  long := [("bytes", 'c'), ("chars", 'm'), ("lines", 'l'), ("max-line-length", 'L'),
    ("words", 'w'), ("total", 't')]
  maybeValued := []
  leading := false

structure Tally where
  lines : Nat
  words : Nat
  bytes : Nat
  longest : Nat
  deriving Repr, DecidableEq

def longestLine (longest here : Nat) : Text → Nat
  | [] => max longest here
  | c :: rest =>
      if c == '\n' || c == '\r' || c.toNat = 12 then longestLine (max longest here) 0 rest
      else if c == '\t' then longestLine longest (here / 8 * 8 + 8) rest
      else longestLine longest (if isPrintable c then here + 1 else here) rest

def Tally.of (content : Text) : Tally where
  lines := content.count '\n'
  words := ((fields isSpace content).filter fun word => !word.isEmpty).length
  bytes := content.length
  longest := longestLine 0 0 content

def Tally.zero : Tally :=
  ⟨0, 0, 0, 0⟩

def Tally.add (left right : Tally) : Tally where
  lines := left.lines + right.lines
  words := left.words + right.words
  bytes := left.bytes + right.bytes
  longest := max left.longest right.longest

def Tally.chosen (call : Call) (tally : Tally) : List Nat :=
  let plain := !"clmLw".toList.any call.has
  (if plain || call.has 'l' then [tally.lines] else []) ++
    (if plain || call.has 'w' then [tally.words] else []) ++
    (if call.has 'm' then [tally.bytes] else []) ++
    (if plain || call.has 'c' then [tally.bytes] else []) ++
    (if call.has 'L' then [tally.longest] else [])

inductive InputSize
  | file (size : Nat)
  | other
  | unknown

def streamSize (machine : Machine) : Stream → InputSize
  | .file location _ | .append location =>
      match machine.tree.node? location with
      | some (.file data _) => .file data.length
      | _ => .other
  | .supply unread => .file unread.length
  | .outlet _ | .void | .pipeReader _ | .pipeWriter _ => .other

def inputSize (name : Text) : Action InputSize := fun process machine =>
  let size :=
    if name = ['-'] then
      match process.descriptors.get? standardInput with
      | some handle => streamSize machine (machine.stream handle)
      | none => .unknown
    else
      match machine.tree.open? process.cwd (Latin.toBytes name) with
      | .ok (_, .file data _) => .file data.length
      | .ok _ => .other
      | .error _ => .unknown
  (size, machine)

/-- The width of the columns. A single number of a single input needs none, and an input
that is no file may give numbers of any size. -/
def columnWidth (numbers : Nat) (sizes : List InputSize) : Nat :=
  if numbers = 1 && sizes.length = 1 then 1
  else
    let total := sizes.foldl (fun total size =>
      match size with
      | .file size => total + size
      | _ => total) 0
    let unknown := sizes.any fun size =>
      match size with
      | .other => true
      | _ => false
    max (if unknown then 7 else 1) (digits total).length

def countRow (call : Call) (width : Nat) (tally : Tally) (name : Option Text) : Text :=
  joinWith [' '] ((tally.chosen call).map (fun n => alignRight width (digits n)) ++ name.toList) ++
    ['\n']

/-- Counts operands one after the other. A folder can be opened and counts as empty. -/
def countOperands (call : Call) (width : Nat) (rows : Bool) :
    List Text → Action (Tally × Bool)
  | [] => pure (Tally.zero, false)
  | name :: rest => do
      let shown := if call.operands.isEmpty then none else some (
        if name.contains '\n' then quotedText name else name)
      let subject := if call.operands.isEmpty || name = ['-'] then
        "'standard input'".toList else quotedText name
      let read ← readOperand name
      match read with
      | .error failure => call.complainOf subject failure
      | .ok _ => pure ()
      let tally : Option Tally := match read with
        | .ok content => some (Tally.of content)
        | .error failure => if failure = .isFolder then some Tally.zero else none
      match tally with
      | some tally => if rows then say (countRow call width tally shown)
      | none => pure ()
      let (total, failed) ← countOperands call width rows rest
      return ((tally.getD Tally.zero).add total, failed || !read.toBool)

def totalChoices : Choices :=
  [["auto"], ["always"], ["only"], ["never"]]

def count : Tool :=
  withOptions countForms 1 fun call => do
    match chosen totalChoices "total" ((call.value? 't').getD "auto".toList) with
    | .error complaints => call.misuse 1 complaints
    | .ok totals =>
        let rows := totals != "only"
        let sizes ← call.inputs.mapM inputSize
        let width := if rows then columnWidth (Tally.zero.chosen call).length sizes else 1
        let (total, failed) ← countOperands call width rows call.inputs
        let wanted := match totals with
          | "always" | "only" => true
          | "never" => false
          | _ => decide (1 < call.inputs.length)
        if wanted then
          say (countRow call width total (if rows then some "total".toList else none))
        return exitCode failed 1

end Tool

end CommandShell
