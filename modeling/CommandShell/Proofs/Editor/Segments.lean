import CommandShell.Proofs.Editor.Browsing
import CommandShell.Proofs.Editor.Characters
import CommandShell.Session.Source

/-!
The editor as a reader of lines. Without escape sequences, Tabs and the key that ends the input
the buffer is a stack of bounded height, and the keys fall into segments at those that end a
line. Each segment gives a line, and so does what follows the last of them if it leaves something.
-/
namespace CommandShell

/-- None of the keys that begin an escape sequence, complete a name or end the input. -/
def isPlainKey (key : UInt8) : Bool :=
  key != keyEscape && key != keyTab && key != keyEndOfInput

def endsLine (key : UInt8) : Bool :=
  key == keyLineFeed || key == keyReturn

/-- A printable key is pushed while there is room, and an erasing key drops what was pushed
last. -/
def pushKey (room : Nat) (held : Text) (key : UInt8) : Text :=
  if isPrintable key then
    if held.length < room then held ++ [Char.ofNat key.toNat] else held
  else if key == keyBackspace || key == keyDelete then held.dropLast
  else held

def pushKeys (room : Nat) (held : Text) (keys : Bytes) : Text :=
  keys.foldl (pushKey room) held

/-- Lines from the texts of segments. The last segment has no key that ends it, and is a line only
if there is something in it. -/
def closeSegments : List Text → List Text
  | [] => []
  | [last] => if last.isEmpty then [] else [last]
  | text :: rest => text :: closeSegments rest

def segmentLines (room : Nat) (keys : Bytes) : List Text :=
  closeSegments ((fields endsLine keys).map (pushKeys room []))

/-- The lines of the keys where something is held already as the first segment begins. -/
def linesFrom (room : Nat) (held : Text) (keys : Bytes) : List Text :=
  match fields endsLine keys with
  | [] => []
  | segment :: others => closeSegments (pushKeys room held segment :: others.map (pushKeys room []))

section Segments

variable (room : Nat) (held : Text) (keys : Bytes)

theorem linesFrom_nothing : linesFrom room [] keys = segmentLines room keys := by
  unfold linesFrom segmentLines
  cases fields endsLine keys with
  | nil => rfl
  | cons segment others => rfl

theorem linesFrom_nil : linesFrom room held [] = if held.isEmpty then [] else [held] :=
  rfl

theorem linesFrom_end {key : UInt8} (ends : endsLine key = true) :
    linesFrom room held (key :: keys) = held :: segmentLines room keys := by
  rw [linesFrom, fields_cons_separator endsLine key keys ends, segmentLines]
  cases whole : fields endsLine keys with
  | nil => exact absurd whole (fields_ne_nil endsLine keys)
  | cons segment others => rfl

theorem linesFrom_push {key : UInt8} (inside : endsLine key = false) :
    linesFrom room held (key :: keys) = linesFrom room (pushKey room held key) keys := by
  rw [linesFrom, linesFrom, fields_cons_inside endsLine inside]
  cases fields endsLine keys with
  | nil => rfl
  | cons segment others => rfl

end Segments

def InputEvent.isPlain : InputEvent → Bool
  | .key byte => isPlainKey byte
  | .retry => true
  | .interrupt | .failure _ | .nothing => false

/-- Plain keys, and reads that have to be repeated. -/
def InputStream.Plain (input : InputStream) : Prop :=
  ∀ event ∈ input.events, event.isPlain = true

instance decidableStreamPlain (input : InputStream) : Decidable input.Plain :=
  inferInstanceAs (Decidable (∀ event ∈ input.events, event.isPlain = true))

namespace EditorScope

/-- Reading line after line gives these lines before it gives none. -/
inductive Yields (scope : EditorScope) : InputStream → List Text → Prop
  | ended (input : InputStream) (last : (scope.readLine input).result = .ok none) :
      Yields scope input []
  | line (input : InputStream) (text : Text) (others : List Text)
      (first : (scope.readLine input).result = .ok (some text))
      (later : Yields scope (scope.readLine input).rest others) :
      Yields scope input (text :: others)

variable {scope : EditorScope} {state : EditorState}

theorem Yields.unique {input : InputStream} {lines others : List Text}
    (yields : scope.Yields input lines) (again : scope.Yields input others) : others = lines := by
  induction yields generalizing others with
  | ended input last =>
      cases again with
      | ended => rfl
      | line _ _ _ first => cases last.symm.trans first
  | line input text rest first _ ih =>
      cases again with
      | ended _ last => cases last.symm.trans first
      | line _ _ _ same later =>
          cases first.symm.trans same
          rw [ih later]

/-- The lines from a read that is under way. -/
def Continues (scope : EditorScope) (read : LineRead) (lines : List Text) : Prop :=
  (read.result = .ok none ∧ lines = []) ∨
    ∃ text others, read.result = .ok (some text) ∧ lines = text :: others ∧
      scope.Yields read.rest others

theorem Continues.yields {input : InputStream} {lines : List Text}
    (continues : scope.Continues (scope.readLine input) lines) : scope.Yields input lines := by
  rcases continues with ⟨last, rfl⟩ | ⟨text, others, first, rfl, later⟩
  · exact .ended input last
  · exact .line input text others first later

/-- Characters of one byte. -/
def Narrow (c : Char) : Prop :=
  c.utf8Size = 1

theorem narrow_typed {key : UInt8} (printable : isPrintable key = true) :
    Narrow (Char.ofNat key.toNat) := by
  have high : (Char.ofNat key.toNat).toNat ≤ 126 := by
    rw [toNat_typed]
    exact (isPrintable_iff.mp printable).2
  exact Char.utf8Size_eq_one_iff.mpr (Nat.le_succ_of_le high)

theorem byteLength_typed {key : UInt8} (printable : isPrintable key = true) (held : Text) :
    byteLength (held ++ [Char.ofNat key.toNat]) = byteLength held + 1 := by
  rw [byteLength_append, byteLength, narrow_typed printable]
  rfl

theorem byteLength_narrow {text : Text} (narrow : Only Narrow text) :
    byteLength text = text.length := by
  induction text with
  | nil => rfl
  | cons c rest ih =>
      have first : c.utf8Size = 1 := narrow c List.mem_cons_self
      have others := ih fun other inside => narrow other (List.mem_cons_of_mem c inside)
      rw [byteLength, first, others, List.length_cons, Nat.add_comm]

theorem pushKey_erasing {key : UInt8} (erases : key = keyDelete ∨ key = keyBackspace)
    (room : Nat) (held : Text) : pushKey room held key = held.dropLast := by
  rcases erases with rfl | rfl
  · rfl
  · rfl

-- A plain key inside a segment does to the buffer what it does to the stack.
theorem feed_plain (outside : state.key = .normal) (narrow : Only Narrow state.buffer)
    {key : UInt8} (plain : isPlainKey key = true) (inside : endsLine key = false) :
    ∃ next screen, scope.feed state key = (.more, next, screen) ∧ next.key = .normal ∧
      next.buffer = pushKey scope.maxLength state.buffer key := by
  simp only [isPlainKey, Bool.and_eq_true, bne_iff_ne] at plain
  obtain ⟨⟨notEscape, notTab⟩, notEnd⟩ := plain
  have room := byteLength_narrow narrow
  have pressed := scope.press_pressed (state.counted key) key
  have normal : (state.counted key).key = .normal := (state.counted_key key).trans outside
  rw [scope.feed_normal outside]
  rw [← state.counted_buffer key] at room ⊢
  generalize scope.press (state.counted key) key = result at pressed ⊢
  generalize state.counted key = current at pressed normal room ⊢
  cases pressed with
  | ended enter => rcases enter with rfl | rfl <;> cases inside
  | closed last => exact absurd last notEnd
  | escaped escape => exact absurd escape notEscape
  | tabbed tab => exact absurd tab notTab
  | erased back => exact ⟨_, _, rfl, normal, (pushKey_erasing back _ _).symm⟩
  | blank back nothing =>
      refine ⟨_, _, rfl, normal, ?_⟩
      rw [pushKey_erasing back, nothing]
      rfl
  | typed printable fits =>
      refine ⟨_, _, rfl, normal, ?_⟩
      rw [pushKey, if_pos printable, if_pos (room ▸ fits)]
  | refused _ forward full =>
      refine ⟨_, _, rfl, normal, ?_⟩
      unfold pushKey
      split
      · next printable => rw [if_neg (Nat.not_lt.mpr (room ▸ full printable))]
      · rw [if_neg (by simpa [or_comm] using forward)]

theorem pushKey_narrow {held : Text} (narrow : Only Narrow held) (room : Nat) (key : UInt8) :
    Only Narrow (pushKey room held key) := by
  unfold pushKey
  split
  · next printable =>
      have byte : Narrow (Char.ofNat key.toNat) := narrow_typed printable
      split
      · exact narrow.append (.single byte)
      · exact narrow
  · split
    · exact narrow.subset (List.dropLast_subset held)
    · exact narrow

theorem Yields.nothing (scope : EditorScope) : scope.Yields ⟨[], false⟩ [] :=
  .ended _ rfl

-- A read that is under way goes on to the lines of the keys to come, with what the buffer holds
-- at the bottom of the stack.
theorem readFrom_continues (events : List InputEvent) {state : EditorState}
    (plain : (⟨events, false⟩ : InputStream).Plain) (outside : state.key = .normal)
    (narrow : Only Narrow state.buffer) :
    scope.Continues (scope.readFrom state false events)
      (linesFrom scope.maxLength state.buffer (InputStream.waiting ⟨events, false⟩)) := by
  -- On the events: the induction takes the keys of this line and of all lines behind it.
  induction events generalizing state with
  | nil =>
      rw [show InputStream.waiting ⟨[], false⟩ = [] from rfl, linesFrom_nil]
      by_cases empty : state.buffer.isEmpty = true
      · rw [if_pos empty]
        refine Or.inl ⟨?_, rfl⟩
        rw [readFrom, finish, if_pos empty]
      · rw [if_neg empty]
        refine Or.inr ⟨state.buffer, [], ?_, rfl, .nothing scope⟩
        rw [readFrom, finish, if_neg empty]
  | cons event rest ih =>
      have others : (⟨rest, false⟩ : InputStream).Plain := fun other inside =>
        plain other (List.mem_cons_of_mem event inside)
      have first := plain event List.mem_cons_self
      cases event with
      | nothing => cases first
      | failure cause => cases first
      | interrupt => cases first
      | retry => exact ih others outside narrow
      | key byte =>
          rw [show InputStream.waiting ⟨.key byte :: rest, false⟩ =
            byte :: InputStream.waiting ⟨rest, false⟩ from rfl]
          cases ends : endsLine byte with
          | true =>
              have enter : byte = keyLineFeed ∨ byte = keyReturn := by
                simpa [endsLine] using ends
              obtain ⟨next, screen, entered⟩ := scope.press_enter enter outside
              have anew := ih others (rfl : EditorState.fresh.key = .normal) .nil
              rw [show EditorState.fresh.buffer = [] from rfl, linesFrom_nothing] at anew
              rw [linesFrom_end _ _ _ ends]
              refine Or.inr ⟨state.buffer, _, ?_, rfl, ?_⟩
              · simp only [readFrom, Bool.false_eq_true, if_false, entered]
              · simp only [readFrom, Bool.false_eq_true, if_false, entered]
                exact Continues.yields anew
          | false =>
              obtain ⟨next, screen, fed, normal, buffer⟩ :=
                scope.feed_plain outside narrow first ends
              have kept : Only Narrow next.buffer := by
                rw [buffer]
                exact pushKey_narrow narrow _ byte
              have later := ih others normal kept
              rw [linesFrom_push _ _ _ ends, ← buffer]
              simp only [readFrom, Bool.false_eq_true, if_false, fed]
              exact later

-- An interrupt that still waits to be noticed changes nothing.
theorem Yields.whatever_waits {input : InputStream} {lines : List Text}
    (yields : scope.Yields input lines) (pending : Bool) :
    scope.Yields { input with interrupted := pending } lines := by
  induction yields generalizing pending with
  | ended input last =>
      have same := (scope.readFrom_fresh pending input.events).trans
        (scope.readFrom_fresh input.interrupted input.events).symm
      exact .ended _ ((congrArg Prod.fst same).trans last)
  | line input text others first _ ih =>
      have same := (scope.readFrom_fresh pending input.events).trans
        (scope.readFrom_fresh input.interrupted input.events).symm
      refine .line _ text others ((congrArg Prod.fst same).trans first) ?_
      have rest := ih (scope.readLine { input with interrupted := pending }).rest.interrupted
      have events : (scope.readLine { input with interrupted := pending }).rest.events =
          (scope.readLine input).rest.events := congrArg Prod.snd same
      rw [← events] at rest
      exact rest

/-- Reading line after line from plain keys gives the lines of their segments, and then the end of
the input. -/
theorem yields_segmentLines (scope : EditorScope) (input : InputStream) (plain : input.Plain)
    (lines : List Text) :
    scope.Yields input lines ↔ lines = segmentLines scope.maxLength input.waiting := by
  have begun := scope.readFrom_continues input.events plain (rfl : EditorState.fresh.key = .normal)
    .nil
  rw [show EditorState.fresh.buffer = [] from rfl, linesFrom_nothing] at begun
  have unasked : scope.Yields ⟨input.events, false⟩ (segmentLines scope.maxLength input.waiting) :=
    Continues.yields begun
  have yields := unasked.whatever_waits input.interrupted
  constructor
  · exact yields.unique
  · rintro rfl
    exact yields

/-- Room for three letters. The fourth is refused, so that erasing takes the third, and what is
typed behind the key that ends the line is a line of its own. -/
theorem refused_letter_not_erased :
    let scope : EditorScope := ⟨3, [], [], ⟨[], [], FileTree.empty, [], dot⟩⟩
    let input : InputStream := ⟨[.key 97, .key 98, .retry, .key 99, .key 100, .key keyDelete,
      .key keyReturn, .key keyReturn, .key 200, .key 101, .retry], true⟩
    scope.Yields input ["ab".toList, [], "e".toList] := by
  intro scope input
  have plain : input.Plain := by decide
  exact (yields_segmentLines scope input plain _).mpr (by decide)

end EditorScope

end CommandShell
