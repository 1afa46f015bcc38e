import CommandShell.Editor.State

/-!
A terminal of unlimited width, driven one byte at a time. It knows the bytes that a line
editor needs: a printable byte is written at the cursor, a backspace, a return and a line
feed move the cursor, and one escape sequence erases the line. `Shows` says what a person
in front of it sees.
-/
namespace CommandShell

/-- The line with the cursor, the cursor's column and what has arrived of an escape
sequence. -/
structure Terminal where
  line : Bytes
  column : Nat
  pending : Bytes
  deriving Repr, DecidableEq

namespace Terminal

def blankByte : UInt8 := 32

def blanks (count : Nat) : Bytes :=
  List.replicate count blankByte

def empty : Terminal :=
  ⟨[], 0, []⟩

/-- Writes a byte over what stands at the cursor. Columns between the line and a cursor
behind it are blank. -/
def write (terminal : Terminal) (byte : UInt8) : Terminal :=
  let wide := terminal.line ++ blanks (terminal.column - terminal.line.length)
  { terminal with
    line := wide.take terminal.column ++ byte :: wide.drop (terminal.column + 1)
    column := terminal.column + 1 }

/-- ESC [ 2 K -/
def eraseSequence : Bytes := [27, 91, 50, 75]

/-- A byte outside any escape sequence. -/
def control (terminal : Terminal) (byte : UInt8) : Terminal :=
  if byte = 27 then { terminal with pending := [byte] }
  else if byte = 8 then { terminal with column := terminal.column - 1 }
  else if byte = 13 then { terminal with column := 0 }
  else if byte = 10 then { terminal with line := [], column := 0 }
  else if isPrintable byte then terminal.write byte
  else terminal

/-- A byte of an escape sequence. A sequence that is not the one to erase the line is
dropped. -/
def escaped (terminal : Terminal) (sequence : Bytes) : Terminal :=
  if sequence = eraseSequence then { terminal with line := [], pending := [] }
  else if startsWith eraseSequence sequence then { terminal with pending := sequence }
  else { terminal with pending := [] }

def feed (terminal : Terminal) (byte : UInt8) : Terminal :=
  if terminal.pending.isEmpty then terminal.control byte
  else terminal.escaped (terminal.pending ++ [byte])

def run (terminal : Terminal) (bytes : Bytes) : Terminal :=
  bytes.foldl feed terminal

theorem run_append (terminal : Terminal) (first second : Bytes) :
    terminal.run (first ++ second) = (terminal.run first).run second :=
  List.foldl_append ..

theorem run_cons (terminal : Terminal) (byte : UInt8) (bytes : Bytes) :
    terminal.run (byte :: bytes) = (terminal.feed byte).run bytes := rfl

theorem feed_settled (terminal : Terminal) (settled : terminal.pending = []) (byte : UInt8) :
    terminal.feed byte = terminal.control byte := by
  rw [feed, settled]
  rfl

/-- The line is the text, with nothing but blanks behind it, and the cursor stands right
behind the text. No escape sequence has been begun. -/
structure Shows (terminal : Terminal) (text : Bytes) : Prop where
  settled : terminal.pending = []
  cursor : terminal.column = text.length
  line : ∃ count, terminal.line = text ++ blanks count

theorem shows_empty : empty.Shows [] :=
  ⟨rfl, rfl, 0, rfl⟩

theorem control_printable (terminal : Terminal) {byte : UInt8}
    (printable : isPrintable byte = true) : terminal.control byte = terminal.write byte := by
  have apart : ∀ other : UInt8, isPrintable other = false → byte ≠ other := by
    rintro other refused rfl
    rw [printable] at refused
    cases refused
  rw [control, if_neg (apart 27 rfl), if_neg (apart 8 rfl), if_neg (apart 13 rfl),
    if_neg (apart 10 rfl), if_pos printable]

theorem write_over {terminal : Terminal} {text rest : Bytes}
    (line : terminal.line = text ++ rest) (cursor : terminal.column = text.length)
    (byte : UInt8) :
    terminal.write byte =
      { terminal with line := text ++ byte :: rest.drop 1, column := text.length + 1 } := by
  have reached : text.length - (text ++ rest).length = 0 := by
    rw [List.length_append]
    omega
  have behind : (text ++ rest).drop (text.length + 1) = rest.drop 1 := by
    rw [← List.drop_drop, List.drop_left]
  simp only [write, line, cursor, reached, blanks, List.replicate_zero, List.append_nil,
    List.take_left, behind]

theorem feed_backspace (terminal : Terminal) (settled : terminal.pending = []) :
    terminal.feed 8 = { terminal with column := terminal.column - 1 } :=
  feed_settled terminal settled 8

theorem feed_lineFeed (terminal : Terminal) (settled : terminal.pending = []) :
    (terminal.feed 10).Shows [] := by
  rw [feed_settled terminal settled]
  exact ⟨settled, rfl, 0, rfl⟩

theorem run_eraseLine (terminal : Terminal) (settled : terminal.pending = []) :
    (terminal.run eraseLine).Shows [] := by
  obtain ⟨line, column, pending⟩ := terminal
  cases settled
  -- The return has put the cursor into the first column, and erasing leaves it there.
  exact ⟨rfl, rfl, 0, rfl⟩

namespace Shows

variable {terminal : Terminal} {text : Bytes}

theorem feed_printable (shows : terminal.Shows text) {byte : UInt8}
    (printable : isPrintable byte = true) : (terminal.feed byte).Shows (text ++ [byte]) := by
  obtain ⟨count, line⟩ := shows.line
  rw [feed_settled terminal shows.settled, control_printable terminal printable,
    write_over line shows.cursor]
  constructor
  case settled => exact shows.settled
  case cursor => rw [List.length_append, List.length_singleton]
  case line =>
    refine ⟨count - 1, ?_⟩
    rw [blanks, List.drop_replicate, List.append_assoc]
    rfl

theorem run_printable (shows : terminal.Shows text) {bytes : Bytes}
    (printable : ∀ byte ∈ bytes, isPrintable byte = true) :
    (terminal.run bytes).Shows (text ++ bytes) := by
  induction bytes generalizing terminal text with
  | nil =>
      rw [List.append_nil]
      exact shows
  | cons byte rest ih =>
      have first := shows.feed_printable (printable byte List.mem_cons_self)
      have others := ih first fun other inside => printable other (List.mem_cons_of_mem byte inside)
      rw [List.append_assoc] at others
      exact others

/-- Moving left, writing a blank and moving left again takes the last byte away and leaves
one more blank behind. -/
theorem run_eraseLeft {byte : UInt8} (shows : terminal.Shows (text ++ [byte])) :
    (terminal.run eraseLeft).Shows text := by
  obtain ⟨line, column, pending⟩ := terminal
  obtain ⟨settled, cursor, count, written⟩ := shows
  simp only [List.length_append, List.length_singleton, List.append_assoc,
    List.singleton_append] at settled cursor written
  subst settled cursor written
  have moved : feed ⟨text ++ byte :: blanks count, text.length + 1, []⟩ 8 =
      ⟨text ++ byte :: blanks count, text.length, []⟩ := feed_backspace _ rfl
  have blanked : feed ⟨text ++ byte :: blanks count, text.length, []⟩ blankByte =
      ⟨text ++ blanks (count + 1), text.length + 1, []⟩ := by
    rw [feed_settled _ rfl, control_printable _ rfl, write_over rfl rfl]
    rfl
  have back : feed ⟨text ++ blanks (count + 1), text.length + 1, []⟩ 8 =
      ⟨text ++ blanks (count + 1), text.length, []⟩ := feed_backspace _ rfl
  rw [show eraseLeft = [8, blankByte, 8] from rfl, run_cons, moved, run_cons, blanked, run_cons,
    back]
  exact ⟨rfl, rfl, count + 1, rfl⟩

end Shows

end Terminal

end CommandShell
