import CommandShell.Proofs.Editor.Characters
import CommandShell.Proofs.Editor.Terminal

/-!
The line editor and the terminal it draws on. Where everything that can come into the line is
printable ASCII, the terminal shows the prompt with the buffer behind it after every key:
a key that changes the buffer draws the change, and one that draws without changing the
buffer draws the same line again.
-/
namespace CommandShell

def Printable (text : Text) : Prop :=
  ∀ c ∈ text, 32 ≤ c.toNat ∧ c.toNat ≤ 126

instance (text : Text) : Decidable (Printable text) :=
  decidable_of_iff (text.all fun c => 32 ≤ c.toNat ∧ c.toNat ≤ 126) (by simp [Printable])

namespace Printable

theorem nil : Printable [] :=
  Only.nil

theorem append {left right : Text} (first : Printable left) (second : Printable right) :
    Printable (left ++ right) :=
  Only.append first second

theorem subset {part text : Text} (printable : Printable text) (inside : part ⊆ text) :
    Printable part :=
  Only.subset printable inside

theorem bytes {text : Text} (printable : Printable text) :
    ∀ byte ∈ encode text, isPrintable byte = true := by
  intro byte inside
  obtain ⟨c, member, here⟩ := List.mem_flatMap.mp inside
  obtain ⟨low, high⟩ := printable c member
  rw [utf8EncodeChar_ascii (Nat.lt_succ_of_le (Nat.le_succ_of_le high)), List.mem_singleton] at here
  have number : byte.toNat = c.toNat := by
    rw [here, UInt8.toNat_ofNat']
    omega
  simp only [isPrintable, Bool.and_eq_true, decide_eq_true_eq, UInt8.le_iff_toNat_le, number]
  exact ⟨low, high⟩

end Printable

theorem joinWith_printable {separator : Text} (between : Printable separator)
    (texts : List Text) (each : ∀ text ∈ texts, Printable text) :
    Printable (joinWith separator texts) := by
  fun_induction joinWith separator texts with
  | case1 => exact .nil
  | case2 piece => exact each piece List.mem_cons_self
  | case3 piece next rest ih =>
      have others := ih fun text inside => each text (List.mem_cons_of_mem piece inside)
      exact ((each piece List.mem_cons_self).append between).append others

/-- Every name that completion can offer is printable. -/
structure CompletionScope.NamesPrintable (scope : CompletionScope) : Prop where
  builtins : ∀ name ∈ scope.builtins, Printable name
  environment : ∀ name ∈ scope.env.names, Printable name
  entries : ∀ folder, ∀ name ∈ scope.tree.textNames scope.cwd folder, Printable name

theorem CompletionScope.NamesPrintable.only {scope : CompletionScope}
    (names : scope.NamesPrintable) :
    scope.NamesOnly fun c => 32 ≤ c.toNat ∧ c.toNat ≤ 126 :=
  ⟨names.builtins, names.environment, names.entries⟩

namespace EditorScope

/-- Whatever can come into the line is printable. -/
structure AllPrintable (scope : EditorScope) : Prop where
  prompt : Printable scope.prompt
  history : ∀ entry ∈ scope.history, Printable entry
  names : scope.completion.NamesPrintable

/-- What the editor writes on the screen while it takes keys. -/
def echo (scope : EditorScope) (state : EditorState) : Bytes → Bytes
  | [] => []
  | key :: rest =>
      (scope.feed state key).2.2 ++ scope.echo (scope.feed state key).2.1 rest

structure Drawn (scope : EditorScope) (terminal : Terminal) (state : EditorState) : Prop where
  printable : Printable state.buffer
  shows : terminal.Shows (encode scope.prompt ++ encode state.buffer)

variable {scope : EditorScope} {terminal : Terminal} {state : EditorState}

theorem shows_prompt (plain : scope.AllPrintable) {buffer : Text} (printable : Printable buffer)
    (cleared : terminal.Shows []) :
    (terminal.run (encode scope.prompt ++ encode buffer)).Shows
      (encode scope.prompt ++ encode buffer) := by
  have bytes := (plain.prompt.append printable).bytes
  rw [encode_append] at bytes
  have written := cleared.run_printable bytes
  rw [List.nil_append] at written
  exact written

theorem redraw_shows (plain : scope.AllPrintable) {buffer : Text} (printable : Printable buffer)
    (settled : terminal.pending = []) :
    (terminal.run (scope.redraw buffer)).Shows (encode scope.prompt ++ encode buffer) := by
  rw [redraw, List.append_assoc, Terminal.run_append]
  exact shows_prompt plain printable (terminal.run_eraseLine settled)

namespace Drawn

theorem idle (drawn : scope.Drawn terminal state) {next : EditorState}
    (same : next.buffer = state.buffer) : scope.Drawn (terminal.run []) next := by
  constructor
  case printable =>
    rw [same]
    exact drawn.printable
  case shows =>
    rw [same]
    exact drawn.shows

theorem redrawn (plain : scope.AllPrintable) (drawn : scope.Drawn terminal state)
    {next : EditorState} (printable : Printable next.buffer) :
    scope.Drawn (terminal.run (scope.redraw next.buffer)) next :=
  ⟨printable, redraw_shows plain printable drawn.shows.settled⟩

end Drawn

theorem arrow_drawn (plain : scope.AllPrintable) (drawn : scope.Drawn terminal state)
    (key : UInt8) :
    scope.Drawn (terminal.run (scope.arrow state key).2) (scope.arrow state key).1 := by
  rcases scope.arrow_cases state key with ⟨-, dropped⟩ | ⟨moved, -, browses, arrived⟩
  · rw [dropped]
    exact drawn.idle rfl
  · rw [arrived]
    exact drawn.redrawn plain (browses.only plain.history drawn.printable)

theorem listing_shows (plain : scope.AllPrintable) (drawn : scope.Drawn terminal state)
    (offered : ∀ candidate ∈ scope.candidates state, Printable candidate) :
    (terminal.run (scope.listing state)).Shows (encode scope.prompt ++ encode state.buffer) := by
  have between : Printable "  ".toList := by decide
  have listing := joinWith_printable between (scope.candidates state) offered
  have below := terminal.feed_lineFeed drawn.shows.settled
  have listed := below.run_printable listing.bytes
  have fresh := Terminal.feed_lineFeed _ listed.settled
  have shown := shows_prompt plain drawn.printable fresh
  rw [Terminal.run_append] at shown
  simp only [EditorScope.listing, Terminal.run_append]
  exact shown

theorem tab_drawn (plain : scope.AllPrintable) (drawn : scope.Drawn terminal state) :
    scope.Drawn (terminal.run (scope.tab state).2) (scope.tab state).1 := by
  have offered := CompletionScope.complete_only plain.names.only (by decide) drawn.printable
  have printable := tab_only plain.names.only (by decide) drawn.printable
  by_cases one : (scope.candidates state).length = 1
  · obtain ⟨candidate, single⟩ := List.length_eq_one_iff.mp one
    rw [scope.tab_single single] at printable ⊢
    exact drawn.redrawn plain printable
  · rw [scope.tab_counts one]
    split
    · exact ⟨drawn.printable, listing_shows plain drawn offered⟩
    · exact drawn.idle rfl

theorem encode_key {key : UInt8} (printable : isPrintable key = true) :
    Printable [Char.ofNat key.toNat] ∧ encode [Char.ofNat key.toNat] = [key] := by
  obtain ⟨low, high⟩ := isPrintable_iff.mp printable
  have number := toNat_typed key
  constructor
  · intro c inside
    rw [List.mem_singleton.mp inside, number]
    exact ⟨low, high⟩
  · have narrow : (Char.ofNat key.toNat).toNat < 128 := by
      rw [number]
      exact Nat.lt_succ_of_le (Nat.le_succ_of_le high)
    have single := utf8EncodeChar_ascii narrow
    rw [number, UInt8.ofNat_toNat] at single
    simp [encode, single]

theorem typed_drawn (drawn : scope.Drawn terminal state) {key : UInt8}
    (printable : isPrintable key = true) :
    scope.Drawn (terminal.run [key])
      { state with buffer := state.buffer ++ [Char.ofNat key.toNat] } := by
  obtain ⟨single, byte⟩ := encode_key printable
  constructor
  case printable => exact drawn.printable.append single
  case shows =>
    have typed := drawn.shows.feed_printable printable
    rw [List.append_assoc] at typed
    rw [encode_append, byte]
    exact typed

theorem erased_drawn (drawn : scope.Drawn terminal state) (filled : state.buffer ≠ []) :
    scope.Drawn (terminal.run eraseLeft) { state with buffer := state.buffer.dropLast } := by
  have whole := List.dropLast_concat_getLast filled
  obtain ⟨low, high⟩ := drawn.printable _ (List.getLast_mem filled)
  have shows := drawn.shows
  rw [← whole, encode_append, ← List.append_assoc] at shows
  constructor
  case printable => exact drawn.printable.subset (List.dropLast_subset _)
  case shows =>
    have last : encode [state.buffer.getLast filled] =
        [UInt8.ofNat (state.buffer.getLast filled).toNat] := by
      simp [encode, utf8EncodeChar_ascii (Nat.lt_succ_of_le (Nat.le_succ_of_le high))]
    rw [last] at shows
    exact shows.run_eraseLeft

theorem press_drawn (plain : scope.AllPrintable) (drawn : scope.Drawn terminal state)
    {key : UInt8} {next : EditorState} {out : Bytes}
    (more : scope.press state key = (.more, next, out)) :
    scope.Drawn (terminal.run out) next := by
  have pressed := scope.press_pressed state key
  rw [more] at pressed
  cases pressed with
  | escaped => exact drawn.idle rfl
  | erased _ filled => exact erased_drawn drawn filled
  | tabbed => exact tab_drawn plain drawn
  | typed printable => exact typed_drawn drawn printable
  | blank => exact drawn.idle rfl
  | refused => exact drawn.idle rfl

theorem feed_drawn (plain : scope.AllPrintable) (drawn : scope.Drawn terminal state)
    {key : UInt8} {next : EditorState} {out : Bytes}
    (fed : scope.feed state key = (.more, next, out)) : scope.Drawn (terminal.run out) next := by
  have begun : scope.Drawn terminal (state.counted key) := by
    constructor
    · rw [EditorState.counted_buffer]
      exact drawn.printable
    · rw [EditorState.counted_buffer]
      exact drawn.shows
  cases mode : state.key with
  | normal =>
      rw [scope.feed_normal mode] at fed
      exact press_drawn plain begun fed
  | sawEscape =>
      rw [scope.feed_sawEscape mode] at fed
      cases fed
      exact begun.idle rfl
  | sawBracket =>
      rw [scope.feed_sawBracket mode] at fed
      have read : scope.Drawn terminal { state.counted key with key := .normal } :=
        ⟨begun.printable, begun.shows⟩
      have moved := arrow_drawn plain read key
      rw [(Prod.mk.inj fed).2] at moved
      exact moved

theorem typeKeys_drawn (plain : scope.AllPrintable) {keys : Bytes} {typed : EditorState}
    (drawn : scope.Drawn terminal state) (types : scope.typeKeys state keys = some typed) :
    scope.Drawn (terminal.run (scope.echo state keys)) typed := by
  induction keys generalizing state terminal with
  | nil =>
      cases types
      exact drawn
  | cons key rest ih =>
      rw [typeKeys] at types
      split at types
      · next next out fed =>
          have after := ih (feed_drawn plain drawn fed) types
          rw [← Terminal.run_append] at after
          rw [echo, fed]
          exact after
      · cases types

theorem readFrom_screen {keys : Bytes} {typed : EditorState}
    (types : scope.typeKeys state keys = some typed) (events : List InputEvent) :
    (scope.readFrom state false (keys.map .key ++ events)).screen =
      scope.echo state keys ++ (scope.readFrom typed false events).screen := by
  induction keys generalizing state with
  | nil =>
      cases types
      rfl
  | cons key rest ih =>
      rw [typeKeys] at types
      split at types
      · next next out fed =>
          rw [List.map_cons, List.cons_append, readFrom, if_neg Bool.false_ne_true, echo, fed]
          simp only [ih types, List.append_assoc]
      · cases types

/-- After any keys that have not ended the line yet the terminal shows the prompt with the
edited line behind it, and the cursor right behind that. What reading a line writes begins like
this, whatever else comes in. -/
theorem screen_shows_buffer (scope : EditorScope) (plain : scope.AllPrintable) (keys : Bytes)
    (typed : EditorState) (types : scope.typeKeys EditorState.fresh keys = some typed) :
    (Terminal.empty.run (encode scope.prompt ++ scope.echo EditorState.fresh keys)).Shows
        (encode scope.prompt ++ encode typed.buffer) ∧
      ∀ events, (scope.readLine ⟨keys.map .key ++ events, false⟩).screen =
        scope.echo EditorState.fresh keys ++ (scope.readFrom typed false events).screen := by
  refine ⟨?_, readFrom_screen types⟩
  have prompted := Terminal.shows_empty.run_printable plain.prompt.bytes
  have begun : scope.Drawn (Terminal.empty.run (encode scope.prompt)) EditorState.fresh := by
    refine ⟨.nil, ?_⟩
    rw [List.nil_append] at prompted
    rw [EditorState.fresh, show encode [] = [] from rfl, List.append_nil]
    exact prompted
  rw [Terminal.run_append]
  exact (typeKeys_drawn plain begun types).shows

/-- An entry of the history is brought back and shortened, then left again, and a name is
completed in its place. -/
theorem completed_name_shown :
    let completion : CompletionScope :=
      ⟨["cd".toList, "exit".toList], [], FileTree.empty, [], dot⟩
    let scope : EditorScope := ⟨10, "$ ".toList, ["ls -l".toList], completion⟩
    let keys : Bytes := [27, 91, 65, 127, 27, 91, 66, 99, 9]
    ∃ typed, scope.typeKeys EditorState.fresh keys = some typed ∧
      (Terminal.empty.run (encode scope.prompt ++ scope.echo EditorState.fresh keys)).Shows
        (encode "$ cd".toList) := by
  intro completion scope keys
  have plain : scope.AllPrintable := by
    refine ⟨by decide, by decide, by decide, by decide, ?_⟩
    intro folder name listed
    rw [FileTree.textNames_empty] at listed
    cases listed
  have types : scope.typeKeys EditorState.fresh keys =
      some ⟨"cd".toList, none, 0, .normal⟩ := by decide +kernel
  exact ⟨_, types, (screen_shows_buffer scope plain keys _ types).1⟩

end EditorScope

end CommandShell
