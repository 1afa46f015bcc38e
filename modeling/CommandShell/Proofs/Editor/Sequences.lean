import CommandShell.Proofs.Editor.Screen
import CommandShell.Proofs.Editor.Segments
import CommandShell.Text.Latin

/-!
Control sequences that terminals send for keys. The editor knows two of them, each of three
bytes, and takes three bytes of any other. So one of three bytes is dropped, and of a longer one
what stands behind the third byte is typed like any text.
-/
namespace CommandShell

/-- The three bytes of the key. -/
def downKeys : Bytes := [keyEscape, keyBracket, keyDown]

/-- What stands behind ESC [ up to the byte that ends the sequence. -/
structure ControlSequence where
  parameters : Bytes
  intermediates : Bytes
  final : UInt8
  parameters_range : ∀ byte ∈ parameters, 0x30 ≤ byte ∧ byte ≤ 0x3f
  intermediates_range : ∀ byte ∈ intermediates, 0x20 ≤ byte ∧ byte ≤ 0x2f
  final_range : 0x40 ≤ final ∧ final ≤ 0x7e

namespace ControlSequence

variable (sequence : ControlSequence)

def bytes : Bytes :=
  keyEscape :: keyBracket :: (sequence.parameters ++ sequence.intermediates ++ [sequence.final])

/-- One of the two sequences that browse the history. -/
def IsArrow : Prop :=
  sequence.bytes = upKeys ∨ sequence.bytes = downKeys

instance : Decidable sequence.IsArrow :=
  inferInstanceAs (Decidable (_ ∨ _))

theorem range_of_mem {byte : UInt8}
    (inside : byte ∈ sequence.parameters ++ sequence.intermediates) :
    32 ≤ byte.toNat ∧ byte.toNat < 64 := by
  rcases List.mem_append.mp inside with parameter | intermediate
  · have range := sequence.parameters_range byte parameter
    simp only [UInt8.le_iff_toNat_le] at range
    have low : (0x30 : UInt8).toNat = 48 := rfl
    have high : (0x3f : UInt8).toNat = 63 := rfl
    omega
  · have range := sequence.intermediates_range byte intermediate
    simp only [UInt8.le_iff_toNat_le] at range
    have low : (0x20 : UInt8).toNat = 32 := rfl
    have high : (0x2f : UInt8).toNat = 47 := rfl
    omega

theorem range_of_final : 64 ≤ sequence.final.toNat ∧ sequence.final.toNat ≤ 126 := by
  have range := sequence.final_range
  simp only [UInt8.le_iff_toNat_le] at range
  exact range

theorem exists_bytes_eq (other : ¬ sequence.IsArrow) :
    ∃ third rest, sequence.bytes = keyEscape :: keyBracket :: third :: rest ∧
      third ≠ keyUp ∧ third ≠ keyDown ∧ (∀ byte ∈ rest, isPrintable byte = true) ∧
      (rest = [] ↔ sequence.parameters = [] ∧ sequence.intermediates = []) := by
  have ending := sequence.range_of_final
  cases lead : sequence.parameters ++ sequence.intermediates with
  | nil =>
      have whole : sequence.bytes = [keyEscape, keyBracket, sequence.final] := by
        rw [bytes, lead]
        rfl
      refine ⟨sequence.final, [], whole, ?_, ?_, nofun, ?_⟩
      · intro up
        exact other (Or.inl (by rw [whole, up]; rfl))
      · intro down
        exact other (Or.inr (by rw [whole, down]; rfl))
      · exact iff_of_true rfl (List.append_eq_nil_iff.mp lead)
  | cons third others =>
      have range : ∀ byte ∈ third :: others, 32 ≤ byte.toNat ∧ byte.toNat < 64 := by
        intro byte inside
        exact sequence.range_of_mem (lead ▸ inside)
      have below := (range third List.mem_cons_self).2
      refine ⟨third, others ++ [sequence.final], ?_, ?_, ?_, ?_, ?_⟩
      · rw [bytes, lead]
        rfl
      · rintro rfl
        exact absurd below (by decide)
      · rintro rfl
        exact absurd below (by decide)
      · intro byte inside
        apply isPrintable_iff.mpr
        rcases List.mem_append.mp inside with early | last
        · have inner := range byte (List.mem_cons_of_mem third early)
          omega
        · rw [List.mem_singleton.mp last]
          omega
      · refine iff_of_false (by simp) ?_
        rintro ⟨none, nothing⟩
        rw [none, nothing] at lead
        cases lead

end ControlSequence

namespace EditorScope

variable (scope : EditorScope) {state : EditorState}

theorem feed_printable (outside : state.key = .normal) (counted : state.tabs = 0) {key : UInt8}
    (printable : isPrintable key = true) :
    scope.feed state key =
      if byteLength state.buffer < scope.maxLength then
        (.more, { state with buffer := state.buffer ++ [Char.ofNat key.toNat] }, [key])
      else (.more, state, []) := by
  have apart : ∀ control : UInt8, isPrintable control = false → key ≠ control := by
    rintro control refused rfl
    exact absurd printable (by simp [refused])
  have same : state.counted key = state := by
    rw [EditorState.counted, if_neg (by simpa using apart keyTab rfl), ← counted]
  have pressed := scope.press_pressed state key
  rw [scope.feed_normal outside, same]
  generalize scope.press state key = result at pressed ⊢
  cases pressed with
  | ended enter => exact (enter.elim (apart keyLineFeed rfl) (apart keyReturn rfl)).elim
  | closed last => exact absurd last (apart keyEndOfInput rfl)
  | escaped escape => exact absurd escape (apart keyEscape rfl)
  | erased back => exact (back.elim (apart keyDelete rfl) (apart keyBackspace rfl)).elim
  | blank back => exact (back.elim (apart keyDelete rfl) (apart keyBackspace rfl)).elim
  | tabbed tab => exact absurd tab (apart keyTab rfl)
  | typed _ room => rw [if_pos room]
  | refused _ _ full => rw [if_neg (Nat.not_lt.mpr (full printable))]

theorem typeKeys_printable {keys : Bytes} (printable : ∀ key ∈ keys, isPrintable key = true)
    {state : EditorState} (outside : state.key = .normal) (counted : state.tabs = 0) :
    scope.typeKeys state keys =
        some { state with
          buffer := state.buffer ++
            Latin.ofBytes (keys.take (scope.maxLength - byteLength state.buffer)) } ∧
      scope.echo state keys = keys.take (scope.maxLength - byteLength state.buffer) := by
  induction keys generalizing state with
  | nil => simp [typeKeys, echo, Latin.ofBytes]
  | cons key rest ih =>
      have first := printable key List.mem_cons_self
      have others := fun other inside => printable other (List.mem_cons_of_mem key inside)
      have fed := scope.feed_printable outside counted first
      rw [typeKeys, echo]
      by_cases fits : byteLength state.buffer < scope.maxLength
      · rw [if_pos fits] at fed
        have grown := byteLength_typed first state.buffer
        have room : scope.maxLength - byteLength state.buffer =
            scope.maxLength - (byteLength state.buffer + 1) + 1 := by omega
        have normal : ({ state with buffer := state.buffer ++ [Char.ofNat key.toNat] } :
            EditorState).key = .normal := outside
        obtain ⟨typed, echoed⟩ := ih others normal counted
        simp only [fed, typed, echoed, grown, room, List.take_succ_cons]
        simp [Latin.ofBytes]
      · rw [if_neg fits] at fed
        have full : scope.maxLength - byteLength state.buffer = 0 := by omega
        obtain ⟨typed, echoed⟩ := ih others outside counted
        constructor
        · simp only [fed, typed, full, List.take_zero]
        · simp only [fed, echoed, full, List.take_zero, List.nil_append]

theorem typeKeys_escape (outside : state.key = .normal) {third : UInt8} (notUp : third ≠ keyUp)
    (notDown : third ≠ keyDown) (rest : Bytes) :
    scope.typeKeys state (keyEscape :: keyBracket :: third :: rest) =
        scope.typeKeys { state with tabs := 0 } rest ∧
      scope.echo state (keyEscape :: keyBracket :: third :: rest) =
        scope.echo { state with tabs := 0 } rest := by
  obtain ⟨buffer, browsed, tabs, mode⟩ := state
  cases outside
  have dropped : scope.feed ⟨buffer, browsed, 0, .sawBracket⟩ third =
      (.more, ⟨buffer, browsed, 0, .normal⟩, []) := by
    have settled : (⟨buffer, browsed, 0, .sawBracket⟩ : EditorState).counted third =
        ⟨buffer, browsed, 0, .sawBracket⟩ := ite_self _
    rw [scope.feed_sawBracket rfl, settled]
    rcases scope.arrow_cases ⟨buffer, browsed, 0, .normal⟩ third with ⟨-, dropped⟩ | ⟨_, known, -⟩
    · rw [dropped]
    · exact absurd known (not_or.mpr ⟨notUp, notDown⟩)
  have escaped : scope.feed ⟨buffer, browsed, tabs, .normal⟩ keyEscape =
      (.more, ⟨buffer, browsed, 0, .sawEscape⟩, []) := rfl
  have begun : scope.feed ⟨buffer, browsed, 0, .sawEscape⟩ keyBracket =
      (.more, ⟨buffer, browsed, 0, .sawBracket⟩, []) := rfl
  constructor
  · simp only [typeKeys, escaped, begun, dropped]
  · simp only [echo, escaped, begun, dropped, List.nil_append]

/-- A control sequence that is no arrow key is over in the normal mode, with the place in the
history as it was. What it has behind the third byte is typed as far as there is room, so all of it
is dropped exactly when it has three bytes or the line is full. -/
theorem control_sequence_fed (scope : EditorScope) (state : EditorState)
    (outside : state.key = .normal) (sequence : ControlSequence) (other : ¬ sequence.IsArrow) :
    ∃ after, scope.typeKeys state sequence.bytes = some after ∧
      after.key = .normal ∧ after.browsed = state.browsed ∧
      after.buffer = state.buffer ++ Latin.ofBytes (scope.echo state sequence.bytes) ∧
      scope.echo state sequence.bytes =
        (sequence.bytes.drop 3).take (scope.maxLength - byteLength state.buffer) ∧
      (after.buffer = state.buffer ∧ scope.echo state sequence.bytes = [] ↔
        (sequence.parameters = [] ∧ sequence.intermediates = []) ∨
          scope.maxLength ≤ byteLength state.buffer) := by
  obtain ⟨third, rest, whole, notUp, notDown, printable, short⟩ := sequence.exists_bytes_eq other
  have normal : ({ state with tabs := 0 } : EditorState).key = .normal := outside
  obtain ⟨taken, silent⟩ := scope.typeKeys_escape outside notUp notDown rest
  obtain ⟨typed, echoed⟩ := scope.typeKeys_printable printable normal rfl
  have behind : sequence.bytes.drop 3 = rest := by
    rw [whole]
    rfl
  have written : scope.echo state sequence.bytes =
      rest.take (scope.maxLength - byteLength state.buffer) := by
    rw [whole, silent, echoed]
  have nothing : rest.take (scope.maxLength - byteLength state.buffer) = [] ↔
      (sequence.parameters = [] ∧ sequence.intermediates = []) ∨
        scope.maxLength ≤ byteLength state.buffer := by
    rw [List.take_eq_nil_iff, short, Nat.sub_eq_zero_iff_le, or_comm]
  refine ⟨{ state with
    buffer := state.buffer ++ Latin.ofBytes (scope.echo state sequence.bytes), tabs := 0 },
    ?_, outside, rfl, rfl, ?_, ?_⟩
  · rw [written, whole, taken, typed]
  · rw [behind, written]
  · rw [written, ← nothing]
    refine ⟨fun dropped => dropped.2, fun dropped => ⟨?_, dropped⟩⟩
    rw [dropped]
    exact List.append_nil state.buffer

/-- Ctrl and the right arrow, with room for two more characters. -/
theorem modified_arrow_typed :
    let scope : EditorScope := ⟨4, [], [], ⟨[], [], FileTree.empty, [], dot⟩⟩
    let sequence : ControlSequence := ⟨[49, 59, 53], [], 67, by simp, nofun, by decide⟩
    ∃ after, scope.typeKeys ⟨"ab".toList, some 0, 1, .normal⟩ sequence.bytes = some after ∧
      after.key = .normal ∧ after.browsed = some 0 ∧ after.buffer = "ab;5".toList := by
  intro scope sequence
  obtain ⟨after, typed, normal, browsed, buffer, -, -⟩ :=
    control_sequence_fed scope ⟨"ab".toList, some 0, 1, .normal⟩ rfl sequence (by decide)
  exact ⟨after, typed, normal, browsed, buffer.trans (by decide)⟩

/-- The Delete key is no arrow key, and its last byte is typed. -/
theorem delete_key_types_tilde :
    ∃ (scope : EditorScope) (state : EditorState) (sequence : ControlSequence),
      state.key = .normal ∧ ¬ sequence.IsArrow ∧
      ∃ after, scope.typeKeys state sequence.bytes = some after ∧ after.buffer ≠ state.buffer := by
  refine ⟨⟨10, [], [], ⟨[], [], FileTree.empty, [], dot⟩⟩, .fresh,
    ⟨[51], [], 126, by simp, nofun, by decide⟩, rfl, by decide,
    ⟨"~".toList, none, 0, .normal⟩, by decide, by decide⟩

end EditorScope

end CommandShell
