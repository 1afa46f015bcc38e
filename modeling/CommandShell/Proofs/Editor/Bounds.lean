import CommandShell.Proofs.Editor.Completing
import CommandShell.Proofs.Editor.Listing
import CommandShell.Proofs.Editor.OneLine
import CommandShell.Proofs.Editor.Segments
import CommandShell.Proofs.Text.Boundaries

/-!
The length of the line being edited. Typing asks for room first, and what is brought from the
history or completed is clipped, so the buffer never holds more bytes than the line may have. The
cuts that this takes go between characters: the one before a token that is completed, and the one
that clipping looks for.
-/
namespace CommandShell

namespace EditorScope

variable {scope : EditorScope} {state : EditorState}

theorem Browses.fits {moved : EditorState} (browses : scope.Browses state moved)
    (fits : byteLength state.buffer ≤ scope.maxLength) :
    byteLength moved.buffer ≤ scope.maxLength := by
  cases browses with
  | stays => exact fits
  | shows index => exact byteLength_clip _ _
  | leaves => exact Nat.zero_le _

theorem tab_fits (fits : byteLength state.buffer ≤ scope.maxLength) :
    byteLength (scope.tab state).1.buffer ≤ scope.maxLength := by
  by_cases one : (scope.candidates state).length = 1
  · obtain ⟨candidate, single⟩ := List.length_eq_one_iff.mp one
    rw [scope.tab_single single]
    exact byteLength_clip _ _
  · rw [scope.tab_counts one]
    exact fits

theorem press_fits (fits : byteLength state.buffer ≤ scope.maxLength) (key : UInt8) :
    byteLength (scope.press state key).2.1.buffer ≤ scope.maxLength := by
  have pressed := scope.press_pressed state key
  generalize scope.press state key = result at pressed ⊢
  cases pressed with
  | ended => exact Nat.zero_le _
  | erased => exact Nat.le_trans (byteLength_le_of_begins (List.dropLast_prefix _)) fits
  | tabbed => exact tab_fits fits
  | typed printable room =>
      change byteLength (state.buffer ++ [Char.ofNat key.toNat]) ≤ scope.maxLength
      rw [byteLength_typed printable]
      exact room
  | closed | escaped | blank | refused => exact fits

theorem feed_fits (fits : byteLength state.buffer ≤ scope.maxLength) (key : UInt8) :
    byteLength (scope.feed state key).2.1.buffer ≤ scope.maxLength := by
  let kept (held : Text) : Prop := byteLength held ≤ scope.maxLength
  have held : kept state.buffer := fits
  exact scope.feed_keeps held (fun _ begun => press_fits begun key) fun _ _ browses => browses.fits

theorem after_fits (keys : Bytes) :
    byteLength (scope.after .fresh keys).buffer ≤ scope.maxLength := by
  induction keys using List.reverseRecOn with
  | nil => exact Nat.zero_le _
  | append_singleton earlier last ih =>
      rw [after_concat]
      exact feed_fits ih last

theorem cutAt?_token (completion : CompletionScope) (line : Text) :
    let start := (completion.complete line).start
    cutAt? line start = some (clip start line) := by
  intro start
  obtain ⟨before, token, cut⟩ := exists_cut isBlank line
  have offset : start = byteLength before :=
    congrArg Completion.start (CompletionScope.complete_eq cut)
  have kept : clip start line = before := by
    rw [offset, cut.whole]
    exact clip_append before token
  rw [kept, offset]
  exact cutAt?_eq_some.mpr ⟨⟨token, cut.whole.symm⟩, rfl⟩

/-- Whatever keys have been pressed, the buffer fits on the line, and so does every line that is
read. A completion cuts the buffer between characters; and where a text is too long for the line,
looking down from the end of the room comes to a place between characters, and the cut there
leaves the clipped text. -/
theorem line_bounded (scope : EditorScope) :
    (∀ keys, byteLength (scope.after .fresh keys).buffer ≤ scope.maxLength) ∧
      (∀ input line, (scope.readLine input).result = .ok (some line) →
        byteLength line ≤ scope.maxLength) ∧
      (∀ buffer, let start := (scope.completion.complete buffer).start
        cutAt? buffer start = some (clip start buffer)) ∧
      ∀ text, scope.maxLength < byteLength text →
        ∃ stop ≤ scope.maxLength, boundaryBelow? text scope.maxLength = some stop ∧
          cutAt? text stop = some (clip scope.maxLength text) := by
  refine ⟨after_fits, ?_, cutAt?_token scope.completion, ?_⟩
  · intro input line read
    let fits (held : Text) : Prop := byteLength held ≤ scope.maxLength
    have keeps : ∀ state, scope.Reached state → fits state.buffer → ∀ key,
        fits (scope.feed state key).2.1.buffer := fun state _ held key => feed_fits held key
    have nothing : fits [] := Nat.zero_le _
    exact readFrom_keeps nothing keeps input.events reached_fresh nothing input.interrupted read
  · intro text _
    exact ⟨byteLength (clip scope.maxLength text), byteLength_clip _ text,
      boundaryBelow?_eq text scope.maxLength, cutAt?_clip scope.maxLength text⟩

/-- The third character of the entry would end in the sixth byte. -/
theorem wide_entry_cut :
    let scope : EditorScope := ⟨4, "$ ".toList, ["aé€".toList], ⟨[], [], FileTree.empty, [], dot⟩⟩
    let input : InputStream := ⟨(recallKeys 1 keyLineFeed).map .key, false⟩
    (scope.readLine input).result = .ok (some "aé".toList) ∧ byteLength "aé".toList ≤ 4 ∧
      boundaryBelow? "aé€".toList 4 = some 3 ∧ cutAt? "aé€".toList 3 = some "aé".toList := by
  intro scope input
  have read : (scope.readLine input).result = .ok (some "aé".toList) := by cbv
  obtain ⟨-, bounded, -, cut⟩ := line_bounded scope
  obtain ⟨stop, -, found, left⟩ := cut "aé€".toList (by decide)
  have third : boundaryBelow? "aé€".toList 4 = some 3 := by cbv
  cases found.symm.trans third
  exact ⟨read, bounded input _ read, found, left.trans (by cbv)⟩

end EditorScope

end CommandShell
