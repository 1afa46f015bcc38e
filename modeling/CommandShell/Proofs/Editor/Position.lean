import CommandShell.Proofs.Editor.Browsing
import CommandShell.Proofs.Editor.Keys
import Mathlib.Data.List.Induction

/-!
Browsing as a walk through the history. The editor stands at the entry that it shows or, while it
shows none, behind the newest one. Up goes a step back and Down a step on, neither of them past an
end, and no other key moves the editor. What is typed meanwhile is lost with the next step.
-/
namespace CommandShell

namespace EditorScope

variable {scope : EditorScope} {state : EditorState} {keys : Bytes} {key : UInt8}

def position (scope : EditorScope) (state : EditorState) : Nat :=
  state.browsed.getD scope.history.length

/-- An entry that is shown is one of the history. -/
def Inside (scope : EditorScope) (state : EditorState) : Prop :=
  ∀ index ∈ state.browsed, index < scope.history.length

namespace Inside

theorem position_le (inside : scope.Inside state) :
    scope.position state ≤ scope.history.length := by
  unfold position
  cases browsed : state.browsed with
  | none => exact Nat.le_refl _
  | some index => exact Nat.le_of_lt (inside index browsed)

theorem position_eq_iff (inside : scope.Inside state) :
    scope.position state = scope.history.length ↔ state.browsed = none := by
  unfold position
  cases browsed : state.browsed with
  | none => simp
  | some index =>
      have known := inside index browsed
      simp [Nat.ne_of_lt known]

theorem fresh : scope.Inside .fresh :=
  fun _ shown => absurd shown (Option.not_mem_none _)

theorem browse {index : Nat} (known : index < scope.history.length) :
    scope.Inside (scope.browse state index) := by
  rintro _ ⟨⟩
  exact known

end Inside

theorem browse_shows {index : Nat} (state : EditorState) (known : index < scope.history.length) :
    LongestFit scope.maxLength scope.history[index] (scope.browse state index).buffer := by
  have entry : (scope.browse state index).buffer =
      clip scope.maxLength scope.history[index] := by
    simp only [EditorScope.browse, List.getElem?_eq_getElem known, Option.getD_some]
  rw [entry]
  exact clip_longestFit _ _

/-! One step. -/

theorem up_eq (state : EditorState) :
    scope.up state =
      if scope.history.length = 0 then state
      else scope.browse state (scope.position state - 1) := by
  unfold up position
  by_cases empty : scope.history = []
  · simp [empty]
  · rw [if_neg (by simpa using empty), if_neg (by simpa using empty)]
    cases state.browsed <;> rfl

theorem down_eq (inside : scope.Inside state) :
    scope.down state =
      if scope.position state + 1 < scope.history.length then
        scope.browse state (scope.position state + 1)
      else if scope.position state = scope.history.length then state
      else { state with browsed := none, buffer := [] } := by
  have ended := inside.position_eq_iff
  unfold down position at *
  cases browsed : state.browsed with
  | none =>
      have noneNewer : ¬ scope.history.length + 1 < scope.history.length := by omega
      simp [noneNewer]
  | some index =>
      rw [browsed] at ended
      simp only [ended, reduceCtorEq, if_false]
      rfl

theorem up_position (inside : scope.Inside state) :
    scope.position (scope.up state) = scope.position state - 1 ∧ scope.Inside (scope.up state) := by
  have bound := inside.position_le
  rw [up_eq]
  split
  · next empty => exact ⟨by omega, inside⟩
  · next filled => exact ⟨rfl, .browse (by omega)⟩

theorem down_position (inside : scope.Inside state) :
    scope.position (scope.down state) = min (scope.position state + 1) scope.history.length ∧
      scope.Inside (scope.down state) := by
  have bound := inside.position_le
  rw [down_eq inside]
  split
  · next further =>
      have stepped : scope.position (scope.browse state (scope.position state + 1)) =
          scope.position state + 1 := rfl
      exact ⟨by omega, .browse further⟩
  split
  · next ended => exact ⟨by omega, inside⟩
  · next last =>
      have left : scope.position { state with browsed := none, buffer := [] } =
          scope.history.length := rfl
      exact ⟨by omega, fun _ shown => absurd shown (Option.not_mem_none _)⟩

theorem up_shows
    (known : scope.position (scope.up state) < scope.history.length) :
    LongestFit scope.maxLength scope.history[scope.position (scope.up state)]
      (scope.up state).buffer := by
  have stepped : scope.up state = scope.browse state (scope.position state - 1) := by
    rw [up_eq, if_neg (by omega)]
  revert known
  rw [stepped]
  exact browse_shows state

theorem down_shows (inside : scope.Inside state)
    (known : scope.position (scope.down state) < scope.history.length) :
    LongestFit scope.maxLength scope.history[scope.position (scope.down state)]
      (scope.down state).buffer := by
  have walked := (down_position inside).1
  have stepped : scope.down state = scope.browse state (scope.position state + 1) := by
    rw [down_eq inside, if_pos (by omega)]
  revert known
  rw [stepped]
  exact browse_shows state

theorem down_buffer (inside : scope.Inside state)
    (ended : scope.position (scope.down state) = scope.history.length) :
    (scope.down state).buffer =
      if scope.position state = scope.history.length then state.buffer else [] := by
  have walked := (down_position inside).1
  rw [down_eq inside, if_neg (by omega)]
  split <;> rfl

/-! One key. -/

theorem feed_up (within : state.key = .sawBracket) :
    (scope.feed state keyUp).2.1 = scope.up { state with tabs := 0, key := .normal } := by
  rw [scope.feed_sawBracket within]
  rfl

theorem feed_down (within : state.key = .sawBracket) :
    (scope.feed state keyDown).2.1 = scope.down { state with tabs := 0, key := .normal } := by
  rw [scope.feed_sawBracket within]
  rfl

theorem tab_browsed (state : EditorState) : (scope.tab state).1.browsed = state.browsed := by
  by_cases one : (scope.candidates state).length = 1
  · obtain ⟨candidate, single⟩ := List.length_eq_one_iff.mp one
    rw [scope.tab_single single]
  · rw [scope.tab_counts one]

theorem press_browsed (state : EditorState) (key : UInt8) :
    (scope.press state key).2.1.browsed = state.browsed := by
  have pressed := scope.press_pressed state key
  generalize scope.press state key = result at pressed ⊢
  cases pressed with
  | tabbed => exact tab_browsed state
  | ended | closed | escaped | erased | typed | blank | refused => rfl

theorem counted_browsed (state : EditorState) (key : UInt8) :
    (state.counted key).browsed = state.browsed := by
  unfold EditorState.counted
  split <;> rfl

theorem feed_browsed (other : ¬ (state.key = .sawBracket ∧ (key = keyUp ∨ key = keyDown))) :
    (scope.feed state key).2.1.browsed = state.browsed := by
  cases mode : state.key with
  | normal => rw [scope.feed_normal mode, press_browsed, counted_browsed]
  | sawEscape =>
      rw [scope.feed_sawEscape mode]
      exact counted_browsed state key
  | sawBracket =>
      rw [scope.feed_sawBracket mode]
      rcases scope.arrow_cases { state.counted key with key := .normal } key with
        ⟨-, dropped⟩ | ⟨moved, arrow, -, -⟩
      · rw [dropped]
        exact counted_browsed state key
      · exact absurd ⟨mode, arrow⟩ other

theorem Inside.feed (inside : scope.Inside state) (key : UInt8) :
    scope.Inside (scope.feed state key).2.1 := by
  have ready : scope.Inside { state with tabs := 0, key := .normal } := inside
  by_cases arrow : state.key = .sawBracket ∧ (key = keyUp ∨ key = keyDown)
  · rcases arrow with ⟨within, rfl | rfl⟩
    · rw [feed_up within]
      exact (up_position ready).2
    · rw [feed_down within]
      exact (down_position ready).2
  · unfold Inside
    rw [feed_browsed arrow]
    exact inside

/-! Sequences of keys. -/

theorem typeKeys_concat {first : EditorState} :
    scope.typeKeys first (keys ++ [key]) = some state ↔
      ∃ before screen, scope.typeKeys first keys = some before ∧
        scope.feed before key = (.more, state, screen) := by
  rw [typeKeys_append, Option.bind_eq_some_iff]
  refine exists_congr fun before => ?_
  simp only [typeKeys]
  obtain ⟨step, next, screen⟩ := scope.feed before key
  cases step <;> simp

theorem press_key (state : EditorState) (other : key ≠ keyEscape) :
    (scope.press state key).2.1.key = state.key := by
  have pressed := scope.press_pressed state key
  generalize scope.press state key = result at pressed ⊢
  cases pressed with
  | escaped escape => exact absurd escape other
  | tabbed => exact scope.tab_key state
  | ended | closed | erased | typed | blank | refused => rfl

theorem feed_key (state : EditorState) (key : UInt8) :
    (scope.feed state key).2.1.key =
      match state.key with
      | .normal => if key = keyEscape then .sawEscape else .normal
      | .sawEscape => if key = keyBracket then .sawBracket else .normal
      | .sawBracket => .normal := by
  cases mode : state.key with
  | normal =>
      rw [scope.feed_normal mode]
      by_cases escape : key = keyEscape
      · rw [escape]
        rfl
      · rw [press_key _ escape, EditorState.counted_key, mode]
        exact (if_neg escape).symm
  | sawEscape =>
      rw [scope.feed_sawEscape mode]
      simp only [beq_iff_eq]
  | sawBracket =>
      rw [scope.feed_sawBracket mode]
      rcases scope.arrow_cases { state.counted key with key := .normal } key with
        ⟨-, dropped⟩ | ⟨moved, -, browses, arrived⟩
      · rw [dropped]
      · rw [arrived]
        cases browses with
        | stays | shows | leaves => rfl

theorem Inside.typed (typed : scope.typeKeys .fresh keys = some state) : scope.Inside state := by
  induction keys using List.reverseRecOn generalizing state with
  | nil =>
      cases typed
      exact .fresh
  | append_singleton earlier last ih =>
      obtain ⟨before, screen, began, fed⟩ := typeKeys_concat.mp typed
      have kept := (ih began).feed last
      rw [fed] at kept
      exact kept

/-- Outside any other escape sequence one has been begun, and of it these keys have been read. -/
def Begun (scope : EditorScope) (keys opening : Bytes) : Prop :=
  ∃ earlier before, keys = earlier ++ opening ∧ scope.typeKeys .fresh earlier = some before ∧
    before.key = .normal

theorem begun_concat {opening : Bytes} {last : UInt8} :
    scope.Begun (keys ++ [last]) (opening ++ [key]) ↔ last = key ∧ scope.Begun keys opening := by
  constructor
  · rintro ⟨earlier, before, whole, types, outside⟩
    rw [← List.append_assoc] at whole
    obtain ⟨front, ends⟩ := List.append_inj' whole rfl
    exact ⟨List.singleton_inj.mp ends, earlier, before, front, types, outside⟩
  · rintro ⟨rfl, earlier, before, rfl, types, outside⟩
    exact ⟨earlier, before, List.append_assoc .., types, outside⟩

theorem begun_nil (typed : scope.typeKeys .fresh keys = some state) :
    scope.Begun keys [] ↔ state.key = .normal := by
  constructor
  · rintro ⟨earlier, before, whole, types, outside⟩
    rw [List.append_nil] at whole
    rw [whole, types] at typed
    cases typed
    exact outside
  · intro outside
    exact ⟨keys, state, (List.append_nil keys).symm, typed, outside⟩

theorem key_fresh (opening : Bytes) : ¬ scope.Begun [] (opening ++ [key]) := by
  rintro ⟨earlier, before, whole, -⟩
  simp at whole

theorem key_eq_sawEscape (typed : scope.typeKeys .fresh keys = some state) :
    state.key = .sawEscape ↔ scope.Begun keys [keyEscape] := by
  rcases keys.eq_nil_or_concat with rfl | ⟨earlier, last, rfl⟩
  · cases typed
    exact iff_of_false nofun (key_fresh [])
  · rw [List.concat_eq_append] at typed ⊢
    obtain ⟨before, screen, began, fed⟩ := typeKeys_concat.mp typed
    have next := scope.feed_key before last
    rw [fed] at next
    rw [← List.nil_append [keyEscape], begun_concat, begun_nil began, next]
    cases before.key with
    | normal => simp
    | sawEscape =>
        simp only [reduceCtorEq, and_false, iff_false]
        split <;> exact nofun
    | sawBracket => simp

theorem key_eq_sawBracket (typed : scope.typeKeys .fresh keys = some state) :
    state.key = .sawBracket ↔ scope.Begun keys [keyEscape, keyBracket] := by
  rcases keys.eq_nil_or_concat with rfl | ⟨earlier, last, rfl⟩
  · cases typed
    exact iff_of_false nofun (key_fresh [keyEscape])
  · rw [List.concat_eq_append] at typed ⊢
    obtain ⟨before, screen, began, fed⟩ := typeKeys_concat.mp typed
    have next := scope.feed_key before last
    rw [fed] at next
    have openBracket : [keyEscape, keyBracket] = [keyEscape] ++ [keyBracket] := rfl
    rw [openBracket, begun_concat, ← key_eq_sawEscape began, next]
    cases before.key with
    | normal =>
        simp only [reduceCtorEq, and_false, iff_false]
        split <;> exact nofun
    | sawEscape => simp
    | sawBracket => simp

/-- The key is the last one of an escape sequence of three keys that ends in `arrow`. -/
def Completes (scope : EditorScope) (keys : Bytes) (arrow key : UInt8) : Prop :=
  key = arrow ∧ scope.Begun keys [keyEscape, keyBracket]

/-- Wherever keys have led, the editor stands at an entry of the history or behind the newest. Up
goes a step back and Down a step on, as far as there are entries, and what the editor comes to is
shown, cut to the room there is. Any other key leaves the editor where it stands. -/
theorem history_walked (scope : EditorScope) {keys : Bytes} {state : EditorState}
    (typed : scope.typeKeys .fresh keys = some state) (key : UInt8) :
    let count := scope.history.length
    let next := (scope.feed state key).2.1
    scope.position state ≤ count ∧
      (scope.position state = count ↔ state.browsed = none) ∧
      (¬ scope.Completes keys keyUp key → ¬ scope.Completes keys keyDown key →
        scope.position next = scope.position state) ∧
      (scope.Completes keys keyUp key →
        scope.position next = scope.position state - 1 ∧
        (∀ known : scope.position next < count,
          LongestFit scope.maxLength scope.history[scope.position next] next.buffer) ∧
        (count = 0 → next.buffer = state.buffer)) ∧
      (scope.Completes keys keyDown key →
        scope.position next = min (scope.position state + 1) count ∧
        (∀ known : scope.position next < count,
          LongestFit scope.maxLength scope.history[scope.position next] next.buffer) ∧
        (scope.position next = count →
          next.buffer = if scope.position state = count then state.buffer else [])) := by
  intro count next
  have inside := Inside.typed typed
  have within := key_eq_sawBracket typed
  let ready := { state with tabs := 0, key := .normal }
  have stands : scope.Inside ready := inside
  refine ⟨inside.position_le, inside.position_eq_iff, ?_, ?_, ?_⟩
  · intro notUp notDown
    have other : ¬ (state.key = .sawBracket ∧ (key = keyUp ∨ key = keyDown)) := by
      rintro ⟨bracket, rfl | rfl⟩
      · exact notUp ⟨rfl, within.mp bracket⟩
      · exact notDown ⟨rfl, within.mp bracket⟩
    exact congrArg (·.getD count) (feed_browsed other)
  · rintro ⟨rfl, begun⟩
    have moved : next = scope.up ready := feed_up (within.mpr begun)
    rw [moved]
    refine ⟨(up_position stands).1, up_shows, fun empty => ?_⟩
    rw [up_eq, if_pos empty]
  · rintro ⟨rfl, begun⟩
    have moved : next = scope.down ready := feed_down (within.mpr begun)
    rw [moved]
    exact ⟨(down_position stands).1, down_shows stands, down_buffer stands⟩

/-- Up from the newest of two entries, the older of which is too long for the line. -/
theorem older_entry_shown :
    let scope : EditorScope :=
      ⟨4, "$ ".toList, ["grün".toList, "ls".toList], ⟨[], [], FileTree.empty, [], dot⟩⟩
    let keys := upKeys ++ [keyEscape, keyBracket]
    ∃ state, scope.typeKeys .fresh keys = some state ∧ state.buffer = "ls".toList ∧
      scope.position state = 1 ∧ scope.position (scope.feed state keyUp).2.1 = 0 ∧
      LongestFit 4 "grün".toList (scope.feed state keyUp).2.1.buffer := by
  intro scope keys
  have typed : scope.typeKeys .fresh keys = some ⟨"ls".toList, some 1, 0, .sawBracket⟩ := by rfl
  have completes : scope.Completes keys keyUp keyUp :=
    ⟨rfl, upKeys, ⟨"ls".toList, some 1, 0, .normal⟩, rfl, by rfl, rfl⟩
  obtain ⟨walked, shown, -⟩ := (history_walked scope typed keyUp).2.2.2.1 completes
  refine ⟨_, typed, rfl, rfl, walked, ?_⟩
  exact shown (by rw [walked]; decide)

end EditorScope

end CommandShell
