import CommandShell.Proofs.Editor.Keys
import Mathlib

/-!
When candidates are listed. The editor counts the Tabs in a row that have not completed anything.
Any other key sets the count back, and so does a Tab that completes. A Tab inside an escape
sequence leaves the count alone, but the key that has begun the sequence has set it back. So the
count is above zero exactly behind a Tab that was no part of a sequence and completed nothing.
-/
namespace CommandShell

namespace EditorScope

variable (scope : EditorScope) {state : EditorState} {key : UInt8}

/-- The state after some keys. Behind a key that ends the line they go on with an empty buffer. -/
def after (state : EditorState) (keys : Bytes) : EditorState :=
  keys.foldl (fun state key => (scope.feed state key).2.1) state

theorem after_concat (state : EditorState) (keys : Bytes) (key : UInt8) :
    scope.after state (keys ++ [key]) = (scope.feed (scope.after state keys) key).2.1 :=
  List.foldl_append ..

/-! What one key does to the count and writes. -/

theorem redraw_head (buffer : Text) : (scope.redraw buffer).head? = some 13 :=
  rfl

theorem arrow_quiet (state : EditorState) (key : UInt8) :
    (scope.arrow state key).1.tabs = state.tabs ∧
      (scope.arrow state key).2.head? ≠ some 10 := by
  rcases scope.arrow_cases state key with ⟨-, dropped⟩ | ⟨moved, -, browses, arrived⟩
  · rw [dropped]
    exact ⟨rfl, nofun⟩
  · rw [arrived, redraw_head]
    refine ⟨?_, by decide⟩
    cases browses with
    | stays => rfl
    | shows index => rfl
    | leaves => rfl

/-- A key other than Tab sets the count back, and one that begins what it writes with a line end
writes nothing else. -/
theorem feed_other (other : key ≠ keyTab) :
    (scope.feed state key).2.1.tabs = 0 ∧
      ((scope.feed state key).2.2 = [10] ∨ (scope.feed state key).2.2.head? ≠ some 10) := by
  have counted := state.counted_other other
  cases mode : state.key with
  | normal =>
      have pressed := scope.press_pressed (state.counted key) key
      rw [scope.feed_normal mode]
      generalize scope.press (state.counted key) key = result at pressed ⊢
      cases pressed with
      | ended => exact ⟨counted, Or.inl rfl⟩
      | closed => exact ⟨counted, Or.inl rfl⟩
      | escaped => exact ⟨counted, Or.inr nofun⟩
      | erased => exact ⟨counted, Or.inr fun begins => by cases begins⟩
      | tabbed tab => exact absurd tab other
      | typed printable =>
          refine ⟨counted, Or.inr fun begins => ?_⟩
          rw [Option.some.inj begins] at printable
          exact absurd printable (by decide)
      | blank => exact ⟨counted, Or.inr nofun⟩
      | refused => exact ⟨counted, Or.inr nofun⟩
  | sawEscape =>
      rw [scope.feed_sawEscape mode]
      exact ⟨counted, Or.inr nofun⟩
  | sawBracket =>
      rw [scope.feed_sawBracket mode]
      obtain ⟨kept, quiet⟩ := scope.arrow_quiet { state.counted key with key := .normal } key
      exact ⟨kept.trans counted, Or.inr quiet⟩

theorem feed_escaped_tab (inside : state.key ≠ .normal) :
    scope.feed state keyTab = (.more, { state with key := .normal }, []) := by
  cases mode : state.key with
  | normal => exact absurd mode inside
  | sawEscape => exact scope.feed_sawEscape mode keyTab
  | sawBracket => exact scope.feed_sawBracket mode keyTab

theorem tab_tabs (state : EditorState) :
    (scope.tab state).1.tabs =
      if (scope.candidates state).length = 1 then 0 else state.tabs + 1 := by
  split
  · next one =>
      obtain ⟨candidate, single⟩ := List.length_eq_one_iff.mp one
      rw [scope.tab_single single]
  · next several => rw [scope.tab_counts several]

theorem feed_tabs (state : EditorState) (key : UInt8) :
    (scope.feed state key).2.1.tabs =
      if key = keyTab then
        if state.key = .normal then
          if (scope.candidates state).length = 1 then 0 else state.tabs + 1
        else state.tabs
      else 0 := by
  split
  · next tab =>
      subst tab
      split
      · next outside => rw [scope.feed_tab outside, tab_tabs]
      · next inside => rw [scope.feed_escaped_tab inside]
  · next other => exact (scope.feed_other other).1

/-! What the keys before have left of the count. -/

theorem tabs_le (keys : Bytes) : (scope.after .fresh keys).tabs ≤ keys.length := by
  induction keys using List.reverseRecOn with
  | nil => exact Nat.zero_le 0
  | append_singleton earlier last ih =>
      rw [after_concat, feed_tabs, List.length_append, List.length_singleton]
      split
      · split
        · split
          · exact Nat.zero_le _
          · exact Nat.succ_le_succ ih
        · exact Nat.le_succ_of_le ih
      · exact Nat.zero_le _

theorem tabs_escaped (keys : Bytes) (inside : (scope.after .fresh keys).key ≠ .normal) :
    (scope.after .fresh keys).tabs = 0 := by
  rcases keys.eq_nil_or_concat with rfl | ⟨earlier, last, rfl⟩
  · rfl
  · rw [List.concat_eq_append, after_concat] at inside ⊢
    by_cases tab : last = keyTab
    · subst tab
      by_cases outside : (scope.after .fresh earlier).key = .normal
      · rw [scope.feed_tab outside, tab_key] at inside
        exact absurd outside inside
      · rw [scope.feed_escaped_tab outside] at inside
        exact absurd rfl inside
    · exact (scope.feed_other tab).1

/-- The key is a Tab that is no part of an escape sequence. -/
def TabAfter (keys : Bytes) (key : UInt8) : Prop :=
  key = keyTab ∧ (scope.after .fresh keys).key = .normal

theorem tabs_pos_iff (keys : Bytes) :
    0 < (scope.after .fresh keys).tabs ↔
      ∃ earlier last, keys = earlier ++ [last] ∧ scope.TabAfter earlier last ∧
        (scope.candidates (scope.after .fresh earlier)).length ≠ 1 := by
  rcases keys.eq_nil_or_concat with rfl | ⟨earlier, last, rfl⟩
  · refine iff_of_false (Nat.lt_irrefl 0) ?_
    rintro ⟨earlier, last, whole, -⟩
    simp at whole
  · have same : (∃ front final, earlier ++ [last] = front ++ [final] ∧ scope.TabAfter front final ∧
        (scope.candidates (scope.after .fresh front)).length ≠ 1) ↔
        scope.TabAfter earlier last ∧
          (scope.candidates (scope.after .fresh earlier)).length ≠ 1 := by
      constructor
      · rintro ⟨front, final, whole, tab, several⟩
        obtain ⟨rfl, ends⟩ := List.append_inj' whole rfl
        cases ends
        exact ⟨tab, several⟩
      · rintro ⟨tab, several⟩
        exact ⟨earlier, last, rfl, tab, several⟩
    rw [List.concat_eq_append, same, after_concat, feed_tabs, TabAfter]
    by_cases tab : last = keyTab
    · by_cases outside : (scope.after .fresh earlier).key = .normal
      · by_cases one : (scope.candidates (scope.after .fresh earlier)).length = 1
        · simp [outside, one]
        · simp [tab, outside, one]
      · simp [scope.tabs_escaped earlier outside, outside]
    · simp [tab]

/-! When a key writes the candidates. -/

theorem listing_begins (state : EditorState) :
    ∃ more, scope.listing state = 10 :: more ∧ more ≠ [] := by
  refine ⟨encode (joinWith "  ".toList (scope.candidates state)) ++ [10] ++
    encode scope.prompt ++ encode state.buffer, ?_, ?_⟩
  · simp [listing]
  · simp

theorem tab_lists_iff :
    (scope.tab state).2 = scope.listing state ↔
      1 < (scope.candidates state).length ∧ 0 < state.tabs := by
  obtain ⟨more, begins, -⟩ := scope.listing_begins state
  by_cases one : (scope.candidates state).length = 1
  · obtain ⟨candidate, single⟩ := List.length_eq_one_iff.mp one
    rw [scope.tab_single single, begins, one]
    refine iff_of_false (fun listed => ?_) (fun both => absurd both.1 (by decide))
    exact absurd (congrArg List.head? listed) (by simp [redraw_head])
  · rw [scope.tab_counts one]
    simp only [Nat.succ_le_succ_iff, Nat.succ_le_iff]
    split
    · next lists => exact iff_of_true rfl lists
    · next silent =>
        refine iff_of_false (fun listed => ?_) silent
        rw [begins] at listed
        cases listed

theorem feed_lists_iff :
    (scope.feed state key).2.2 = scope.listing state ↔
      (key = keyTab ∧ state.key = .normal) ∧ 1 < (scope.candidates state).length ∧
        0 < state.tabs := by
  obtain ⟨more, begins, longer⟩ := scope.listing_begins state
  by_cases tab : key = keyTab
  · subst tab
    by_cases outside : state.key = .normal
    · rw [scope.feed_tab outside, scope.tab_lists_iff]
      simp [outside]
    · rw [scope.feed_escaped_tab outside, begins]
      exact iff_of_false nofun fun lists => outside lists.1.2
  · refine iff_of_false (fun listed => ?_) fun lists => tab lists.1.1
    rw [begins] at listed
    rcases (scope.feed_other tab).2 with ends | other
    · exact longer (List.tail_eq_of_cons_eq (listed.symm.trans ends))
    · exact other (congrArg List.head? listed)

/-- The candidates are listed by a Tab with several of them if the key before was a Tab too and
completed nothing. Listing leaves the line as it is, and a Tab that neither completes nor lists
writes nothing. The length matters to the count alone, which has to stay in 32 bits. -/
theorem listed_iff (scope : EditorScope) (keys : Bytes) (key : UInt8)
    (short : (keys ++ [key]).length < UInt32.size) :
    let state := scope.after .fresh keys
    let fed := scope.feed state key
    (fed.2.2 = scope.listing state ↔
      scope.TabAfter keys key ∧ 1 < (scope.candidates state).length ∧
        ∃ earlier last, keys = earlier ++ [last] ∧ scope.TabAfter earlier last ∧
          (scope.candidates (scope.after .fresh earlier)).length ≠ 1) ∧
    (fed.2.2 = scope.listing state → fed.2.1.buffer = state.buffer) ∧
    (key = keyTab → ¬ (state.key = .normal ∧ (scope.candidates state).length = 1) →
      fed.2.2 ≠ scope.listing state → fed.2.2 = []) ∧
    fed.2.1.tabs < UInt32.size := by
  intro state fed
  refine ⟨?_, ?_, ?_, ?_⟩
  · rw [scope.feed_lists_iff, scope.tabs_pos_iff]
    rfl
  · intro lists
    obtain ⟨⟨rfl, outside⟩, several, -⟩ := scope.feed_lists_iff.mp lists
    simp only [fed, scope.feed_tab outside, scope.tab_counts (Nat.ne_of_gt several)]
  · rintro rfl incomplete silent
    by_cases outside : state.key = .normal
    · have several : (scope.candidates state).length ≠ 1 := fun one => incomplete ⟨outside, one⟩
      simp only [fed, scope.feed_tab outside, scope.tab_counts several] at silent ⊢
      exact if_neg fun lists => silent (if_pos lists)
    · simp only [fed, scope.feed_escaped_tab outside]
  · have counted := scope.tabs_le (keys ++ [key])
    rw [after_concat] at counted
    exact Nat.lt_of_le_of_lt counted short

/-- Two built-in commands begin with the typed letter. -/
theorem two_tabs_list :
    let scope : EditorScope :=
      ⟨10, "$ ".toList, [], ⟨["cat".toList, "cd".toList], [], FileTree.empty, [], dot⟩⟩
    (scope.feed (scope.after .fresh [99, keyTab]) keyTab).2.2 =
      encode "\ncat  cd\n$ c".toList := by
  intro scope
  have offered : scope.candidates (scope.after .fresh [99, keyTab]) =
      ["cat".toList, "cd".toList] := by cbv
  have before : scope.candidates (scope.after .fresh [99]) =
      ["cat".toList, "cd".toList] := by cbv
  have outside : (scope.after .fresh [99, keyTab]).key = .normal := by cbv
  have lists := (listed_iff scope [99, keyTab] keyTab (by decide)).1.mpr
    ⟨⟨rfl, outside⟩, offered ▸ by decide, [99], keyTab, rfl, ⟨rfl, rfl⟩, before ▸ by decide⟩
  exact lists.trans (by cbv)

end EditorScope

end CommandShell
