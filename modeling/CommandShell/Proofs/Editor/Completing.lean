import CommandShell.Proofs.Completion.Candidates
import CommandShell.Proofs.Editor.Characters
import Mathlib

/-!
Tab and the line. A Tab leaves the line as it is unless there is one candidate, and then only adds
to it. What is offered for a token that has grown towards a candidate was offered before, so a
second Tab has the same one candidate and nothing to add.
-/
namespace CommandShell

theorem head?_of_begins {α : Type} {part whole : List α} {item : α} (begins : part <+: whole)
    (first : part.head? = some item) : whole.head? = some item := by
  rw [← List.singleton_prefix_iff_head?_eq_some] at first ⊢
  exact first.trans begins

theorem clip_append (front back : Text) : clip (byteLength front) (front ++ back) = front := by
  induction front with
  | nil =>
      cases back with
      | nil => rfl
      | cons c rest =>
          have wide := c.utf8Size_pos
          simp only [byteLength, List.nil_append, clip]
          rw [if_neg (by omega)]
  | cons c rest ih =>
      rw [byteLength, List.cons_append, clip, if_pos (Nat.le_add_right _ _), Nat.add_sub_cancel_left,
        ih]

/-- A slash parts names, so there is none in a name. -/
def FileTree.WellNamed (tree : FileTree) : Prop :=
  ∀ location ∈ tree.locations, ∀ name ∈ location, slash ∉ name

instance decidableWellNamed (tree : FileTree) : Decidable tree.WellNamed :=
  inferInstanceAs (Decidable (∀ location ∈ tree.locations, ∀ name ∈ location, slash ∉ name))

namespace CompletionScope

variable {scope : CompletionScope} {before token longer candidate : Text}

theorem Lists.solid {foldersOnly : Prop} {path : Path} {rest name : Text}
    (entry : scope.Lists foldersOnly path rest name) (named : scope.tree.WellNamed) :
    ∀ c ∈ name, (c == '/') = false := by
  intro c inside
  apply beq_false_of_ne
  rintro rfl
  obtain ⟨folder, -, known⟩ := entry.known
  refine named _ known (encode name) (List.mem_append_right folder (List.mem_singleton_self _)) ?_
  exact List.mem_flatMap.mpr ⟨'/', inside, (mem_utf8EncodeChar '/' (by decide) '/').mpr rfl⟩

section Longer

variable (closed : ∀ c, before.getLast? = some c → isBlank c = true)
  (offered : scope.Offers before token candidate) (grown : token <+: longer)
  (within : longer <+: candidate)
include grown

theorem longer_sign {begun : Text} (sign : token = '$' :: begun) :
    ∃ further, longer = '$' :: further ∧ begun <+: further := by
  rw [sign] at grown
  obtain ⟨rest, rfl⟩ := grown
  exact ⟨begun ++ rest, rfl, List.prefix_append begun rest⟩

include offered within

theorem longer_cut (named : scope.tree.WellNamed) (plain : token.head? ≠ some '$')
    (later : ∃ c ∈ before, isBlank c = false) {part rest : Text}
    (cut : CutAfterLast (· == '/') token part rest) :
    ∃ further, CutAfterLast (· == '/') longer part further ∧ rest <+: further ∧
      (further.head? = some '.' → rest.head? = some '.') := by
  obtain ⟨name, entry, rfl⟩ := (offers_later plain later cut).mp offered
  rw [cut.whole] at grown
  obtain ⟨more, rfl⟩ := grown
  rw [List.append_assoc] at within ⊢
  have inside : rest ++ more <+: name := (List.prefix_append_right_inj part).mp within
  refine ⟨rest ++ more, ⟨rfl, cut.closed, ?_⟩, List.prefix_append rest more, ?_⟩
  · exact fun c member => entry.solid named c (inside.subset member)
  · exact fun hidden => entry.shown (head?_of_begins inside hidden)

include closed

theorem offers_longer (named : scope.tree.WellNamed)
    (sign : longer.head? = some '$' → token.head? = some '$') {other : Text} :
    scope.Offers before longer other ↔ scope.Offers before token other ∧ longer <+: other := by
  by_cases dollar : token.head? = some '$'
  · obtain ⟨begun, shape⟩ := List.head?_eq_some_iff.mp dollar
    obtain ⟨further, rfl, begins⟩ := longer_sign grown shape
    rw [shape, offers_sign, offers_sign]
    constructor
    · rintro ⟨name, known, continues, rfl⟩
      exact ⟨⟨name, known, begins.trans continues, rfl⟩, (List.prefix_cons_inj '$').mpr continues⟩
    · rintro ⟨⟨name, known, -, rfl⟩, goesOn⟩
      exact ⟨name, known, (List.prefix_cons_inj '$').mp goesOn, rfl⟩
  have plain : longer.head? ≠ some '$' := mt sign dollar
  by_cases first : ∀ c ∈ before, isBlank c = true
  · rw [offers_first plain first, offers_first dollar first]
    constructor
    · rintro ⟨known, goesOn⟩
      exact ⟨⟨known, grown.trans goesOn⟩, goesOn⟩
    · rintro ⟨⟨known, -⟩, goesOn⟩
      exact ⟨known, goesOn⟩
  · have later : ∃ c ∈ before, isBlank c = false := by simpa using first
    obtain ⟨part, rest, cut⟩ := exists_cut (· == '/') token
    obtain ⟨further, again, begins, shown⟩ := longer_cut offered grown within named dollar later cut
    rw [offers_later plain later again, offers_later dollar later cut, head?_words closed later,
      head?_words closed later, again.whole]
    constructor
    · rintro ⟨name, entry, rfl⟩
      refine ⟨⟨name, ⟨entry.known, begins.trans entry.continues, ?_, entry.fits⟩, rfl⟩, ?_⟩
      · exact fun hidden => shown (entry.shown hidden)
      · exact (List.prefix_append_right_inj part).mpr entry.continues
    · rintro ⟨⟨name, entry, rfl⟩, goesOn⟩
      refine ⟨name, ⟨entry.known, (List.prefix_append_right_inj part).mp goesOn, ?_, entry.fits⟩, rfl⟩
      exact fun hidden => head?_of_begins begins (entry.shown hidden)

end Longer

end CompletionScope

namespace EditorScope

variable (scope : EditorScope) {state : EditorState}

theorem tab_completes {before token candidate : Text}
    (cut : CutAfterLast isBlank state.buffer before token)
    (single : scope.candidates state = [candidate]) :
    scope.tab state =
      ({ state with buffer := clip scope.maxLength (before ++ candidate), tabs := 0 },
        scope.redraw (clip scope.maxLength (before ++ candidate))) := by
  have kept : clip (scope.completion.complete state.buffer).start state.buffer = before := by
    rw [CompletionScope.complete_eq cut, cut.whole]
    exact clip_append before token
  rw [scope.tab_single single, completed, kept]

section Single

variable {scope : EditorScope} {before token candidate : Text}
  (cut : CutAfterLast isBlank state.buffer before token)
  (single : scope.candidates state = [candidate]) (room : byteLength state.buffer ≤ scope.maxLength)
include cut single

theorem offers_single : scope.completion.Offers before token candidate :=
  (CompletionScope.mem_complete cut).mp
    (List.mem_of_mem_head? (congrArg List.head? single))

include room

theorem exists_longer :
    ∃ longer, clip scope.maxLength (before ++ candidate) = before ++ longer ∧
      token <+: longer ∧ longer <+: candidate := by
  have typed : before ++ token <+: before ++ candidate :=
    (List.prefix_append_right_inj before).mpr (offers_single cut single).begins
  have kept := prefix_clip typed (cut.whole ▸ room)
  obtain ⟨longer, whole⟩ := (List.prefix_append before token).trans kept
  have begins := clip_begins scope.maxLength (before ++ candidate)
  rw [← whole] at kept begins
  exact ⟨longer, whole.symm, (List.prefix_append_right_inj before).mp kept,
    (List.prefix_append_right_inj before).mp begins⟩

theorem tab_stays (named : scope.completion.tree.WellNamed)
    (solid : ∀ c ∈ candidate, isBlank c = false)
    (sign : candidate.head? = some '$' → token.head? = some '$') {after : EditorState}
    (held : after.buffer = clip scope.maxLength (before ++ candidate)) :
    (scope.tab after).1.buffer = after.buffer := by
  obtain ⟨longer, whole, grown, within⟩ := exists_longer cut single room
  have again : CutAfterLast isBlank after.buffer before longer :=
    ⟨held.trans whole, cut.closed, fun c inside => solid c (within.subset inside)⟩
  have plain : longer.head? = some '$' → token.head? = some '$' := fun dollar =>
    sign (head?_of_begins within dollar)
  have same : scope.candidates after = [candidate] := by
    apply (eq_singleton_iff (scope.completion.complete_ascending _)).mpr
    intro other
    have known : other ∈ (scope.completion.complete state.buffer).candidates ↔ other = candidate :=
      (eq_singleton_iff (scope.completion.complete_ascending _)).mp single other
    rw [CompletionScope.mem_complete again, CompletionScope.offers_longer cut.closed
      (offers_single cut single) grown within named plain, ← CompletionScope.mem_complete cut, known]
    constructor
    · exact fun both => both.1
    · rintro rfl
      exact ⟨rfl, within⟩
  rw [scope.tab_completes again same]
  exact held.symm

end Single

/-- A Tab changes the line only where there is one candidate, and then what was typed stays and as
much of the candidate is put behind it as fits. If the candidate is a single token of the same
kind, a second Tab adds nothing. -/
theorem tab_keeps_typed (scope : EditorScope) (state : EditorState) (outside : state.key = .normal)
    (room : byteLength state.buffer ≤ scope.maxLength) :
    let after := (scope.feed state keyTab).2.1
    ((scope.candidates state).length ≠ 1 → after.buffer = state.buffer) ∧
      ∀ candidate, scope.candidates state = [candidate] →
        ∃ before token, CutAfterLast isBlank state.buffer before token ∧
          LongestFit scope.maxLength (before ++ candidate) after.buffer ∧
          state.buffer <+: after.buffer ∧
          (scope.completion.tree.WellNamed → (∀ c ∈ candidate, isBlank c = false) →
            (candidate.head? = some '$' → token.head? = some '$') →
            (scope.feed after keyTab).2.1.buffer = after.buffer) := by
  intro after
  obtain ⟨before, token, cut⟩ := exists_cut isBlank state.buffer
  constructor
  · intro several
    simp only [after, scope.feed_tab outside, scope.tab_counts several]
  · intro candidate single
    have made : after =
        { state with buffer := clip scope.maxLength (before ++ candidate), tabs := 0 } := by
      simp only [after, scope.feed_tab outside, scope.tab_completes cut single]
    have held : after.buffer = clip scope.maxLength (before ++ candidate) := by rw [made]
    have normal : after.key = .normal := by
      rw [made]
      exact outside
    obtain ⟨longer, whole, grown, within⟩ := exists_longer cut single room
    refine ⟨before, token, cut, held ▸ clip_longestFit _ _, ?_, ?_⟩
    · rw [held, whole, cut.whole]
      exact (List.prefix_append_right_inj before).mpr grown
    · intro named solid sign
      rw [scope.feed_tab normal]
      exact tab_stays cut single room named solid sign held

/-- There is no room for the whole name of the file. -/
theorem clipped_name_completed :
    let tree : FileTree := ⟨[([encode "report.txt".toList], .file [] newFileMode)]⟩
    let scope : EditorScope := ⟨10, "$ ".toList, [], ⟨["cat".toList], [], tree, [], dot⟩⟩
    let state : EditorState := ⟨"cat re".toList, none, 0, .normal⟩
    let after := (scope.feed state keyTab).2.1
    scope.candidates state = ["report.txt".toList] ∧ after.buffer = "cat report".toList ∧
      state.buffer <+: after.buffer ∧ (scope.feed after keyTab).2.1.buffer = after.buffer := by
  intro tree scope state after
  have single : scope.candidates state = ["report.txt".toList] := by cbv
  have held : (scope.feed state keyTab).2.1.buffer = "cat report".toList := by cbv
  have solid : Only (fun c => isBlank c = false) "report.txt".toList := by decide
  obtain ⟨before, token, cut, -, kept, again⟩ :=
    (tab_keeps_typed scope state rfl (by decide)).2 _ single
  exact ⟨single, held, kept, again (by decide) solid fun sign => absurd sign (by decide)⟩

end EditorScope

end CommandShell
