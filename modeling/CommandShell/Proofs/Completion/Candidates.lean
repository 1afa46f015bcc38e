import CommandShell.Completion
import CommandShell.Proofs.Command.Words
import CommandShell.Proofs.System.Twins
import CommandShell.Proofs.Text.Order
import Mathlib

/-!
What is offered for the last token of a line. `Offers` says it name by name, for each of the three
sources: variables of the environment, built-ins and entries of a folder. The candidates are
exactly the texts that are offered, strictly upwards in the order of their bytes.
-/
namespace CommandShell

/-! Cuts. -/

section Cuts

variable {α : Type} {test : α → Bool}

/-- The cut is right behind the last item that passes the test, or at the front if none does. -/
structure CutAfterLast (test : α → Bool) (items before rest : List α) : Prop where
  whole : items = before ++ rest
  closed : ∀ item, before.getLast? = some item → test item = true
  solid : ∀ item ∈ rest, test item = false

theorem exists_cut (test : α → Bool) (items : List α) :
    ∃ before rest, CutAfterLast test items before rest := by
  induction items using List.reverseRecOn with
  | nil => exact ⟨[], [], rfl, nofun, nofun⟩
  | append_singleton front last ih =>
      cases cut : test last with
      | true =>
          refine ⟨front ++ [last], [], (List.append_nil _).symm, ?_, nofun⟩
          intro item ends
          rw [List.getLast?_concat] at ends
          exact Option.some.inj ends ▸ cut
      | false =>
          obtain ⟨before, rest, rfl, closed, solid⟩ := ih
          refine ⟨before, rest ++ [last], List.append_assoc .., closed, ?_⟩
          intro item inside
          rcases List.mem_append.mp inside with early | late
          · exact solid item early
          · rw [List.mem_singleton.mp late]
            exact cut

theorem CutAfterLast.eq {items before rest : List α} (cut : CutAfterLast test items before rest) :
    splitAfterLast test items = (before, rest) := by
  obtain ⟨rfl, closed, solid⟩ := cut
  have kept : ∀ item ∈ rest.reverse, (!test item) = true := by
    intro item inside
    rw [solid item (List.mem_reverse.mp inside)]
    rfl
  have stops : before.reverse.takeWhile (fun item => !test item) = [] := by
    rcases before.eq_nil_or_concat with rfl | ⟨front, last, rfl⟩
    · rfl
    · rw [List.concat_eq_append] at closed ⊢
      simp [closed last List.getLast?_concat]
  have taken : (before ++ rest).reverse.takeWhile (fun item => !test item) = rest.reverse := by
    rw [List.reverse_append, List.takeWhile_append_of_pos kept, stops, List.append_nil]
  simp only [splitAfterLast, taken, List.reverse_reverse, List.length_append,
    Nat.add_sub_cancel_right, List.take_left]

theorem splitAfterLast_cut (test : α → Bool) (items : List α) :
    CutAfterLast test items (splitAfterLast test items).1 (splitAfterLast test items).2 := by
  obtain ⟨before, rest, cut⟩ := exists_cut test items
  rw [cut.eq]
  exact cut

theorem CutAfterLast.unique {items before rest front back : List α}
    (cut : CutAfterLast test items before rest) (other : CutAfterLast test items front back) :
    front = before ∧ back = rest :=
  Prod.mk.inj (other.eq.symm.trans cut.eq)

end Cuts

theorem startsWith_iff {α : Type} [BEq α] [LawfulBEq α] {items part : List α} :
    startsWith items part = true ↔ part <+: items := by
  unfold startsWith
  fun_induction afterPart? part items with
  | case1 => simp
  | case2 => simp
  | case3 item part other rest same ih =>
      rw [ih, beq_iff_eq.mp same, List.prefix_cons_inj]
  | case4 item part other rest differ =>
      refine iff_of_false Bool.false_ne_true fun begins => ?_
      exact differ (beq_iff_eq.mpr (List.cons_prefix_cons.mp begins).1)

/-! Names in folders. -/

theorem NameHash.mem_order {name : Name} {names : List Name} :
    name ∈ order names ↔ name ∈ names := by
  simp [order, List.mem_mergeSort]

namespace FileTree

variable {tree : FileTree}

theorem mem_names {folder : Location} {name : Name} :
    name ∈ tree.names folder ↔ folder ++ [name] ∈ tree.locations := by
  rw [names_eq, NameHash.mem_order, List.mem_filterMap]
  constructor
  · rintro ⟨location, listed, named⟩
    rcases location.eq_nil_or_concat with rfl | ⟨front, last, rfl⟩
    · cases named
    · simp only [List.concat_eq_append, List.getLast?_concat, List.dropLast_concat,
        Option.ite_none_right_eq_some, beq_iff_eq, Option.some.injEq] at listed named
      obtain ⟨rfl, rfl⟩ := named
      exact listed
  · intro listed
    exact ⟨folder ++ [name], listed, by simp⟩

theorem mem_textNames {cwd : Location} {path : Path} {name : Text} :
    name ∈ tree.textNames cwd path ↔
      ∃ folder, tree.enter cwd path = .ok folder ∧ folder ++ [encode name] ∈ tree.locations := by
  unfold textNames list
  cases entered : tree.enter cwd path with
  | error failure => simp
  | ok folder =>
      simp only [List.mem_filterMap, decode?_eq_some, exists_eq_right, mem_names,
        Except.ok.injEq, exists_eq_left']

end FileTree

/-! Candidates. -/

namespace CompletionScope

variable {scope : CompletionScope} {line before token : Text}

/-- The path of what lies in a folder. A slash stands between, unless the folder's path ends in
one. -/
def under (folder part : Path) : Path :=
  if folder = [] ∨ folder.getLast? = some 47 then folder ++ part else folder ++ 47 :: part

theorem under_eq (folder part : Path) : under folder part = folder.push part := by
  unfold under Path.push Path.endsWithSlash slash
  simp

/-- The path of the folder that a token names up to its last slash. -/
inductive Resolves (scope : CompletionScope) : Text → Path → Prop
  | here : Resolves scope [] scope.folder
  | absolute (part : Text) : Resolves scope ('/' :: part) (encode ('/' :: part))
  | relative (c : Char) (part : Text) (inside : c ≠ '/') :
      Resolves scope (c :: part) (under scope.folder (encode (c :: part)))

theorem isAbsolute_encode (c : Char) (part : Text) :
    Path.isAbsolute (encode (c :: part)) = (c == '/') := by
  by_cases start : c = '/'
  · subst start
    rfl
  · rw [beq_false_of_ne start]
    apply beq_false_of_ne
    -- The first byte of another character is no slash.
    intro first
    rw [encode, List.flatMap_cons,
      List.head?_append_of_ne_nil _ String.utf8EncodeChar_ne_nil] at first
    exact start ((mem_utf8EncodeChar '/' (by decide) c).mp (List.mem_of_mem_head? first))

theorem resolves_iff {part : Text} {path : Path} :
    scope.Resolves part path ↔ path = scope.folderOf part := by
  constructor
  · intro resolves
    cases resolves with
    | here => rfl
    | absolute part =>
        rw [folderOf, if_neg (by simp), Path.join, isAbsolute_encode, if_pos (by rfl)]
    | relative c part inside =>
        rw [folderOf, if_neg (by simp), Path.join, isAbsolute_encode, if_neg (by simpa), under_eq]
  · rintro rfl
    cases part with
    | nil => exact .here
    | cons c part =>
        rw [folderOf, if_neg (by simp), Path.join, isAbsolute_encode]
        by_cases start : c = '/'
        · subst start
          exact .absolute part
        · rw [if_neg (by simpa), ← under_eq]
          exact .relative c part start

/-- An entry of the folder at the path, for what the token has behind its last slash. -/
structure Lists (scope : CompletionScope) (foldersOnly : Prop) (path : Path) (rest name : Text) :
    Prop where
  known : ∃ folder, scope.tree.enter scope.cwd path = .ok folder ∧
    folder ++ [encode name] ∈ scope.tree.locations
  continues : rest <+: name
  shown : name.head? = some '.' → rest.head? = some '.'
  fits : foldersOnly → scope.tree.isFolder scope.cwd (under path (encode name)) = true

/-- What is offered for a token with this text before it on the line. -/
inductive Offers (scope : CompletionScope) (before token : Text) : Text → Prop
  | fromEnvironment (begun name : Text) (value : Bytes) (sign : token = '$' :: begun)
      (known : (encode name, value) ∈ scope.env) (continues : begun <+: name) :
      Offers scope before token ('$' :: name)
  | fromBuiltins (name : Text) (plain : token.head? ≠ some '$')
      (first : ∀ c ∈ before, isBlank c = true) (known : name ∈ scope.builtins)
      (continues : token <+: name) : Offers scope before token name
  | fromFolder (part rest name : Text) (path : Path) (plain : token.head? ≠ some '$')
      (later : ∃ c ∈ before, isBlank c = false) (cut : CutAfterLast (· == '/') token part rest)
      (resolves : scope.Resolves part path)
      (entry : scope.Lists ((words (before ++ token)).head? = some "cd".toList) path rest name) :
      Offers scope before token (part ++ name)

theorem Offers.begins {candidate : Text} (offered : scope.Offers before token candidate) :
    token <+: candidate := by
  cases offered with
  | fromEnvironment begun name value sign known continues =>
      rw [sign]
      exact (List.prefix_cons_inj '$').mpr continues
  | fromBuiltins name plain first known continues => exact continues
  | fromFolder part rest name path plain later cut resolves entry =>
      rw [cut.whole]
      exact (List.prefix_append_right_inj part).mpr entry.continues

/-! The three sources exclude each other. -/

theorem not_first_later (first : ∀ c ∈ before, isBlank c = true)
    (later : ∃ c ∈ before, isBlank c = false) : False := by
  obtain ⟨c, inside, solid⟩ := later
  rw [first c inside] at solid
  cases solid

theorem offers_sign {begun candidate : Text} :
    scope.Offers before ('$' :: begun) candidate ↔
      ∃ name, (∃ value, (encode name, value) ∈ scope.env) ∧ begun <+: name ∧
        '$' :: name = candidate := by
  constructor
  · intro offered
    cases offered with
    | fromEnvironment other name value same known continues =>
        cases same
        exact ⟨name, ⟨value, known⟩, continues, rfl⟩
    | fromBuiltins name plain => exact absurd rfl plain
    | fromFolder part rest name path plain => exact absurd rfl plain
  · rintro ⟨name, ⟨value, known⟩, continues, rfl⟩
    exact .fromEnvironment begun name value rfl known continues

theorem offers_first (plain : token.head? ≠ some '$') (first : ∀ c ∈ before, isBlank c = true)
    {candidate : Text} :
    scope.Offers before token candidate ↔ candidate ∈ scope.builtins ∧ token <+: candidate := by
  constructor
  · intro offered
    cases offered with
    | fromEnvironment begun name value sign => exact absurd (by rw [sign]; rfl) plain
    | fromBuiltins name _ _ known continues => exact ⟨known, continues⟩
    | fromFolder part rest name path _ later => exact (not_first_later first later).elim
  · rintro ⟨known, continues⟩
    exact .fromBuiltins candidate plain first known continues

theorem offers_later (plain : token.head? ≠ some '$') (later : ∃ c ∈ before, isBlank c = false)
    {part rest : Text} (cut : CutAfterLast (· == '/') token part rest) {candidate : Text} :
    scope.Offers before token candidate ↔
      ∃ name, scope.Lists ((words (before ++ token)).head? = some "cd".toList)
        (scope.folderOf part) rest name ∧ part ++ name = candidate := by
  constructor
  · intro offered
    cases offered with
    | fromEnvironment begun name value sign => exact absurd (by rw [sign]; rfl) plain
    | fromBuiltins name _ first => exact (not_first_later first later).elim
    | fromFolder part rest name path _ _ again resolves entry =>
        obtain ⟨rfl, rfl⟩ := cut.unique again
        exact ⟨name, resolves_iff.mp resolves ▸ entry, rfl⟩
  · rintro ⟨name, entry, rfl⟩
    exact .fromFolder part rest name _ plain later cut (resolves_iff.mpr rfl) entry

/-! The candidates are what is offered. -/

theorem head?_words (closed : ∀ c, before.getLast? = some c → isBlank c = true)
    (later : ∃ c ∈ before, isBlank c = false) (token : Text) :
    (words (before ++ token)).head? = (words before).head? := by
  obtain ⟨c, inside, solid⟩ := later
  rcases before.eq_nil_or_concat with rfl | ⟨front, last, rfl⟩
  · cases inside
  · rw [List.concat_eq_append] at closed inside ⊢
    have blank := closed last List.getLast?_concat
    have filled : words front ≠ [] := by
      intro nothing
      rcases List.mem_append.mp inside with early | late
      · exact absurd (words_eq_nil_iff.mp nothing c early) (by simp [solid])
      · rw [List.mem_singleton.mp late, blank] at solid
        cases solid
    rw [List.append_assoc, List.singleton_append, words_append_blank blank,
      words_append_blank blank, List.head?_append_of_ne_nil _ filled,
      List.head?_append_of_ne_nil _ filled]

theorem offers_iff {token name : Text} :
    offers token name = true ↔ token <+: name ∧ (name.head? = some '.' → token.head? = some '.') := by
  simp only [offers, Bool.and_eq_true, startsWith_iff, Bool.not_eq_true', Bool.and_eq_false_iff,
    beq_eq_false_iff_ne, bne_eq_false_iff_eq]
  rw [← Decidable.imp_iff_not_or]

theorem mem_entries {foldersOnly : Bool} {part rest candidate : Text}
    (cut : CutAfterLast (· == '/') token part rest) :
    candidate ∈ scope.entries foldersOnly token ↔
      ∃ name, scope.Lists (foldersOnly = true) (scope.folderOf part) rest name ∧
        part ++ name = candidate := by
  have fits : ∀ name : Text, (!foldersOnly || scope.tree.isFolder scope.cwd
      ((scope.folderOf part).push (encode name))) = true ↔ (foldersOnly = true →
        scope.tree.isFolder scope.cwd (under (scope.folderOf part) (encode name)) = true) := by
    intro name
    rw [under_eq]
    cases foldersOnly <;> simp
  unfold entries
  simp only [cut.eq, List.mem_map, List.mem_filter, FileTree.mem_textNames, offers_iff, fits]
  constructor
  · rintro ⟨name, ⟨⟨known, continues, shown⟩, fits⟩, rfl⟩
    exact ⟨name, ⟨known, continues, shown, fits⟩, rfl⟩
  · rintro ⟨name, ⟨known, continues, shown, fits⟩, rfl⟩
    exact ⟨name, ⟨⟨known, continues, shown⟩, fits⟩, rfl⟩

theorem candidates_plain (plain : token.head? ≠ some '$') :
    scope.candidates before token =
      if isBlankText before then scope.builtins.filter (startsWith · token)
      else scope.entries ((words before).head? == some "cd".toList) token := by
  unfold candidates
  split
  · exact absurd rfl plain
  · rfl

theorem mem_candidates (cut : CutAfterLast isBlank line before token) {candidate : Text} :
    candidate ∈ scope.candidates before token ↔ scope.Offers before token candidate := by
  by_cases sign : token.head? = some '$'
  · obtain ⟨begun, rfl⟩ := List.head?_eq_some_iff.mp sign
    rw [offers_sign]
    simp [candidates, startsWith_iff, Environment.names, decode?_eq_some, and_assoc]
  · rw [candidates_plain sign]
    by_cases blank : isBlankText before = true
    · rw [if_pos blank, offers_first sign (List.all_eq_true.mp blank), List.mem_filter,
        startsWith_iff]
    · have later : ∃ c ∈ before, isBlank c = false := by
        simpa [isBlankText] using blank
      have slashes := splitAfterLast_cut (· == '/') token
      rw [if_neg blank, offers_later sign later slashes, mem_entries slashes,
        head?_words cut.closed later, beq_iff_eq]

theorem complete_eq (cut : CutAfterLast isBlank line before token) :
    scope.complete line =
      ⟨byteLength before, dropRepeats (sortTexts (scope.candidates before token))⟩ := by
  rw [complete, cut.eq]

theorem mem_complete (cut : CutAfterLast isBlank line before token) {candidate : Text} :
    candidate ∈ (scope.complete line).candidates ↔ scope.Offers before token candidate := by
  rw [complete_eq cut, mem_sorted, mem_candidates cut]

theorem complete_ascending (scope : CompletionScope) (line : Text) :
    (scope.complete line).candidates.Pairwise fun left right => encode left < encode right :=
  sorted_ascending _

/-- Completion finds the last token and offers exactly what is to be offered for it, in order and
without repeats. Whatever is offered goes on from the token. -/
theorem complete_offers (scope : CompletionScope) (line : Text) :
    ∃ before token, CutAfterLast isBlank line before token ∧
      (scope.complete line).start = byteLength before ∧
      ((scope.complete line).candidates.Pairwise fun left right => encode left < encode right) ∧
      (∀ candidate, candidate ∈ (scope.complete line).candidates ↔
        scope.Offers before token candidate) ∧
      ∀ candidate ∈ (scope.complete line).candidates, token <+: candidate := by
  obtain ⟨before, token, cut⟩ := exists_cut isBlank line
  refine ⟨before, token, cut, ?_, scope.complete_ascending line, ?_, ?_⟩
  · rw [complete_eq cut]
  · exact fun candidate => mem_complete cut
  · exact fun candidate listed => ((mem_complete cut).mp listed).begins

end CompletionScope

/-- A tree with a folder `d` that holds a text `x`, a folder `xs` and a hidden folder. -/
def FileTree.nested : FileTree :=
  ⟨[([encode "d".toList], .folder folderMode),
    ([encode "d".toList, encode "x".toList], .file [] newFileMode),
    ([encode "d".toList, encode "xs".toList], .folder folderMode),
    ([encode "d".toList, encode ".xs".toList], .folder folderMode)]⟩

/-- Behind `cd` the folder is offered and the text is not. -/
theorem CompletionScope.folder_in_folder_offered :
    let scope : CompletionScope := ⟨["cd".toList], [], .nested, [], dot⟩
    scope.complete "cd d/x".toList = ⟨3, ["d/xs".toList]⟩ ∧
      scope.Offers "cd ".toList "d/x".toList "d/xs".toList ∧
        ¬ scope.Offers "cd ".toList "d/x".toList "d/x".toList := by
  intro scope
  have completed : scope.complete "cd d/x".toList = ⟨3, ["d/xs".toList]⟩ := by cbv
  obtain ⟨before, token, cut, -, -, offered, -⟩ := scope.complete_offers "cd d/x".toList
  have known : CutAfterLast isBlank "cd d/x".toList "cd ".toList "d/x".toList :=
    splitAfterLast_cut isBlank _
  obtain ⟨rfl, rfl⟩ := known.unique cut
  rw [completed] at offered
  refine ⟨completed, (offered _).mp (List.mem_singleton_self _), fun wrong => ?_⟩
  exact absurd ((offered _).mpr wrong) (by decide)

end CommandShell
