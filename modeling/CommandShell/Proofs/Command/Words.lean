import CommandShell.Proofs.Command.Structure
import CommandShell.Proofs.Text.Lines

/-!
The words of a line, from its ends. A blank cuts a line into the words before it and the words
behind it, and the last word ends as the line does. The names that a wildcard word
is replaced by end like the word, if it ends in an ordinary character.
-/
namespace CommandShell

theorem words_append_blank {c : Char} (blank : isBlank c = true) (left right : Text) :
    words (left ++ c :: right) = words left ++ words right := by
  unfold words
  rw [fields_append_separator blank, List.filter_append]

theorem words_eq_nil_iff {text : Text} : words text = [] ↔ ∀ c ∈ text, isBlank c = true := by
  induction text with
  | nil => simp [words, fields]
  | cons c rest ih =>
      cases blank : isBlank c with
      | true =>
          have cut := words_append_blank blank [] rest
          rw [List.nil_append, show words [] = [] from rfl, List.nil_append] at cut
          simp [cut, ih, blank]
      | false =>
          obtain ⟨piece, pieces, whole⟩ :=
            List.exists_cons_of_ne_nil (fields_ne_nil isBlank rest)
          simp [words, fields_cons_inside isBlank blank, whole, blank]

theorem fields_append_last {α : Type} {separates : α → Bool} {item : α}
    (kept : separates item = false) (items : List α) :
    ∃ pieces last, fields separates (items ++ [item]) = pieces ++ [last ++ [item]] := by
  induction items with
  | nil => exact ⟨[], [], by simp [fields, kept]⟩
  | cons first rest ih =>
      obtain ⟨pieces, last, tail⟩ := ih
      rw [List.cons_append]
      unfold fields
      rw [tail]
      split
      · exact ⟨[] :: pieces, last, rfl⟩
      · cases pieces with
        | nil => exact ⟨[], first :: last, rfl⟩
        | cons piece pieces => exact ⟨(first :: piece) :: pieces, last, rfl⟩

theorem words_append_last {c : Char} (solid : isBlank c = false) (text : Text) :
    ∃ others last, words (text ++ [c]) = others ++ [last ++ [c]] := by
  obtain ⟨pieces, last, whole⟩ := fields_append_last solid text
  refine ⟨pieces.filter fun piece => !piece.isEmpty, last, ?_⟩
  simp [words, whole]

/-! Patterns, from the right. -/

theorem extendRun_matched {wholePaths afterSlash : Bool} {tryRest : Bool → Text → Attempt}
    {text : Text} (matched : extendRun wholePaths tryRest afterSlash text = .matched) :
    ∃ slash rest, rest <:+ text ∧ tryRest slash rest = .matched := by
  fun_induction extendRun wholePaths tryRest afterSlash text with
  | case1 => exact ⟨_, [], List.suffix_refl _, matched⟩
  | case2 | case6 => cases matched
  | case4 _ c rest | case8 _ c rest => exact ⟨_, rest, List.suffix_cons c rest, matched⟩
  | case3 _ c rest _ _ _ _ ih | case5 _ c rest _ _ _ ih | case7 _ c rest _ _ _ _ ih =>
      obtain ⟨slash, suffix, inside, hit⟩ := ih matched
      exact ⟨slash, suffix, inside.trans (List.suffix_cons c rest), hit⟩

theorem getLast?_cons_cases {α : Type} {first item : α} {rest : List α}
    (last : (first :: rest).getLast? = some item) :
    rest = [] ∧ first = item ∨ rest.getLast? = some item := by
  cases rest with
  | nil => exact Or.inl ⟨rfl, Option.some.inj last⟩
  | cons next rest => exact Or.inr last

theorem getLast?_of_ne {α : Type} {first item : α} {rest : List α}
    (last : (first :: rest).getLast? = some item) (other : first ≠ item) :
    rest.getLast? = some item :=
  (getLast?_cons_cases last).resolve_left fun both => other both.2

theorem getLast?_of_suffix {α : Type} {item : α} {suffix items : List α} (behind : suffix <:+ items)
    (last : suffix.getLast? = some item) : items.getLast? = some item := by
  obtain ⟨front, rfl⟩ := behind
  rw [List.getLast?_append, last]
  rfl

theorem run_last {wholePaths afterSlash : Bool} {tryRest : Bool → Text → Attempt} {text : Text}
    {c : Char} (ends : ∀ slash rest, tryRest slash rest = .matched → rest.getLast? = some c)
    (matched : (match tryRest afterSlash text with
      | .mismatch => extendRun wholePaths tryRest afterSlash text
      | answer => answer) = .matched) : text.getLast? = some c := by
  split at matched
  · obtain ⟨slash, suffix, behind, hit⟩ := extendRun_matched matched
    exact getLast?_of_suffix behind (ends slash suffix hit)
  · exact ends afterSlash text matched

theorem attempt_last {pattern : Pattern} {c : Char} (last : pattern.getLast? = some (.literal c))
    {afterSlash : Bool} {text : Text} (matched : pattern.attempt afterSlash text = .matched) :
    text.getLast? = some c := by
  induction pattern generalizing afterSlash text with
  | nil => cases last
  | cons step rest ih =>
      -- A step that is no run takes one character, and the last step takes the last.
      have single : ∀ {d : Char} {others : Text},
          (if step.admits afterSlash d then Pattern.attempt rest (d == '/') others else .mismatch) =
            .matched → (d :: others).getLast? = some c := by
        intro d others taken
        split at taken
        · next admitted =>
            rcases getLast?_cons_cases last with ⟨rfl, rfl⟩ | later
            · cases others with
              | nil => exact congrArg some (beq_iff_eq.mp admitted)
              | cons => cases taken
            · exact getLast?_of_suffix (List.suffix_cons d others) (ih later taken)
        · cases taken
      -- A run is followed by the last step.
      have run : ∀ {wholePaths : Bool}, step ≠ .literal c →
          (match Pattern.attempt rest afterSlash text with
            | .mismatch => extendRun wholePaths (Pattern.attempt rest) afterSlash text
            | answer => answer) = .matched → text.getLast? = some c := by
        intro wholePaths other taken
        have later := getLast?_of_ne last other
        have ends : ∀ slash suffix, Pattern.attempt rest slash suffix = .matched →
            suffix.getLast? = some c := fun _ _ hit => ih later hit
        exact run_last ends taken
      unfold Pattern.attempt at matched
      split at matched
      · contradiction
      · contradiction
      · next same =>
          cases same
          exact run nofun matched
      · next same =>
          cases same
          exact run nofun matched
      · cases matched
      · next same =>
          cases same
          exact single matched

/-- A character that stands for itself at the end of a word. -/
def Ordinary (c : Char) : Prop :=
  c ≠ '?' ∧ c ≠ '*' ∧ c ≠ ']' ∧ c ≠ '/'

theorem splitSet_last {text members after : Text} {c : Char}
    (found : splitSet text = some (members, after)) (ends : text.getLast? = some c)
    (inside : c ≠ ']') : after.getLast? = some c := by
  cases text with
  | nil => cases found
  | cons first rest =>
      unfold splitSet at found
      simp only at found
      split at found
      · cases found
      · next close tail cut =>
          cases found
          have closes := List.head?_dropWhile_not (· != ']') rest
          rw [cut] at closes
          obtain ⟨front, whole⟩ := List.dropWhile_suffix (l := rest) (· != ']')
          rw [cut] at whole
          rw [← whole, ← List.cons_append, List.getLast?_append_of_ne_nil _ (by simp)] at ends
          have bracket : close = ']' := by simpa using closes
          exact getLast?_of_ne ends fun same => inside (same.symm.trans bracket)

theorem readPattern_last {atStart : Bool} {steps : List Glyph} {text : Text} {c : Char}
    (ends : text.getLast? = some c) (ordinary : Ordinary c) {pattern : Pattern}
    (read : readPattern atStart steps text = some pattern) :
    pattern.getLast? = some (.literal c) := by
  obtain ⟨question, star, bracket, slash⟩ := ordinary
  fun_induction readPattern atStart steps text with
  | case1 => cases ends
  | case2 _ _ rest ih =>
      exact ih (getLast?_of_ne ends question.symm) read
  | case3 => cases read
  | case4 => exact absurd (Option.some.inj ends).symm star
  | case5 => cases read
  | case6 steps rest ih =>
      have tail : ('/' :: rest).getLast? = some c := ends
      exact ih (getLast?_of_ne tail slash.symm) read
  | case7 => cases read
  | case8 => cases read
  | case9 _ _ rest _ _ _ _ ih =>
      exact ih (getLast?_of_ne ends star.symm) read
  | case10 _ _ rest members after found _ ih =>
      have tail : ('!' :: rest).getLast? = some c := ends
      have behind : rest.getLast? = some c :=
        (getLast?_cons_cases tail).resolve_left fun both => by
          rw [both.1] at found
          cases found
      exact ih (splitSet_last found behind bracket) read
  | case11 => cases read
  | case12 _ _ rest _ members after found _ ih =>
      have behind : rest.getLast? = some c :=
        (getLast?_cons_cases ends).resolve_left fun both => by
          rw [both.1] at found
          cases found
      exact ih (splitSet_last found behind bracket) read
  | case13 => cases read
  | case14 atStart steps first rest _ _ _ _ _ _ _ _ ih =>
      rcases getLast?_cons_cases ends with ⟨rfl, rfl⟩ | later
      · rw [readPattern] at read
        cases read
        rw [List.getLast?_reverse]
        rfl
      · exact ih later read

theorem matchesPattern_last {word name : Text} {c : Char} (ends : word.getLast? = some c)
    (ordinary : Ordinary c) (hit : matchesPattern word name = true) : name.getLast? = some c := by
  unfold matchesPattern at hit
  split at hit
  · next pattern read => exact attempt_last (readPattern_last ends ordinary read) (beq_iff_eq.mp hit)
  · cases hit

theorem expandWildcard_last (names : List Text) {word : Text} {c : Char}
    (ends : word.getLast? = some c) (ordinary : Ordinary c) :
    ∀ name ∈ expandWildcard names word, name.getLast? = some c := by
  intro name found
  rw [expandWildcard_eq] at found
  split at found
  · exact matchesPattern_last ends ordinary (List.mem_filter.mp found).2
  · rw [List.mem_singleton.mp found]
    exact ends

end CommandShell
