import Mathlib.Data.List.Basic
import CommandShell.Command.Expansion
import CommandShell.Proofs.Command.Faults

/-!
How far the names of the working folder reach into a command. A wildcard word becomes the
names it matches before any word is read as a sign, so the stages of a command
can depend on the folder. They do not when no matched name is a sign, with one
exception: a segment of redirections alone has a word of its own as soon as
one of its targets matches several names, for all but the first of them are
plain words.
-/
namespace CommandShell

/-- The words of a line after its alias. -/
def commandWords (table : AliasTable) (line : Text) : List Text :=
  words (expandAlias table line)

def matchedNames (names : List Text) (word : Text) : List Text :=
  names.filter (matchesPattern word)

/-- No name that a word matches is a sign, and the last name that the last word matches is
no ampersand. -/
structure Inert (names words : List Text) : Prop where
  plain : ∀ word ∈ words, hasWildcard word = true → ∀ name ∈ names,
    matchesPattern word name = true → Plain name
  last : ∀ word ∈ words.getLast?, hasWildcard word = true →
    (matchedNames names word).getLast? ≠ some ampersand

/-- A word that stands for several names. -/
def Several (names : List Text) (word : Text) : Prop :=
  hasWildcard word = true ∧ 1 < (matchedNames names word).length

/-- A target in the segment stands for several names. -/
def ManyTargets (names : List Text) (segment : Segment) : Prop :=
  ∃ kind target, Piece.redirect kind target ∈ segment ∧ Several names target

/-- One of the segments consists of redirections alone, and none of its targets stands for
several names. -/
def LeavesBare (names : List Text) (segments : List Segment) : Prop :=
  ∃ segment ∈ segments, Segment.words segment = [] ∧ ¬ManyTargets names segment

/-- The words have a stage that is left without words of its own in this folder. -/
def HasBareStage (names words : List Text) : Prop :=
  foreground words ≠ [] ∧ ∃ segments : List Segment, (∀ segment ∈ segments, segment.Sound) ∧
    foreground words = spellAll segments ∧ LeavesBare names segments

/-- Both fail, or both have as many stages and run in the same place. -/
def SameStructure : Except SyntaxTrouble Pipeline → Except SyntaxTrouble Pipeline → Prop
  | .ok left, .ok right =>
      left.stages.length = right.stages.length ∧ left.background = right.background
  | .error _, .error _ => True
  | _, _ => False

theorem expandWildcard_eq (names : List Text) (word : Text) :
    expandWildcard names word =
      if hasWildcard word = true ∧ matchedNames names word ≠ [] then matchedNames names word
      else [word] := by
  by_cases wild : hasWildcard word = true
  · cases found : Pattern.ofText? word with
    | none =>
        have nothing : matchedNames names word = [] := by
          simp [matchedNames, matchesPattern, found]
        simp [expandWildcard, wild, found, nothing]
    | some pattern =>
        have hits : matchesPattern word = pattern.accepts := by
          funext name
          simp [matchesPattern, found]
        have same : matchedNames names word = names.filter pattern.accepts := by
          rw [matchedNames, hits]
        simp only [expandWildcard, wild, found, same, List.isEmpty_iff, if_true, true_and]
        by_cases nothing : names.filter pattern.accepts = []
        · rw [if_pos nothing, if_neg (not_not_intro nothing)]
        · rw [if_neg nothing, if_pos nothing]
  · simp [expandWildcard, wild]

theorem expandWildcard_tame (names : List Text) (word : Text) (tame : hasWildcard word = false) :
    expandWildcard names word = [word] := by
  simp [expandWildcard_eq, tame]

theorem expandWildcard_sign (names : List Text) (kind : Redirection) :
    expandWildcard names kind.sign = [kind.sign] := by
  cases kind <;> exact expandWildcard_tame names _ (by decide)

theorem expandWildcard_bar (names : List Text) : expandWildcard names barSign = [barSign] :=
  expandWildcard_tame names barSign (by decide)

theorem expandWildcard_ampersand (names : List Text) :
    expandWildcard names ampersand = [ampersand] :=
  expandWildcard_tame names ampersand (by decide)

theorem expandWildcard_ne_nil (names : List Text) (word : Text) :
    expandWildcard names word ≠ [] := by
  rw [expandWildcard_eq]
  split
  · next found => exact found.2
  · simp

theorem several_iff (names : List Text) (word : Text) :
    1 < (expandWildcard names word).length ↔ Several names word := by
  rw [expandWildcard_eq, Several]
  by_cases wild : hasWildcard word = true
  · by_cases nothing : matchedNames names word = [] <;> simp [wild, nothing]
  · simp [wild]

theorem Inert.plain_expansion {names words : List Text} (inert : Inert names words)
    (word : Text) (member : word ∈ words) (plain : Plain word) :
    ∀ name ∈ expandWildcard names word, Plain name := by
  intro name found
  rw [expandWildcard_eq] at found
  split at found
  · next wild =>
      obtain ⟨inside, hit⟩ := List.mem_filter.mp found
      exact inert.plain word member wild.1 name inside hit
  · rw [List.mem_singleton.mp found]
    exact plain

theorem Inert.ends_alike {names words : List Text} (inert : Inert names words) :
    (words.flatMap (expandWildcard names)).getLast? = some ampersand ↔
      words.getLast? = some ampersand := by
  rcases words.eq_nil_or_concat with rfl | ⟨init, word, rfl⟩
  · simp
  · rw [List.concat_eq_append] at inert ⊢
    have last := inert.last word (by simp)
    -- A word never turns into nothing, so the last word alone decides the end.
    have ends : ((init ++ [word]).flatMap (expandWildcard names)).getLast? =
        (expandWildcard names word).getLast? := by
      have some := expandWildcard_ne_nil names word
      cases found : (expandWildcard names word).getLast? with
      | none => exact absurd (List.getLast?_eq_none_iff.mp found) some
      | some final => simp [found]
    rw [ends, expandWildcard_eq]
    split
    · next wild =>
        have tame : word ≠ ampersand := by
          rintro rfl
          exact absurd wild.1 (by decide)
        simp [last wild.1, tame]
    · simp

theorem Inert.foreground_expanded {names words : List Text} (inert : Inert names words) :
    foreground (words.flatMap (expandWildcard names)) =
      (foreground words).flatMap (expandWildcard names) := by
  simp only [foreground, inert.ends_alike]
  split
  · next marked =>
      obtain ⟨init, rfl⟩ := List.getLast?_eq_some_iff.mp marked
      simp [expandWildcard_ampersand]
  · rfl

theorem Inert.background_expanded {names words : List Text} (inert : Inert names words) :
    ((words.flatMap (expandWildcard names)).getLast? == some ampersand) =
      (words.getLast? == some ampersand) :=
  Bool.eq_iff_iff.mpr (beq_iff_eq.trans (inert.ends_alike.trans beq_iff_eq.symm))

/-! Expansion piece by piece. -/

/-- What a piece becomes: a word turns into words, and a sign keeps the first of what its
target turns into. -/
def Piece.expand (names : List Text) : Piece → Segment
  | .word text => (expandWildcard names text).map .word
  | .redirect kind target =>
      match expandWildcard names target with
      | [] => []
      | first :: more => .redirect kind first :: more.map .word

def Segment.expand (names : List Text) (segment : Segment) : Segment :=
  segment.flatMap (Piece.expand names)

theorem spell_words (texts : List Text) : Segment.spell (texts.map .word) = texts := by
  induction texts with
  | nil => rfl
  | cons text texts ih => simpa [Segment.spell, Piece.spell] using ih

theorem spell_piece_expand (names : List Text) (piece : Piece) :
    Segment.spell (piece.expand names) = piece.spell.flatMap (expandWildcard names) := by
  cases piece with
  | word text => simp [Piece.expand, Piece.spell, spell_words]
  | redirect kind target =>
      have some := expandWildcard_ne_nil names target
      cases found : expandWildcard names target with
      | nil => exact absurd found some
      | cons first more =>
          have words := spell_words more
          simp only [Segment.spell] at words
          simp [Piece.expand, Piece.spell, found, expandWildcard_sign, Segment.spell, words]

theorem spell_expand (names : List Text) (segment : Segment) :
    Segment.spell (Segment.expand names segment) =
      (Segment.spell segment).flatMap (expandWildcard names) := by
  induction segment with
  | nil => rfl
  | cons piece segment ih =>
      have head := spell_piece_expand names piece
      simp only [Segment.spell, Segment.expand] at head ih ⊢
      simp [List.flatMap_append, head, ih]

theorem spellAll_expand (names : List Text) (segment : Segment) (segments : List Segment) :
    spellAll ((segment :: segments).map (Segment.expand names)) =
      (spellAll (segment :: segments)).flatMap (expandWildcard names) := by
  induction segments generalizing segment with
  | nil => exact spell_expand names segment
  | cons next segments ih =>
      have tail := ih next
      simp only [List.map_cons] at tail ⊢
      rw [spellAll_segment, spellAll_segment, tail, spell_expand]
      simp [expandWildcard_bar]

theorem mem_spellAll (segments : List Segment) (segment : Segment) (member : segment ∈ segments)
    (word : Text) (inside : word ∈ Segment.spell segment) : word ∈ spellAll segments := by
  induction segments with
  | nil => simp at member
  | cons first segments ih =>
      cases segments with
      | nil =>
          rw [List.mem_singleton.mp member] at inside
          exact inside
      | cons next segments =>
          rw [spellAll_segment]
          rcases List.mem_cons.mp member with rfl | later
          · exact List.mem_append_left _ inside
          · exact List.mem_append_right _ (List.mem_cons_of_mem barSign (ih later))

theorem Inert.sound_expand {names words : List Text} (inert : Inert names words)
    (segment : Segment) (sound : segment.Sound)
    (inside : ∀ word ∈ Segment.spell segment, word ∈ words) :
    Segment.Sound (Segment.expand names segment) := by
  have plain : ∀ piece ∈ segment, ∀ word ∈ piece.spell, Plain word →
      ∀ name ∈ expandWildcard names word, Plain name := fun piece member word spelled =>
    inert.plain_expansion word (inside word (List.mem_flatMap.mpr ⟨piece, member, spelled⟩))
  intro part member
  obtain ⟨piece, piece_mem, member⟩ := List.mem_flatMap.mp member
  cases piece with
  | word text =>
      obtain ⟨name, found, rfl⟩ := List.mem_map.mp member
      exact plain _ piece_mem text (by simp [Piece.spell]) (sound _ piece_mem) name found
  | redirect kind target =>
      have names_plain := plain _ piece_mem target (by simp [Piece.spell]) (sound _ piece_mem)
      cases found : expandWildcard names target with
      | nil => simp [Piece.expand, found] at member
      | cons first more =>
          rw [found] at names_plain
          simp only [Piece.expand, found, List.mem_cons, List.mem_map] at member
          rcases member with rfl | ⟨name, later, rfl⟩
          · exact names_plain first List.mem_cons_self
          · exact names_plain name (List.mem_cons_of_mem first later)

theorem words_texts (texts : List Text) : Segment.words (texts.map .word) = texts := by
  induction texts with
  | nil => rfl
  | cons text texts ih => rw [List.map_cons, Segment.words_word, ih]

theorem words_expand_cons (names : List Text) (piece : Piece) (segment : Segment) :
    Segment.words (Segment.expand names (piece :: segment)) =
      Segment.words (piece.expand names) ++ Segment.words (Segment.expand names segment) := by
  simp [Segment.words, Segment.expand]

/-- An expanded segment has a word of its own if the segment had one, or if one of its targets
stands for several names. -/
theorem words_expand_eq_nil (names : List Text) (segment : Segment) :
    Segment.words (Segment.expand names segment) = [] ↔
      Segment.words segment = [] ∧ ¬ManyTargets names segment := by
  induction segment with
  | nil => simp [Segment.words, Segment.expand, ManyTargets]
  | cons piece segment ih =>
      rw [words_expand_cons, List.append_eq_nil_iff, ih]
      cases piece with
      | word text => simp [Piece.expand, words_texts, expandWildcard_ne_nil]
      | redirect kind target =>
          have bare : Segment.words ((Piece.redirect kind target).expand names) = [] ↔
              ¬Several names target := by
            have some := expandWildcard_ne_nil names target
            rw [← several_iff]
            cases found : expandWildcard names target with
            | nil => exact absurd found some
            | cons first more => cases more <;> simp [Piece.expand, found, words_texts]
          have many : ManyTargets names (.redirect kind target :: segment) ↔
              Several names target ∨ ManyTargets names segment := by
            simp only [ManyTargets, List.mem_cons, Piece.redirect.injEq]
            constructor
            · rintro ⟨other, text, ⟨rfl, rfl⟩ | member, several⟩
              · exact Or.inl several
              · exact Or.inr ⟨other, text, member, several⟩
            · rintro (several | ⟨other, text, member, several⟩)
              · exact ⟨kind, target, Or.inl ⟨rfl, rfl⟩, several⟩
              · exact ⟨other, text, Or.inr member, several⟩
          rw [bare, many, Segment.words_redirect, not_or, and_left_comm]

theorem lacking_expand (names rest : List Text) (lacking : Lacking rest) :
    Lacking (rest.flatMap (expandWildcard names)) := by
  cases rest with
  | nil => exact lacking
  | cons next rest =>
      have noTarget : ¬Plain next := lacking next rfl
      have kept : expandWildcard names next = [next] := by
        rcases word_cases next with ⟨kind, rfl⟩ | rfl | plain
        · exact expandWildcard_sign names kind
        · exact expandWildcard_bar names
        · exact absurd plain noTarget
      simpa [Lacking, kept] using noTarget

theorem foreground_subset (words : List Text) : foreground words ⊆ words := by
  unfold foreground
  split
  · exact List.dropLast_subset words
  · exact List.Subset.refl words

theorem gather_stages (segments : List Segment) :
    gather (segments.map Segment.stage) =
      if ∃ segment ∈ segments, Segment.words segment = [] then .error .emptyStage
      else .ok (segments.map Segment.stage) := by
  have bare : (∃ stage ∈ segments.map Segment.stage, stage.argv = []) ↔
      ∃ segment ∈ segments, Segment.words segment = [] := by
    constructor
    · rintro ⟨stage, member, empty⟩
      obtain ⟨segment, inside, rfl⟩ := List.mem_map.mp member
      exact ⟨segment, inside, empty⟩
    · rintro ⟨segment, inside, empty⟩
      exact ⟨segment.stage, List.mem_map_of_mem inside, empty⟩
  simp only [gather, bare]

theorem bare_expanded (names : List Text) (segments : List Segment) :
    (∃ other ∈ segments.map (Segment.expand names), Segment.words other = []) ↔
      LeavesBare names segments := by
  constructor
  · rintro ⟨other, member, empty⟩
    obtain ⟨source, inside, rfl⟩ := List.mem_map.mp member
    exact ⟨source, inside, (words_expand_eq_nil names source).mp empty⟩
  · rintro ⟨source, inside, empty⟩
    exact ⟨_, List.mem_map_of_mem inside, (words_expand_eq_nil names source).mpr empty⟩

open Classical in
theorem ofWords_expanded {names words : List Text} (inert : Inert names words)
    (segment : Segment) (segments : List Segment) (begun : foreground words ≠ [])
    (sound : ∀ other ∈ segment :: segments, other.Sound)
    (spelled : foreground words = spellAll (segment :: segments)) :
    Pipeline.ofWords (words.flatMap (expandWildcard names)) =
      if LeavesBare names (segment :: segments) then .error .emptyStage
      else .ok ⟨(segment :: segments).map fun other => (Segment.expand names other).stage,
        words.getLast? == some ampersand⟩ := by
  have expanded : ∀ other ∈ (segment :: segments).map (Segment.expand names),
      Segment.Sound other := by
    intro other member
    obtain ⟨source, inside, rfl⟩ := List.mem_map.mp member
    refine inert.sound_expand source (sound source inside) ?_
    intro word found
    exact foreground_subset words (spelled ▸ mem_spellAll _ source inside word found)
  have filled : (foreground words).flatMap (expandWildcard names) ≠ [] := by
    cases rest : foreground words with
    | nil => exact absurd rest begun
    | cons word rest => simp [expandWildcard_ne_nil]
  rw [ofWords_eq, inert.foreground_expanded, if_neg filled, inert.background_expanded, spelled,
    ← spellAll_expand, List.map_cons, readWords_spelled _ _ _ expanded, Stage.extend_empty,
    ← List.map_cons, ← List.map_cons, gather_stages]
  simp only [bare_expanded, List.map_map]
  split <;> rfl

theorem ofWords_expanded_nil {names words : List Text} (inert : Inert names words)
    (nothing : foreground words = []) :
    Pipeline.ofWords (words.flatMap (expandWildcard names)) =
      .ok ⟨[], words.getLast? == some ampersand⟩ := by
  rw [ofWords_eq, inert.foreground_expanded, nothing, inert.background_expanded]
  rfl

theorem ofWords_expanded_lacking {names words : List Text} (inert : Inert names words)
    (before after : List Text) (kind : Redirection)
    (split : foreground words = before ++ kind.sign :: after) (lacking : Lacking after) :
    ∃ cause, Pipeline.ofWords (words.flatMap (expandWildcard names)) = .error cause := by
  have still := lacking_expand names after lacking
  obtain ⟨cause, failed⟩ := readWords_lacking_fails
    (before.flatMap (expandWildcard names)) _ kind still
  refine ⟨cause, ?_⟩
  rw [ofWords_eq, inert.foreground_expanded, split]
  simp [expandWildcard_sign, failed, Except.map]

theorem hasBareStage_iff {names words : List Text} (inert : Inert names words)
    (segment : Segment) (segments : List Segment) (begun : foreground words ≠ [])
    (sound : ∀ other ∈ segment :: segments, other.Sound)
    (spelled : foreground words = spellAll (segment :: segments)) :
    HasBareStage names words ↔ LeavesBare names (segment :: segments) := by
  constructor
  · rintro ⟨-, found, foundSound, foundSpelled, bare⟩
    cases found with
    | nil => exact absurd foundSpelled begun
    | cons first rest =>
        -- Both ways of spelling the words give the result of the one read.
        have fails := ofWords_expanded inert first rest begun foundSound foundSpelled
        rw [if_pos bare, ofWords_expanded inert segment segments begun sound spelled] at fails
        by_cases short : LeavesBare names (segment :: segments)
        · exact short
        · rw [if_neg short] at fails
          cases fails
  · exact fun bare => ⟨begun, segment :: segments, sound, spelled, bare⟩

theorem not_hasBareStage_of_lacking {names words before after : List Text} {kind : Redirection}
    (split : foreground words = before ++ kind.sign :: after) (lacking : Lacking after) :
    ¬HasBareStage names words := by
  rintro ⟨-, segments, sound, spelled, -⟩
  have pointed := pointed_spellAll segments sound
  exact pointed before kind after (spelled ▸ split) lacking

/-- Folders whose matched names are no signs give a command as many stages. They do not differ
in whether it can be read at all exactly when they do not differ in whether a stage is left
without words. -/
theorem parse_same_structure (table : AliasTable) (line : Text) (names others : List Text)
    (inert : Inert names (commandWords table line))
    (inertToo : Inert others (commandWords table line)) :
    (∀ left right, Pipeline.parse table names line = .ok left →
      Pipeline.parse table others line = .ok right →
        left.stages.length = right.stages.length ∧ left.background = right.background) ∧
    (SameStructure (Pipeline.parse table names line) (Pipeline.parse table others line) ↔
      (HasBareStage names (commandWords table line) ↔
        HasBareStage others (commandWords table line))) := by
  have unfolded : ∀ folder, Pipeline.parse table folder line =
      Pipeline.ofWords ((commandWords table line).flatMap (expandWildcard folder)) :=
    fun _ => rfl
  rw [unfolded, unfolded]
  by_cases nothing : foreground (commandWords table line) = []
  · rw [ofWords_expanded_nil inert nothing, ofWords_expanded_nil inertToo nothing]
    constructor
    · intro left right same sameToo
      cases same
      cases sameToo
      exact ⟨rfl, rfl⟩
    · simp [SameStructure, HasBareStage, nothing]
  · rcases spelled_or_lacking (foreground (commandWords table line)) with
      ⟨segment, segments, sound, spelled⟩ | ⟨before, kind, after, split, lacking⟩
    · rw [ofWords_expanded inert segment segments nothing sound spelled,
        ofWords_expanded inertToo segment segments nothing sound spelled,
        hasBareStage_iff inert segment segments nothing sound spelled,
        hasBareStage_iff inertToo segment segments nothing sound spelled]
      constructor
      · intro left right same sameToo
        split at same <;> cases same
        split at sameToo <;> cases sameToo
        simp
      · by_cases bare : LeavesBare names (segment :: segments) <;>
          by_cases bareToo : LeavesBare others (segment :: segments) <;>
          simp [SameStructure, bare, bareToo]
    · obtain ⟨cause, failed⟩ := ofWords_expanded_lacking inert before after kind split lacking
      obtain ⟨other, failedToo⟩ :=
        ofWords_expanded_lacking inertToo before after kind split lacking
      rw [failed, failedToo]
      constructor
      · intro left right same
        cases same
      · simp [SameStructure, not_hasBareStage_of_lacking split lacking]

/-- A name that is a sign, an ampersand at the end and a second name for a target each change
what a line means. -/
theorem structure_depends_on_names :
    ¬SameStructure (Pipeline.parse (AliasTable.empty 8) [] "echo ?".toList)
      (Pipeline.parse (AliasTable.empty 8) ["|".toList] "echo ?".toList) ∧
    ¬SameStructure (Pipeline.parse (AliasTable.empty 8) [] "echo ?".toList)
      (Pipeline.parse (AliasTable.empty 8) ["&".toList] "echo ?".toList) ∧
    ¬SameStructure (Pipeline.parse (AliasTable.empty 8) ["a".toList] "< *".toList)
      (Pipeline.parse (AliasTable.empty 8) ["a".toList, "b".toList] "< *".toList) := by
  have plain : Pipeline.parse (AliasTable.empty 8) [] "echo ?".toList =
      .ok ⟨[⟨["echo".toList, "?".toList], none, none⟩], false⟩ := by cbv
  have bar : Pipeline.parse (AliasTable.empty 8) ["|".toList] "echo ?".toList =
      .error .emptyStage := by cbv
  have mark : Pipeline.parse (AliasTable.empty 8) ["&".toList] "echo ?".toList =
      .ok ⟨[⟨["echo".toList], none, none⟩], true⟩ := by cbv
  have single : Pipeline.parse (AliasTable.empty 8) ["a".toList] "< *".toList =
      .error .emptyStage := by cbv
  have double : Pipeline.parse (AliasTable.empty 8) ["a".toList, "b".toList] "< *".toList =
      .ok ⟨[⟨["b".toList], some "a".toList, none⟩], false⟩ := by cbv
  rw [plain, bar, mark, single, double]
  simp [SameStructure]

theorem inert_of_plain (names words : List Text) (plain : ∀ name ∈ names, Plain name)
    (unmarked : ampersand ∉ names) : Inert names words := by
  constructor
  · intro word _ _ name member _
    exact plain name member
  · intro word _ _ last
    have member := List.mem_of_getLast? last
    exact unmarked (List.mem_filter.mp member).1

theorem manyTargets_congr {names others : List Text} {segment : Segment}
    (alike : ∀ word ∈ Segment.spell segment, Several names word ↔ Several others word) :
    ManyTargets names segment ↔ ManyTargets others segment := by
  refine exists_congr fun kind => exists_congr fun target => and_congr_right fun found => ?_
  exact alike target (List.mem_flatMap.mpr ⟨_, found, by simp [Piece.spell]⟩)

theorem hasBareStage_congr {names others words : List Text}
    (alike : ∀ word ∈ words, Several names word ↔ Several others word) :
    HasBareStage names words ↔ HasBareStage others words := by
  refine and_congr_right fun _ => exists_congr fun segments => and_congr_right fun _ =>
    and_congr_right fun spelled => exists_congr fun segment => and_congr_right fun member =>
      and_congr_right fun _ => not_congr (manyTargets_congr ?_)
  intro word inside
  exact alike word (foreground_subset words
    (spelled ▸ mem_spellAll segments segment member word inside))

theorem parse_same_structure_in_two_folders :
    Inert [['a'], ['b']] (commandWords (AliasTable.empty 8) "sort < * > o | wc &".toList) ∧
      Inert [['c'], ['&', 'x'], ['d']]
        (commandWords (AliasTable.empty 8) "sort < * > o | wc &".toList) ∧
      SameStructure
        (Pipeline.parse (AliasTable.empty 8) [['a'], ['b']] "sort < * > o | wc &".toList)
        (Pipeline.parse (AliasTable.empty 8) [['c'], ['&', 'x'], ['d']]
          "sort < * > o | wc &".toList) := by
  have written : commandWords (AliasTable.empty 8) "sort < * > o | wc &".toList =
      ["sort", "<", "*", ">", "o", "|", "wc", "&"].map String.toList := by cbv
  have matched : matchedNames [['a'], ['b']] ['*'] = [['a'], ['b']] := by cbv
  have matchedToo : matchedNames [['c'], ['&', 'x'], ['d']] ['*'] =
      [['c'], ['&', 'x'], ['d']] := by cbv
  have inert := inert_of_plain [['a'], ['b']]
    (commandWords (AliasTable.empty 8) "sort < * > o | wc &".toList) (by decide) (by decide)
  have inertToo := inert_of_plain [['c'], ['&', 'x'], ['d']]
    (commandWords (AliasTable.empty 8) "sort < * > o | wc &".toList) (by decide) (by decide)
  have onlyStar : ∀ word ∈ ["sort", "<", "*", ">", "o", "|", "wc", "&"].map String.toList,
      hasWildcard word = true → word = ['*'] := by decide
  refine ⟨inert, inertToo, (parse_same_structure _ _ _ _ inert inertToo).2.mpr ?_⟩
  apply hasBareStage_congr
  intro word member
  by_cases wild : hasWildcard word = true
  · rw [onlyStar word (written ▸ member) wild, Several, Several, matched, matchedToo]
    simp
  · simp [Several, wild]

end CommandShell
