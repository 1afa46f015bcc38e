import CommandShell.Command.Pipeline

/-!
The grammar of pipelines, written down beside the reader. A segment is what stands between
two bars: plain words, and pairs of a sign and the word it points at. `Segment.spell`
writes a segment down again, so that words are in the grammar when they are
spelled by segments with bars between them. The reader turns a spelled list
into the stages of its segments, and what cannot be spelled has a sign
without its target.
-/
namespace CommandShell

def Redirection.sign (kind : Redirection) : Text :=
  [kind.symbol]

def barSign : Text := ['|']

/-- A word that is no sign. An ampersand is a plain word. -/
def Plain (word : Text) : Prop :=
  word ≠ Redirection.input.sign ∧ word ≠ Redirection.output.sign ∧ word ≠ barSign

instance (word : Text) : Decidable (Plain word) :=
  inferInstanceAs (Decidable (_ ∧ _ ∧ _))

/-- What follows a sign that has nothing to point at. -/
def Lacking (rest : List Text) : Prop :=
  ∀ next ∈ rest.head?, ¬Plain next

/-- A part of a stage as it is written. -/
inductive Piece
  | word (text : Text)
  | redirect (kind : Redirection) (target : Text)
  deriving Repr, DecidableEq

abbrev Segment := List Piece

namespace Piece

def spell : Piece → List Text
  | .word text => [text]
  | .redirect kind target => [kind.sign, target]

def Sound : Piece → Prop
  | .word text => Plain text
  | .redirect _ target => Plain target

def word? : Piece → Option Text
  | .word text => some text
  | .redirect _ _ => none

def target? (kind : Redirection) : Piece → Option Text
  | .word _ => none
  | .redirect other target => if other = kind then some target else none

end Piece

namespace Segment

def spell (segment : Segment) : List Text :=
  segment.flatMap Piece.spell

def Sound (segment : Segment) : Prop :=
  ∀ piece ∈ segment, piece.Sound

def words (segment : Segment) : List Text :=
  segment.filterMap Piece.word?

/-- The last target of a kind. -/
def target (segment : Segment) (kind : Redirection) : Option Text :=
  (segment.filterMap (Piece.target? kind)).getLast?

def stage (segment : Segment) : Stage :=
  ⟨segment.words, segment.target .input, segment.target .output⟩

@[simp] theorem words_nil : words [] = [] := rfl

@[simp] theorem words_word (text : Text) (segment : Segment) :
    words (.word text :: segment) = text :: words segment := rfl

@[simp] theorem words_redirect (kind : Redirection) (target : Text) (segment : Segment) :
    words (.redirect kind target :: segment) = words segment := rfl

@[simp] theorem target_word (text : Text) (segment : Segment) (kind : Redirection) :
    target (.word text :: segment) kind = target segment kind := rfl

@[simp] theorem target_redirect (kind other : Redirection) (text : Text) (segment : Segment) :
    target (.redirect kind text :: segment) other =
      if kind = other then some ((target segment other).getD text) else target segment other := by
  by_cases same : kind = other
  · simp [target, Piece.target?, same, List.getLast?_cons]
  · simp [target, Piece.target?, same]

end Segment

/-- Segments with bars between them. -/
def spellAll (segments : List Segment) : List Text :=
  joinWith [barSign] (segments.map Segment.spell)

theorem sign_injective (left right : Redirection) (same : left.sign = right.sign) :
    left = right := by
  cases left <;> cases right <;> first | rfl | simp [Redirection.sign, Redirection.symbol] at same

theorem sign_ne_bar (kind : Redirection) : kind.sign ≠ barSign := by
  cases kind <;> decide

theorem sign_not_plain (kind : Redirection) : ¬Plain kind.sign := by
  cases kind <;> decide

theorem bar_not_plain : ¬Plain barSign := by decide

theorem Plain.ne_sign {word : Text} (plain : Plain word) (kind : Redirection) :
    word ≠ kind.sign := by
  cases kind
  · exact plain.1
  · exact plain.2.1

theorem word_cases (word : Text) :
    (∃ kind : Redirection, word = kind.sign) ∨ word = barSign ∨ Plain word := by
  by_cases input : word = Redirection.input.sign
  · exact Or.inl ⟨.input, input⟩
  by_cases output : word = Redirection.output.sign
  · exact Or.inl ⟨.output, output⟩
  by_cases bar : word = barSign
  · exact Or.inr (Or.inl bar)
  · exact Or.inr (Or.inr ⟨input, output, bar⟩)

theorem ofWord_sign (kind : Redirection) : Token.ofWord kind.sign = .redirect kind := by
  cases kind <;> rfl

theorem ofWord_bar : Token.ofWord barSign = .bar := rfl

theorem ofWord_plain {word : Text} (plain : Plain word) : Token.ofWord word = .word word := by
  have input := plain.ne_sign .input
  have output := plain.ne_sign .output
  have bar := plain.2.2
  simp only [Redirection.sign, Redirection.symbol] at input output
  rw [barSign] at bar
  rw [Token.ofWord, if_neg input, if_neg output, if_neg bar]

/-- Induction along the reader: it takes a bar, a sign with its target or a plain word at
a time, and stops at a sign without a target. -/
theorem reading_induction {motive : List Text → Prop}
    (nothing : motive [])
    (bar : ∀ rest, motive rest → motive (barSign :: rest))
    (redirect : ∀ (kind : Redirection) target rest, Plain target → motive rest →
      motive (kind.sign :: target :: rest))
    (lacking : ∀ (kind : Redirection) rest, Lacking rest → motive (kind.sign :: rest))
    (word : ∀ text rest, Plain text → motive rest → motive (text :: rest)) :
    ∀ words, motive words
  | [] => nothing
  | first :: rest => by
      have tail := reading_induction nothing bar redirect lacking word rest
      rcases word_cases first with ⟨kind, rfl⟩ | rfl | plain
      · cases rest with
        | nil => exact lacking kind [] (by simp [Lacking])
        | cons next rest =>
            by_cases plain : Plain next
            · exact redirect kind next rest plain
                (reading_induction nothing bar redirect lacking word rest)
            · exact lacking kind (next :: rest) (by simpa [Lacking] using plain)
      · exact bar rest tail
      · exact word first rest plain tail

/-! The reader on words, one step at a time. -/

def readWords (stage : Stage) (words : List Text) : Except SyntaxTrouble (List Stage) :=
  readStages stage (words.map Token.ofWord)

theorem readWords_nil (stage : Stage) :
    readWords stage [] = if stage.argv = [] then .error .emptyStage else .ok [stage] := by
  simp [readWords, readStages]

theorem readWords_bar (stage : Stage) (rest : List Text) :
    readWords stage (barSign :: rest) =
      if stage.argv = [] then .error .emptyStage
      else (readWords Stage.empty rest).map (stage :: ·) := by
  simp only [readWords, List.map_cons, ofWord_bar, readStages, List.isEmpty_iff]
  split
  · rfl
  · cases readStages Stage.empty (rest.map Token.ofWord) <;> rfl

theorem readWords_redirect (stage : Stage) (kind : Redirection) (target : Text)
    (rest : List Text) (plain : Plain target) :
    readWords stage (kind.sign :: target :: rest) =
      readWords (stage.addRedirect kind target) rest := by
  simp only [readWords, List.map_cons, ofWord_sign, ofWord_plain plain, readStages]

theorem readWords_lacking (stage : Stage) (kind : Redirection) (rest : List Text)
    (lacking : Lacking rest) :
    readWords stage (kind.sign :: rest) = .error (.missingTarget kind) := by
  cases rest with
  | nil => simp [readWords, ofWord_sign, readStages]
  | cons next rest =>
      have noTarget : ¬Plain next := lacking next rfl
      rcases word_cases next with ⟨other, rfl⟩ | rfl | plain
      · simp [readWords, ofWord_sign, readStages]
      · simp [readWords, ofWord_sign, ofWord_bar, readStages]
      · exact absurd plain noTarget

theorem readWords_word (stage : Stage) (text : Text) (rest : List Text) (plain : Plain text) :
    readWords stage (text :: rest) = readWords (stage.addWord text) rest := by
  simp only [readWords, List.map_cons, ofWord_plain plain, readStages]

/-! A spelled list is read as the stages of its segments. -/

namespace Stage

def addPiece (stage : Stage) : Piece → Stage
  | .word text => stage.addWord text
  | .redirect kind target => stage.addRedirect kind target

def extend (stage : Stage) (segment : Segment) : Stage :=
  segment.foldl addPiece stage

theorem extend_cons (stage : Stage) (piece : Piece) (segment : Segment) :
    stage.extend (piece :: segment) = (stage.addPiece piece).extend segment := rfl

theorem extend_eq (stage : Stage) (segment : Segment) :
    stage.extend segment =
      ⟨stage.argv ++ segment.words, (segment.target .input).or stage.input,
        (segment.target .output).or stage.output⟩ := by
  induction segment generalizing stage with
  | nil => simp [extend, Segment.words, Segment.target]
  | cons piece segment ih =>
      rw [extend_cons, ih]
      cases piece with
      | word text => simp [addPiece, addWord]
      | redirect kind target =>
          cases kind <;> simp [addPiece, addRedirect, Option.or_some]

theorem extend_empty (segment : Segment) : empty.extend segment = segment.stage := by
  simp [extend_eq, empty, Segment.stage]

end Stage

/-- All the stages, unless one of them is without words. -/
def gather (stages : List Stage) : Except SyntaxTrouble (List Stage) :=
  if ∃ stage ∈ stages, stage.argv = [] then .error .emptyStage else .ok stages

theorem gather_eq_ok (stages result : List Stage) :
    gather stages = .ok result ↔ result = stages ∧ ∀ stage ∈ stages, stage.argv ≠ [] := by
  unfold gather
  split
  · next bare =>
      obtain ⟨stage, member, empty⟩ := bare
      constructor
      · intro same
        cases same
      · intro full
        exact absurd empty (full.2 stage member)
  · next full =>
      constructor
      · intro same
        cases same
        exact ⟨rfl, fun stage member empty => full ⟨stage, member, empty⟩⟩
      · rintro ⟨rfl, -⟩
        rfl

theorem gather_cons (stage : Stage) (stages : List Stage) :
    gather (stage :: stages) =
      if stage.argv = [] then .error .emptyStage else (gather stages).map (stage :: ·) := by
  by_cases bare : stage.argv = []
  · simp [gather, bare]
  · simp only [gather, List.mem_cons, exists_eq_or_imp, bare, false_or, if_false]
    split <;> rfl

theorem readWords_piece (stage : Stage) (piece : Piece) (rest : List Text)
    (sound : piece.Sound) :
    readWords stage (piece.spell ++ rest) = readWords (stage.addPiece piece) rest := by
  cases piece with
  | word text => exact readWords_word stage text rest sound
  | redirect kind target => exact readWords_redirect stage kind target rest sound

theorem readWords_segment (stage : Stage) (segment : Segment) (rest : List Text)
    (sound : segment.Sound) :
    readWords stage (segment.spell ++ rest) = readWords (stage.extend segment) rest := by
  induction segment generalizing stage with
  | nil => rfl
  | cons piece segment ih =>
      have head : piece.Sound := sound piece List.mem_cons_self
      have tail : Segment.Sound segment := fun other member =>
        sound other (List.mem_cons_of_mem piece member)
      rw [Stage.extend_cons, ← ih _ tail, ← readWords_piece _ _ _ head]
      simp [Segment.spell]

theorem spellAll_piece (piece : Piece) (segment : Segment) (segments : List Segment) :
    spellAll ((piece :: segment) :: segments) =
      piece.spell ++ spellAll (segment :: segments) := by
  cases segments <;> simp [spellAll, joinWith, Segment.spell]

theorem spellAll_segment (segment next : Segment) (segments : List Segment) :
    spellAll (segment :: next :: segments) =
      segment.spell ++ barSign :: spellAll (next :: segments) := by
  simp [spellAll, joinWith]

theorem readWords_spelled (stage : Stage) (segment : Segment) (segments : List Segment)
    (sound : ∀ other ∈ segment :: segments, other.Sound) :
    readWords stage (spellAll (segment :: segments)) =
      gather (stage.extend segment :: segments.map Segment.stage) := by
  have head := sound segment List.mem_cons_self
  induction segments generalizing stage segment with
  | nil =>
      have last := readWords_segment stage segment [] head
      rw [List.append_nil] at last
      have alone : spellAll [segment] = segment.spell := rfl
      rw [alone, last, readWords_nil, List.map_nil, gather_cons]
      simp [gather, Except.map]
  | cons next segments ih =>
      have later : ∀ other ∈ next :: segments, other.Sound := fun other member =>
        sound other (List.mem_cons_of_mem segment member)
      have tail := ih Stage.empty next later (later next List.mem_cons_self)
      rw [Stage.extend_empty, ← List.map_cons] at tail
      rw [spellAll_segment, readWords_segment _ _ _ head, readWords_bar, tail, gather_cons]

theorem sound_cons {piece : Piece} {segment : Segment} {segments : List Segment}
    (head : piece.Sound) (sound : ∀ other ∈ segment :: segments, other.Sound) :
    ∀ other ∈ (piece :: segment) :: segments, Segment.Sound other := by
  intro other member
  rcases List.mem_cons.mp member with rfl | later
  · intro part inside
    rcases List.mem_cons.mp inside with rfl | inside
    · exact head
    · exact sound segment List.mem_cons_self part inside
  · exact sound other (List.mem_cons_of_mem segment later)

theorem spelled_or_lacking (words : List Text) :
    (∃ segment segments, (∀ other ∈ segment :: segments, Segment.Sound other) ∧
      words = spellAll (segment :: segments)) ∨
    ∃ before kind after, words = before ++ Redirection.sign kind :: after ∧ Lacking after := by
  induction words using reading_induction with
  | nothing => exact Or.inl ⟨[], [], by simp [Segment.Sound], rfl⟩
  | bar rest ih =>
      rcases ih with ⟨segment, segments, sound, rfl⟩ | ⟨before, kind, after, rfl, lacking⟩
      · refine Or.inl ⟨[], segment :: segments, ?_, rfl⟩
        intro other member
        rcases List.mem_cons.mp member with rfl | later
        · simp [Segment.Sound]
        · exact sound other later
      · exact Or.inr ⟨barSign :: before, kind, after, rfl, lacking⟩
  | redirect kind target rest plain ih =>
      rcases ih with ⟨segment, segments, sound, rfl⟩ | ⟨before, other, after, rfl, lacking⟩
      · exact Or.inl ⟨.redirect kind target :: segment, segments,
          sound_cons plain sound, (spellAll_piece (.redirect kind target) _ _).symm⟩
      · exact Or.inr ⟨kind.sign :: target :: before, other, after, rfl, lacking⟩
  | lacking kind rest lacking => exact Or.inr ⟨[], kind, rest, rfl, lacking⟩
  | word text rest plain ih =>
      rcases ih with ⟨segment, segments, sound, rfl⟩ | ⟨before, kind, after, rfl, lacking⟩
      · exact Or.inl ⟨.word text :: segment, segments,
          sound_cons plain sound, (spellAll_piece (.word text) _ _).symm⟩
      · exact Or.inr ⟨text :: before, kind, after, rfl, lacking⟩

/-- Every sign stands before a word that it can point at. -/
def Pointed (words : List Text) : Prop :=
  ∀ before kind after, words = before ++ Redirection.sign kind :: after → ¬Lacking after

theorem pointed_nil : Pointed [] := by
  intro before kind after split
  cases before <;> cases split

theorem pointed_cons {word : Text} {rest : List Text}
    (first : ∀ kind : Redirection, word = kind.sign → ¬Lacking rest) (tail : Pointed rest) :
    Pointed (word :: rest) := by
  intro before kind after split
  cases before with
  | nil =>
      obtain ⟨rfl, rfl⟩ := List.cons.inj split
      exact first kind rfl
  | cons next before => exact tail before kind after (List.cons.inj split).2

theorem pointed_segment (segment : Segment) (rest : List Text) (sound : segment.Sound)
    (tail : Pointed rest) : Pointed (segment.spell ++ rest) := by
  induction segment with
  | nil => exact tail
  | cons piece segment ih =>
      have later := ih fun other member => sound other (List.mem_cons_of_mem piece member)
      have head : piece.Sound := sound piece List.mem_cons_self
      cases piece with
      | word text => exact pointed_cons (fun kind same => absurd same (head.ne_sign kind)) later
      | redirect kind target =>
          have atTarget := pointed_cons (fun other same => absurd same (head.ne_sign other)) later
          exact pointed_cons (fun _ _ lacking => lacking target rfl head) atTarget

theorem pointed_spellAll (segments : List Segment)
    (sound : ∀ segment ∈ segments, segment.Sound) : Pointed (spellAll segments) := by
  induction segments with
  | nil => exact pointed_nil
  | cons segment segments ih =>
      have head : segment.Sound := sound segment List.mem_cons_self
      have later := ih fun other member => sound other (List.mem_cons_of_mem segment member)
      cases segments with
      | nil =>
          have alone := pointed_segment segment [] head pointed_nil
          rw [List.append_nil] at alone
          exact alone
      | cons next segments =>
          rw [spellAll_segment]
          apply pointed_segment _ _ head
          exact pointed_cons (fun kind same => absurd same.symm (sign_ne_bar kind)) later

end CommandShell
