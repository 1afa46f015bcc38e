import CommandShell.Proofs.Command.Grammar

/-!
Faults of a list of words, by the place where they stand: what is left and right of that
place decides whether there is one, without reading from the start. The reader
refuses a list exactly when it has a fault, and names the leftmost.
-/
namespace CommandShell

/-- The last segment has a plain word that no sign points at. -/
def HasArgument (before : List Text) : Prop :=
  ∃ left word right, before = left ++ word :: right ∧ Plain word ∧
    (∀ kind : Redirection, left.getLast? ≠ some kind.sign) ∧ barSign ∉ right

/-- A fault between what stands before and what stands after: a sign has no word to point
at, or a segment ends here without a word of its own. -/
inductive FaultAt (before : List Text) : List Text → SyntaxTrouble → Prop
  | missing (kind : Redirection) (rest : List Text) (lacking : Lacking rest) :
      FaultAt before (kind.sign :: rest) (.missingTarget kind)
  | empty (rest : List Text) (ends : ∀ next ∈ rest.head?, next = barSign)
      (bare : ¬HasArgument before) : FaultAt before rest .emptyStage

/-- The leftmost fault among the places from `before` on. -/
def FirstFaultFrom (before rest : List Text) (cause : SyntaxTrouble) : Prop :=
  ∃ passed after, rest = passed ++ after ∧ FaultAt (before ++ passed) after cause ∧
    ∀ left right other, rest = left ++ right → FaultAt (before ++ left) right other →
      passed.length ≤ left.length

def FirstFault (words : List Text) (cause : SyntaxTrouble) : Prop :=
  FirstFaultFrom [] words cause

theorem not_hasArgument_nil : ¬HasArgument [] := by
  rintro ⟨left, word, right, same, -⟩
  cases left <;> simp at same

theorem hasArgument_append (before : List Text) (last : Text) :
    HasArgument (before ++ [last]) ↔
      (Plain last ∧ ∀ kind : Redirection, before.getLast? ≠ some kind.sign) ∨
        (last ≠ barSign ∧ HasArgument before) := by
  constructor
  · rintro ⟨left, word, right, same, plain, free, inside⟩
    rcases right.eq_nil_or_concat with rfl | ⟨right, final, rfl⟩
    · obtain ⟨rfl, tail⟩ := List.append_inj' same rfl
      cases tail
      exact Or.inl ⟨plain, free⟩
    · rw [List.concat_eq_append, ← List.cons_append, ← List.append_assoc] at same
      obtain ⟨rfl, tail⟩ := List.append_inj' same rfl
      cases tail
      simp only [List.concat_eq_append, List.mem_append, List.mem_singleton, not_or] at inside
      exact Or.inr ⟨Ne.symm inside.2, left, word, right, rfl, plain, free, inside.1⟩
  · rintro (⟨plain, free⟩ | ⟨noBar, left, word, right, rfl, plain, free, inside⟩)
    · exact ⟨before, last, [], rfl, plain, free, by simp⟩
    · refine ⟨left, word, right ++ [last], by simp, plain, free, ?_⟩
      simpa [inside] using Ne.symm noBar

theorem not_hasArgument_bar (before : List Text) : ¬HasArgument (before ++ [barSign]) := by
  rw [hasArgument_append]
  rintro (⟨plain, -⟩ | ⟨noBar, -⟩)
  · exact bar_not_plain plain
  · exact noBar rfl

theorem hasArgument_sign (before : List Text) (kind : Redirection) :
    HasArgument (before ++ [kind.sign]) ↔ HasArgument before := by
  rw [hasArgument_append]
  constructor
  · rintro (⟨plain, -⟩ | ⟨-, argument⟩)
    · exact absurd plain (sign_not_plain kind)
    · exact argument
  · exact fun argument => Or.inr ⟨sign_ne_bar kind, argument⟩

theorem hasArgument_target (before : List Text) (kind : Redirection) (target : Text)
    (plain : Plain target) :
    HasArgument (before ++ [kind.sign] ++ [target]) ↔ HasArgument before := by
  rw [hasArgument_append, hasArgument_sign]
  constructor
  · rintro (⟨-, free⟩ | ⟨-, argument⟩)
    · exact absurd (by simp) (free kind)
    · exact argument
  · exact fun argument => Or.inr ⟨plain.2.2, argument⟩

theorem fault_at_plain (before rest : List Text) (word : Text) (cause : SyntaxTrouble)
    (plain : Plain word) : ¬FaultAt before (word :: rest) cause := by
  intro fault
  cases fault with
  | missing kind rest lacking => exact sign_not_plain kind plain
  | empty rest ends bare => exact plain.2.2 (ends word rfl)

theorem fault_at_sign (before rest : List Text) (kind : Redirection) (cause : SyntaxTrouble) :
    FaultAt before (kind.sign :: rest) cause ↔ Lacking rest ∧ cause = .missingTarget kind := by
  constructor
  · intro fault
    generalize written : kind.sign :: rest = words at fault
    cases fault with
    | missing other after lacking =>
        obtain ⟨same, rfl⟩ := List.cons.inj written
        exact ⟨lacking, by rw [sign_injective kind other same]⟩
    | empty after ends bare =>
        subst written
        exact absurd (ends kind.sign rfl) (sign_ne_bar kind)
  · rintro ⟨lacking, rfl⟩
    exact .missing kind rest lacking

theorem fault_at_bar (before rest : List Text) (cause : SyntaxTrouble) :
    FaultAt before (barSign :: rest) cause ↔ ¬HasArgument before ∧ cause = .emptyStage := by
  constructor
  · intro fault
    generalize written : barSign :: rest = words at fault
    cases fault with
    | missing kind after lacking => exact absurd (List.cons.inj written).1.symm (sign_ne_bar kind)
    | empty after ends bare => exact ⟨bare, rfl⟩
  · rintro ⟨bare, rfl⟩
    exact .empty _ (by simp) bare

theorem fault_at_end (before : List Text) (cause : SyntaxTrouble) :
    FaultAt before [] cause ↔ ¬HasArgument before ∧ cause = .emptyStage := by
  constructor
  · intro fault
    cases fault with
    | empty after ends bare => exact ⟨bare, rfl⟩
  · rintro ⟨bare, rfl⟩
    exact .empty _ (by simp) bare

theorem fault_unique (before rest : List Text) (cause other : SyntaxTrouble)
    (fault : FaultAt before rest cause) (again : FaultAt before rest other) : other = cause := by
  cases rest with
  | nil => rw [((fault_at_end ..).mp fault).2, ((fault_at_end ..).mp again).2]
  | cons word rest =>
      rcases word_cases word with ⟨kind, rfl⟩ | rfl | plain
      · rw [((fault_at_sign ..).mp fault).2, ((fault_at_sign ..).mp again).2]
      · rw [((fault_at_bar ..).mp fault).2, ((fault_at_bar ..).mp again).2]
      · exact absurd fault (fault_at_plain before rest word cause plain)

theorem firstFault_here (before rest : List Text) (cause other : SyntaxTrouble)
    (fault : FaultAt before rest cause) :
    FirstFaultFrom before rest other ↔ other = cause := by
  constructor
  · rintro ⟨passed, after, rfl, there, least⟩
    have atStart := least [] (passed ++ after) cause rfl (by simpa using fault)
    obtain rfl : passed = [] := List.eq_nil_of_length_eq_zero (Nat.le_zero.mp atStart)
    exact fault_unique before after cause other fault (by simpa using there)
  · rintro rfl
    exact ⟨[], rest, rfl, by simpa using fault, fun left _ _ _ _ => Nat.zero_le left.length⟩

theorem firstFault_later (before rest : List Text) (word : Text) (cause : SyntaxTrouble)
    (sound : ∀ other, ¬FaultAt before (word :: rest) other) :
    FirstFaultFrom before (word :: rest) cause ↔
      FirstFaultFrom (before ++ [word]) rest cause := by
  constructor
  · rintro ⟨passed, after, same, there, least⟩
    cases passed with
    | nil =>
        rw [List.nil_append] at same
        subst same
        exact absurd (by simpa using there) (sound cause)
    | cons first passed =>
        rw [List.cons_append] at same
        obtain ⟨rfl, rfl⟩ := List.cons.inj same
        refine ⟨passed, after, rfl, by simpa using there, ?_⟩
        intro left right other split fault
        have bound := least (word :: left) right other (by rw [split]; rfl) (by simpa using fault)
        simpa using bound
  · rintro ⟨passed, after, rfl, there, least⟩
    refine ⟨word :: passed, after, rfl, by simpa using there, ?_⟩
    intro left right other split fault
    cases left with
    | nil =>
        rw [List.nil_append] at split
        subst split
        exact absurd (by simpa using fault) (sound other)
    | cons first left =>
        rw [List.cons_append] at split
        obtain ⟨rfl, tail⟩ := List.cons.inj split
        have bound := least left right other tail (by simpa using fault)
        simpa using bound

/-- What the reader has to know of the words it has passed: whether the stage it has begun has
got a word, and that no sign waits for its target. -/
structure Passed (stage : Stage) (before : List Text) : Prop where
  begun : stage.argv = [] ↔ ¬HasArgument before
  settled : ∀ kind : Redirection, before.getLast? ≠ some kind.sign

namespace Passed

theorem start : Passed Stage.empty [] :=
  ⟨by simp [Stage.empty, not_hasArgument_nil], by simp⟩

theorem bar (before : List Text) : Passed Stage.empty (before ++ [barSign]) :=
  ⟨by simp [Stage.empty, not_hasArgument_bar], fun kind => by
    simpa using (sign_ne_bar kind).symm⟩

theorem redirect {stage : Stage} {before : List Text} (passed : Passed stage before)
    (kind : Redirection) (target : Text) (plain : Plain target) :
    Passed (stage.addRedirect kind target) (before ++ [kind.sign] ++ [target]) := by
  constructor
  · rw [hasArgument_target before kind target plain, ← passed.begun]
    cases kind <;> rfl
  · intro other
    simpa using plain.ne_sign other

theorem word {stage : Stage} {before : List Text} (passed : Passed stage before)
    (text : Text) (plain : Plain text) : Passed (stage.addWord text) (before ++ [text]) := by
  constructor
  · have argument := (hasArgument_append before text).mpr (Or.inl ⟨plain, passed.settled⟩)
    simp [Stage.addWord, argument]
  · intro other
    simpa using plain.ne_sign other

end Passed

theorem readWords_eq_error (words : List Text) (stage : Stage) (before : List Text)
    (passed : Passed stage before) (cause : SyntaxTrouble) :
    readWords stage words = .error cause ↔ FirstFaultFrom before words cause := by
  -- The stage is new behind every bar; `Passed` ties it to the words in front of the place.
  induction words using reading_induction generalizing stage before with
  | nothing =>
      rw [readWords_nil]
      by_cases bare : stage.argv = []
      · have fault := (fault_at_end before .emptyStage).mpr ⟨passed.begun.mp bare, rfl⟩
        rw [firstFault_here before [] .emptyStage cause fault, if_pos bare]
        simp [eq_comm]
      · rw [if_neg bare]
        constructor
        · intro failed
          cases failed
        · rintro ⟨skipped, after, same, fault, -⟩
          obtain ⟨rfl, rfl⟩ := List.append_eq_nil_iff.mp same.symm
          rw [List.append_nil, fault_at_end] at fault
          exact absurd (passed.begun.mpr fault.1) bare
  | bar rest ih =>
      rw [readWords_bar]
      by_cases bare : stage.argv = []
      · have fault := (fault_at_bar before rest .emptyStage).mpr ⟨passed.begun.mp bare, rfl⟩
        rw [firstFault_here before _ .emptyStage cause fault, if_pos bare]
        simp [eq_comm]
      · have sound : ∀ other, ¬FaultAt before (barSign :: rest) other := fun other fault =>
          bare (passed.begun.mpr ((fault_at_bar ..).mp fault).1)
        rw [firstFault_later before rest barSign cause sound, if_neg bare,
          ← ih Stage.empty (before ++ [barSign]) (Passed.bar before)]
        cases readWords Stage.empty rest <;> simp [Except.map]
  | redirect kind target rest plain ih =>
      have atSign : ∀ other, ¬FaultAt before (kind.sign :: target :: rest) other := by
        intro other fault
        exact ((fault_at_sign ..).mp fault).1 target rfl plain
      have atTarget : ∀ other, ¬FaultAt (before ++ [kind.sign]) (target :: rest) other :=
        fun other => fault_at_plain _ rest target other plain
      rw [readWords_redirect stage kind target rest plain,
        firstFault_later before _ _ cause atSign, firstFault_later _ rest _ cause atTarget]
      exact ih _ _ (passed.redirect kind target plain)
  | lacking kind rest lacking =>
      have fault := (fault_at_sign before rest kind (.missingTarget kind)).mpr ⟨lacking, rfl⟩
      rw [firstFault_here before _ _ cause fault, readWords_lacking stage kind rest lacking]
      simp [eq_comm]
  | word text rest plain ih =>
      have sound : ∀ other, ¬FaultAt before (text :: rest) other :=
        fun other => fault_at_plain before rest text other plain
      rw [readWords_word stage text rest plain, firstFault_later before rest text cause sound]
      exact ih _ _ (passed.word text plain)

theorem exists_firstFault (before rest : List Text) (cause : SyntaxTrouble)
    (fault : FaultAt before rest cause) : ∃ first, FirstFault (before ++ rest) first := by
  classical
  by_cases least : ∀ left right other, before ++ rest = left ++ right →
      FaultAt left right other → before.length ≤ left.length
  · exact ⟨cause, before, rest, rfl, fault, least⟩
  · simp only [Classical.not_forall, Nat.not_le] at least
    obtain ⟨left, right, other, same, earlier, shorter⟩ := least
    rw [same]
    exact exists_firstFault left right other earlier
termination_by before.length
decreasing_by omega

theorem readWords_lacking_fails (before after : List Text) (kind : Redirection)
    (lacking : Lacking after) :
    ∃ cause, readWords Stage.empty (before ++ kind.sign :: after) = .error cause := by
  have fault := (fault_at_sign before after kind (.missingTarget kind)).mpr ⟨lacking, rfl⟩
  obtain ⟨cause, first⟩ := exists_firstFault before (kind.sign :: after) _ fault
  exact ⟨cause, (readWords_eq_error _ _ [] Passed.start cause).mpr first⟩

theorem readWords_eq_ok (words : List Text) (stages : List Stage) :
    readWords Stage.empty words = .ok stages ↔
      ∃ segments : List Segment, segments ≠ [] ∧ (∀ segment ∈ segments, segment.Sound) ∧
        (∀ segment ∈ segments, Segment.words segment ≠ []) ∧ words = spellAll segments ∧
        stages = segments.map Segment.stage := by
  constructor
  · intro read
    rcases spelled_or_lacking words with ⟨segment, segments, sound, rfl⟩ |
      ⟨before, kind, after, rfl, lacking⟩
    · rw [readWords_spelled _ _ _ sound, Stage.extend_empty, ← List.map_cons] at read
      obtain ⟨rfl, full⟩ := (gather_eq_ok ..).mp read
      refine ⟨segment :: segments, by simp, sound, ?_, rfl, rfl⟩
      intro other member
      exact full other.stage (List.mem_map_of_mem member)
    · obtain ⟨cause, failed⟩ := readWords_lacking_fails before after kind lacking
      rw [failed] at read
      cases read
  · rintro ⟨segments, some, sound, full, rfl, rfl⟩
    cases segments with
    | nil => exact absurd rfl some
    | cons segment segments =>
        rw [readWords_spelled _ _ _ sound, Stage.extend_empty, ← List.map_cons, gather_eq_ok]
        refine ⟨rfl, ?_⟩
        intro stage member
        obtain ⟨other, inside, rfl⟩ := List.mem_map.mp member
        exact full other inside

/-- The words without the ampersand at their end. -/
def foreground (words : List Text) : List Text :=
  if words.getLast? = some ampersand then words.dropLast else words

/-- The words are segments with bars between them, each with a word of its own, and perhaps
an ampersand at the end. The pipeline has a stage for each segment. -/
def Written (words : List Text) (pipeline : Pipeline) : Prop :=
  ∃ segments : List Segment, (∀ segment ∈ segments, segment.Sound) ∧
    (∀ segment ∈ segments, Segment.words segment ≠ []) ∧
    foreground words = spellAll segments ∧ pipeline.stages = segments.map Segment.stage ∧
    (pipeline.background = true ↔ words.getLast? = some ampersand)

theorem ofWords_eq (words : List Text) :
    Pipeline.ofWords words =
      if foreground words = [] then .ok ⟨[], words.getLast? == some ampersand⟩
      else (readWords Stage.empty (foreground words)).map
        (⟨·, words.getLast? == some ampersand⟩) := by
  simp only [Pipeline.ofWords, foreground, readWords, List.isEmpty_iff, beq_iff_eq]
  congr 1
  generalize readStages Stage.empty _ = result
  cases result <;> rfl

theorem spellAll_eq_nil (segments : List Segment)
    (full : ∀ segment ∈ segments, Segment.words segment ≠ []) :
    spellAll segments = [] ↔ segments = [] := by
  cases segments with
  | nil => simp [spellAll, joinWith]
  | cons segment segments =>
      have words := full segment List.mem_cons_self
      cases segment with
      | nil => exact absurd rfl words
      | cons piece segment =>
          rw [spellAll_piece]
          cases piece <;> simp [Piece.spell]

theorem eq_marked_iff (words : List Text) (background : Bool) :
    background = (words.getLast? == some ampersand) ↔
      (background = true ↔ words.getLast? = some ampersand) := by
  rw [Bool.eq_iff_iff, beq_iff_eq]

theorem ofWords_eq_ok (words : List Text) (pipeline : Pipeline) :
    Pipeline.ofWords words = .ok pipeline ↔ Written words pipeline := by
  obtain ⟨stages, background⟩ := pipeline
  rw [ofWords_eq]
  by_cases nothing : foreground words = []
  · rw [if_pos nothing]
    constructor
    · intro read
      cases read
      exact ⟨[], by simp, by simp, nothing, rfl, beq_iff_eq⟩
    · rintro ⟨segments, sound, full, spelled, rfl, marked⟩
      obtain rfl := (spellAll_eq_nil segments full).mp (spelled.symm.trans nothing)
      rw [(eq_marked_iff words background).mpr marked]
      rfl
  · rw [if_neg nothing]
    constructor
    · intro read
      cases result : readWords Stage.empty (foreground words) with
      | error cause => simp [result, Except.map] at read
      | ok found =>
          obtain ⟨segments, -, sound, full, spelled, same⟩ := (readWords_eq_ok ..).mp result
          rw [result] at read
          cases read
          exact ⟨segments, sound, full, spelled, same, beq_iff_eq⟩
    · rintro ⟨segments, sound, full, spelled, rfl, marked⟩
      have some : segments ≠ [] := by
        rintro rfl
        exact nothing spelled
      have read := (readWords_eq_ok (foreground words) _).mpr
        ⟨segments, some, sound, full, spelled, rfl⟩
      rw [read, (eq_marked_iff words background).mpr marked]
      rfl

theorem ofWords_eq_error (words : List Text) (cause : SyntaxTrouble) :
    Pipeline.ofWords words = .error cause ↔
      foreground words ≠ [] ∧ FirstFault (foreground words) cause := by
  rw [ofWords_eq]
  by_cases nothing : foreground words = []
  · simp [nothing]
  · rw [if_neg nothing, FirstFault, ← readWords_eq_error _ _ [] Passed.start]
    cases readWords Stage.empty (foreground words) <;> simp [Except.map, nothing]

/-- Reading a line's words accepts what is written in the grammar, as it is written, and
refuses everything else for its leftmost fault. -/
theorem ofWords_exact (words : List Text) :
    (∀ pipeline, Pipeline.ofWords words = .ok pipeline ↔ Written words pipeline) ∧
      ∀ cause, Pipeline.ofWords words = .error cause ↔
        foreground words ≠ [] ∧ FirstFault (foreground words) cause := by
  constructor
  · exact ofWords_eq_ok words
  · exact ofWords_eq_error words

end CommandShell
