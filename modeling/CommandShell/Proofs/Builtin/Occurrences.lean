import CommandShell.Builtin.Lines
import Mathlib

/-!
Occurrences of a pattern in a line. Going from left to right, each one is the first that begins
where the one before has ended or later, and there is just one way to cut a line into occurrences
and what is between them. Marking puts a sign before and one behind each of them.
-/
namespace CommandShell

/-- Characters that a search takes for the same. Only the ASCII letters may differ in case. -/
def SameLetter (ignoreCase : Bool) (left right : Char) : Prop :=
  left = right ∨
    ignoreCase = true ∧ left.isAlpha = true ∧ right.isAlpha = true ∧ left.toLower = right.toLower

/-- Texts that a search takes for the same. -/
def SameText (ignoreCase : Bool) (pattern found : Text) : Prop :=
  List.Forall₂ (SameLetter ignoreCase) pattern found

/-- The pattern stands somewhere in the line. -/
def Occurs (ignoreCase : Bool) (pattern line : Text) : Prop :=
  ∃ before found after, line = before ++ found ++ after ∧ SameText ignoreCase pattern found

/-- A line cut into its occurrences, each with what is before it, and what is behind the last. -/
inductive Cut (ignoreCase : Bool) (pattern : Text) : Text → List (Text × Text) → Text → Prop
  | rest {line : Text} (none : ¬ Occurs ignoreCase pattern line) :
      Cut ignoreCase pattern line [] line
  | occurrence (before found after : Text) {tail : Text} {pieces : List (Text × Text)}
      (same : SameText ignoreCase pattern found)
      (leftmost : ∀ earlier other later, before ++ found ++ after = earlier ++ other ++ later →
        SameText ignoreCase pattern other → before.length ≤ earlier.length)
      (others : Cut ignoreCase pattern after pieces tail) :
      Cut ignoreCase pattern (before ++ found ++ after) ((before, found) :: pieces) tail

theorem isUpper_iff (c : Char) : c.isUpper = true ↔ 65 ≤ c.toNat ∧ c.toNat ≤ 90 := by
  simp only [Char.isUpper, decide_eq_true_eq, ge_iff_le, UInt32.le_iff_toNat_le]
  rfl

theorem isLower_iff (c : Char) : c.isLower = true ↔ 97 ≤ c.toNat ∧ c.toNat ≤ 122 := by
  simp only [Char.isLower, Bool.and_eq_true, decide_eq_true_eq, ge_iff_le, UInt32.le_iff_toNat_le]
  rfl

theorem toNat_toLower (c : Char) :
    c.toLower.toNat = if c.isUpper then c.toNat + 32 else c.toNat := by
  by_cases upper : c.isUpper = true
  · have range := (isUpper_iff c).mp upper
    have lowered : c.toLower.val = c.val + 32 := by
      unfold Char.toLower
      rw [dif_pos (by simpa [Char.isUpper] using upper)]
      rfl
    rw [if_pos upper, Char.toNat, lowered, UInt32.toNat_add]
    change (c.toNat + 32) % 2 ^ 32 = _
    omega
  · rw [if_neg upper]
    unfold Char.toLower
    rw [dif_neg (by simpa [Char.isUpper] using upper)]

theorem lowerAscii_eq (c : Char) : lowerAscii c = c.toLower := by
  have same : (decide ('A' ≤ c) && decide (c ≤ 'Z')) = c.isUpper := by
    simp [Char.isUpper, Char.le_def]
  apply Char.toNat_inj.mp
  rw [toNat_toLower, lowerAscii, same]
  split
  · next upper =>
      have range := (isUpper_iff c).mp upper
      have valid : (c.toNat + 32).isValidChar := .inl (by omega)
      rw [Char.ofNat, dif_pos valid]
      rfl
  · rfl

theorem caseFold_eq_iff {ignoreCase : Bool} {left right : Char} :
    caseFold ignoreCase left = caseFold ignoreCase right ↔ SameLetter ignoreCase left right := by
  cases ignoreCase with
  | false => simp [caseFold, SameLetter]
  | true =>
      simp only [caseFold, if_true, lowerAscii_eq, SameLetter, true_and]
      constructor
      · intro folded
        have numbers := congrArg Char.toNat folded
        rw [toNat_toLower, toNat_toLower] at numbers
        simp only [isUpper_iff] at numbers
        by_cases same : left = right
        · exact .inl same
        · have differ : left.toNat ≠ right.toNat := fun numbers => same (Char.toNat_inj.mp numbers)
          refine .inr ⟨?_, ?_, folded⟩
          · simp only [Char.isAlpha, Bool.or_eq_true, isUpper_iff, isLower_iff]
            split at numbers <;> split at numbers <;> omega
          · simp only [Char.isAlpha, Bool.or_eq_true, isUpper_iff, isLower_iff]
            split at numbers <;> split at numbers <;> omega
      · rintro (rfl | ⟨-, -, folded⟩)
        · rfl
        · exact folded

theorem sameText_iff {ignoreCase : Bool} {pattern found : Text} :
    SameText ignoreCase pattern found ↔
      pattern.map (caseFold ignoreCase) = found.map (caseFold ignoreCase) := by
  rw [← List.forall₂_eq_eq_eq, List.forall₂_map_left_iff, List.forall₂_map_right_iff, SameText]
  simp only [caseFold_eq_iff]

section

variable {ignoreCase : Bool} {pattern : Text}

theorem SameText.length_eq {found : Text} (same : SameText ignoreCase pattern found) :
    pattern.length = found.length :=
  List.Forall₂.length_eq same

theorem occursHere_iff {line : Text} :
    occursHere (caseFold ignoreCase) pattern line = true ↔
      ∃ found after, line = found ++ after ∧ SameText ignoreCase pattern found := by
  fun_induction occursHere (caseFold ignoreCase) pattern line with
  | case1 line => exact iff_of_true rfl ⟨[], line, rfl, .nil⟩
  | case2 p pattern =>
      refine iff_of_false Bool.false_ne_true ?_
      rintro ⟨found, after, split, same⟩
      rw [(List.append_eq_nil_iff.mp split.symm).1] at same
      cases same
  | case3 p pattern c line ih =>
      rw [Bool.and_eq_true, beq_iff_eq, caseFold_eq_iff, ih]
      constructor
      · rintro ⟨first, found, after, rfl, same⟩
        exact ⟨c :: found, after, rfl, .cons first same⟩
      · rintro ⟨found, after, split, same⟩
        cases same with
        | cons first others =>
            rw [List.cons_append, List.cons.injEq] at split
            obtain ⟨rfl, rest⟩ := split
            exact ⟨first, _, after, rest, others⟩

theorem occursIn_iff {line : Text} :
    occursIn (caseFold ignoreCase) pattern line = true ↔ Occurs ignoreCase pattern line := by
  induction line with
  | nil =>
      rw [occursIn, occursHere_iff]
      constructor
      · rintro ⟨found, after, split, same⟩
        exact ⟨[], found, after, split, same⟩
      · rintro ⟨before, found, after, split, same⟩
        obtain ⟨front, rfl⟩ := List.append_eq_nil_iff.mp split.symm
        exact ⟨found, [], by rw [(List.append_eq_nil_iff.mp front).2]; rfl, same⟩
  | cons c rest ih =>
      rw [occursIn, Bool.or_eq_true, ih, occursHere_iff]
      constructor
      · rintro (⟨found, after, split, same⟩ | ⟨before, found, after, rfl, same⟩)
        · exact ⟨[], found, after, split, same⟩
        · exact ⟨c :: before, found, after, rfl, same⟩
      · rintro ⟨before, found, after, split, same⟩
        cases before with
        | nil => exact .inl ⟨found, after, split, same⟩
        | cons first before =>
            rw [List.cons_append, List.cons_append, List.cons.injEq] at split
            exact .inr ⟨before, found, after, split.2, same⟩

instance (ignoreCase : Bool) (pattern line : Text) : Decidable (Occurs ignoreCase pattern line) :=
  decidable_of_iff _ occursIn_iff

/-! Cuts. -/

/-- A line with each of its occurrences between two signs. -/
def withMarks (pieces : List (Text × Text)) (tail : Text) : Text :=
  pieces.flatMap (fun (before, found) =>
    before ++ "\x1b[1;31m".toList ++ found ++ "\x1b[0m".toList) ++ tail

theorem withMarks_cons (before found : Text) (pieces : List (Text × Text)) (tail : Text) :
    withMarks ((before, found) :: pieces) tail =
      before ++ markOn ++ found ++ markOff ++ withMarks pieces tail := by
  simp [withMarks, markOn, markOff]

theorem Occurs.of_cons {c : Char} {rest : Text} (occurs : Occurs ignoreCase pattern (c :: rest))
    (later : ¬ occursHere (caseFold ignoreCase) pattern (c :: rest) = true) :
    Occurs ignoreCase pattern rest := by
  have found := occursIn_iff.mpr occurs
  rw [occursIn, Bool.or_eq_true, or_iff_right later] at found
  exact occursIn_iff.mp found

/-- A character at which no occurrence begins stands before the first one, or before the end. -/
theorem Cut.cons {rest tail : Text} {pieces : List (Text × Text)}
    (cut : Cut ignoreCase pattern rest pieces tail) {c : Char}
    (later : ¬ occursHere (caseFold ignoreCase) pattern (c :: rest) = true) :
    ∃ others behind, Cut ignoreCase pattern (c :: rest) others behind ∧
      withMarks others behind = c :: withMarks pieces tail := by
  cases cut with
  | rest none => exact ⟨[], c :: rest, .rest fun occurs => none (occurs.of_cons later), rfl⟩
  | occurrence before found after same leftmost others =>
      refine ⟨_, tail, .occurrence (c :: before) found after same ?_ others, rfl⟩
      intro earlier other remains split again
      cases earlier with
      | nil =>
          -- Then the pattern would stand at the character itself.
          exact absurd (occursHere_iff.mpr ⟨other, remains, split, again⟩) later
      | cons first earlier =>
          rw [List.cons_append, List.cons_append, List.cons_append, List.cons_append,
            List.cons.injEq] at split
          exact Nat.succ_le_succ (leftmost earlier other remains split.2 again)

theorem Cut.unique {line tail behind : Text} {pieces others : List (Text × Text)}
    (cut : Cut ignoreCase pattern line pieces tail)
    (other : Cut ignoreCase pattern line others behind) : others = pieces ∧ behind = tail := by
  induction cut generalizing others behind with
  | rest none =>
      cases other with
      | rest => exact ⟨rfl, rfl⟩
      | occurrence before found after same => exact absurd ⟨before, found, after, rfl, same⟩ none
  | occurrence before found after same leftmost _ ih =>
      generalize whole : before ++ found ++ after = line at other
      cases other with
      | rest none => exact absurd ⟨before, found, after, whole.symm, same⟩ none
      | occurrence front again remains alike first later =>
          have low := leftmost front again remains whole alike
          have high := first before found after whole.symm same
          rw [List.append_assoc, List.append_assoc] at whole
          obtain ⟨rfl, right⟩ := List.append_inj whole (Nat.le_antisymm low high)
          obtain ⟨rfl, rfl⟩ := List.append_inj right (same.length_eq.symm.trans alike.length_eq)
          obtain ⟨rfl, rfl⟩ := ih later
          exact ⟨rfl, rfl⟩

theorem markOccurrences_inside {found : Text} (filled : found ≠ []) (after : Text) :
    markOccurrences (caseFold ignoreCase) pattern found.length (found ++ after) =
      found ++ markOff ++ markOccurrences (caseFold ignoreCase) pattern 0 after := by
  induction found with
  | nil => exact absurd rfl filled
  | cons c rest ih =>
      rw [List.length_cons, List.cons_append, markOccurrences]
      cases rest with
      | nil => rfl
      | cons next others =>
          rw [if_neg (by simp), ih (List.cons_ne_nil next others)]
          rfl

theorem markOccurrences_here {found : Text} (filled : pattern ≠ [])
    (same : SameText ignoreCase pattern found) (after : Text) :
    markOccurrences (caseFold ignoreCase) pattern 0 (found ++ after) =
      markOn ++ found ++ markOff ++ markOccurrences (caseFold ignoreCase) pattern 0 after := by
  have here : occursHere (caseFold ignoreCase) pattern (found ++ after) = true :=
    occursHere_iff.mpr ⟨found, after, rfl, same⟩
  have long := same.length_eq
  cases found with
  | nil => exact absurd (List.length_eq_zero_iff.mp long) filled
  | cons c rest =>
      rw [List.cons_append] at here ⊢
      rw [markOccurrences, if_pos here, long]
      by_cases alone : rest = []
      · subst alone
        rfl
      · have more : rest.length ≠ 0 := fun none => alone (List.length_eq_zero_iff.mp none)
        rw [List.length_cons, if_neg (by omega), Nat.add_sub_cancel, List.nil_append,
          markOccurrences_inside alone]
        simp

theorem markOccurrences_cut (filled : pattern ≠ []) (line : Text) :
    ∃ pieces tail, Cut ignoreCase pattern line pieces tail ∧
      markOccurrences (caseFold ignoreCase) pattern 0 line = withMarks pieces tail := by
  -- Behind an occurrence the line goes on with what is left of it, which is shorter.
  induction size : line.length using Nat.strongRecOn generalizing line with
  | ind size ih =>
    subst size
    cases line with
    | nil =>
        refine ⟨[], [], .rest ?_, rfl⟩
        rintro ⟨before, found, after, split, same⟩
        obtain ⟨front, -⟩ := List.append_eq_nil_iff.mp split.symm
        rw [(List.append_eq_nil_iff.mp front).2] at same
        exact filled (List.length_eq_zero_iff.mp same.length_eq)
    | cons c rest =>
        by_cases here : occursHere (caseFold ignoreCase) pattern (c :: rest) = true
        · obtain ⟨found, after, split, same⟩ := occursHere_iff.mp here
          have long : 0 < found.length := by
            rw [← same.length_eq]
            exact List.length_pos_iff.mpr filled
          have shorter : after.length < (c :: rest).length := by
            rw [split, List.length_append]
            omega
          obtain ⟨pieces, tail, others, written⟩ := ih after.length shorter after rfl
          refine ⟨([], found) :: pieces, tail, ?_, ?_⟩
          · rw [split]
            exact .occurrence [] found after same (fun _ _ _ _ _ => Nat.zero_le _) others
          · rw [split, markOccurrences_here filled same, written, withMarks_cons]
            rfl
        · obtain ⟨pieces, tail, cut, written⟩ := ih rest.length (Nat.lt_succ_self _) rest rfl
          obtain ⟨others, behind, longer, same⟩ := cut.cons here
          refine ⟨others, behind, longer, ?_⟩
          rw [markOccurrences, if_neg here, written, same]

end

end CommandShell
