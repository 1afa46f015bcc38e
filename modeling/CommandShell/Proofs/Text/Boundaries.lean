import CommandShell.Proofs.Text.Lines
import Mathlib.Data.List.Basic

/-!
Cutting a text at a byte offset. A cut may go at the end of the text and before a byte that begins
a character, and these are the offsets with whole characters on both sides. Looking down from any
offset such a place is found, and what is before it is as much of the text as fits.
-/
namespace CommandShell

/-- Is this the offset of the text's end, or that of a byte that begins a character? -/
def isBoundary (text : Text) (offset : Nat) : Bool :=
  match (encode text)[offset]? with
  | some byte => decide byte.IsUTF8FirstByte
  | none => offset == byteLength text

/-- The text before an offset, if a cut may go there. -/
def cutAt? (text : Text) (offset : Nat) : Option Text :=
  if isBoundary text offset then decode? ((encode text).take offset) else none

/-- The first place for a cut from an offset downwards, if there is one at all. -/
def boundaryBelow? (text : Text) : Nat → Option Nat
  | 0 => if isBoundary text 0 then some 0 else none
  | offset + 1 =>
      if isBoundary text (offset + 1) then some (offset + 1) else boundaryBelow? text offset

theorem byteLength_le_of_begins {front text : Text} (begins : front <+: text) :
    byteLength front ≤ byteLength text := by
  obtain ⟨rest, rfl⟩ := begins
  rw [byteLength_append]
  exact Nat.le_add_right _ _

theorem isBoundary_nil (offset : Nat) : isBoundary [] offset = true ↔ offset = 0 := by
  simp [isBoundary, encode, byteLength]

section Boundary

variable {c : Char} {rest : Text} {offset : Nat}

theorem isBoundary_within (inside : offset < c.utf8Size) :
    isBoundary (c :: rest) offset = true ↔ offset = 0 := by
  have early : offset < (String.utf8EncodeChar c).length := by
    rw [String.length_utf8EncodeChar]
    exact inside
  have known : (encode (c :: rest))[offset]? = some (String.utf8EncodeChar c)[offset] := by
    rw [encode, List.flatMap_cons, List.getElem?_append_left early, List.getElem?_eq_getElem]
  rw [isBoundary, known, decide_eq_true_eq]
  exact UInt8.isUTF8FirstByte_getElem_utf8EncodeChar

theorem isBoundary_behind (behind : c.utf8Size ≤ offset) :
    isBoundary (c :: rest) offset = isBoundary rest (offset - c.utf8Size) := by
  have late : (String.utf8EncodeChar c).length ≤ offset := by
    rw [String.length_utf8EncodeChar]
    exact behind
  have known : (encode (c :: rest))[offset]? = (encode rest)[offset - c.utf8Size]? := by
    rw [encode, List.flatMap_cons, List.getElem?_append_right late, String.length_utf8EncodeChar]
    rfl
  rw [isBoundary, isBoundary, known, byteLength]
  split
  · rfl
  · rw [Bool.eq_iff_iff, beq_iff_eq, beq_iff_eq]
    omega

end Boundary

theorem isBoundary_iff {text : Text} {offset : Nat} :
    isBoundary text offset = true ↔ ∃ front, front <+: text ∧ byteLength front = offset := by
  induction text generalizing offset with
  | nil =>
      rw [isBoundary_nil]
      constructor
      · rintro rfl
        exact ⟨[], List.prefix_refl [], rfl⟩
      · rintro ⟨front, begins, rfl⟩
        rw [List.prefix_nil.mp begins]
        rfl
  | cons c rest ih =>
      by_cases inside : offset < c.utf8Size
      · rw [isBoundary_within inside]
        constructor
        · rintro rfl
          exact ⟨[], List.nil_prefix, rfl⟩
        · rintro ⟨front, begins, rfl⟩
          rcases List.prefix_cons_iff.mp begins with rfl | ⟨more, rfl, -⟩
          · rfl
          · rw [byteLength] at inside
            omega
      · have behind := Nat.le_of_not_lt inside
        have wide := c.utf8Size_pos
        rw [isBoundary_behind behind, ih]
        constructor
        · rintro ⟨front, begins, ends⟩
          refine ⟨c :: front, (List.prefix_cons_inj c).mpr begins, ?_⟩
          rw [byteLength]
          omega
        · rintro ⟨front, begins, rfl⟩
          rcases List.prefix_cons_iff.mp begins with rfl | ⟨more, rfl, later⟩
          · rw [byteLength] at behind
            omega
          · refine ⟨more, later, ?_⟩
            rw [byteLength]
            omega

theorem cutAt?_eq_some {text front : Text} {offset : Nat} :
    cutAt? text offset = some front ↔ front <+: text ∧ byteLength front = offset := by
  have taken : ∀ {front}, front <+: text → byteLength front = offset →
      decode? ((encode text).take offset) = some front := by
    rintro front ⟨rest, rfl⟩ rfl
    rw [encode_append, List.take_left' (length_encode front), decode?_encode]
  unfold cutAt?
  constructor
  · intro cut
    split at cut
    · next legal =>
        obtain ⟨other, begins, ends⟩ := isBoundary_iff.mp legal
        rw [taken begins ends] at cut
        cases cut
        exact ⟨begins, ends⟩
    · cases cut
  · rintro ⟨begins, ends⟩
    rw [if_pos (isBoundary_iff.mpr ⟨front, begins, ends⟩), taken begins ends]

/-- The part of a text between two offsets, if cuts may go at both. -/
def slice? (text : Text) (start stop : Nat) : Option Text :=
  if start ≤ stop ∧ isBoundary text start = true ∧ isBoundary text stop = true then
    decode? (((encode text).take stop).drop start)
  else none

theorem slice?_middle (front piece after : Text) :
    slice? (front ++ piece ++ after) (byteLength front) (byteLength (front ++ piece)) =
      some piece := by
  have start : isBoundary (front ++ piece ++ after) (byteLength front) = true :=
    isBoundary_iff.mpr ⟨front, ⟨piece ++ after, by rw [List.append_assoc]⟩, rfl⟩
  have stop : isBoundary (front ++ piece ++ after) (byteLength (front ++ piece)) = true :=
    isBoundary_iff.mpr ⟨front ++ piece, ⟨after, rfl⟩, rfl⟩
  have ordered : byteLength front ≤ byteLength (front ++ piece) := by
    rw [byteLength_append]
    exact Nat.le_add_right _ _
  rw [slice?, if_pos ⟨ordered, start, stop⟩, encode_append, List.take_left' (length_encode _),
    encode_append, List.drop_left' (length_encode _), decode?_encode]

theorem cutAt?_clip (limit : Nat) (text : Text) :
    cutAt? text (byteLength (clip limit text)) = some (clip limit text) :=
  cutAt?_eq_some.mpr ⟨clip_begins limit text, rfl⟩

theorem clip_succ {text : Text} {limit : Nat} (refused : ¬ isBoundary text (limit + 1) = true) :
    byteLength (clip (limit + 1) text) = byteLength (clip limit text) := by
  have begins := clip_begins (limit + 1) text
  have fits := byteLength_clip (limit + 1) text
  have other : byteLength (clip (limit + 1) text) ≠ limit + 1 :=
    fun ends => refused (isBoundary_iff.mpr ⟨_, begins, ends⟩)
  have down := prefix_clip begins (Nat.le_of_lt_succ (Nat.lt_of_le_of_ne fits other))
  have up := prefix_clip (clip_begins limit text)
    (Nat.le_succ_of_le (byteLength_clip limit text))
  exact Nat.le_antisymm (byteLength_le_of_begins down) (byteLength_le_of_begins up)

theorem byteLength_clip_of_boundary {text : Text} {limit : Nat}
    (legal : isBoundary text limit = true) : byteLength (clip limit text) = limit := by
  obtain ⟨front, begins, rfl⟩ := isBoundary_iff.mp legal
  have kept := byteLength_le_of_begins (prefix_clip begins (Nat.le_refl _))
  exact Nat.le_antisymm (byteLength_clip _ text) kept

theorem boundaryBelow?_eq (text : Text) (limit : Nat) :
    boundaryBelow? text limit = some (byteLength (clip limit text)) := by
  induction limit with
  | zero =>
      have start : isBoundary text 0 = true :=
        isBoundary_iff.mpr ⟨[], List.nil_prefix, rfl⟩
      rw [boundaryBelow?, if_pos start, byteLength_clip_of_boundary start]
  | succ limit ih =>
      rw [boundaryBelow?]
      split
      · next legal => rw [byteLength_clip_of_boundary legal]
      · next refused => rw [ih, clip_succ refused]

end CommandShell
