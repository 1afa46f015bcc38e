import CommandShell.Text.Line
import Mathlib.Data.List.Basic

/-!
Lines that are written down and read again. The byte of a newline stands in no other character,
so encoded text falls into encoded lines. What follows a closed line is read by itself, and what
follows a line that is still open goes on with it. Where the length of a line is limited, a text
is cut off behind its last character that fits.
-/
namespace CommandShell

/-! Pieces between separators. -/

section Pieces

variable {α : Type} {separates : α → Bool}

theorem fields_unbroken {items : List α} (unbroken : ∀ item ∈ items, separates item = false) :
    fields separates items = [items] := by
  induction items with
  | nil => rfl
  | cons item rest ih =>
      have first := unbroken item (List.mem_cons_self ..)
      have others := ih fun other inside => unbroken other (List.mem_cons_of_mem _ inside)
      simp only [fields, first, others, Bool.false_eq_true, if_false]

theorem fields_append_separator {item : α} (cut : separates item = true) (left right : List α) :
    fields separates (left ++ item :: right) = fields separates left ++ fields separates right := by
  induction left with
  | nil => exact fields_cons_separator separates item right cut
  | cons first rest ih =>
      simp only [List.cons_append, fields, ih]
      split
      · rfl
      · cases whole : fields separates rest with
        | nil => exact absurd whole (fields_ne_nil separates rest)
        | cons piece pieces => rfl

theorem fields_cons_inside (separates : α → Bool) {item : α} (inside : separates item = false)
    (rest : List α) :
    fields separates (item :: rest) = (fields separates rest).modifyHead (item :: ·) := by
  rw [fields, if_neg (by simp [inside])]
  cases whole : fields separates rest with
  | nil => exact absurd whole (fields_ne_nil separates rest)
  | cons piece pieces => rfl

theorem mem_fields {items piece : List α} (member : piece ∈ fields separates items) :
    ∀ item ∈ piece, item ∈ items ∧ separates item = false := by
  induction items generalizing piece with
  | nil =>
      intro item inside
      rw [List.mem_singleton.mp member] at inside
      cases inside
  | cons first rest ih =>
      intro item inside
      cases cut : separates first with
      | true =>
          rw [fields_cons_separator separates first rest cut] at member
          rcases List.mem_cons.mp member with rfl | later
          · cases inside
          · obtain ⟨old, kept⟩ := ih later item inside
            exact ⟨List.mem_cons_of_mem first old, kept⟩
      | false =>
          rw [fields_cons_inside separates cut] at member
          cases whole : fields separates rest with
          | nil => exact absurd whole (fields_ne_nil separates rest)
          | cons head tail =>
              rw [whole, List.modifyHead_cons] at member
              rw [whole] at ih
              rcases List.mem_cons.mp member with rfl | later
              · rcases List.mem_cons.mp inside with rfl | further
                · exact ⟨List.mem_cons_self .., cut⟩
                · obtain ⟨old, kept⟩ := ih (List.mem_cons_self ..) item further
                  exact ⟨List.mem_cons_of_mem first old, kept⟩
              · obtain ⟨old, kept⟩ := ih (List.mem_cons_of_mem head later) item inside
                exact ⟨List.mem_cons_of_mem first old, kept⟩

theorem joinWith_concat (separator : List α) {pieces : List (List α)} (filled : pieces ≠ [])
    (last : List α) :
    joinWith separator (pieces ++ [last]) = joinWith separator pieces ++ separator ++ last := by
  fun_induction joinWith separator pieces with
  | case1 => exact absurd rfl filled
  | case2 => rfl
  | case3 piece next rest ih =>
      have others := ih (List.cons_ne_nil next rest)
      rw [List.cons_append] at others
      simp only [List.cons_append, joinWith, others, List.append_assoc]

theorem fields_joinWith {separator : α} (cut : separates separator = true)
    {pieces : List (List α)} (filled : pieces ≠ [])
    (solid : ∀ piece ∈ pieces, ∀ item ∈ piece, separates item = false) :
    fields separates (joinWith [separator] pieces) = pieces := by
  fun_induction joinWith [separator] pieces with
  | case1 => exact absurd rfl filled
  | case2 piece => exact fields_unbroken (solid piece List.mem_cons_self)
  | case3 piece next rest ih =>
      have others := ih (List.cons_ne_nil next rest) fun other inside =>
        solid other (List.mem_cons_of_mem piece inside)
      rw [List.append_assoc, List.singleton_append, fields_append_separator cut, others,
        fields_unbroken (solid piece List.mem_cons_self)]
      rfl

theorem infix_joinWith (separator : List α) {piece : List α} {pieces : List (List α)}
    (inside : piece ∈ pieces) : piece <:+: joinWith separator pieces := by
  fun_induction joinWith separator pieces with
  | case1 => cases inside
  | case2 other => exact List.mem_singleton.mp inside ▸ List.infix_refl piece
  | case3 other next rest ih =>
      rcases List.mem_cons.mp inside with rfl | later
      · rw [List.append_assoc]
        exact (List.prefix_append _ _).isInfix
      · exact (ih later).trans (List.suffix_append _ _).isInfix

theorem dropEndWhile_append {test : α → Bool} {item : α} (kept : test item = false)
    (items : List α) : dropEndWhile test (items ++ [item]) = items ++ [item] := by
  simp [dropEndWhile, kept]

theorem dropEndWhile_none {test : α → Bool} {items : List α}
    (kept : ∀ item ∈ items, test item = false) : dropEndWhile test items = items := by
  rcases items.eq_nil_or_concat with rfl | ⟨front, last, rfl⟩
  · rfl
  · rw [List.concat_eq_append] at kept ⊢
    exact dropEndWhile_append (kept last (by simp)) front

end Pieces

/-! Encoded text. -/

theorem encode_append (left right : Text) : encode (left ++ right) = encode left ++ encode right :=
  List.flatMap_append

theorem high_of_mem_utf8EncodeChar {c : Char} (wide : 128 ≤ c.toNat) :
    ∀ byte ∈ String.utf8EncodeChar c, 128 ≤ byte.toNat := by
  intro byte inside
  have small : ¬ c.val.toNat ≤ 127 := Nat.not_le_of_lt wide
  unfold String.utf8EncodeChar at inside
  simp only [if_neg small] at inside
  split at inside
  · simp only [List.mem_cons, List.not_mem_nil, or_false] at inside
    rcases inside with rfl | rfl <;> (rw [UInt8.toNat_ofNat']; omega)
  · split at inside
    · simp only [List.mem_cons, List.not_mem_nil, or_false] at inside
      rcases inside with rfl | rfl | rfl <;> (rw [UInt8.toNat_ofNat']; omega)
    · simp only [List.mem_cons, List.not_mem_nil, or_false] at inside
      rcases inside with rfl | rfl | rfl | rfl <;> (rw [UInt8.toNat_ofNat']; omega)

theorem utf8EncodeChar_ascii {c : Char} (narrow : c.toNat < 128) :
    String.utf8EncodeChar c = [UInt8.ofNat c.toNat] := by
  have small : c.val.toNat ≤ 127 := Nat.le_of_lt_succ narrow
  rw [String.utf8EncodeChar, if_pos small]
  rfl

theorem mem_utf8EncodeChar (ascii : Char) (low : ascii.toNat < 128) (c : Char) :
    UInt8.ofNat ascii.toNat ∈ String.utf8EncodeChar c ↔ c = ascii := by
  have byte : (UInt8.ofNat ascii.toNat).toNat = ascii.toNat := by
    rw [UInt8.toNat_ofNat']
    omega
  constructor
  · intro inside
    by_cases narrow : c.toNat < 128
    · rw [utf8EncodeChar_ascii narrow, List.mem_singleton] at inside
      have same := congrArg UInt8.toNat inside
      rw [byte, UInt8.toNat_ofNat'] at same
      apply Char.toNat_inj.mp
      omega
    · have high := high_of_mem_utf8EncodeChar (Nat.le_of_not_lt narrow) _ inside
      omega
  · rintro rfl
    rw [utf8EncodeChar_ascii low]
    exact List.mem_singleton_self _

theorem mem_encode (ascii : Char) (low : ascii.toNat < 128) (text : Text) :
    UInt8.ofNat ascii.toNat ∈ encode text ↔ ascii ∈ text := by
  simp [encode, mem_utf8EncodeChar ascii low]

theorem newline_mem_encode (text : Text) : newline ∈ encode text ↔ '\n' ∈ text :=
  mem_encode '\n' (by decide) text

theorem encode_eq_nil {text : Text} : encode text = [] ↔ text = [] := by
  cases text with
  | nil => exact iff_of_true rfl rfl
  | cons c rest =>
      refine iff_of_false (fun nothing => ?_) (List.cons_ne_nil c rest)
      exact String.utf8EncodeChar_ne_nil (List.append_eq_nil_iff.mp nothing).1

theorem encode_concat (text : Text) (c : Char) :
    encode (text ++ [c]) = encode text ++ String.utf8EncodeChar c := by
  rw [encode_append]
  simp [encode]

theorem getLast?_encode (ascii : Char) (low : ascii.toNat < 128) (text : Text) :
    (encode text).getLast? = some (UInt8.ofNat ascii.toNat) ↔ text.getLast? = some ascii := by
  rcases text.eq_nil_or_concat with rfl | ⟨front, c, rfl⟩
  · simp [encode]
  · rw [List.concat_eq_append, encode_concat, List.getLast?_concat,
      List.getLast?_append_of_ne_nil _ String.utf8EncodeChar_ne_nil, Option.some_inj]
    constructor
    · intro last
      exact (mem_utf8EncodeChar ascii low c).mp (List.mem_of_getLast? last)
    · rintro rfl
      rw [utf8EncodeChar_ascii low]
      rfl

theorem open_bytes {content : Bytes} (opened : newline ∉ content) :
    ∀ byte ∈ content, (byte == newline) = false := by
  intro byte inside
  apply beq_false_of_ne
  rintro rfl
  exact opened inside

/-! Lines of bytes. -/

/-- Content in which the last line, if there is one, has its end. -/
def Closed (content : Bytes) : Prop :=
  content = [] ∨ content.getLast? = some newline

theorem closeLines_append (pieces : List Bytes) {others : List Bytes} (filled : others ≠ []) :
    closeLines (pieces ++ others) = pieces.map dropReturn ++ closeLines others := by
  induction pieces with
  | nil => rfl
  | cons piece rest ih =>
      have more : rest ++ others ≠ [] := by simp [filled]
      rw [List.cons_append, closeLines, ih]
      · rfl
      · exact more

theorem Closed.rawLines_append {front : Bytes} (closed : Closed front) (content : Bytes) :
    rawLines (front ++ content) = rawLines front ++ rawLines content := by
  rcases closed with rfl | ends
  · rfl
  · obtain ⟨lines, rfl⟩ := List.getLast?_eq_some_iff.mp ends
    have cut : ∀ others, fields (· == newline) (lines ++ newline :: others) =
        fields (· == newline) lines ++ fields (· == newline) others :=
      fun others => fields_append_separator rfl lines others
    rw [List.append_assoc, List.singleton_append, rawLines, rawLines, rawLines, cut, cut,
      closeLines_append _ (fields_ne_nil _ _), closeLines_append _ (fields_ne_nil _ _)]
    simp [fields, closeLines]

theorem rawLines_open {content : Bytes} (opened : newline ∉ content) :
    rawLines content = if content.isEmpty then [] else [content] := by
  rw [rawLines, fields_unbroken (open_bytes opened), closeLines]

theorem rawLines_line {content : Bytes} (opened : newline ∉ content) :
    rawLines (content ++ [newline]) = [dropReturn content] := by
  rw [rawLines, fields_append_separator rfl, fields_unbroken (open_bytes opened)]
  rfl

theorem textLines?_eq (content : Bytes) :
    textLines? content = (rawLines content).mapM decode? := by
  unfold textLines? readLines
  simp only
  induction rawLines content with
  | nil => rfl
  | cons raw rest ih =>
      rw [List.mapM_cons, ← ih, leadingTexts]
      cases decode? raw with
      | none => rfl
      | some line =>
          simp only
          split
          · rfl
          · rfl

theorem readLines_eq {content : Bytes} {lines : List Text}
    (read : textLines? content = some lines) : readLines content = (lines, true) := by
  unfold textLines? at read
  simp only at read
  split at read
  · next whole => exact Prod.ext (Option.some.inj read) whole
  · cases read

theorem Closed.textLines?_append {front content : Bytes} {before lines : List Text}
    (closed : Closed front) (first : textLines? front = some before)
    (second : textLines? content = some lines) :
    textLines? (front ++ content) = some (before ++ lines) := by
  rw [textLines?_eq] at first second ⊢
  rw [closed.rawLines_append, List.mapM_append, first, second]
  rfl

/-! Lines of text. -/

theorem closed_encode (text : Text) :
    Closed (encode text) ↔ text = [] ∨ text.getLast? = some '\n' := by
  have last : (encode text).getLast? = some newline ↔ text.getLast? = some '\n' :=
    getLast?_encode '\n' (by decide) text
  rw [Closed, last, encode_eq_nil]

/-- A text that comes back as it is when it is read as a line. -/
structure IsLine (line : Text) : Prop where
  unbroken : '\n' ∉ line
  bare : line.getLast? ≠ some '\r'

instance (line : Text) : Decidable (IsLine line) :=
  decidable_of_iff ('\n' ∉ line ∧ line.getLast? ≠ some '\r')
    ⟨fun ⟨unbroken, bare⟩ => ⟨unbroken, bare⟩, fun ⟨unbroken, bare⟩ => ⟨unbroken, bare⟩⟩

theorem dropReturn_encode {text : Text} (bare : text.getLast? ≠ some '\r') :
    dropReturn (encode text) = encode text := by
  unfold dropReturn
  split
  · next last => exact absurd ((getLast?_encode '\r' (by decide) text).mp last) bare
  · rfl

theorem closed_lineBytes (line : Text) : Closed (lineBytes line) :=
  Or.inr List.getLast?_concat

theorem Closed.append {front content : Bytes} (first : Closed front) (second : Closed content) :
    Closed (front ++ content) := by
  rcases second with rfl | last
  · rwa [List.append_nil]
  · right
    rw [List.getLast?_append, last]
    rfl

theorem closed_writeLines (lines : List Text) : Closed (writeLines lines) := by
  induction lines with
  | nil => exact Or.inl rfl
  | cons line rest ih => exact (closed_lineBytes line).append ih

namespace IsLine

theorem textLines?_lineBytes {line : Text} (isLine : IsLine line) :
    textLines? (lineBytes line) = some [line] := by
  have opened : newline ∉ encode line := fun inside =>
    isLine.unbroken ((newline_mem_encode line).mp inside)
  rw [textLines?_eq, lineBytes, rawLines_line opened, dropReturn_encode isLine.bare]
  simp [decode?_encode]

theorem textLines?_writeLines {lines : List Text} (each : ∀ line ∈ lines, IsLine line) :
    textLines? (writeLines lines) = some lines := by
  induction lines with
  | nil => rfl
  | cons line rest ih =>
      have first := (each line (List.mem_cons_self ..)).textLines?_lineBytes
      have others := ih fun other inside => each other (List.mem_cons_of_mem line inside)
      exact (closed_lineBytes line).textLines?_append first others

end IsLine

theorem dropReturn_encode_return (line : Text) :
    dropReturn (encode (line ++ ['\r'])) = encode line := by
  have bytes : encode (line ++ ['\r']) = encode line ++ [13] := encode_concat line '\r'
  rw [bytes, dropReturn, List.getLast?_concat]
  exact List.dropLast_concat

theorem textLines?_closed {piece line rest : Text} {lines : List Text} (unbroken : '\n' ∉ piece)
    (dropped : dropReturn (encode piece) = encode line)
    (others : textLines? (encode rest) = some lines) :
    textLines? (encode (piece ++ '\n' :: rest)) = some (line :: lines) := by
  have opened : newline ∉ encode piece := fun inside =>
    unbroken ((newline_mem_encode piece).mp inside)
  have first : textLines? (encode piece ++ [newline]) = some [line] := by
    rw [textLines?_eq, rawLines_line opened, dropped]
    simp [decode?_encode]
  have bytes : encode (piece ++ '\n' :: rest) = encode piece ++ [newline] ++ encode rest := by
    rw [encode_append, List.append_assoc]
    rfl
  rw [bytes]
  exact Closed.textLines?_append (closed_lineBytes piece) first others

/-- The lines of a text. A newline closes a line, and a carriage return before it belongs to the
line end. What is behind the last newline is a line if there is something. -/
inductive HasLines : Text → List Text → Prop
  | none : HasLines [] []
  | opened {line : Text} (filled : line ≠ []) (unbroken : '\n' ∉ line) : HasLines line [line]
  | closed {line rest : Text} {lines : List Text} (isLine : IsLine line)
      (others : HasLines rest lines) : HasLines (line ++ '\n' :: rest) (line :: lines)
  | returned {line rest : Text} {lines : List Text} (unbroken : '\n' ∉ line)
      (others : HasLines rest lines) :
      HasLines (line ++ ['\r'] ++ '\n' :: rest) (line :: lines)

namespace HasLines

variable {text : Text} {lines : List Text}

theorem textLines? (has : HasLines text lines) :
    CommandShell.textLines? (encode text) = some lines := by
  induction has with
  | none => rfl
  | @opened line filled unbroken =>
      have opened : newline ∉ encode line := fun inside =>
        unbroken ((newline_mem_encode line).mp inside)
      have content : (encode line).isEmpty = false := by simpa [encode_eq_nil] using filled
      rw [textLines?_eq, rawLines_open opened, content]
      simp [decode?_encode]
  | closed isLine others ih =>
      exact textLines?_closed isLine.unbroken (dropReturn_encode isLine.bare) ih
  | @returned line rest lines unbroken others ih =>
      have whole : '\n' ∉ line ++ ['\r'] := by simpa using unbroken
      exact textLines?_closed whole (dropReturn_encode_return line) ih

theorem unique {others : List Text} (has : HasLines text lines) (other : HasLines text others) :
    lines = others :=
  Option.some.inj (has.textLines?.symm.trans other.textLines?)

theorem unbroken (has : HasLines text lines) : ∀ line ∈ lines, '\n' ∉ line := by
  induction has with
  | none => exact fun line inside => absurd inside List.not_mem_nil
  | opened filled unbroken => exact List.forall_mem_singleton.mpr unbroken
  | closed isLine others ih => exact List.forall_mem_cons.mpr ⟨isLine.unbroken, ih⟩
  | returned unbroken others ih => exact List.forall_mem_cons.mpr ⟨unbroken, ih⟩

end HasLines

theorem exists_hasLines (text : Text) : ∃ lines, HasLines text lines := by
  by_cases broken : '\n' ∈ text
  · obtain ⟨piece, rest, rfl, unbroken⟩ := List.eq_append_cons_of_mem broken
    obtain ⟨lines, others⟩ := exists_hasLines rest
    by_cases bare : piece.getLast? = some '\r'
    · obtain ⟨line, rfl⟩ := List.getLast?_eq_some_iff.mp bare
      exact ⟨_, .returned (fun inside => unbroken (List.mem_append_left _ inside)) others⟩
    · exact ⟨_, .closed ⟨unbroken, bare⟩ others⟩
  · by_cases filled : text = []
    · exact ⟨[], filled ▸ .none⟩
    · exact ⟨[text], .opened filled broken⟩
termination_by text.length

theorem exists_textLines (text : Text) :
    ∃ lines, textLines? (encode text) = some lines ∧ ∀ line ∈ lines, '\n' ∉ line := by
  obtain ⟨lines, has⟩ := exists_hasLines text
  exact ⟨lines, has.textLines?, has.unbroken⟩

/-! Files that are no text. -/

theorem decode?_eq_some {bytes : Bytes} {text : Text} :
    decode? bytes = some text ↔ bytes = encode text := by
  constructor
  · intro decoded
    obtain ⟨chars, known, rfl⟩ := Option.map_eq_some_iff.mp decoded
    have back := @ByteArray.utf8Encode_get_utf8Decode? bytes.toByteArray (by rw [known]; rfl)
    simp only [known, Option.get_some] at back
    have same : (encode chars.toList).toByteArray = bytes.toByteArray := by
      rw [← back]
      simp [encode, List.utf8Encode]
    have := congrArg (fun array => array.data.toList) same
    simpa using this.symm
  · rintro rfl
    exact decode?_encode text

theorem clip_begins (limit : Nat) (text : Text) : clip limit text <+: text := by
  induction text generalizing limit with
  | nil => exact List.prefix_refl []
  | cons c rest ih =>
      rw [clip]
      split
      · exact (List.prefix_cons_inj c).mpr (ih _)
      · exact List.nil_prefix

theorem clip_eq_self {limit : Nat} {text : Text} :
    clip limit text = text ↔ byteLength text ≤ limit := by
  constructor
  · intro whole
    rw [← whole]
    exact byteLength_clip limit text
  · exact clip_of_le limit text

/-- The line is as much of the text as fits. -/
structure LongestFit (limit : Nat) (text line : Text) : Prop where
  begins : line <+: text
  short : byteLength line ≤ limit
  longest : ∀ other, other <+: text → byteLength other ≤ limit → other <+: line

theorem prefix_clip {limit : Nat} {front text : Text} (begins : front <+: text)
    (short : byteLength front ≤ limit) : front <+: clip limit text := by
  induction text generalizing limit front with
  | nil => exact begins
  | cons c rest ih =>
      rcases List.prefix_cons_iff.mp begins with rfl | ⟨more, rfl, later⟩
      · exact List.nil_prefix
      · rw [byteLength] at short
        rw [clip, if_pos (by omega)]
        exact (List.prefix_cons_inj c).mpr (ih later (by omega))

theorem clip_longestFit (limit : Nat) (text : Text) : LongestFit limit text (clip limit text) :=
  ⟨clip_begins limit text, byteLength_clip limit text, fun _ => prefix_clip⟩

end CommandShell
