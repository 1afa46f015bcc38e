import CommandShell.Proofs.Text.Boundaries
import CommandShell.Proofs.Builtin.Occurrences

/-!
Searching a text with marks. The offsets of the occurrences come from the bytes of a copy of the
line with its letters folded, and the line itself is sliced at them. Folding changes the length of
no character, so each slice is of whole characters, and the slices are those of the line's cut.
-/
namespace CommandShell

theorem utf8EncodeChar_append_inj {c d : Char} {left right : Bytes}
    (same : String.utf8EncodeChar c ++ left = String.utf8EncodeChar d ++ right) : c = d := by
  have arrays := congrArg List.toByteArray same
  rw [List.toByteArray_append, List.toByteArray_append] at arrays
  have decoded := congrArg (·.utf8DecodeChar? 0) arrays
  simpa only [ByteArray.utf8DecodeChar?_utf8EncodeChar_append, Option.some.injEq] using decoded

theorem encode_prefix_iff {left right : Text} : encode left <+: encode right ↔ left <+: right := by
  constructor
  · intro begins
    induction left generalizing right with
    | nil => exact List.nil_prefix
    | cons c left ih =>
        obtain ⟨rest, same⟩ := begins
        cases right with
        | nil => exact absurd (List.append_eq_nil_iff.mp same).1 (by simp [encode_eq_nil])
        | cons d right =>
            rw [encode, encode, List.flatMap_cons, List.flatMap_cons, List.append_assoc] at same
            obtain rfl := utf8EncodeChar_append_inj same
            exact (List.prefix_cons_inj c).mpr (ih ⟨rest, List.append_cancel_left same⟩)
  · rintro ⟨rest, rfl⟩
    exact ⟨encode rest, (encode_append left rest).symm⟩

/-- The offsets at which the needle stands in the hay, from left to right and none inside the one
before. `inside` counts the bytes that still belong to the one at hand. -/
def matchOffsets (needle : Bytes) : Nat → Nat → Bytes → List Nat
  | _, _, [] => []
  | offset, 0, byte :: rest =>
      if needle <+: byte :: rest then
        offset :: matchOffsets needle (offset + 1) (needle.length - 1) rest
      else matchOffsets needle (offset + 1) 0 rest
  | offset, inside + 1, _ :: rest => matchOffsets needle (offset + 1) inside rest

section

variable {needle : Bytes}

theorem matchOffsets_inside (offset : Nat) (skipped rest : Bytes) :
    matchOffsets needle offset skipped.length (skipped ++ rest) =
      matchOffsets needle (offset + skipped.length) 0 rest := by
  induction skipped generalizing offset with
  | nil => rfl
  | cons byte others ih =>
      rw [List.length_cons, List.cons_append, matchOffsets, ih, Nat.add_right_comm, Nat.add_assoc]

theorem matchOffsets_here (filled : needle ≠ []) (offset : Nat) (rest : Bytes) :
    matchOffsets needle offset 0 (needle ++ rest) =
      offset :: matchOffsets needle (offset + needle.length) 0 rest := by
  cases needle with
  | nil => exact absurd rfl filled
  | cons byte others =>
      have here : byte :: others <+: byte :: (others ++ rest) := List.prefix_append _ rest
      rw [List.cons_append, matchOffsets, if_pos here, List.length_cons, Nat.add_sub_cancel,
        matchOffsets_inside, Nat.add_right_comm, Nat.add_assoc]

theorem matchOffsets_apart {skipped : Bytes} {rest : Bytes}
    (apart : ∀ first later, skipped = first ++ later → later ≠ [] → ¬ needle <+: later ++ rest)
    (offset : Nat) :
    matchOffsets needle offset 0 (skipped ++ rest) =
      matchOffsets needle (offset + skipped.length) 0 rest := by
  induction skipped generalizing offset with
  | nil => rfl
  | cons byte others ih =>
      have here : ¬ needle <+: byte :: (others ++ rest) :=
        apart [] (byte :: others) rfl (List.cons_ne_nil byte others)
      have behind := ih fun first later split =>
        apart (byte :: first) later (congrArg (byte :: ·) split)
      rw [List.cons_append, matchOffsets, if_neg here, behind, List.length_cons,
        Nat.add_right_comm, Nat.add_assoc]

end

theorem apart_inside {text : Text} (filled : text ≠ []) {c : Char} {first later : Bytes}
    (split : String.utf8EncodeChar c = first ++ later) (inside : first ≠ []) (more : later ≠ [])
    (rest : Bytes) : ¬ encode text <+: later ++ rest := by
  intro begins
  obtain ⟨lead, others, rfl⟩ := List.exists_cons_of_ne_nil filled
  obtain ⟨byte, further, rfl⟩ := List.exists_cons_of_ne_nil more
  obtain ⟨head, tail, leading⟩ := List.exists_cons_of_ne_nil (@String.utf8EncodeChar_ne_nil lead)
  rw [encode, List.flatMap_cons, leading, List.cons_append, List.cons_append] at begins
  obtain ⟨rfl, -⟩ := List.cons_prefix_cons.mp begins
  have front : (String.utf8EncodeChar lead)[0]? = some head := by rw [leading]; rfl
  have middle : (String.utf8EncodeChar c)[first.length]? = some head := by simp [split]
  obtain ⟨low, here⟩ := List.getElem?_eq_some_iff.mp front
  obtain ⟨high, there⟩ := List.getElem?_eq_some_iff.mp middle
  have leads : head.IsUTF8FirstByte :=
    here ▸ UInt8.isUTF8FirstByte_getElem_utf8EncodeChar.mpr rfl
  rw [← there, UInt8.isUTF8FirstByte_getElem_utf8EncodeChar] at leads
  exact inside (List.length_eq_zero_iff.mp leads)

theorem matchOffsets_char {text rest : Text} (filled : text ≠ []) {c : Char}
    (apart : ¬ text <+: c :: rest) (offset : Nat) :
    matchOffsets (encode text) offset 0 (encode (c :: rest)) =
      matchOffsets (encode text) (offset + c.utf8Size) 0 (encode rest) := by
  have bytes : encode (c :: rest) = String.utf8EncodeChar c ++ encode rest := rfl
  rw [bytes, ← String.length_utf8EncodeChar, matchOffsets_apart]
  intro first later split more
  by_cases start : first = []
  · rw [start, List.nil_append] at split
    rw [← split, ← bytes, encode_prefix_iff]
    exact apart
  · exact apart_inside filled split start more _

section

variable {ignoreCase : Bool} {pattern : Text}

theorem utf8Size_caseFold (ignoreCase : Bool) (c : Char) :
    (caseFold ignoreCase c).utf8Size = c.utf8Size := by
  cases ignoreCase with
  | false => rfl
  | true =>
      have lowered : (caseFold true c).toNat = if c.isUpper then c.toNat + 32 else c.toNat := by
        rw [caseFold, if_pos rfl, lowerAscii_eq, toNat_toLower]
      by_cases upper : c.isUpper = true
      · have range := (isUpper_iff c).mp upper
        rw [if_pos upper] at lowered
        have small : c.toNat ≤ 127 := by omega
        have other : (caseFold true c).toNat ≤ 127 := by omega
        rw [Char.utf8Size_eq_one_iff.mpr small, Char.utf8Size_eq_one_iff.mpr other]
      · rw [if_neg upper] at lowered
        rw [Char.toNat_inj.mp lowered]

theorem byteLength_caseFold (ignoreCase : Bool) (text : Text) :
    byteLength (text.map (caseFold ignoreCase)) = byteLength text := by
  induction text with
  | nil => rfl
  | cons c rest ih => rw [List.map_cons, byteLength, byteLength, ih, utf8Size_caseFold]

theorem matchOffsets_before (filled : pattern ≠ []) {before rest : Text}
    (leftmost : ∀ earlier other later, before ++ rest = earlier ++ other ++ later →
      SameText ignoreCase pattern other → before.length ≤ earlier.length) (offset : Nat) :
    matchOffsets (encode (pattern.map (caseFold ignoreCase))) offset 0
        (encode ((before ++ rest).map (caseFold ignoreCase))) =
      matchOffsets (encode (pattern.map (caseFold ignoreCase))) (offset + byteLength before) 0
        (encode (rest.map (caseFold ignoreCase))) := by
  have folded : pattern.map (caseFold ignoreCase) ≠ [] := by simpa using filled
  induction before generalizing offset with
  | nil => rfl
  | cons c before ih =>
      have apart : ¬ pattern.map (caseFold ignoreCase) <+:
          caseFold ignoreCase c :: (before ++ rest).map (caseFold ignoreCase) := by
        rintro ⟨more, whole⟩
        obtain ⟨other, later, split, same, -⟩ :=
          List.map_eq_append_iff.mp ((List.map_cons).trans whole.symm)
        have early := leftmost [] other later split (sameText_iff.mpr same.symm)
        exact Nat.not_succ_le_zero _ early
      have behind := ih fun earlier other later split same =>
        Nat.le_of_succ_le_succ (leftmost (c :: earlier) other later
          (congrArg (c :: ·) split) same)
      rw [List.cons_append, List.map_cons, matchOffsets_char folded apart, utf8Size_caseFold,
        behind, byteLength, Nat.add_assoc]

/-- Where the occurrences of a cut line begin. -/
def occurrenceOffsets : Nat → List (Text × Text) → List Nat
  | _, [] => []
  | offset, (before, found) :: rest =>
      (offset + byteLength before) ::
        occurrenceOffsets (offset + byteLength before + byteLength found) rest

theorem matchOffsets_cut (filled : pattern ≠ []) {line tail : Text} {pieces : List (Text × Text)}
    (cut : Cut ignoreCase pattern line pieces tail) (offset : Nat) :
    matchOffsets (encode (pattern.map (caseFold ignoreCase))) offset 0
        (encode (line.map (caseFold ignoreCase))) = occurrenceOffsets offset pieces := by
  induction cut generalizing offset with
  | @rest line none =>
      have leftmost : ∀ earlier other later, line ++ [] = earlier ++ other ++ later →
          SameText ignoreCase pattern other → line.length ≤ earlier.length := by
        intro earlier other later split same
        rw [List.append_nil] at split
        exact absurd ⟨earlier, other, later, split, same⟩ none
      have nothing := matchOffsets_before filled leftmost offset
      rw [List.append_nil] at nothing
      rw [nothing]
      rfl
  | occurrence before found after same leftmost _ ih =>
      have folded : encode (pattern.map (caseFold ignoreCase)) ≠ [] := by
        simpa [encode_eq_nil] using filled
      have width : (encode (pattern.map (caseFold ignoreCase))).length = byteLength found := by
        rw [sameText_iff.mp same, length_encode, byteLength_caseFold]
      rw [List.append_assoc] at leftmost ⊢
      rw [matchOffsets_before filled leftmost, List.map_append, ← sameText_iff.mp same,
        encode_append, matchOffsets_here folded, width, ih]
      rfl

/-- The line put together from slices of it: what is before an occurrence, the occurrence
between the signs, and what is behind the last one. -/
def markSlices? (line : Text) (width last : Nat) : List Nat → Option Text
  | [] => slice? line last (byteLength line)
  | start :: others => do
      let before ← slice? line last start
      let found ← slice? line start (start + width)
      let behind ← markSlices? line width (start + width) others
      some (before ++ markOn ++ found ++ markOff ++ behind)

theorem markSlices?_cut {line tail : Text} {pieces : List (Text × Text)}
    (cut : Cut ignoreCase pattern line pieces tail) {width : Nat}
    (wide : byteLength pattern = width) (front : Text) :
    markSlices? (front ++ line) width (byteLength front)
        (occurrenceOffsets (byteLength front) pieces) = some (withMarks pieces tail) := by
  induction cut generalizing front with
  | @rest line none =>
      have last := slice?_middle front line []
      rw [List.append_nil] at last
      exact last
  | occurrence before found after same leftmost _ ih =>
      have long : byteLength found = width := by
        rw [← wide, ← byteLength_caseFold ignoreCase, ← sameText_iff.mp same, byteLength_caseFold]
      have first := slice?_middle front before (found ++ after)
      have second := slice?_middle (front ++ before) found after
      have later := ih (front ++ before ++ found)
      simp only [byteLength_append, List.append_assoc, long] at first second later
      simp only [occurrenceOffsets, markSlices?, List.append_assoc, Nat.add_assoc, long, first,
        second, later, withMarks_cons, Option.bind_eq_bind, Option.bind_some]

/-- The line marked from slices, at the offsets that the search in the folded copy has found. -/
def markedBySlices? (ignoreCase : Bool) (pattern line : Text) : Option Text :=
  let needle := encode (pattern.map (caseFold ignoreCase))
  markSlices? line needle.length 0
    (matchOffsets needle 0 0 (encode (line.map (caseFold ignoreCase))))

theorem markedBySlices?_cut (filled : pattern ≠ []) {line tail : Text} {pieces : List (Text × Text)}
    (cut : Cut ignoreCase pattern line pieces tail) :
    markedBySlices? ignoreCase pattern line = some (withMarks pieces tail) := by
  have wide : byteLength pattern = (encode (pattern.map (caseFold ignoreCase))).length := by
    rw [length_encode, byteLength_caseFold]
  rw [markedBySlices?, matchOffsets_cut filled cut]
  exact markSlices?_cut cut wide []

/-- How a line is shown with its occurrences marked. The cut is the only one of the line, and it is
where slices of the line by bytes would cut it, none of them inside a character. -/
structure ShownMarked (ignoreCase : Bool) (pattern line shown : Text) : Prop where
  unmarked : pattern = [] → shown = line
  cut : pattern ≠ [] → ∃ pieces tail, Cut ignoreCase pattern line pieces tail ∧
    shown = withMarks pieces tail ∧ ∀ others behind, Cut ignoreCase pattern line others behind →
      others = pieces ∧ behind = tail
  sliced : pattern ≠ [] → markedBySlices? ignoreCase pattern line = some shown

theorem showMatch_marked (line : Text) :
    ShownMarked ignoreCase pattern line (showMatch (caseFold ignoreCase) pattern true line) := by
  by_cases nothing : pattern = []
  · subst nothing
    exact ⟨fun _ => rfl, fun filled => absurd rfl filled, fun filled => absurd rfl filled⟩
  · obtain ⟨pieces, tail, cut, written⟩ := markOccurrences_cut nothing line
    have shown : showMatch (caseFold ignoreCase) pattern true line = withMarks pieces tail := by
      rw [← written, showMatch, if_pos (by simpa using nothing)]
    rw [shown]
    exact ⟨fun same => absurd same nothing,
      fun _ => ⟨pieces, tail, cut, rfl, fun _ _ => cut.unique⟩,
      fun _ => markedBySlices?_cut nothing cut⟩

end

/-- A search through a text shows, in their order, the lines in which the pattern occurs. With
marks it shows the same lines, and each as it is but for the signs around its occurrences. -/
theorem grepLines_marks (text pattern : Text) (ignoreCase : Bool) :
    ∃ lines, HasLines text lines ∧
      let selected := lines.filter fun line => decide (Occurs ignoreCase pattern line)
      grepLines pattern ignoreCase false (encode text) =
          (.ok (), selected.flatMap fun line => encode line ++ [10]) ∧
        ∃ shown, grepLines pattern ignoreCase true (encode text) =
            (.ok (), shown.flatMap fun line => encode line ++ [10]) ∧
          List.Forall₂ (ShownMarked ignoreCase pattern) selected shown := by
  obtain ⟨lines, has⟩ := exists_hasLines text
  have whole := readLines_eq has.textLines?
  have chosen : lines.filter (occursIn (caseFold ignoreCase) pattern) =
      lines.filter fun line => decide (Occurs ignoreCase pattern line) := by
    apply List.filter_congr
    intro line _
    rw [Bool.eq_iff_iff, decide_eq_true_iff, occursIn_iff]
  have plain : showMatch (caseFold ignoreCase) pattern false = id := funext fun _ => rfl
  refine ⟨lines, has, ?_⟩
  intro selected
  refine ⟨?_, selected.map (showMatch (caseFold ignoreCase) pattern true), ?_, ?_⟩
  · simp only [grepLines, whole, chosen, plain, List.map_id]
    rfl
  · simp only [grepLines, whole, chosen]
    rfl
  · rw [List.forall₂_map_right_iff, List.forall₂_same]
    exact fun line _ => showMatch_marked line

/-- The second line has a letter with a dot on it, which is no letter `a`, and the third has one
beside a capital. -/
theorem capitals_marked :
    let text := "aXa".toList ++ ['\r'] ++ '\n' :: ("ȧ".toList ++ '\n' :: "ȧA".toList)
    let lines := ["aXa".toList, "ȧ".toList, "ȧA".toList]
    HasLines text lines ∧
      (lines.filter fun line => decide (Occurs true ['a'] line)) =
        ["aXa".toList, "ȧA".toList] ∧
      grepLines ['a'] true false (encode text) = (.ok (), encode "aXa\nȧA\n".toList) ∧
      grepLines ['a'] true true (encode text) =
        (.ok (), encode ("\x1b[1;31ma\x1b[0mX\x1b[1;31ma\x1b[0m\n".toList ++
          "ȧ\x1b[1;31mA\x1b[0m\n".toList)) := by
  intro text lines
  obtain ⟨others, has, plain, shown, marked, each⟩ := grepLines_marks text ['a'] true
  have three : HasLines text lines :=
    .returned (by decide) (.closed (by decide) (.opened (by decide) (by decide)))
  obtain rfl := has.unique three
  have selected : (lines.filter fun line => decide (Occurs true ['a'] line)) =
      ["aXa".toList, "ȧA".toList] := by decide
  refine ⟨three, selected, ?_, ?_⟩
  · rw [plain, selected]
    decide
  · rw [selected] at each
    obtain ⟨front, rest, first, others, rfl⟩ := List.forall₂_cons_left_iff.mp each
    obtain ⟨back, none, last, nothing, rfl⟩ := List.forall₂_cons_left_iff.mp others
    cases List.forall₂_nil_left_iff.mp nothing
    have twice : markedBySlices? true ['a'] "aXa".toList =
        some "\x1b[1;31ma\x1b[0mX\x1b[1;31ma\x1b[0m".toList := by decide
    have once : markedBySlices? true ['a'] "ȧA".toList =
        some "ȧ\x1b[1;31mA\x1b[0m".toList := by decide
    obtain rfl := Option.some.inj ((first.sliced (by decide)).symm.trans twice)
    obtain rfl := Option.some.inj ((last.sliced (by decide)).symm.trans once)
    rw [marked]
    decide

end CommandShell
