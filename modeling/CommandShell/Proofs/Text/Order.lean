import CommandShell.Proofs.Text.Lines

/-!
Texts in the order of their bytes. Different texts have different bytes, so the order tells all
texts apart, and a list that is sorted and has its repeats dropped goes strictly upwards. Such a
list is known by its members alone.
-/
namespace CommandShell

theorem bytesLe_iff {left right : Bytes} : bytesLe left right = true ↔ left ≤ right := by
  fun_induction bytesLe left right with
  | case1 => simp
  | case2 => simp
  | case3 byte rest other others same ih =>
      rw [ih, beq_iff_eq.mp same, List.cons_le_cons_iff]
      simp
  | case4 byte rest other others differ =>
      rw [List.cons_le_cons_iff, decide_eq_true_eq]
      simp [beq_iff_eq.not.mp differ]

theorem encode_inj {left right : Text} : encode left = encode right ↔ left = right := by
  constructor
  · intro same
    have decoded := congrArg decode? same
    rw [decode?_encode, decode?_encode] at decoded
    exact Option.some.inj decoded
  · exact congrArg encode

theorem encode_lt {left right : Text} (before : encode left ≤ encode right)
    (differ : left ≠ right) : encode left < encode right := by
  apply Classical.byContradiction
  intro behind
  exact differ (encode_inj.mp (List.le_antisymm before (List.not_lt.mp behind)))

theorem sortTexts_sorted (texts : List Text) :
    (sortTexts texts).Pairwise fun left right => encode left ≤ encode right := by
  have trans : ∀ first second third : Text, textLe first second = true →
      textLe second third = true → textLe first third = true := by
    intro first second third lower upper
    exact bytesLe_iff.mpr (List.le_trans (bytesLe_iff.mp lower) (bytesLe_iff.mp upper))
  have total : ∀ first second : Text, (textLe first second || textLe second first) = true := by
    intro first second
    rw [Bool.or_eq_true]
    exact (List.le_total (encode first) (encode second)).imp bytesLe_iff.mpr bytesLe_iff.mpr
  exact (List.pairwise_mergeSort trans total texts).imp fun ordered => bytesLe_iff.mp ordered

theorem mem_dropRepeats {α : Type} [BEq α] [LawfulBEq α] {item : α} {items : List α} :
    item ∈ dropRepeats items ↔ item ∈ items := by
  fun_induction dropRepeats items with
  | case1 => rfl
  | case2 => rfl
  | case3 first next rest same ih =>
      rw [ih, beq_iff_eq.mp same]
      simp
  | case4 first next rest differ ih => rw [List.mem_cons, List.mem_cons, ih]

/-- Where equal texts stand together, dropping an item that equals the next one leaves no repeats. -/
theorem dropRepeats_ascending {texts : List Text}
    (sorted : texts.Pairwise fun left right => encode left ≤ encode right) :
    (dropRepeats texts).Pairwise fun left right => encode left < encode right := by
  fun_induction dropRepeats texts with
  | case1 => exact .nil
  | case2 item => exact List.pairwise_singleton _ item
  | case3 item next rest _ ih => exact ih (List.pairwise_cons.mp sorted).2
  | case4 item next rest differ ih =>
      obtain ⟨first, others⟩ := List.pairwise_cons.mp sorted
      refine List.pairwise_cons.mpr ⟨fun other inside => ?_, ih others⟩
      have listed := mem_dropRepeats.mp inside
      refine encode_lt (first other listed) ?_
      rintro rfl
      -- The next item stands between the two that are the same.
      have between : encode next ≤ encode item := by
        rcases List.mem_cons.mp listed with rfl | later
        · exact List.le_refl _
        · exact (List.pairwise_cons.mp others).1 item later
      have same := List.le_antisymm (first next List.mem_cons_self) between
      exact differ (beq_iff_eq.mpr (encode_inj.mp same))

theorem mem_sorted {text : Text} {texts : List Text} :
    text ∈ dropRepeats (sortTexts texts) ↔ text ∈ texts := by
  rw [mem_dropRepeats, sortTexts, List.mem_mergeSort]

theorem sorted_ascending (texts : List Text) :
    (dropRepeats (sortTexts texts)).Pairwise fun left right => encode left < encode right :=
  dropRepeats_ascending (sortTexts_sorted texts)

theorem eq_singleton_iff {texts : List Text}
    (ascending : texts.Pairwise fun left right => encode left < encode right) {text : Text} :
    texts = [text] ↔ ∀ other, other ∈ texts ↔ other = text := by
  have distinct : texts.Nodup := by
    refine ascending.imp fun lower same => ?_
    rw [same] at lower
    exact List.lt_irrefl _ lower
  rw [← List.perm_singleton, List.perm_ext_iff_of_nodup distinct (List.pairwise_singleton _ text)]
  simp only [List.mem_singleton]

end CommandShell
