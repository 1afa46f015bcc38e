import CommandShell.Proofs.History.Backing

/-!
Lines appended to a file that was there before. A file whose last line is closed gets the lines
behind its own. If the last line is open, the first line that is appended goes on with it: the two
become one line of the file, while the log in memory has both of them.
-/
namespace CommandShell

theorem exists_open_line (text : Text) :
    ∃ front last, text = front ++ last ∧ (front = [] ∨ front.getLast? = some '\n') ∧
      '\n' ∉ last := by
  induction text using List.reverseRecOn with
  | nil => exact ⟨[], [], rfl, Or.inl rfl, List.not_mem_nil⟩
  | append_singleton text c ih =>
      by_cases ends : c = '\n'
      · subst ends
        exact ⟨text ++ ['\n'], [], by simp, Or.inr List.getLast?_concat, List.not_mem_nil⟩
      · obtain ⟨front, last, rfl, closed, opened⟩ := ih
        refine ⟨front, last ++ [c], by simp, closed, ?_⟩
        intro inside
        rcases List.mem_append.mp inside with old | new
        · exact opened old
        · exact ends (List.mem_singleton.mp new).symm

namespace HistoryStore

/-- The store and the tree after some lines were appended. -/
def appendAll (store : HistoryStore) (tree : FileTree) (cwd : Location) :
    List Text → HistoryStore × FileTree
  | [] => (store, tree)
  | line :: rest =>
      let (store, tree) := store.append tree cwd line
      appendAll store tree cwd rest

variable {tree : FileTree} {cwd : Location} {path : Path}

theorem appendAll_held (log : HistoryLog) {content : Bytes}
    (holds : tree.Holds cwd path (some content)) (lines : List Text) :
    let after := appendAll ⟨log, some path⟩ tree cwd lines
    after.1 = ⟨log.pushAll lines, some path⟩ ∧
      after.2.Holds cwd path (some (content ++ writeLines lines)) := by
  induction lines generalizing tree log content with
  | nil =>
      refine ⟨rfl, ?_⟩
      have nothing : content ++ writeLines [] = content := List.append_nil content
      rw [nothing]
      exact holds
  | cons line rest ih =>
      obtain ⟨grown, done, held⟩ := holds.appendFile (lineBytes line)
      have first : append ⟨log, some path⟩ tree cwd line = (⟨log.push line, some path⟩, grown) := by
        simp only [append, done]
      have bytes : content ++ writeLines (line :: rest) =
          content ++ lineBytes line ++ writeLines rest := (List.append_assoc ..).symm
      simp only [appendAll, first, bytes]
      exact ih (log.push line) held

end HistoryStore

/-! What an open line does to the first line that is appended. -/

theorem textLines?_open {last : Text} (filled : last ≠ []) (unbroken : '\n' ∉ last) :
    textLines? (encode last) = some [last] := by
  have bytes : newline ∉ encode last := fun inside => unbroken ((newline_mem_encode last).mp inside)
  have something : (encode last).isEmpty = false :=
    List.isEmpty_eq_false_iff.mpr fun nothing => filled (encode_eq_nil.mp nothing)
  rw [textLines?_eq, rawLines_open bytes, something]
  simp [decode?_encode]

/-- What stands open at the end of a text, and the lines before it. -/
structure OpenLine (text : Text) (before : List Text) (last : Text) : Prop where
  filled : last ≠ []
  behind : last <:+ text
  read : textLines? (encode text) = some (before ++ [last])
  joined : ∀ line, IsLine line → '\r' ∉ last →
    textLines? (encode text ++ lineBytes line) = some (before ++ [last ++ line])

theorem exists_openLine {text : Text} (opened : ¬ Closed (encode text)) :
    ∃ before last, OpenLine text before last := by
  obtain ⟨front, last, rfl, closed, unbroken⟩ := exists_open_line text
  have shut : Closed (encode front) := (closed_encode front).mpr closed
  have something : last ≠ [] := by
    rintro rfl
    rw [List.append_nil] at opened
    exact opened shut
  obtain ⟨before, read, -⟩ := exists_textLines front
  refine ⟨before, last, something, List.suffix_append front last, ?_, ?_⟩
  · rw [encode_append]
    exact shut.textLines?_append read (textLines?_open something unbroken)
  · intro line isLine bare
    have whole : IsLine (last ++ line) := by
      constructor
      · intro broken
        exact (List.mem_append.mp broken).elim unbroken isLine.unbroken
      · rw [List.getLast?_append]
        intro final
        cases line with
        | nil => exact bare (List.mem_of_getLast? (by simpa using final))
        | cons c rest => exact isLine.bare (by simpa [List.getLast?_cons] using final)
    have one : encode (front ++ last) ++ lineBytes line =
        encode front ++ lineBytes (last ++ line) := by
      simp [lineBytes, encode_append]
    rw [one]
    exact shut.textLines?_append read whole.textLines?_lineBytes

theorem OpenLine.textLines?_append {text last line : Text} {before rest : List Text}
    (opened : OpenLine text before last) (bare : '\r' ∉ text)
    (each : ∀ other ∈ line :: rest, IsLine other) :
    textLines? (encode text ++ writeLines (line :: rest)) =
      some (before ++ (last ++ line) :: rest) := by
  have first := opened.joined line (each line (List.mem_cons_self ..)) fun inside =>
    bare (opened.behind.subset inside)
  have others := IsLine.textLines?_writeLines fun other inside =>
    each other (List.mem_cons_of_mem line inside)
  have closed : Closed (encode text ++ lineBytes line) := Or.inr (by simp [lineBytes])
  have read := closed.textLines?_append first others
  rw [List.append_assoc, List.append_assoc] at read
  exact read

namespace HistoryLog

theorem latest_append {capacity : Nat} {more : List Text} (enough : max 1 capacity ≤ more.length)
    (lines : List Text) : latest capacity (lines ++ more) = latest capacity more := by
  have count : (lines ++ more).length - max 1 capacity =
      lines.length + (more.length - max 1 capacity) := by
    rw [List.length_append]
    omega
  simp only [latest, List.rtake, count, List.drop_length_add_append]

theorem latest_ne {capacity : Nat} {rest : List Text} (few : rest.length < max 1 capacity)
    {first second : Text} (differ : first ≠ second) (left right : List Text) :
    latest capacity (left ++ first :: rest) ≠ latest capacity (right ++ second :: rest) := by
  intro same
  have entries := congrArg HistoryLog.entries same
  simp only [latest, List.rtake_eq_reverse_take_reverse, List.reverse_inj] at entries
  have here := congrArg (·[rest.length]?) entries
  simp [few] at here
  exact differ here

theorem latest_joined_iff {capacity : Nat} {last line : Text} (filled : last ≠ [])
    (before rest : List Text) :
    latest capacity (before ++ (last ++ line) :: rest) =
        latest capacity (before ++ [last] ++ line :: rest) ↔
      max 1 capacity < (line :: rest).length := by
  have longer : last ++ line ≠ line := fun same => filled (List.append_left_eq_self.mp same)
  constructor
  · intro same
    by_contra few
    have seen : rest.length < max 1 capacity := by
      rw [List.length_cons] at few
      omega
    exact latest_ne seen longer before (before ++ [last]) same
  · intro many
    have enough : max 1 capacity ≤ rest.length := by
      rw [List.length_cons] at many
      omega
    rw [List.append_cons before, latest_append enough, List.append_cons (before ++ [last]),
      latest_append enough]

end HistoryLog

theorem HistoryStore.load_eq_iff {tree : FileTree} {cwd : Location} {path : Path}
    {content : Bytes} {lines : List Text} (holds : tree.Holds cwd path (some content))
    (read : textLines? content = some lines) (capacity : Nat) (others : List Text) :
    load tree cwd path capacity = .ok ⟨HistoryLog.latest capacity others, some path⟩ ↔
      HistoryLog.latest capacity lines = HistoryLog.latest capacity others := by
  rw [load_eq holds read]
  constructor
  · intro same
    exact congrArg HistoryStore.log (Except.ok.inj same)
  · intro same
    rw [same]

/-- A file with lines in it, from which the log is loaded before some lines are appended. Every
one of them is a line of its own, exactly if the file was closed or there is nothing to append.
Loading the file again gives the log in memory then; else it does if so many lines were appended
that the joined one is forgotten. -/
theorem HistoryStore.appended_lines_iff (tree : FileTree) (cwd : Location) (path : Path)
    (capacity : Nat) (content : Text) (bare : '\r' ∉ content)
    (holds : tree.Holds cwd path (some (encode content))) (lines : List Text)
    (clean : ∀ line ∈ lines, '\n' ∉ line ∧ '\r' ∉ line) :
    ∃ before store written, textLines? (encode content) = some before ∧
      load tree cwd path capacity = .ok store ∧
      let after := store.appendAll tree cwd lines
      after.2.readContent cwd path = .ok written ∧
        (textLines? written = some (before ++ lines) ↔
          content = [] ∨ content.getLast? = some '\n' ∨ lines = []) ∧
        (load after.2 cwd path capacity = .ok after.1 ↔
          content = [] ∨ content.getLast? = some '\n' ∨ lines = [] ∨
            max 1 capacity < lines.length) := by
  have each : ∀ line ∈ lines, IsLine line := fun line inside =>
    ⟨(clean line inside).1, fun last => (clean line inside).2 (List.mem_of_getLast? last)⟩
  obtain ⟨before, read, -⟩ := exists_textLines content
  refine ⟨before, _, encode content ++ writeLines lines, read, load_eq holds read capacity, ?_⟩
  obtain ⟨memory, held⟩ := appendAll_held (HistoryLog.latest capacity before) holds lines
  refine ⟨held.readContent, ?_⟩
  rw [memory, HistoryLog.pushAll_latest]
  by_cases closed : Closed (encode content)
  · have whole := closed.textLines?_append read (IsLine.textLines?_writeLines each)
    rw [load_eq_iff held whole, whole]
    rcases (closed_encode content).mp closed with none | final
    · simp [none]
    · simp [final]
  · have unclosed := mt (closed_encode content).mpr closed
    rw [← or_assoc, ← or_assoc, or_iff_right unclosed, or_iff_right unclosed]
    cases lines with
    | nil =>
        have whole : textLines? (encode content ++ writeLines []) = some (before ++ []) := by
          rw [List.append_nil]
          simpa [writeLines] using read
        rw [load_eq_iff held whole, whole]
        simp
    | cons line rest =>
        obtain ⟨front, last, opened⟩ := exists_openLine closed
        obtain rfl : before = front ++ [last] := Option.some.inj (read.symm.trans opened.read)
        have joined := opened.textLines?_append bare each
        rw [load_eq_iff held joined, HistoryLog.latest_joined_iff opened.filled, joined]
        simp

/-- Two lines behind a closed one are lines of the file, and loading it finds all three. -/
theorem closed_file_extended :
    let tree := FileTree.onlyFile (encode "abc\n".toList)
    tree.Holds [] [104] (some (encode "abc\n".toList)) ∧
      ∃ before store written, textLines? (encode "abc\n".toList) = some before ∧
        HistoryStore.load tree [] [104] 2 = .ok store ∧
        let after := store.appendAll tree [] ["de".toList, "f".toList]
        after.2.readContent [] [104] = .ok written ∧
          textLines? written = some (before ++ ["de".toList, "f".toList]) ∧
          HistoryStore.load after.2 [] [104] 2 = .ok after.1 := by
  have holds := FileTree.onlyFile_held (encode "abc\n".toList)
  obtain ⟨before, store, written, read, loaded, kept, lines, again⟩ :=
    HistoryStore.appended_lines_iff _ [] [104] 2 "abc\n".toList (by decide) holds
      ["de".toList, "f".toList] (by decide)
  exact ⟨holds, before, store, written, read, loaded, kept, lines.mpr (by decide),
    again.mpr (by decide)⟩

/-- A line behind an open one is no line of its own. The file has one line, which is neither of
the two in the log. -/
theorem open_line_joined :
    let tree := FileTree.onlyFile (encode "abc".toList)
    ∃ store written, HistoryStore.load tree [] [104] 2 = .ok store ∧
      store.log.entries = ["abc".toList] ∧
      let after := store.appendAll tree [] ["def".toList]
      after.1.log.entries = ["abc".toList, "def".toList] ∧
        after.2.readContent [] [104] = .ok written ∧
        textLines? written = some ["abcdef".toList] ∧
        textLines? written ≠ some ["abc".toList, "def".toList] ∧
        HistoryStore.load after.2 [] [104] 2 ≠ .ok after.1 := by
  intro tree
  have holds : tree.Holds [] [104] (some (encode "abc".toList)) := FileTree.onlyFile_held _
  have before : textLines? (encode "abc".toList) = some ["abc".toList] :=
    textLines?_open (by decide) (by decide)
  obtain ⟨memory, held⟩ := HistoryStore.appendAll_held
    (HistoryLog.latest 2 ["abc".toList]) holds ["def".toList]
  have single : ∀ line ∈ ["abcdef".toList], IsLine line := by decide
  have joined : textLines? (encode "abc".toList ++ writeLines ["def".toList]) =
      some ["abcdef".toList] := IsLine.textLines?_writeLines single
  refine ⟨_, encode "abc".toList ++ writeLines ["def".toList],
    HistoryStore.load_eq holds before 2, rfl, ?_⟩
  refine ⟨by rw [memory]; rfl, held.readContent, joined, by rw [joined]; decide, ?_⟩
  rw [HistoryStore.load_eq held joined, memory]
  intro same
  cases congrArg HistoryLog.entries (congrArg HistoryStore.log (Except.ok.inj same))

end CommandShell
