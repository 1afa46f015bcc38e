import CommandShell.Alias.Definition
import CommandShell.Proofs.Text.Lines

/-!
Definitions that are written down and read again. Whatever the text of an alias is, printing
it between quotes and reading the line gives it back, as long as the name can be told from
the text. A table that takes the definition knows it from then on, and no other entry
has changed.
-/
namespace CommandShell

theorem trimStart_cons {c : Char} (solid : isBlank c = false) (rest : Text) :
    trimStart (c :: rest) = c :: rest := by
  simp [trimStart, solid]

theorem trim_solid {text : Text} (first : ∀ c ∈ text.head?, isBlank c = false)
    (last : ∀ c ∈ text.getLast?, isBlank c = false) : trim text = text := by
  rcases text.eq_nil_or_concat with rfl | ⟨front, final, rfl⟩
  · rfl
  · rw [List.concat_eq_append] at first last ⊢
    have start : trimStart (front ++ [final]) = front ++ [final] := by
      cases front with
      | nil => exact trimStart_cons (first final rfl) []
      | cons c rest => exact trimStart_cons (first c rfl) _
    rw [trim, start]
    exact dropEndWhile_append (last final (by simp)) front

theorem unquote_quoted (text : Text) : unquote ('\'' :: (text ++ ['\''])) = text := by
  simp [unquote, isQuote]

namespace AliasEntry

theorem print_eq (entry : AliasEntry) :
    entry.print = entry.name ++ '=' :: '\'' :: (entry.text ++ ['\'']) := by
  simp [print]

theorem print_concat (name text : Text) :
    print ⟨name, text⟩ = (name ++ '=' :: '\'' :: text) ++ ['\''] := by
  simp [print_eq]

theorem define?_print {entry : AliasEntry} (apart : '=' ∉ entry.name) :
    define? entry.print = some ⟨trim entry.name, entry.text⟩ := by
  have before : ∀ c ∈ entry.name, (c != '=') = true := by
    rintro c inside
    simp only [bne_iff_ne]
    rintro rfl
    exact apart inside
  have name : entry.print.takeWhile (· != '=') = entry.name := by
    rw [print_eq, List.takeWhile_append_of_pos before]
    simp
  have rest : entry.print.dropWhile (· != '=') = '=' :: '\'' :: (entry.text ++ ['\'']) := by
    rw [print_eq, List.dropWhile_append_of_pos before]
    simp
  have quoted : dropEndWhile isLineEnd ('\'' :: (entry.text ++ ['\''])) =
      '\'' :: (entry.text ++ ['\'']) := dropEndWhile_append rfl ('\'' :: entry.text)
  simp only [define?, name, rest, quoted, unquote_quoted]

end AliasEntry

/-- A name that the table takes as it is. -/
structure ValidName (name : Text) : Prop where
  filled : name ≠ []
  unbroken : ∀ c ∈ name, isBlank c = false

instance (name : Text) : Decidable (ValidName name) :=
  decidable_of_iff (name ≠ [] ∧ name.any isBlank = false)
    ⟨fun ⟨filled, unbroken⟩ => ⟨filled, by simpa using unbroken⟩,
      fun ⟨filled, unbroken⟩ => ⟨filled, by simpa using unbroken⟩⟩

namespace ValidName

variable {name : Text}

theorem trim_eq (valid : ValidName name) : trim name = name := by
  apply trim_solid
  · exact fun c inside => valid.unbroken c (List.mem_of_head? inside)
  · exact fun c inside => valid.unbroken c (List.mem_of_getLast? inside)

theorem accepted (valid : ValidName name) : (name.isEmpty || name.any isBlank) = false := by
  have unbroken : name.any isBlank = false :=
    List.any_eq_false.mpr fun c inside => by simp [valid.unbroken c inside]
  rw [unbroken, Bool.or_false, List.isEmpty_eq_false_iff]
  exact valid.filled

theorem words_eq (valid : ValidName name) : words name = [name] := by
  have filled := valid.filled
  simp [words, fields_unbroken valid.unbroken, filled]

end ValidName

namespace AliasTable

variable {table next : AliasTable} {name text : Text}

theorem get?_map_known (entries : List AliasEntry) (name text : Text)
    (known : (entries.any fun entry => entry.name == name) = true) :
    (entries.map fun entry => if entry.name == name then ⟨name, text⟩ else entry).find?
      (fun entry => entry.name == name) = some ⟨name, text⟩ := by
  induction entries with
  | nil => cases known
  | cons entry rest ih =>
      rw [List.map_cons, List.find?_cons]
      cases here : entry.name == name with
      | true => simp
      | false =>
          rw [List.any_cons, here, Bool.false_or] at known
          rw [if_neg Bool.false_ne_true, here]
          exact ih known

theorem filter_map_other (entries : List AliasEntry) (name text : Text) :
    (entries.map fun entry => if entry.name == name then ⟨name, text⟩ else entry).filter
      (fun entry => entry.name != name) = entries.filter fun entry => entry.name != name := by
  induction entries with
  | nil => rfl
  | cons entry rest ih =>
      rw [List.map_cons, List.filter_cons, List.filter_cons, ih]
      by_cases here : entry.name = name
      · simp [here]
      · simp [here]

theorem insert_defines (valid : ValidName name)
    (room : table.has name = true ∨ table.entries.length < table.capacity) (text : Text) :
    ∃ next, table.insert name text = .ok next ∧ next.get? name = some text ∧
      next.entries.filter (fun entry => entry.name != name) =
        table.entries.filter fun entry => entry.name != name := by
  unfold insert
  simp only [valid.trim_eq, valid.accepted, Bool.false_eq_true, if_false]
  by_cases known : table.has name = true
  · refine ⟨_, if_pos known, ?_, filter_map_other table.entries name text⟩
    rw [get?, get?_map_known table.entries name text known]
    rfl
  · have fits : ¬ table.capacity ≤ table.entries.length :=
      Nat.not_le_of_lt (room.resolve_left known)
    have unknown : table.entries.find? (fun entry => entry.name == name) = none := by
      rw [List.find?_eq_none]
      exact fun entry inside hit => known (List.any_eq_true.mpr ⟨entry, inside, hit⟩)
    refine ⟨_, (if_neg known).trans (if_neg fits), ?_, ?_⟩
    · rw [get?, List.find?_append, unknown]
      simp
    · simp

theorem insertLines_one (table : AliasTable) (line : Text) :
    table.insertLines [line] =
      match AliasEntry.define? line with
      | none => table
      | some entry => (table.insert entry.name entry.text).toOption.getD table := by
  rw [insertLines, List.foldl_cons, List.foldl_nil]
  cases AliasEntry.define? line with
  | none => rfl
  | some entry =>
      cases inserted : table.insert entry.name entry.text with
      | error trouble => simp only [inserted]; rfl
      | ok next => simp only [inserted]; rfl

end AliasTable

end CommandShell
