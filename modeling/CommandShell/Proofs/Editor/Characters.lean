import CommandShell.Proofs.Editor.Keys
import CommandShell.Proofs.Editor.Typing
import CommandShell.Proofs.Text.Order

/-!
Which characters come into the line. The buffer is made of typed characters, of entries of the
history and of names that are offered for completion. A kind of characters that all of these
have is kept by every key, and Tab is the only key that brings a name.
-/
namespace CommandShell

/-- All characters of the text are of this kind. -/
def Only (kind : Char → Prop) (text : Text) : Prop :=
  ∀ c ∈ text, kind c

instance {kind : Char → Prop} [DecidablePred kind] (text : Text) : Decidable (Only kind text) :=
  List.decidableBAll kind text

namespace Only

variable {kind : Char → Prop}

theorem nil : Only kind [] :=
  fun _ inside => nomatch inside

theorem append {left right : Text} (first : Only kind left) (second : Only kind right) :
    Only kind (left ++ right) := by
  intro c inside
  rcases List.mem_append.mp inside with early | late
  · exact first c early
  · exact second c late

theorem single {c : Char} (fits : kind c) : Only kind [c] := by
  intro other inside
  rwa [List.mem_singleton.mp inside]

theorem subset {part text : Text} (only : Only kind text) (inside : part ⊆ text) :
    Only kind part :=
  fun c member => only c (inside member)

theorem clip {text : Text} (only : Only kind text) (limit : Nat) :
    Only kind (clip limit text) :=
  only.subset (clip_begins limit text).subset

end Only

-- A typed character has the number of its key.
theorem toNat_typed (key : UInt8) : (Char.ofNat key.toNat).toNat = key.toNat := by
  have valid : key.toNat.isValidChar := Or.inl (Nat.lt_trans key.toNat_lt (by decide))
  rw [Char.ofNat, dif_pos valid]
  rfl

theorem isPrintable_iff {key : UInt8} :
    isPrintable key = true ↔ 32 ≤ key.toNat ∧ key.toNat ≤ 126 := by
  simp only [isPrintable, Bool.and_eq_true, decide_eq_true_eq, UInt8.le_iff_toNat_le]
  rfl

theorem splitAfterLast_subset {α : Type} (test : α → Bool) (items : List α) :
    (splitAfterLast test items).1 ⊆ items ∧ (splitAfterLast test items).2 ⊆ items := by
  constructor
  · exact List.take_subset _ items
  · intro item inside
    have taken := (List.takeWhile_sublist _).subset (List.mem_reverse.mp inside)
    exact List.mem_reverse.mp taken

/-! What completion offers. -/

theorem FileTree.textNames_empty (cwd : Location) (path : Path) :
    FileTree.empty.textNames cwd path = [] := by
  unfold textNames list
  cases FileTree.empty.enter cwd path with
  | error failure => rfl
  | ok folder => simp [names, empty, NameHash.order]

/-- Every name that completion can offer is of this kind. -/
structure CompletionScope.NamesOnly (scope : CompletionScope) (kind : Char → Prop) : Prop where
  builtins : ∀ name ∈ scope.builtins, Only kind name
  environment : ∀ name ∈ scope.env.names, Only kind name
  entries : ∀ folder, ∀ name ∈ scope.tree.textNames scope.cwd folder, Only kind name

namespace CompletionScope

variable {scope : CompletionScope} {kind : Char → Prop}

theorem entries_only (names : scope.NamesOnly kind) (foldersOnly : Bool) {token : Text}
    (typed : Only kind token) :
    ∀ candidate ∈ scope.entries foldersOnly token, Only kind candidate := by
  intro candidate offered
  obtain ⟨name, kept, rfl⟩ := List.mem_map.mp offered
  have matched := (List.mem_filter.mp kept).1
  have listed := (List.mem_filter.mp matched).1
  exact (typed.subset (splitAfterLast_subset _ token).1).append (names.entries _ name listed)

theorem candidates_only (names : scope.NamesOnly kind) (sign : kind '$') (before : Text)
    {token : Text} (typed : Only kind token) :
    ∀ candidate ∈ scope.candidates before token, Only kind candidate := by
  intro candidate offered
  unfold candidates at offered
  split at offered
  · obtain ⟨name, kept, rfl⟩ := List.mem_map.mp offered
    exact (Only.single sign).append (names.environment name (List.mem_filter.mp kept).1)
  · split at offered
    · exact names.builtins candidate (List.mem_filter.mp offered).1
    · exact entries_only names _ typed candidate offered

theorem complete_only (names : scope.NamesOnly kind) (sign : kind '$') {line : Text}
    (typed : Only kind line) :
    ∀ candidate ∈ (scope.complete line).candidates, Only kind candidate := by
  intro candidate offered
  have found := mem_sorted.mp offered
  have token := typed.subset (splitAfterLast_subset isBlank line).2
  exact candidates_only names sign _ token candidate found

end CompletionScope

namespace EditorScope

variable {scope : EditorScope} {state : EditorState} {kind : Char → Prop}

section Browsing

variable (history : ∀ entry ∈ scope.history, Only kind entry)
include history

theorem browse_only (state : EditorState) (index : Nat) :
    Only kind (scope.browse state index).buffer := by
  have entry : Only kind ((scope.history[index]?).getD []) := by
    cases found : scope.history[index]? with
    | none => exact .nil
    | some text => exact history text (List.mem_of_getElem? found)
  exact entry.clip scope.maxLength

theorem Browses.only {moved : EditorState} (browses : scope.Browses state moved)
    (only : Only kind state.buffer) : Only kind moved.buffer := by
  cases browses with
  | stays => exact only
  | shows index => exact browse_only history state index
  | leaves => exact .nil

end Browsing

theorem tab_only (names : scope.completion.NamesOnly kind) (sign : kind '$')
    (only : Only kind state.buffer) : Only kind (scope.tab state).1.buffer := by
  by_cases one : (scope.candidates state).length = 1
  · obtain ⟨candidate, single⟩ := List.length_eq_one_iff.mp one
    have offered := CompletionScope.complete_only names sign only candidate
      (List.mem_of_mem_head? (congrArg List.head? single))
    rw [scope.tab_single single]
    exact ((only.clip _).append offered).clip _
  · rw [scope.tab_counts one]
    exact only

theorem press_only (typed : ∀ key, isPrintable key = true → kind (Char.ofNat key.toNat))
    (only : Only kind state.buffer) {key : UInt8}
    (completed : key = keyTab → Only kind (scope.tab state).1.buffer) :
    Only kind (scope.press state key).2.1.buffer := by
  have pressed := scope.press_pressed state key
  generalize scope.press state key = result at pressed ⊢
  cases pressed with
  | ended => exact .nil
  | closed => exact only
  | escaped => exact only
  | erased => exact only.subset (List.dropLast_subset _)
  | tabbed tab => exact completed tab
  | typed printable => exact only.append (.single (typed key printable))
  | blank => exact only
  | refused => exact only

-- What a key leaves in the buffer. Only a Tab outside an escape sequence can bring characters
-- of another kind.
theorem feed_only (history : ∀ entry ∈ scope.history, Only kind entry)
    (typed : ∀ key, isPrintable key = true → kind (Char.ofNat key.toNat))
    (only : Only kind state.buffer) {key : UInt8}
    (completed : key = keyTab → state.key = .normal → Only kind (scope.tab state).1.buffer) :
    Only kind (scope.feed state key).2.1.buffer := by
  refine scope.feed_keeps only (fun outside begun => press_only typed begun ?_)
    fun ready moved browses held => browses.only history held
  rintro rfl
  exact completed rfl outside

end EditorScope

end CommandShell
