import CommandShell.Proofs.Builtin.Detached

/-!
Where the words of a command end up. A command says what it has to say in pieces, and each piece
goes behind the last one on its standard output. A file that was open there from its begin
holds all of them in the end, in their order. No other file has got any of it, and
nothing else that was open.
-/
namespace CommandShell

namespace FileTree

theorem patch_inside {old : Bytes} {offset : Nat} (inside : offset ≤ old.length) (data : Bytes) :
    patch old offset data = old.take offset ++ data ++ old.drop (offset + data.length) := by
  cases data with
  | nil => simp [patch]
  | cons byte rest => simp [patch, Nat.sub_eq_zero_of_le inside]

theorem patch_start (old data : Bytes) : patch old 0 data = data ++ old.drop data.length := by
  rw [patch_inside (Nat.zero_le _), List.take_zero, List.nil_append, Nat.zero_add]

@[simp]
theorem patch_empty (data : Bytes) : patch [] 0 data = data := by
  rw [patch_start, List.drop_nil, List.append_nil]

theorem patch_append (old said bytes : Bytes) :
    patch (patch old 0 said) said.length bytes = patch old 0 (said ++ bytes) := by
  have inside : said.length ≤ (patch old 0 said).length := by
    rw [patch_start, List.length_append]
    exact Nat.le_add_right _ _
  rw [patch_inside inside, patch_start, patch_start]
  simp [List.drop_append]

end FileTree

theorem Stream.object_eq_pipeWriter {stream : Stream} {pipe : Nat}
    (same : stream.object = .pipeWriter pipe) : stream = .pipeWriter pipe := by
  cases stream <;> cases same
  rfl

namespace Machine

variable {machine : Machine} {handle other : Handle}

theorem known_of_stream (some : machine.stream handle ≠ .void) :
    handle < machine.streams.length := by
  refine Nat.lt_of_not_le fun beyond => some ?_
  rw [Machine.stream, List.getElem?_eq_none beyond]
  rfl

theorem stream_consume (apart : other ≠ handle) (count : Nat) :
    (machine.consume handle count).stream other = machine.stream other := by
  unfold consume
  split
  · rw [stream_setStream, if_neg fun here => apart here.1]
  · rw [stream_setStream, if_neg fun here => apart here.1]
  · rfl
  · rfl
  · rfl
  · rfl
  · rfl

theorem outlet_consume {written : Bytes} (known : machine.stream other = .outlet written)
    (count : Nat) : (machine.consume handle count).stream other = .outlet written := by
  by_cases apart : other = handle
  · subst apart
    simp only [consume, known]
  · rw [stream_consume apart, known]

theorem pipe_consume (machine : Machine) (handle : Handle) (count number : Nat) :
    ((machine.consume handle count).pipe number).unread <:+ (machine.pipe number).unread := by
  unfold consume
  split
  · exact List.suffix_refl _
  · exact List.suffix_refl _
  · next own _ =>
      simp only [pipe, List.getElem?_set]
      by_cases here : own = number
      · subst here
        by_cases known : own < machine.pipes.length
        · simp [known, Pipe.take, List.drop_suffix]
        · simp [known]
      · simp [here]
  · exact List.suffix_refl _
  · exact List.suffix_refl _
  · exact List.suffix_refl _
  · exact List.suffix_refl _

theorem stream_put (apart : other ≠ handle) (bytes : Bytes) :
    (machine.put handle bytes).stream other = machine.stream other := by
  unfold put
  split
  · rw [stream_setStream, if_neg fun here => apart here.1]
  · split
    · rw [stream_setStream, if_neg fun here => apart here.1]
      rfl
    · rfl
  · split
    · rfl
    · rfl
  · rfl
  · rfl
  · rfl
  · rfl

theorem pipe_put {number : Nat} (other : machine.stream handle ≠ .pipeWriter number)
    (bytes : Bytes) :
    (machine.put handle bytes).pipe number = machine.pipe number := by
  unfold put
  split
  · rfl
  · split
    · rfl
    · rfl
  · split
    · rfl
    · rfl
  · next own known =>
      have apart : own ≠ number := by
        rintro rfl
        exact other known
      simp only [pipe, List.getElem?_set, if_neg apart]
  · rfl
  · rfl
  · rfl

theorem put_file {location : Location} {offset mode : Nat} {data : Bytes}
    (stream : machine.stream handle = .file location offset)
    (file : machine.tree.node? location = some (.file data mode)) (bytes : Bytes) :
    (machine.put handle bytes).stream handle = .file location (offset + bytes.length) ∧
      (machine.put handle bytes).tree.node? location =
        some (.file (FileTree.patch data offset bytes) mode) := by
  have known : handle < machine.streams.length := known_of_stream (by simp [stream])
  have below : location ≠ [] := by
    rintro rfl
    cases file
  simp only [put, stream, file]
  constructor
  · rw [stream_setStream, if_pos ⟨rfl, known⟩]
  · exact FileTree.node?_put_self machine.tree _ below

/-- What stood open has been written nowhere, and nothing of it but the input has been read. -/
structure Spares (input : Option Handle) (before after : Machine) : Prop where
  streams : ∀ handle < before.streams.length, input ≠ some handle →
    after.stream handle = before.stream handle
  outlets : ∀ handle written, before.stream handle = .outlet written →
    after.stream handle = .outlet written
  pipes : ∀ number, (after.pipe number).unread <:+ (before.pipe number).unread

theorem Spares.of_kept {before after : Machine} (input : Option Handle)
    (kept : ∀ handle < before.streams.length, after.stream handle = before.stream handle)
    (pipes : after.pipes = before.pipes) : before.Spares input after where
  streams handle old _ := kept handle old
  outlets handle written outlet := by
    rw [kept handle (known_of_stream (by simp [outlet])), outlet]
  pipes number := by
    have same : after.pipe number = before.pipe number := by rw [pipe, pipes]; rfl
    exact same ▸ List.suffix_refl _

end Machine

namespace Process.Tells

variable {process : Process} {before after : Machine} {said : Bytes} {own : Handle}
  {location : Location}

/-- What stands at the end of a file that the process writes from its begin, and where the
process is in it. -/
theorem lands (tells : process.Tells before said after)
    (output : process.descriptors.get? standardOutput = some own)
    (apart : process.descriptors.get? standardInput ≠ some own)
    (stream : before.stream own = .file location 0) {data : Bytes} {mode : Nat}
    (file : before.tree.node? location = some (.file data mode)) :
    after.stream own = .file location said.length ∧
      after.tree.node? location = some (.file (FileTree.patch data 0 said) mode) := by
  induction tells with
  | silent => exact ⟨stream, by rw [FileTree.patch_start]; exact file⟩
  | @hears said between count tells ih =>
      unfold Process.consume
      split
      · next handle given =>
          have other : own ≠ handle := by
            rintro rfl
            exact apart given
          rw [Machine.stream_consume other, Machine.tree_consume]
          exact ih
      · exact ih
  | @speaks said between bytes tells ih =>
      obtain ⟨place, content⟩ := ih
      have step := Machine.put_file place content bytes
      rw [Process.put_eq, output]
      rw [List.length_append, ← FileTree.patch_append]
      exact step

theorem elsewhere (tells : process.Tells before said after)
    (output : process.descriptors.get? standardOutput = some own)
    (known : own < before.streams.length)
    (apart : (before.stream own).location? ≠ some location) :
    after.tree.node? location = before.tree.node? location := by
  induction tells with
  | silent => rfl
  | hears count tells ih =>
      rw [← ih]
      unfold Process.consume
      split
      · rw [Machine.tree_consume]
      · rfl
  | speaks bytes tells ih =>
      rw [← ih]
      rw [Process.put_eq, output]
      -- The stream has moved since, but leads to the same file.
      exact Machine.put_elsewhere (by rw [tells.talks.grown.location? known]; exact apart) bytes

theorem spares (tells : process.Tells before said after) {older : Machine}
    (spared : older.Spares (process.descriptors.get? standardInput) before)
    (output : process.descriptors.get? standardOutput = some own)
    (new : older.streams.length ≤ own) (known : own < before.streams.length)
    (noPipe : ∀ pipe, before.stream own ≠ .pipeWriter pipe) :
    older.Spares (process.descriptors.get? standardInput) after := by
  induction tells with
  | silent => exact spared
  | @hears said between count tells ih =>
      unfold Process.consume
      split
      · next input given =>
          rw [given] at ih ⊢
          constructor
          case streams =>
            intro handle old unread
            have apart : handle ≠ input := fun same => unread (congrArg some same.symm)
            rw [Machine.stream_consume apart]
            exact ih.streams handle old unread
          case outlets =>
            intro handle written outlet
            exact Machine.outlet_consume (ih.outlets handle written outlet) count
          case pipes =>
            intro pipe
            exact (Machine.pipe_consume between input count pipe).trans (ih.pipes pipe)
      · exact ih
  | @speaks said between bytes tells ih =>
      rw [Process.put_eq, output]
      constructor
      case streams =>
        intro handle old unread
        have apart : handle ≠ own := Nat.ne_of_lt (Nat.lt_of_lt_of_le old new)
        rw [Machine.stream_put apart]
        exact ih.streams handle old unread
      case outlets =>
        intro handle written outlet
        have old : handle < older.streams.length := Machine.known_of_stream (by simp [outlet])
        have apart : handle ≠ own := Nat.ne_of_lt (Nat.lt_of_lt_of_le old new)
        rw [Machine.stream_put apart]
        exact ih.outlets handle written outlet
      case pipes =>
        intro pipe
        have still : between.stream own ≠ .pipeWriter pipe := by
          intro here
          refine noPipe pipe (Stream.object_eq_pipeWriter ?_)
          rw [← tells.talks.grown.object own known, here]
          rfl
        rw [Machine.pipe_put still]
        exact ih.pipes pipe

end Process.Tells

end CommandShell
