import CommandShell.Editor.Reader

/-!
Keys typed before an interrupt. The interrupt is noticed with the next key, so what was typed
is gone once a key arrives. If the input ends before that, the typed text is
still the line.
-/
namespace CommandShell

/-- What a read of a line hands on to its caller, and the events it has left. -/
def LineRead.outcome (read : LineRead) : Except Failure (Option Text) × List InputEvent :=
  (read.result, read.rest.events)

/-- Whether the input ends before any key arrives and before any read fails. -/
def endsQuietly : List InputEvent → Bool
  | [] => true
  | .nothing :: _ => true
  | .retry :: rest => endsQuietly rest
  | .interrupt :: rest => endsQuietly rest
  | .key _ :: _ => false
  | .failure _ :: _ => false

namespace EditorScope

/-- The state after some keys, none of which completes a line or ends the input. -/
def typeKeys (scope : EditorScope) (state : EditorState) : Bytes → Option EditorState
  | [] => some state
  | key :: rest =>
      match scope.feed state key with
      | (.more, next, _) => scope.typeKeys next rest
      | _ => none

variable (scope : EditorScope)

theorem readFrom_key_outcome (state : EditorState) (pending : Bool) (key : UInt8)
    (events : List InputEvent) :
    (scope.readFrom state pending (.key key :: events)).outcome =
      match scope.feed (if pending then EditorState.fresh else state) key with
      | (.more, next, _) => (scope.readFrom next false events).outcome
      | (.line text, _, _) => (.ok (some text), events)
      | (.endOfInput, _, _) => (.ok none, events) := by
  rw [readFrom]
  obtain ⟨step, next, screen⟩ :=
    scope.feed (if pending then EditorState.fresh else state) key
  cases step <;> rfl

theorem readFrom_typed {state typed : EditorState} {keys : Bytes}
    (types : scope.typeKeys state keys = some typed) (events : List InputEvent) :
    (scope.readFrom state false (keys.map .key ++ events)).outcome =
      (scope.readFrom typed false events).outcome := by
  induction keys generalizing state with
  | nil =>
      cases types
      rfl
  | cons key rest ih =>
      rw [List.map_cons, List.cons_append, readFrom_key_outcome]
      rw [typeKeys] at types
      rw [if_neg Bool.false_ne_true]
      split at types
      next next _ fed =>
        rw [fed]
        exact ih types
      next => cases types

theorem readFrom_fresh (pending : Bool) (events : List InputEvent) :
    (scope.readFrom EditorState.fresh pending events).outcome =
      (scope.readFrom EditorState.fresh false events).outcome := by
  induction events generalizing pending with
  | nil => rfl
  | cons event rest ih =>
      cases event with
      | key byte => simp only [readFrom_key_outcome, ite_self]
      | interrupt => rfl
      | retry => exact ih pending
      | failure cause => rfl
      | nothing => rfl

/-- A read with a waiting interrupt goes on as one that begins anew, except that the text is
kept until a key arrives. -/
theorem readFrom_interrupted (state : EditorState) (events : List InputEvent) :
    (scope.readFrom state true events).outcome =
      (if endsQuietly events then .ok (finish state).1
        else (scope.readFrom EditorState.fresh false events).result,
       (scope.readFrom EditorState.fresh false events).rest.events) := by
  induction events with
  | nil => rfl
  | cons event rest ih =>
      cases event with
      | key byte =>
          have same := scope.readFrom_key_outcome EditorState.fresh false byte rest
          rw [readFrom_key_outcome]
          simpa [endsQuietly, LineRead.outcome] using same.symm
      | interrupt =>
          -- The read on the right notices the new interrupt as well, but has nothing to lose.
          have same := scope.readFrom_fresh true rest
          simp only [LineRead.outcome, Prod.mk.injEq] at ih same ⊢
          simp only [readFrom, endsQuietly, same.1, same.2]
          exact ih
      | retry => exact ih
      | failure cause => rfl
      | nothing => rfl

theorem readFrom_quiet {events : List InputEvent} (quiet : endsQuietly events = true)
    (state : EditorState) (pending : Bool) :
    (scope.readFrom state pending events).result = .ok (finish state).1 := by
  induction events generalizing pending with
  | nil => rfl
  | cons event rest ih =>
      cases event with
      | key byte => cases quiet
      | interrupt => exact ih quiet true
      | retry => exact ih quiet pending
      | failure cause => cases quiet
      | nothing => rfl

theorem finish_eq_fresh (state : EditorState) :
    (finish state).1 = (finish EditorState.fresh).1 ↔ state.buffer = [] := by
  unfold finish
  cases state.buffer <;> simp [EditorState.fresh]

theorem readLine_typed {keys : Bytes} {typed : EditorState}
    (types : scope.typeKeys EditorState.fresh keys = some typed) (pending : Bool)
    (events : List InputEvent) :
    (scope.readLine ⟨keys.map .key ++ .interrupt :: events, pending⟩).outcome =
      (scope.readFrom typed true events).outcome :=
  calc (scope.readFrom EditorState.fresh pending (keys.map .key ++ .interrupt :: events)).outcome
    _ = (scope.readFrom EditorState.fresh false (keys.map .key ++ .interrupt :: events)).outcome :=
        scope.readFrom_fresh pending _
    _ = (scope.readFrom typed false (.interrupt :: events)).outcome :=
        scope.readFrom_typed types _
    _ = (scope.readFrom typed true events).outcome := rfl

/-- An interrupt makes the read one of what comes behind it, exactly when nothing stood in
the buffer or a key or a failure comes before the end. The events left are the
same in any case. -/
theorem interrupt_discards_iff (keys : Bytes) (typed : EditorState)
    (types : scope.typeKeys EditorState.fresh keys = some typed) (events : List InputEvent)
    (pending again : Bool) :
    ((scope.readLine ⟨keys.map .key ++ .interrupt :: events, pending⟩).result =
        (scope.readLine ⟨events, again⟩).result ↔
      typed.buffer = [] ∨ endsQuietly events = false) ∧
    (scope.readLine ⟨keys.map .key ++ .interrupt :: events, pending⟩).rest.events =
      (scope.readLine ⟨events, again⟩).rest.events := by
  have anew : (scope.readLine ⟨events, again⟩).outcome =
      (scope.readFrom EditorState.fresh false events).outcome := scope.readFrom_fresh again events
  have whole := (scope.readLine_typed types pending events).trans
    (scope.readFrom_interrupted typed events)
  simp only [LineRead.outcome, Prod.mk.injEq] at anew whole
  rw [anew.1, anew.2, whole.1, whole.2]
  refine ⟨?_, rfl⟩
  cases quiet : endsQuietly events with
  | true => simp [scope.readFrom_quiet quiet, finish_eq_fresh]
  | false => simp

/-- The input ends behind the interrupt, and what was typed before it is the line. -/
theorem typed_text_outlives_interrupt :
    ∃ (scope : EditorScope) (keys : Bytes) (typed : EditorState) (events : List InputEvent),
      scope.typeKeys EditorState.fresh keys = some typed ∧
      (scope.readLine ⟨keys.map .key ++ .interrupt :: events, false⟩).result =
        .ok (some typed.buffer) ∧
      (scope.readLine ⟨keys.map .key ++ .interrupt :: events, false⟩).result ≠
        (scope.readLine ⟨events, false⟩).result := by
  refine ⟨⟨10, [], [], ⟨[], [], FileTree.empty, [], dot⟩⟩, [97], ⟨"a".toList, none, 0, .normal⟩,
    [], by decide, rfl, ?_⟩
  intro same
  cases (same : Except.ok (some "a".toList) = Except.ok none)

/-- A letter and the begin of an escape sequence are gone with the key behind the interrupt. -/
theorem escape_sequence_discarded :
    ∃ scope : EditorScope,
      (scope.readLine ⟨[.key 97, .key 27, .key 91, .interrupt, .key 65, .key 10], false⟩).result =
        (scope.readLine ⟨[.key 65, .key 10], false⟩).result :=
  ⟨⟨10, [], [], ⟨[], [], FileTree.empty, [], dot⟩⟩,
    (interrupt_discards_iff _ [97, 27, 91] ⟨"a".toList, none, 0, .sawBracket⟩ (by decide)
      [.key 65, .key 10] false false).1.mpr (.inr rfl)⟩

end EditorScope

end CommandShell
