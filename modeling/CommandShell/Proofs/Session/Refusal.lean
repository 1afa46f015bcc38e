import CommandShell.Proofs.Session.Joining

/-!
What becomes of a command that is refused for its length. Its lines are those that hang
together by backslashes, and the read that refuses it takes them up to the line
with which the limit is reached. The lines behind that one stay in the source,
and the next read begins with them.
-/
namespace CommandShell

/-- The lines of the command that a list of lines begins with, up to the first one that does
not end in a backslash. -/
def commandLines : List Text → List Text
  | [] => []
  | line :: rest => if line.getLast? = some backslash then line :: commandLines rest else [line]

/-- A script that reads of commands lead to. -/
inductive Later (limit : Nat) : Script → Script → Prop
  | now (script : Script) : Later limit script script
  | next {before between last : Script} (outcome : Except Trouble (Option Text))
      (reads : Reads limit before outcome between) (later : Later limit between last) :
      Later limit before last

/-- Between the two scripts the line with this number was taken, of so many lines. -/
def Takes (total number : Nat) (before after : Script) : Prop :=
  total - before.lines.length ≤ number ∧ number < total - after.lines.length

/-- None of the first `count` of `total` lines becomes part of a command that is read from
here on. -/
def NeverRead (limit total count : Nat) (script : Script) : Prop :=
  ∀ start finish text, Later limit script start →
    Reads limit start (.ok (some text)) finish →
      ∀ number < count, ¬Takes total number start finish

/-- After the read of a command no other takes a line of it. -/
def DroppedWhole (limit : Nat) (before after : Script) : Prop :=
  NeverRead limit before.lines.length (commandLines before.lines).length after

/-- Reads that end without a command take at least the next `owed` lines. -/
inductive Swallowed (limit : Nat) (failure : Option Failure) : Nat → List Text → Prop
  | nothing (lines : List Text) : Swallowed limit failure 0 lines
  | failing (owed : Nat) (first : Text) (lines rest : List Text) (cause : Trouble)
      (joins : Joins limit failure first lines (.error cause) rest)
      (tail : Swallowed limit failure (owed - ((first :: lines).length - rest.length)) rest) :
      Swallowed limit failure owed (first :: lines)

/-- The lines of the first command that a read has left. -/
def owed (before after : Script) : Nat :=
  (commandLines before.lines).length - (before.lines.length - after.lines.length)

theorem length_commandLines_le (lines : List Text) :
    (commandLines lines).length ≤ lines.length := by
  induction lines with
  | nil => exact Nat.le_refl _
  | cons line rest ih =>
      unfold commandLines
      split
      · exact Nat.succ_le_succ ih
      · simp

variable {limit total count : Nat}

theorem NeverRead.next {before after : Script} {outcome : Except Trouble (Option Text)}
    (never : NeverRead limit total count before) (reads : Reads limit before outcome after) :
    NeverRead limit total count after :=
  fun start finish text later => never start finish text (.next outcome reads later)

theorem NeverRead.fails {script : Script} {first : Text} {lines rest : List Text}
    {result : Except Trouble Text} (never : NeverRead limit total count script)
    (begun : script.lines = first :: lines) (inside : script.lines.length ≤ total)
    (begins : 0 < count - (total - script.lines.length))
    (joins : Joins limit script.failure first lines result rest) :
    ∃ cause, result = .error cause := by
  cases result with
  | error cause => exact ⟨cause, rfl⟩
  | ok text =>
      obtain ⟨after, reads, left, -⟩ := joins.reads begun
      have shorter := joins.length_le
      have taken : Takes total (total - script.lines.length) script after := by
        constructor
        · exact Nat.le_refl _
        · rw [left]
          rw [begun, List.length_cons] at inside ⊢
          omega
      exact absurd taken (never script after text (.now script) reads _ (by omega))

theorem NeverRead.swallowed (script : Script) (bound : count ≤ total)
    (inside : script.lines.length ≤ total) (never : NeverRead limit total count script) :
    Swallowed limit script.failure (count - (total - script.lines.length)) script.lines := by
  by_cases free : count - (total - script.lines.length) = 0
  · rw [free]
    exact .nothing script.lines
  · cases begun : script.lines with
    | nil =>
        simp only [begun, List.length_nil, Nat.sub_zero] at free
        exact absurd (Nat.sub_eq_zero_of_le bound) free
    | cons first lines =>
        obtain ⟨outcome, after, reads⟩ := exists_reads limit script
        obtain ⟨result, -, failure, joins⟩ := reads.of_lines begun
        obtain ⟨cause, rfl⟩ := never.fails begun inside (Nat.pos_of_ne_zero free) joins
        have shorter := joins.length_le
        rw [begun, List.length_cons] at inside
        -- The lines that are left after this read carry the induction.
        have tail := (never.next reads).swallowed after bound (by omega)
        have left : count - (total - after.lines.length) =
            count - (total - (first :: lines).length) -
              ((first :: lines).length - after.lines.length) := by
          rw [List.length_cons] at *
          omega
        rw [failure, left] at tail
        exact .failing _ first lines after.lines cause joins tail
termination_by script.lines.length
decreasing_by
  rw [begun, List.length_cons]
  omega

theorem Swallowed.next {before after : Script} {outcome : Except Trouble (Option Text)}
    (swallowed : Swallowed limit before.failure (count - (total - before.lines.length))
      before.lines)
    (bound : count ≤ total) (inside : before.lines.length ≤ total)
    (reads : Reads limit before outcome after) :
    Swallowed limit after.failure (count - (total - after.lines.length)) after.lines := by
  have shorter := reads.length_le
  by_cases free : count - (total - after.lines.length) = 0
  · rw [free]
    exact .nothing after.lines
  · cases begun : before.lines with
    | nil =>
        rw [begun, List.length_nil] at shorter
        omega
    | cons first lines =>
        obtain ⟨result, -, failure, joins⟩ := reads.of_lines begun
        rw [begun] at swallowed shorter inside
        generalize rest : count - (total - (first :: lines).length) = still at swallowed
        cases swallowed with
        | nothing => omega
        | failing _ _ _ rest cause again tail =>
            obtain ⟨-, rfl⟩ := joins.unique again
            have left : count - (total - after.lines.length) =
                still - ((first :: lines).length - after.lines.length) := by omega
            rw [failure, left]
            exact tail

theorem Swallowed.no_command {before after : Script} {text : Text}
    (swallowed : Swallowed limit before.failure (count - (total - before.lines.length))
      before.lines)
    (reads : Reads limit before (.ok (some text)) after) (number : Nat) (small : number < count) :
    ¬Takes total number before after := by
  rintro ⟨low, -⟩
  cases begun : before.lines with
  | nil => exact (reads.of_nothing begun).2.2 text rfl
  | cons first lines =>
      obtain ⟨result, same, -, joins⟩ := reads.of_lines begun
      rw [begun] at swallowed low
      generalize rest : count - (total - (first :: lines).length) = still at swallowed
      cases swallowed with
      | nothing => omega
      | failing _ _ _ rest cause again tail =>
          obtain ⟨rfl, -⟩ := joins.unique again
          cases same

theorem Swallowed.neverRead (script : Script) (bound : count ≤ total)
    (inside : script.lines.length ≤ total)
    (swallowed : Swallowed limit script.failure (count - (total - script.lines.length))
      script.lines) : NeverRead limit total count script := by
  intro start finish text later reads
  induction later with
  | now script => exact swallowed.no_command reads
  | next outcome first _ ih =>
      exact ih (Nat.le_trans first.length_le inside) (swallowed.next bound inside first) reads

/-- A command that was refused for its length is dropped as a whole exactly when the lines of
it that are left, if there are any, are taken by further reads that fail. -/
theorem droppedWhole_iff (limit : Nat) (before after : Script)
    (refused : Reads limit before (.error (.commandTooLong limit)) after) :
    DroppedWhole limit before after ↔
      Swallowed limit before.failure (owed before after) after.lines := by
  have bound := length_commandLines_le before.lines
  have inside := refused.length_le
  have same : after.failure = before.failure := by
    cases begun : before.lines with
    | nil => exact (refused.of_nothing begun).2.1
    | cons first lines =>
        obtain ⟨result, -, failure, -⟩ := refused.of_lines begun
        exact failure
  rw [← same]
  exact ⟨NeverRead.swallowed after bound inside, Swallowed.neverRead after bound inside⟩

/-- The refused line ends in a backslash, and the line behind it is read as a command. -/
theorem tail_of_refused_command_is_read :
    ∃ after, Reads 4 ⟨["a\\".toList, "bbb\\".toList, "tail".toList], none, []⟩
        (.error (.commandTooLong 4)) after ∧
      ¬DroppedWhole 4 ⟨["a\\".toList, "bbb\\".toList, "tail".toList], none, []⟩ after := by
  have refused : Joins 4 none "a\\".toList ["bbb\\".toList, "tail".toList]
      (.error (.commandTooLong 4)) ["tail".toList] := .refused _ _ _ (by decide) (by decide)
  have begun : (Script.mk ["a\\".toList, "bbb\\".toList, "tail".toList] none []).lines =
      "a\\".toList :: ["bbb\\".toList, "tail".toList] := rfl
  obtain ⟨after, reads, left, failure⟩ := refused.reads begun
  have whole : Joins 4 after.failure "tail".toList [] (.ok "tail".toList) [] :=
    .whole _ _ (by decide)
  obtain ⟨finish, again, ran, -⟩ := whole.reads left
  refine ⟨after, reads, fun dropped => ?_⟩
  refine dropped after finish _ (.now after) again 2 (by decide) ⟨?_, ?_⟩
  · rw [left]
    decide
  · rw [ran]
    decide

/-- The lines left of the first command make one that is too long as well. -/
theorem refused_command_dropped_in_two_reads :
    ∃ after, Reads 4 ⟨["a\\", "bbb\\", "c\\", "ddd", "next"].map String.toList, none, []⟩
        (.error (.commandTooLong 4)) after ∧
      DroppedWhole 4 ⟨["a\\", "bbb\\", "c\\", "ddd", "next"].map String.toList, none, []⟩
        after := by
  have refused : Joins 4 none "a\\".toList (["bbb\\", "c\\", "ddd", "next"].map String.toList)
      (.error (.commandTooLong 4)) (["c\\", "ddd", "next"].map String.toList) :=
    .refused _ _ _ (by decide) (by decide)
  have again : Joins 4 none "c\\".toList (["ddd", "next"].map String.toList)
      (.error (.commandTooLong 4)) (["next"].map String.toList) :=
    .refused _ _ _ (by decide) (by decide)
  have begun :
      (Script.mk (["a\\", "bbb\\", "c\\", "ddd", "next"].map String.toList) none []).lines =
        "a\\".toList :: ["bbb\\", "c\\", "ddd", "next"].map String.toList := rfl
  obtain ⟨after, reads, left, -⟩ := refused.reads begun
  refine ⟨after, reads, (droppedWhole_iff 4 _ after reads).mpr ?_⟩
  have two : owed ⟨["a\\", "bbb\\", "c\\", "ddd", "next"].map String.toList, none, []⟩
      after = 2 := by
    rw [owed, left]
    decide
  rw [two, left]
  exact .failing 2 _ _ _ _ again (.nothing _)

end CommandShell
