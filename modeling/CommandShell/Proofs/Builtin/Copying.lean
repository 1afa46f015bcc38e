import CommandShell.Builtin.Lines
import CommandShell.Proofs.Builtin.Printing
import CommandShell.Proofs.Completion.Candidates
import CommandShell.Proofs.Job.Stages
import CommandShell.Proofs.System.Refusal
import CommandShell.Proofs.Text.Lines
import Mathlib

/-!
Copies of several operands. An operand that cannot be opened is passed over and told of in the
end. As long as every other one is text the copy holds the lines of them all, numbered without a
gap. The first operand that is opened and turns out to be no text ends the copy: nothing behind it
is looked at, and the report tells of no operand by its name.
-/
namespace CommandShell

/-- What comes of reading an operand for its lines. -/
inductive Intake
  /-- It could not be opened. -/
  | refused (failure : Failure)
  /-- It was opened, and reading failed behind these lines. -/
  | broken (lines : List Text) (failure : Failure)
  | whole (lines : List Text)

namespace Intake

def breaks : Intake → Bool
  | .broken _ _ => true
  | .refused _ | .whole _ => false

def lines : Intake → List Text
  | .refused _ => []
  | .broken lines _ | .whole lines => lines

def failure? : Intake → Option Failure
  | .refused failure | .broken _ failure => some failure
  | .whole _ => none

/-- What is written of an operand that one failure does not spoil for the others: all of its
lines, if they can be read. -/
def Gives (intake : Intake) (piece : List Text) : Prop :=
  match intake with
  | .refused _ => piece = []
  | .broken lines _ => piece <+: lines
  | .whole lines => piece = lines

end Intake

def FileTree.intake (tree : FileTree) (cwd : Location) (name : Text) : Intake :=
  match tree.open? cwd (encode name) with
  | .error failure => .refused failure
  | .ok (_, node) =>
      match FileTree.content node with
      | .error failure => .broken [] failure
      | .ok content =>
          match textLines? content with
          | some lines => .whole lines
          | none => .broken (readLines content).1 .notText

/-- Lines as a copy writes them. -/
def numberedFrom (numbered : Bool) (number : Nat) (lines : List Text) : List Text :=
  if numbered then numberLines number lines else lines

/-- One failure does not spoil the copy: each operand has its part of the output, the copy
succeeds if all of them do, and else it tells of every one that did not. -/
structure FailuresSpared (operands : List (Text × Intake)) (numbered : Bool)
    (result : Except Trouble Unit) (output : Bytes) : Prop where
  written : ∃ pieces, List.Forall₂ (fun operand piece => operand.2.Gives piece) operands pieces ∧
    output = writeLines (numberedFrom numbered 1 pieces.flatten)
  succeeds : result = .ok () ↔ ∀ operand ∈ operands, operand.2.failure? = none
  named : ∀ trouble, result = .error trouble → ∀ operand ∈ operands,
    ∀ failure ∈ operand.2.failure?, complaint "cat" operand.1 failure <:+: trouble.message

theorem numberLines_append (number : Nat) (first second : List Text) :
    numberLines number (first ++ second) =
      numberLines number first ++ numberLines (number + first.length) second := by
  induction first generalizing number with
  | nil => rfl
  | cons line rest ih =>
      rw [List.cons_append, numberLines, numberLines, ih, List.length_cons, List.cons_append,
        Nat.add_right_comm, Nat.add_assoc]

/-- The number for the line behind some lines. -/
def numberAfter (numbered : Bool) (number : Nat) (lines : List Text) : Nat :=
  if numbered then number + lines.length else number

theorem writeLines_numberedFrom (numbered : Bool) (number : Nat) (first second : List Text) :
    writeLines (numberedFrom numbered number (first ++ second)) =
      writeLines (numberedFrom numbered number first) ++
        writeLines (numberedFrom numbered (numberAfter numbered number first) second) := by
  cases numbered with
  | false => exact List.flatMap_append
  | true =>
      simp only [numberedFrom, numberAfter, if_true, numberLines_append]
      exact List.flatMap_append

theorem numberAfter_append (numbered : Bool) (number : Nat) (first second : List Text) :
    numberAfter numbered number (first ++ second) =
      numberAfter numbered (numberAfter numbered number first) second := by
  cases numbered with
  | false => rfl
  | true => simp only [numberAfter, if_true, List.length_append, Nat.add_assoc]

section

variable {tree : FileTree} {cwd : Location} {numbered : Bool}

theorem copyLines_eq (number : Nat) (content : Bytes) :
    copyLines numbered number content =
      ⟨readResult (readLines content).2,
        writeLines (numberedFrom numbered number (readLines content).1),
        numberAfter numbered number (readLines content).1⟩ := by
  cases numbered <;> rfl

theorem copyOperands_cons (number : Nat) (failed : List (Text × Failure)) (name : Text)
    (rest : List Text) :
    copyOperands tree cwd numbered number failed (name :: rest) =
      match tree.intake cwd name with
      | .refused failure => copyOperands tree cwd numbered number (failed ++ [(name, failure)]) rest
      | .broken lines failure =>
          (.error (.failed failure), writeLines (numberedFrom numbered number lines))
      | .whole lines =>
          let later := numberAfter numbered number lines
          let after := copyOperands tree cwd numbered later failed rest
          (after.1, writeLines (numberedFrom numbered number lines) ++ after.2) := by
  rw [copyOperands, FileTree.intake]
  cases tree.open? cwd (encode name) with
  | error failure => rfl
  | ok found =>
      obtain ⟨location, node⟩ := found
      simp only
      cases FileTree.content node with
      | error failure => cases numbered <;> rfl
      | ok content =>
          simp only [copyLines_eq, textLines?]
          cases (readLines content).2 <;> rfl

/-- The lines of some operands that do not break. -/
def FileTree.linesOf (tree : FileTree) (cwd : Location) (names : List Text) : List Text :=
  names.flatMap fun name => (tree.intake cwd name).lines

/-- The operands that cannot be opened, and why. -/
def FileTree.failuresOf (tree : FileTree) (cwd : Location) (names : List Text) :
    List (Text × Failure) :=
  names.filterMap fun name => (tree.intake cwd name).failure?.map (name, ·)

theorem copyOperands_append {before : List Text}
    (spared : ∀ name ∈ before, (tree.intake cwd name).breaks = false) (number : Nat)
    (failed : List (Text × Failure)) (after : List Text) :
    let rest := copyOperands tree cwd numbered
      (numberAfter numbered number (tree.linesOf cwd before))
      (failed ++ tree.failuresOf cwd before) after
    copyOperands tree cwd numbered number failed (before ++ after) =
      (rest.1, writeLines (numberedFrom numbered number (tree.linesOf cwd before)) ++ rest.2) := by
  induction before generalizing number failed with
  | nil =>
      intro rest
      have unchanged : failed ++ tree.failuresOf cwd [] = failed := List.append_nil failed
      cases numbered <;> simp [rest, unchanged, FileTree.linesOf, numberedFrom, numberAfter,
        numberLines, writeLines]
  | cons name before ih =>
      have others := ih fun other inside => spared other (List.mem_cons_of_mem name inside)
      have here := spared name List.mem_cons_self
      rw [List.cons_append, copyOperands_cons]
      cases read : tree.intake cwd name with
      | refused failure =>
          simp only [others, FileTree.linesOf, FileTree.failuresOf, List.flatMap_cons,
            List.filterMap_cons, read, Intake.lines, Intake.failure?, Option.map_some,
            List.nil_append, List.append_assoc, List.singleton_append]
      | broken lines failure =>
          rw [read] at here
          cases here
      | whole lines =>
          simp only [others, FileTree.linesOf, FileTree.failuresOf, List.flatMap_cons,
            List.filterMap_cons, read, Intake.lines, Intake.failure?, Option.map_none,
            writeLines_numberedFrom, numberAfter_append, List.append_assoc]

theorem copyOperands_spared {names : List Text}
    (spared : ∀ name ∈ names, (tree.intake cwd name).breaks = false) :
    copyOperands tree cwd numbered 1 [] names =
      (if (tree.failuresOf cwd names).isEmpty then .ok ()
        else .error (.cannotRead (tree.failuresOf cwd names)),
        writeLines (numberedFrom numbered 1 (tree.linesOf cwd names))) := by
  have copied : copyOperands tree cwd numbered 1 [] (names ++ []) = _ :=
    copyOperands_append spared 1 [] []
  rw [List.append_nil] at copied
  rw [copied, copyOperands, List.nil_append, List.append_nil]

theorem copyOperands_broken {before : List Text} {name : Text} {lines : List Text}
    {failure : Failure} (spared : ∀ other ∈ before, (tree.intake cwd other).breaks = false)
    (read : tree.intake cwd name = .broken lines failure) (after : List Text) :
    copyOperands tree cwd numbered 1 [] (before ++ name :: after) =
      (.error (.failed failure),
        writeLines (numberedFrom numbered 1 (tree.linesOf cwd before ++ lines))) := by
  have copied : copyOperands tree cwd numbered 1 [] (before ++ name :: after) = _ :=
    copyOperands_append spared 1 [] (name :: after)
  rw [copied, copyOperands_cons, read]
  simp only [writeLines_numberedFrom]

theorem mem_failuresOf {names : List Text} {name : Text} {failure : Failure} :
    (name, failure) ∈ tree.failuresOf cwd names ↔
      name ∈ names ∧ (tree.intake cwd name).failure? = some failure := by
  simp only [FileTree.failuresOf, List.mem_filterMap, Option.map_eq_some_iff, Prod.mk.injEq]
  constructor
  · rintro ⟨other, inside, cause, failed, rfl, rfl⟩
    exact ⟨inside, failed⟩
  · rintro ⟨inside, failed⟩
    exact ⟨name, inside, failure, failed, rfl, rfl⟩

theorem failuresOf_eq_nil {names : List Text} :
    tree.failuresOf cwd names = [] ↔ ∀ name ∈ names, (tree.intake cwd name).failure? = none := by
  simp [FileTree.failuresOf, List.filterMap_eq_nil_iff]

end

theorem Intake.gives_lines (intake : Intake) : intake.Gives intake.lines := by
  cases intake with
  | refused | whole => rfl
  | broken lines failure => exact List.prefix_refl lines

theorem FileTree.intake_broken {tree : FileTree} {cwd : Location} {name : Text}
    {lines : List Text} {failure : Failure} (read : tree.intake cwd name = .broken lines failure) :
    failure = .isFolder ∨ failure = .notText := by
  unfold intake at read
  split at read
  · cases read
  · next node _ =>
      cases node with
      | folder mode =>
          cases read
          exact .inl rfl
      | file | link | void =>
          simp only [FileTree.content] at read
          split at read
          · cases read
          · cases read
            exact .inr rfl

/-- Operands with what comes of reading them. -/
def FileTree.intakes (tree : FileTree) (cwd : Location) (names : List Text) :
    List (Text × Intake) :=
  names.map fun name => (name, tree.intake cwd name)

section

variable {tree : FileTree} {cwd : Location} {numbered : Bool} {names : List Text}

theorem failuresSpared_of_spared
    (spared : ∀ name ∈ names, (tree.intake cwd name).breaks = false) :
    let copied := copyOperands tree cwd numbered 1 [] names
    FailuresSpared (tree.intakes cwd names) numbered copied.1 copied.2 := by
  intro copied
  have result : copied = _ := copyOperands_spared spared
  rw [result]
  constructor
  case written =>
    refine ⟨names.map fun name => (tree.intake cwd name).lines, ?_, rfl⟩
    rw [FileTree.intakes, List.forall₂_map_left_iff, List.forall₂_map_right_iff,
      List.forall₂_same]
    exact fun name _ => Intake.gives_lines _
  case succeeds =>
    simp only [FileTree.intakes, List.forall_mem_map, ← failuresOf_eq_nil, List.isEmpty_iff]
    split
    · next all => exact iff_of_true rfl all
    · next failing => exact iff_of_false (fun same => by cases same) failing
  case named =>
    intro trouble failed operand inside failure cause
    obtain ⟨name, member, rfl⟩ := List.mem_map.mp inside
    split at failed
    · cases failed
    · cases failed
      exact infix_joinWith ['\n'] (List.mem_map.mpr ⟨_, mem_failuresOf.mpr ⟨member, cause⟩, rfl⟩)

theorem exists_broken (broken : ¬ ∀ name ∈ names, (tree.intake cwd name).breaks = false) :
    ∃ before name after lines failure, names = before ++ name :: after ∧
      (∀ other ∈ before, (tree.intake cwd other).breaks = false) ∧
      tree.intake cwd name = .broken lines failure := by
  cases found : names.find? fun name => (tree.intake cwd name).breaks with
  | none => exact absurd (by simpa using List.find?_eq_none.mp found) broken
  | some name =>
      obtain ⟨here, before, after, place, spared⟩ := List.find?_eq_some_iff_append.mp found
      cases read : tree.intake cwd name with
      | broken lines failure =>
          exact ⟨before, name, after, lines, failure, place, by simpa using spared, read⟩
      | refused | whole =>
          rw [read] at here
          cases here

theorem unnamed {failure : Failure} (broken : failure = .isFolder ∨ failure = .notText)
    (name : Text) : ¬ complaint "cat" name failure <:+: failure.message := by
  intro inside
  have sign : ':' ∈ failure.message := inside.subset (by simp [complaint])
  rcases broken with rfl | rfl <;> revert sign <;> decide

theorem not_failuresSpared_of_broken
    (broken : ¬ ∀ name ∈ names, (tree.intake cwd name).breaks = false) :
    let copied := copyOperands tree cwd numbered 1 [] names
    ¬ FailuresSpared (tree.intakes cwd names) numbered copied.1 copied.2 := by
  intro copied spared
  obtain ⟨before, name, after, lines, failure, rfl, first, read⟩ := exists_broken broken
  have result : copied = _ := copyOperands_broken first read after
  have member : (name, tree.intake cwd name) ∈ tree.intakes cwd (before ++ name :: after) :=
    List.mem_map.mpr ⟨name, by simp, rfl⟩
  have failed : failure ∈ (tree.intake cwd name).failure? := by
    rw [read]
    rfl
  have named := spared.named (.failed failure) (by rw [result]) _ member failure failed
  exact unnamed (FileTree.intake_broken read) name named

end

theorem runShowFiles_operands (shell : Shell) (machine : Machine) {numbered : Bool}
    {names : List Text} (filled : names ≠ [])
    (plain : numbered = false → names.head? ≠ some "-n".toList) :
    let copied := copyOperands machine.tree shell.cwd numbered 1 [] names
    Builtin.runShowFiles shell (if numbered then "-n".toList :: names else names) machine =
      .look shell machine copied.1 copied.2 := by
  obtain ⟨first, rest, rfl⟩ := List.exists_cons_of_ne_nil filled
  cases numbered with
  | true => rfl
  | false =>
      have other : first ≠ ['-', 'n'] := by simpa using plain rfl
      rw [if_neg Bool.false_ne_true, Builtin.runShowFiles]
      · rfl
      · intro others same
        exact other (List.cons.inj same).1

/-- What copying some operands comes to. One failure does not spoil the others if every operand that
can be opened is text, and only then: the first one that is not ends the copy behind its
lines. -/
theorem runShowFiles_spares_iff (shell : Shell) (machine : Machine) (numbered : Bool)
    {names : List Text} (filled : names ≠ [])
    (plain : numbered = false → names.head? ≠ some "-n".toList) :
    let tree := machine.tree
    let copied := copyOperands tree shell.cwd numbered 1 [] names
    Builtin.runShowFiles shell (if numbered then "-n".toList :: names else names) machine =
        .look shell machine copied.1 copied.2 ∧
      (FailuresSpared (tree.intakes shell.cwd names) numbered copied.1 copied.2 ↔
        ∀ name ∈ names, (tree.intake shell.cwd name).breaks = false) ∧
      ∀ before name after lines failure, names = before ++ name :: after →
        (∀ other ∈ before, (tree.intake shell.cwd other).breaks = false) →
        tree.intake shell.cwd name = .broken lines failure →
          copied = (.error (.failed failure),
            writeLines (numberedFrom numbered 1 (tree.linesOf shell.cwd before ++ lines))) := by
  intro tree copied
  refine ⟨?_, ⟨?_, failuresSpared_of_spared⟩, ?_⟩
  · exact runShowFiles_operands shell machine filled plain
  · intro spared
    by_contra broken
    exact not_failuresSpared_of_broken broken spared
  · rintro before name after lines failure rfl first read
    exact copyOperands_broken first read after

/-- A tree with a folder `d` and a text `t` of two lines. -/
def FileTree.folderAndText : FileTree :=
  ⟨[([encode "d".toList], .folder folderMode),
    ([encode "t".toList], .file (encode "x\ny\n".toList) newFileMode)]⟩

/-- A missing operand is told of in the end, and the lines behind it have been numbered. -/
theorem missing_operand_passed_over :
    let scope := JobScope.plain .idle .folderAndText []
    let names := ["m".toList, "t".toList]
    let copied := copyOperands scope.machine.tree scope.shell.cwd true 1 [] names
    names ≠ [] ∧ (∀ name ∈ names, (FileTree.folderAndText.intake [] name).breaks = false) ∧
      Builtin.runShowFiles scope.shell ("-n".toList :: names) scope.machine =
        .look scope.shell scope.machine copied.1 copied.2 ∧
      FailuresSpared (FileTree.folderAndText.intakes [] names) true copied.1 copied.2 ∧
      copied = (.error (.cannotRead [("m".toList, .noEntry)]),
        encode "     1  x\n     2  y\n".toList) := by
  intro scope names copied
  have filled : names ≠ [] := List.cons_ne_nil _ _
  have spared : ∀ name ∈ names, (FileTree.folderAndText.intake [] name).breaks = false :=
    List.forall_mem_cons.mpr ⟨by cbv, List.forall_mem_singleton.mpr (by cbv)⟩
  have plain : true = false → names.head? ≠ some "-n".toList := fun same => by cases same
  obtain ⟨runs, same, -⟩ := runShowFiles_spares_iff scope.shell scope.machine true filled plain
  refine ⟨filled, spared, runs, same.mpr spared, ?_⟩
  change copyOperands .folderAndText [] true 1 [] ["m".toList, "t".toList] = _
  cbv

/-- A folder among the operands keeps a text behind it from being copied, and the report does not
tell which operand it was. -/
theorem folder_spoils_copy :
    let scope := JobScope.plain .idle .folderAndText []
    let names := ["d".toList, "t".toList]
    FileTree.folderAndText.intake [] "t".toList = .whole ["x".toList, "y".toList] ∧
      Builtin.runShowFiles scope.shell names scope.machine =
        .look scope.shell scope.machine (.error (.failed .isFolder)) [] ∧
      (Trouble.failed .isFolder).message = "Is a directory (os error 21)".toList ∧
      ¬ FailuresSpared (FileTree.folderAndText.intakes [] names) false
        (.error (.failed .isFolder)) [] := by
  intro scope names
  have read : FileTree.folderAndText.intake [] "d".toList = .broken [] .isFolder := by cbv
  have copied : copyOperands .folderAndText [] false 1 [] names =
      (.error (.failed .isFolder), []) :=
    copyOperands_broken (fun _ inside => absurd inside List.not_mem_nil) read ["t".toList]
  have broken : ¬ ∀ name ∈ names, (FileTree.folderAndText.intake [] name).breaks = false := by
    intro spared
    have here := spared "d".toList List.mem_cons_self
    rw [read] at here
    cases here
  have spoiled : ¬ FailuresSpared (FileTree.folderAndText.intakes [] names) false
      (copyOperands .folderAndText [] false 1 [] names).1
      (copyOperands .folderAndText [] false 1 [] names).2 := not_failuresSpared_of_broken broken
  have runs : Builtin.runShowFiles scope.shell names scope.machine =
      .look scope.shell scope.machine (copyOperands .folderAndText [] false 1 [] names).1
        (copyOperands .folderAndText [] false 1 [] names).2 :=
    @runShowFiles_operands scope.shell scope.machine false names (List.cons_ne_nil _ _)
      fun _ => by decide
  rw [copied] at spoiled runs
  exact ⟨by cbv, runs, by decide, spoiled⟩

/-! A command that reads a line. -/

section Line

variable {word : Text}

end Line

end CommandShell
