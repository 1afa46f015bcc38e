import CommandShell.Proofs.Session.Joining
import Mathlib.Data.List.Basic

/-!
Commands from groups of lines. The lines of a group all end in a backslash but the last, and the
command of a group is its lines without these backslashes, one behind the other. Reading commands
takes group after group, as long as what is joined stays below the limit. It stops at the first
line with which the limit is reached, and at the end of the lines, where a group may be cut off.
-/
namespace CommandShell

def GoesOn (line : Text) : Prop :=
  line.getLast? = some backslash

instance (line : Text) : Decidable (GoesOn line) :=
  inferInstanceAs (Decidable (line.getLast? = some backslash))

def withoutBackslash (line : Text) : Text :=
  if line.getLast? = some backslash then line.dropLast else line

def joined (group : List Text) : Text :=
  group.flatMap withoutBackslash

def IsGroup (group : List Text) : Prop :=
  ∃ front last, group = front ++ [last] ∧ (∀ line ∈ front, GoesOn line) ∧ ¬ GoesOn last

/-- Each line can be joined to those before it without reaching the limit. -/
def Fits (limit : Nat) (group : List Text) : Prop :=
  ∀ front line back, group = front ++ line :: back → front ≠ [] →
    byteLength (joined front) + byteLength line < limit

structure Refused (limit : Nat) (front : List Text) (line : Text) : Prop where
  begun : front ≠ []
  goesOn : ∀ other ∈ front, GoesOn other
  fits : Fits limit front
  long : limit ≤ byteLength (joined front) + byteLength line

/-- Groups that can be joined, and the lines behind them. -/
structure Grouped (limit : Nat) (lines : List Text) (groups : List (List Text))
    (rest : List Text) : Prop where
  whole : lines = groups.flatten ++ rest
  complete : ∀ group ∈ groups, IsGroup group
  fits : ∀ group ∈ groups, Fits limit group

/-- What a read comes to at lines that do not begin with a group: the lines it leaves, and how many
it asks for after the first. -/
inductive Stops (limit : Nat) (failure : Option Failure) :
    List Text → Except Trouble (Option Text) → List Text → Nat → Prop
  | ended (ran : failure = none) : Stops limit failure [] (.ok none) [] 0
  | cut (front : List Text) (begun : front ≠ []) (goesOn : ∀ line ∈ front, GoesOn line)
      (fits : Fits limit front) (ran : failure = none) :
      Stops limit failure front (.ok (some (joined front))) [] front.length
  | broken (front : List Text) (cause : Failure) (goesOn : ∀ line ∈ front, GoesOn line)
      (fits : Fits limit front) (ran : failure = some cause) :
      Stops limit failure front (.error (.failed cause)) [] front.length
  | refused (front back : List Text) (line : Text) (refused : Refused limit front line) :
      Stops limit failure (front ++ line :: back) (.error (.commandTooLong limit)) back front.length

/-- A shell that reads a command, and the machine it runs on. -/
structure Asker where
  shell : Shell
  machine : Machine

namespace Asker

def limit (asker : Asker) : Nat :=
  asker.shell.config.maxCommand

def read (asker : Asker) (script : Script) : CommandRead Script :=
  readCommand Script.source asker.shell asker.machine script

/-- The prompts for the first line of a command and for so many further ones. -/
def prompts (asker : Asker) (further : Nat) : List Text :=
  asker.shell.prompt asker.machine :: List.replicate further continuationPrompt

end Asker

def readInTurn : List Asker → Script → List (Except Trouble (Option Text)) × Script
  | [], script => ([], script)
  | asker :: others, script =>
      let read := asker.read script
      let later := readInTurn others read.rest
      (read.command :: later.1, later.2)

/-- The prompts for the lines of groups, each read by an asker of its own. -/
def groupPrompts (askers : List Asker) (groups : List (List Text)) : List Text :=
  (List.zipWith (fun asker group => asker.prompts (group.length - 1)) askers groups).flatten

/-! Joined texts. -/

theorem joined_append (front back : List Text) :
    joined (front ++ back) = joined front ++ joined back :=
  List.flatMap_append

theorem joined_single (line : Text) : joined [line] = withoutBackslash line :=
  List.append_nil _

theorem GoesOn.eq_append {line : Text} (goesOn : GoesOn line) :
    line = withoutBackslash line ++ [backslash] := by
  obtain ⟨front, rfl⟩ := List.getLast?_eq_some_iff.mp goesOn
  have cut : withoutBackslash (front ++ [backslash]) = (front ++ [backslash]).dropLast :=
    if_pos goesOn
  rw [cut, List.dropLast_concat]

theorem withoutBackslash_whole {line : Text} (ends : ¬ GoesOn line) : withoutBackslash line = line :=
  if_neg ends

theorem goesOn_append {left right : Text} (goesOn : GoesOn (left ++ right)) :
    GoesOn left ∨ GoesOn right := by
  unfold GoesOn at *
  rw [List.getLast?_append] at goesOn
  cases last : right.getLast? with
  | none =>
      rw [last] at goesOn
      exact Or.inl goesOn
  | some c =>
      rw [last] at goesOn
      exact Or.inr goesOn

-- Where no line ends in two backslashes, the text that is joined so far ends in none.
theorem joined_ends {front : List Text} (goesOn : ∀ line ∈ front, GoesOn line)
    (single : ∀ line ∈ front, ¬ [backslash, backslash] <:+ line) : ¬ GoesOn (joined front) := by
  induction front with
  | nil => exact fun ends => nomatch ends
  | cons line rest ih =>
      have others := ih (fun other inside => goesOn other (List.mem_cons_of_mem line inside))
        (fun other inside => single other (List.mem_cons_of_mem line inside))
      intro ends
      rcases goesOn_append ends with twice | later
      · have first := goesOn line List.mem_cons_self
        obtain ⟨front, body⟩ := List.getLast?_eq_some_iff.mp twice
        refine single line List.mem_cons_self ⟨front, ?_⟩
        calc front ++ [backslash, backslash]
          _ = front ++ [backslash] ++ [backslash] := by simp
          _ = withoutBackslash line ++ [backslash] := by rw [body]
          _ = line := first.eq_append.symm
      · exact others later

/-! What fits. -/

theorem Fits.nil (limit : Nat) : Fits limit [] := by
  intro front line back whole
  cases front with
  | nil => cases whole
  | cons first rest => cases whole

theorem Fits.front {limit : Nat} {front back : List Text} (fits : Fits limit (front ++ back)) :
    Fits limit front := by
  rintro before line behind rfl begun
  exact fits before line (behind ++ back) (by simp) begun

theorem Fits.concat {limit : Nat} {front : List Text} {line : Text} (fits : Fits limit front)
    (short : front ≠ [] → byteLength (joined front) + byteLength line < limit) :
    Fits limit (front ++ [line]) := by
  intro before other behind whole begun
  rcases behind.eq_nil_or_concat with rfl | ⟨middle, last, rfl⟩
  · obtain ⟨rfl, same⟩ := List.append_inj' whole rfl
    cases same
    exact short begun
  · rw [List.concat_eq_append, ← List.cons_append, ← List.append_assoc] at whole
    obtain ⟨same, -⟩ := List.append_inj' whole rfl
    exact fits before other middle same begun

theorem Fits.last {limit : Nat} {front : List Text} {line : Text}
    (fits : Fits limit (front ++ [line])) (begun : front ≠ []) :
    byteLength (joined front) + byteLength line < limit :=
  fits front line [] rfl begun

theorem Grouped.none {limit : Nat} (lines : List Text) : Grouped limit lines [] lines :=
  ⟨rfl, List.forall_mem_nil _, List.forall_mem_nil _⟩

theorem Grouped.cons {limit : Nat} {lines group rest : List Text} {groups : List (List Text)}
    (grouped : Grouped limit lines groups rest) (complete : IsGroup group) (fits : Fits limit group) :
    Grouped limit (group ++ lines) (group :: groups) rest where
  whole := by rw [grouped.whole, List.flatten_cons, List.append_assoc]
  complete := List.forall_mem_cons.mpr ⟨complete, grouped.complete⟩
  fits := List.forall_mem_cons.mpr ⟨fits, grouped.fits⟩

theorem exists_stops {limit : Nat} (failure : Option Failure) {front : List Text}
    (goesOn : ∀ line ∈ front, GoesOn line) (fits : Fits limit front) :
    ∃ outcome left further, Stops limit failure front outcome left further := by
  cases failure with
  | some cause => exact ⟨_, _, _, .broken front cause goesOn fits rfl⟩
  | none =>
      by_cases begun : front = []
      · subst begun
        exact ⟨_, _, _, .ended rfl⟩
      · exact ⟨_, _, _, .cut front begun goesOn fits rfl⟩

-- However lines come, they fall into groups up to the place where the reading stops.
theorem exists_grouped (limit : Nat) (failure : Option Failure) (lines front : List Text)
    (goesOn : ∀ line ∈ front, GoesOn line) (fits : Fits limit front) :
    ∃ groups rest outcome left further, Grouped limit (front ++ lines) groups rest ∧
      Stops limit failure rest outcome left further := by
  -- On the lines to come; `front` is the group that has begun.
  induction lines generalizing front with
  | nil =>
      obtain ⟨outcome, left, further, stops⟩ := exists_stops failure goesOn fits
      rw [List.append_nil]
      exact ⟨[], front, outcome, left, further, .none front, stops⟩
  | cons line rest ih =>
      by_cases refused : Refused limit front line
      · exact ⟨[], _, _, _, _, .none _, .refused front rest line refused⟩
      · have short : front ≠ [] → byteLength (joined front) + byteLength line < limit := fun begun =>
          Nat.lt_of_not_le fun long => refused ⟨begun, goesOn, fits, long⟩
        have longer := fits.concat short
        by_cases more : GoesOn line
        · have all : ∀ other ∈ front ++ [line], GoesOn other :=
            List.forall_mem_append.mpr ⟨goesOn, List.forall_mem_singleton.mpr more⟩
          have later := ih (front ++ [line]) all longer
          rwa [List.append_assoc] at later
        · obtain ⟨groups, left, outcome, behind, further, grouped, stops⟩ :=
            ih [] (List.forall_mem_nil _) (.nil limit)
          have next := grouped.cons ⟨front, line, rfl, goesOn, more⟩ longer
          rw [List.append_assoc] at next
          exact ⟨_, left, outcome, behind, further, next, stops⟩

/-! One read of a command. -/

section Reading

variable (shell : Shell) (machine : Machine) (failure : Option Failure)

-- What is made of a text that ends in a backslash depends on the next line alone.
theorem continueCommand_next (kept : Text) (line : Text) (rest shown : List Text) :
    continueCommand Script.source shell (kept ++ [backslash]) machine ⟨line :: rest, failure, shown⟩ =
      if shell.config.maxCommand ≤ byteLength kept + byteLength line then
        ⟨.error (.commandTooLong shell.config.maxCommand),
          ⟨rest, failure, shown ++ [continuationPrompt]⟩, machine⟩
      else continueCommand Script.source shell (kept ++ line) machine
        ⟨rest, failure, shown ++ [continuationPrompt]⟩ := by
  rw [continueCommand, if_pos (by simp), List.dropLast_concat]
  rfl

theorem continueCommand_out (kept : Text) (shown : List Text) :
    continueCommand Script.source shell (kept ++ [backslash]) machine ⟨[], failure, shown⟩ =
      ⟨match failure with
        | some cause => .error (.failed cause)
        | none => .ok (some kept),
        ⟨[], failure, shown ++ [continuationPrompt]⟩, machine⟩ := by
  rw [continueCommand, if_pos (by simp), List.dropLast_concat]
  cases failure with
  | none => rfl
  | some cause => rfl

theorem continueCommand_whole {text : Text} (ends : ¬ GoesOn text) (script : Script) :
    continueCommand Script.source shell text machine script = ⟨.ok (some text), script, machine⟩ := by
  rw [continueCommand]
  exact if_neg ends

theorem continueCommand_front {front : List Text} (begun : front ≠ []) (more others shown : List Text)
    (goesOn : ∀ line ∈ more, GoesOn line) (fits : Fits shell.config.maxCommand (front ++ more)) :
    continueCommand Script.source shell (joined front ++ [backslash]) machine
        ⟨more ++ others, failure, shown⟩ =
      continueCommand Script.source shell (joined (front ++ more) ++ [backslash]) machine
        ⟨others, failure, shown ++ List.replicate more.length continuationPrompt⟩ := by
  induction more generalizing front shown with
  | nil => simp
  | cons line rest ih =>
      have short := fits front line rest rfl begun
      have longer : joined front ++ line = joined (front ++ [line]) ++ [backslash] := by
        rw [joined_append, joined_single, List.append_assoc,
          ← (goesOn line List.mem_cons_self).eq_append]
      have split : front ++ line :: rest = front ++ [line] ++ rest := by simp
      rw [split] at fits
      have later := ih (List.append_ne_nil_of_right_ne_nil front (List.cons_ne_nil line []))
        (shown ++ [continuationPrompt])
        (fun other inside => goesOn other (List.mem_cons_of_mem line inside)) fits
      have prompts : shown ++ [continuationPrompt] ++ List.replicate rest.length continuationPrompt =
          shown ++ List.replicate (line :: rest).length continuationPrompt :=
        List.append_assoc shown [continuationPrompt] _
      rw [List.cons_append, continueCommand_next, if_neg (Nat.not_le_of_lt short), longer, later, split,
        prompts]

end Reading

namespace Asker

variable (asker : Asker) (failure : Option Failure) (shown : List Text)

theorem prompts_next {front : List Text} (begun : front ≠ []) :
    shown ++ asker.prompts (front.length - 1) ++ [continuationPrompt] =
      shown ++ asker.prompts front.length := by
  obtain ⟨first, more, rfl⟩ := List.exists_cons_of_ne_nil begun
  simp [prompts, List.replicate_succ']

theorem read_first (first : Text) (others : List Text) :
    asker.read ⟨first :: others, failure, shown⟩ =
      continueCommand Script.source asker.shell first asker.machine
        ⟨others, failure, shown ++ asker.prompts 0⟩ :=
  rfl

theorem read_front {front : List Text} (begun : front ≠ []) (others : List Text)
    (goesOn : ∀ line ∈ front, GoesOn line) (fits : Fits asker.limit front) :
    asker.read ⟨front ++ others, failure, shown⟩ =
      continueCommand Script.source asker.shell (joined front ++ [backslash]) asker.machine
        ⟨others, failure, shown ++ asker.prompts (front.length - 1)⟩ := by
  obtain ⟨first, more, rfl⟩ := List.exists_cons_of_ne_nil begun
  have later := continueCommand_front asker.shell asker.machine failure
    (List.cons_ne_nil first []) more others (shown ++ asker.prompts 0)
    (fun line inside => goesOn line (List.mem_cons_of_mem first inside)) fits
  have single : joined [first] ++ [backslash] = first := by
    rw [joined_single, ← (goesOn first List.mem_cons_self).eq_append]
  rw [single] at later
  rw [List.cons_append, read_first, later, List.append_assoc]
  rfl

-- A group that fits is read as the command that its lines are joined to.
theorem read_group {group : List Text} (complete : IsGroup group) (fits : Fits asker.limit group)
    (single : ∀ line ∈ group, ¬ [backslash, backslash] <:+ line) (others : List Text) :
    asker.read ⟨group ++ others, failure, shown⟩ =
      ⟨.ok (some (joined group)),
        ⟨others, failure, shown ++ asker.prompts (group.length - 1)⟩, asker.machine⟩ := by
  obtain ⟨front, last, rfl, goesOn, ends⟩ := complete
  have command : joined (front ++ [last]) = joined front ++ last := by
    rw [joined_append, joined_single, withoutBackslash_whole ends]
  -- Nothing goes on behind the last line, also where that line is empty.
  have whole : ¬ GoesOn (joined front ++ last) := by
    intro more
    rcases goesOn_append more with early | late
    · exact joined_ends goesOn (fun line inside => single line (List.mem_append_left _ inside)) early
    · exact ends late
  by_cases begun : front = []
  · subst begun
    rw [List.nil_append, List.singleton_append, read_first,
      continueCommand_whole _ _ ends, joined_single, withoutBackslash_whole ends]
    rfl
  · have short := fits.last begun
    have again : continueCommand Script.source asker.shell (joined front ++ [backslash]) asker.machine
        ⟨last :: others, failure, shown ++ asker.prompts (front.length - 1)⟩ = _ :=
      (continueCommand_next ..).trans (if_neg (Nat.not_le_of_lt short))
    rw [List.append_assoc, List.singleton_append, read_front asker failure shown begun _ goesOn fits.front,
      again, continueCommand_whole _ _ whole, command, prompts_next asker shown begun,
      List.length_append, List.length_singleton, Nat.add_sub_cancel]

theorem read_refused {front : List Text} {line : Text} (refused : Refused asker.limit front line)
    (back : List Text) :
    asker.read ⟨front ++ line :: back, failure, shown⟩ =
      ⟨.error (.commandTooLong asker.limit),
        ⟨back, failure, shown ++ asker.prompts front.length⟩, asker.machine⟩ := by
  have last : continueCommand Script.source asker.shell (joined front ++ [backslash]) asker.machine
      ⟨line :: back, failure, shown ++ asker.prompts (front.length - 1)⟩ = _ :=
    (continueCommand_next ..).trans (if_pos refused.long)
  rw [read_front asker failure shown refused.begun _ refused.goesOn refused.fits, last,
    prompts_next asker shown refused.begun]
  rfl

theorem read_out {front : List Text} (begun : front ≠ []) (goesOn : ∀ line ∈ front, GoesOn line)
    (fits : Fits asker.limit front) :
    asker.read ⟨front, failure, shown⟩ =
      ⟨match failure with
        | some cause => .error (.failed cause)
        | none => .ok (some (joined front)),
        ⟨[], failure, shown ++ asker.prompts front.length⟩, asker.machine⟩ := by
  have read := read_front asker failure shown begun [] goesOn fits
  rw [List.append_nil] at read
  rw [read, continueCommand_out, prompts_next asker shown begun]

theorem read_stops {lines left : List Text} {outcome : Except Trouble (Option Text)} {further : Nat}
    (stops : Stops asker.limit failure lines outcome left further) :
    asker.read ⟨lines, failure, shown⟩ =
      ⟨outcome, ⟨left, failure, shown ++ asker.prompts further⟩, asker.machine⟩ := by
  cases stops with
  | ended ran => subst ran; rfl
  | cut front begun goesOn fits ran => subst ran; exact read_out asker _ shown begun goesOn fits
  | broken front cause goesOn fits ran =>
      subst ran
      by_cases begun : lines = []
      · subst begun
        rfl
      · exact read_out asker _ shown begun goesOn fits
  | refused front back line refused => exact read_refused asker failure shown refused left

end Asker

/-! Reads one after the other. -/

theorem readInTurn_groups (limit : Nat) (failure : Option Failure) (shown rest : List Text)
    (groups : List (List Text)) (askers : List Asker) (paired : askers.length = groups.length)
    (limits : ∀ asker ∈ askers, asker.limit = limit) (complete : ∀ group ∈ groups, IsGroup group)
    (fits : ∀ group ∈ groups, Fits limit group)
    (single : ∀ line ∈ groups.flatten, ¬ [backslash, backslash] <:+ line) :
    readInTurn askers ⟨groups.flatten ++ rest, failure, shown⟩ =
      (groups.map fun group => .ok (some (joined group)),
        ⟨rest, failure, shown ++ groupPrompts askers groups⟩) := by
  induction groups generalizing askers shown with
  | nil =>
      obtain rfl := List.length_eq_zero_iff.mp paired
      simp [readInTurn, groupPrompts]
  | cons group groups ih =>
      obtain ⟨asker, askers, rfl⟩ := List.exists_cons_of_length_eq_add_one paired
      have same := limits asker List.mem_cons_self
      have read := asker.read_group failure shown (complete group List.mem_cons_self)
        (same ▸ fits group List.mem_cons_self)
        (fun line inside => single line (List.mem_append_left _ inside)) (groups.flatten ++ rest)
      have later := ih (shown ++ asker.prompts (group.length - 1)) askers (Nat.succ.inj paired)
        (fun other inside => limits other (List.mem_cons_of_mem asker inside))
        (fun other inside => complete other (List.mem_cons_of_mem group inside))
        (fun other inside => fits other (List.mem_cons_of_mem group inside))
        (fun line inside => single line (List.mem_append_right _ inside))
      rw [List.flatten_cons, List.append_assoc, readInTurn, read, later, List.append_assoc]
      rfl

theorem Joins.suffix {limit : Nat} {failure : Option Failure} {text : Text} {lines rest : List Text}
    {result : Except Trouble Text} (joins : Joins limit failure text lines result rest) :
    rest <:+ lines := by
  induction joins with
  | whole => exact List.suffix_refl _
  | refused => exact List.suffix_cons _ _
  | joined _ _ _ _ _ _ _ _ ih => exact ih.trans (List.suffix_cons _ _)
  | cut => exact List.suffix_refl _
  | broken => exact List.suffix_refl _

-- Only the line that a command begins with is not measured when it is joined.
theorem Joins.short {limit : Nat} {failure : Option Failure} {text command : Text}
    {lines rest : List Text} (joins : Joins limit failure text lines (.ok command) rest)
    (begins : byteLength text < limit) : byteLength command < limit := by
  generalize outcome : Except.ok command = result at joins
  induction joins with
  | whole => cases outcome; exact begins
  | refused => cases outcome
  | joined text line _ _ _ _ short _ ih =>
      refine ih ?_ outcome
      rwa [byteLength_append]
  | cut text goesOn =>
      cases outcome
      have whole := congrArg byteLength (List.dropLast_append_getLast? backslash goesOn)
      rw [byteLength_append] at whole
      omega
  | broken => cases outcome

theorem Asker.reads (asker : Asker) (script : Script) :
    Reads asker.limit script (asker.read script).command (asker.read script).rest :=
  ⟨asker.shell, asker.machine, rfl, rfl, rfl⟩

theorem Reads.subset {limit : Nat} {before after : Script} {outcome : Except Trouble (Option Text)}
    (reads : Reads limit before outcome after) : after.lines ⊆ before.lines := by
  cases begun : before.lines with
  | nil =>
      rw [(reads.of_nothing begun).1]
      exact List.nil_subset _
  | cons first lines =>
      obtain ⟨result, -, -, joins⟩ := reads.of_lines begun
      exact List.subset_cons_of_subset first joins.suffix.subset

theorem Reads.short {limit : Nat} {before after : Script} {command : Text}
    (reads : Reads limit before (.ok (some command)) after)
    (shorter : ∀ line ∈ before.lines, byteLength line < limit) : byteLength command < limit := by
  cases begun : before.lines with
  | nil => exact absurd rfl ((reads.of_nothing begun).2.2 command)
  | cons first lines =>
      obtain ⟨result, outcome, -, joins⟩ := reads.of_lines begun
      cases result with
      | error cause => cases outcome
      | ok text =>
          cases outcome
          exact joins.short (shorter first (begun ▸ List.mem_cons_self))

theorem readInTurn_short (limit : Nat) (askers : List Asker) (script : Script)
    (limits : ∀ asker ∈ askers, asker.limit = limit)
    (shorter : ∀ line ∈ script.lines, byteLength line < limit) (command : Text)
    (returned : .ok (some command) ∈ (readInTurn askers script).1) : byteLength command < limit := by
  induction askers generalizing script with
  | nil => cases returned
  | cons asker others ih =>
      have reads := asker.reads script
      rw [limits asker List.mem_cons_self] at reads
      rcases List.mem_cons.mp returned with now | later
      · exact (now ▸ reads).short shorter
      · exact ih (asker.read script).rest
          (fun other inside => limits other (List.mem_cons_of_mem asker inside))
          (fun line inside => shorter line (reads.subset inside)) later

/-- Reading commands one after the other from lines none of which ends in two backslashes. -/
theorem commands_of_groups (limit : Nat) (script : Script)
    (single : ∀ line ∈ script.lines, ¬ [backslash, backslash] <:+ line) :
    (∃ groups rest outcome left further, Grouped limit script.lines groups rest ∧
        Stops limit script.failure rest outcome left further) ∧
      (∀ groups rest outcome left further, Grouped limit script.lines groups rest →
        Stops limit script.failure rest outcome left further →
        ∀ (askers : List Asker) (last : Asker), askers.length = groups.length →
          (∀ asker ∈ askers, asker.limit = limit) → last.limit = limit →
          let prompts := script.prompts ++ groupPrompts askers groups
          readInTurn askers script =
              (groups.map fun group => .ok (some (joined group)), ⟨rest, script.failure, prompts⟩) ∧
            last.read ⟨rest, script.failure, prompts⟩ =
              ⟨outcome, ⟨left, script.failure, prompts ++ last.prompts further⟩, last.machine⟩) ∧
      ((∀ line ∈ script.lines, byteLength line < limit) →
        ∀ askers : List Asker, (∀ asker ∈ askers, asker.limit = limit) →
          ∀ command, .ok (some command) ∈ (readInTurn askers script).1 →
            byteLength command < limit) := by
  refine ⟨?groups, ?reads, ?short⟩
  case groups =>
    exact exists_grouped limit script.failure script.lines [] (List.forall_mem_nil _)
      (.nil limit)
  case reads =>
    intro groups rest outcome left further grouped stops askers last paired limits same prompts
    obtain ⟨lines, failure, shown⟩ := script
    obtain rfl : lines = groups.flatten ++ rest := grouped.whole
    constructor
    · exact readInTurn_groups limit failure shown rest groups askers paired limits grouped.complete
        grouped.fits (fun line inside => single line (List.mem_append_left rest inside))
    · exact last.read_stops failure prompts (same.symm ▸ stops)
  case short =>
    intro shorter askers limits command returned
    exact readInTurn_short limit askers script limits shorter command returned

/-- Three commands from four lines, the last of which the end of the lines has cut off. -/
theorem lines_joined_and_cut_off :
    let shell := Shell.ephemeral { Configuration.defaults [] with maxCommand := 8, prompt := some ['$'] }
      ⟨1, [], [], Descriptors.empty, []⟩
    let asker : Asker := ⟨shell, ⟨FileTree.empty, [], [], ⟨[], [], false⟩, [], 2⟩⟩
    let lines := ["ls \\", "-l", "cd", "echo \\"].map String.toList
    let prompts := ["$", "> ", "$"].map String.toList
    readInTurn [asker, asker] ⟨lines, none, []⟩ =
        ([.ok (some "ls -l".toList), .ok (some "cd".toList)], ⟨["echo \\".toList], none, prompts⟩) ∧
      asker.read ⟨["echo \\".toList], none, prompts⟩ =
        ⟨.ok (some "echo ".toList), ⟨[], none, prompts ++ ["$".toList, "> ".toList]⟩,
          asker.machine⟩ := by
  intro shell asker lines prompts
  have start := Fits.nil 8
  have grouped : Grouped 8 lines [["ls \\".toList, "-l".toList], ["cd".toList]] ["echo \\".toList] :=
    Grouped.cons (.cons (.none _) ⟨[], _, rfl, by decide, by decide⟩ (start.concat (absurd rfl)))
      ⟨["ls \\".toList], _, rfl, by decide, by decide⟩
      ((start.concat (absurd rfl)).concat (fun _ => by decide))
  have stops : Stops 8 none ["echo \\".toList] (.ok (some "echo ".toList)) [] 1 :=
    .cut ["echo \\".toList] (by decide) (by decide) (start.concat (absurd rfl)) rfl
  exact (commands_of_groups 8 ⟨lines, none, []⟩ (by decide)).2.1 _ _ _ _ _ grouped stops [asker, asker]
    asker rfl (by decide) rfl

end CommandShell
