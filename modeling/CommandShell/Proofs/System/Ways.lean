import CommandShell.Proofs.Text.Lines
import CommandShell.System.Path

/-!
Targets followed by their spelling alone. A path that goes down from the root spells a list of
names, and each part of a target either leaves the list as it is, drops its last name or puts one
behind it. So what is reached is such a path again, and a target can be followed in two goes: up to
one of its slashes, and on from there.
-/
namespace CommandShell

/-- A part of a path that leads one folder down. -/
structure Path.IsStep (part : Name) : Prop where
  filled : part ≠ []
  away : part ≠ dot
  down : part ≠ dotDot
  solid : slash ∉ part

namespace Path

instance (part : Name) : Decidable (IsStep part) :=
  decidable_of_iff (part ≠ [] ∧ part ≠ dot ∧ part ≠ dotDot ∧ slash ∉ part)
    ⟨fun ⟨filled, away, down, solid⟩ => ⟨filled, away, down, solid⟩,
      fun ⟨filled, away, down, solid⟩ => ⟨filled, away, down, solid⟩⟩

/-- The path goes down from the root and nowhere else. -/
def Direct (path : Path) : Prop :=
  ∃ location : Location, (∀ part ∈ location, IsStep part) ∧ path = ofLocation location

theorem IsStep.busy {part : Name} (step : IsStep part) : isIdle part = false := by
  simp [isIdle, step.filled, step.away]

theorem endsWithSlash_append (front : Path) {part : Path} (step : IsStep part) :
    endsWithSlash (front ++ part) = false := by
  rw [endsWithSlash, List.getLast?_append_of_ne_nil _ step.filled]
  apply beq_false_of_ne
  intro last
  exact step.solid (List.mem_of_getLast? last)

theorem ofLocation_concat {location : Location} (below : location ≠ []) (part : Name) :
    ofLocation (location ++ [part]) = ofLocation location ++ slash :: part := by
  rw [ofLocation, ofLocation, joinWith_concat [slash] below]
  simp

/-- Where one part of a target leads. There is no way up from the root. -/
def follow (location : Location) (part : Name) : Location :=
  if isIdle part then location
  else if part == dotDot then location.dropLast
  else location ++ [part]

section

variable {location : Location} (steps : ∀ part ∈ location, IsStep part)

include steps

theorem fields_ofLocation (below : location ≠ []) :
    fields (· == slash) (ofLocation location) = [] :: location := by
  have solid : ∀ part ∈ location, ∀ byte ∈ part, (byte == slash) = false := by
    intro part inside byte member
    apply beq_false_of_ne
    rintro rfl
    exact (steps part inside).solid member
  rw [ofLocation, fields_cons_separator _ slash _ rfl, fields_joinWith rfl below solid]

theorem ofLocation_open (below : location ≠ []) : endsWithSlash (ofLocation location) = false := by
  rcases location.eq_nil_or_concat with rfl | ⟨front, last, rfl⟩
  · exact absurd rfl below
  · rw [List.concat_eq_append] at steps ⊢
    have final := steps last (by simp)
    by_cases alone : front = []
    · subst alone
      exact endsWithSlash_append [slash] final
    · rw [ofLocation_concat alone, List.append_cons]
      exact endsWithSlash_append _ final

theorem push_ofLocation (part : Name) :
    (ofLocation location).push part = ofLocation (location ++ [part]) := by
  by_cases below : location = []
  · subst below
    rfl
  · rw [push, ofLocation_open steps below, ofLocation_concat below]
    rfl

theorem pop_ofLocation : (ofLocation location).pop = ofLocation location.dropLast := by
  by_cases below : location = []
  · subst below
    rfl
  · have busy : ∀ part ∈ location, isIdle part = false := fun part inside =>
      (steps part inside).busy
    have above : ∀ part ∈ location.dropLast, isIdle part = false := fun part inside =>
      busy part (List.dropLast_subset location inside)
    rw [pop, parent?, fields_ofLocation steps below]
    simp only [dropEndWhile_none busy, dropEndWhile_none above, List.isEmpty_iff, below, if_false,
      List.isEmpty_nil, Bool.true_and]
    split
    · next top =>
        rw [top]
        rfl
    · next more =>
        obtain ⟨first, rest, upper⟩ := List.exists_cons_of_ne_nil more
        rw [upper]
        rfl

theorem follow_steps {part : Name} (solid : slash ∉ part) :
    ∀ other ∈ follow location part, IsStep other := by
  intro other inside
  unfold follow at inside
  split at inside
  · exact steps other inside
  · split at inside
    · exact steps other (List.dropLast_subset location inside)
    · next busy down =>
        rcases List.mem_append.mp inside with old | new
        · exact steps other old
        · rw [List.mem_singleton.mp new]
          obtain ⟨filled, away⟩ : part ≠ [] ∧ part ≠ dot := by simpa [isIdle] using busy
          exact ⟨filled, away, by simpa using down, solid⟩

theorem stepDir_ofLocation (part : Name) :
    stepDir (ofLocation location) part = ofLocation (follow location part) := by
  unfold stepDir follow
  split
  · rfl
  · split
    · exact pop_ofLocation steps
    · exact push_ofLocation steps part

end

end Path

theorem foldl_stepDir {parts : List Name} (solid : ∀ part ∈ parts, slash ∉ part)
    {location : Location} (steps : ∀ part ∈ location, Path.IsStep part) :
    parts.foldl stepDir (Path.ofLocation location) =
        Path.ofLocation (parts.foldl Path.follow location) ∧
      ∀ part ∈ parts.foldl Path.follow location, Path.IsStep part := by
  induction parts generalizing location with
  | nil => exact ⟨rfl, steps⟩
  | cons part rest ih =>
      have first := Path.follow_steps steps (solid part List.mem_cons_self)
      rw [List.foldl_cons, List.foldl_cons, Path.stepDir_ofLocation steps part]
      exact ih (fun other inside => solid other (List.mem_cons_of_mem part inside)) first

theorem solid_fields (target : Bytes) : ∀ part ∈ fields (· == slash) target, slash ∉ part := by
  intro part inside cut
  cases (mem_fields inside slash cut).2

theorem resolveDir_direct {folder : Path} (direct : folder.Direct) (target : Bytes) :
    (resolveDir folder target).Direct := by
  have start : Path.Direct (if Path.isAbsolute target then [slash] else folder) := by
    by_cases absolute : Path.isAbsolute target = true
    · rw [if_pos absolute]
      exact ⟨[], fun part inside => absurd inside List.not_mem_nil, rfl⟩
    · rw [if_neg absolute]
      exact direct
  obtain ⟨location, steps, same⟩ := start
  obtain ⟨path, left⟩ := foldl_stepDir (solid_fields target) steps
  refine ⟨_, left, ?_⟩
  rw [resolveDir, same, path]

theorem isAbsolute_append {front : Bytes} (filled : front ≠ []) (rest : Bytes) :
    Path.isAbsolute (front ++ rest) = Path.isAbsolute front := by
  rw [Path.isAbsolute, Path.isAbsolute, List.head?_append_of_ne_nil _ filled]

/-- A target with a slash in it is followed like what stands before the slash and then, from
there, what stands behind it. -/
theorem resolveDir_append (folder : Path) {first second : Bytes} (filled : first ≠ [])
    (relative : Path.isAbsolute second = false) :
    resolveDir folder (first ++ slash :: second) = resolveDir (resolveDir folder first) second := by
  rw [resolveDir, resolveDir, resolveDir, isAbsolute_append filled, relative,
    fields_append_separator rfl, List.foldl_append]
  rfl

/-- From a folder that is reached by going down from the root every target leads to such a folder
again, and there is no way up from the root. It does not matter whether a target is followed at
once or up to one of its slashes first, whatever stands on both sides of it. -/
theorem resolveDir_composes {folder : Path} (direct : folder.Direct) :
    (∀ target, (resolveDir folder target).Direct) ∧
      resolveDir [slash] dotDot = [slash] ∧
      ∀ first second, first ≠ [] → Path.isAbsolute second = false →
        resolveDir folder (first ++ slash :: second) =
          resolveDir (resolveDir folder first) second :=
  ⟨resolveDir_direct direct, rfl,
    fun _ _ filled relative => resolveDir_append folder filled relative⟩

/-- More ways up than there are folders, doubled slashes and one at the end. -/
theorem upward_target_composes :
    Path.Direct (encode "/home/user".toList) ∧
      (resolveDir (encode "/home/user".toList) (encode "..//../../tmp/".toList)).Direct ∧
      resolveDir (encode "/home/user".toList)
          (encode "..//../../tmp/".toList ++ slash :: encode "./x/..".toList) =
        resolveDir (resolveDir (encode "/home/user".toList) (encode "..//../../tmp/".toList))
          (encode "./x/..".toList) := by
  have direct : Path.Direct (encode "/home/user".toList) :=
    ⟨[encode "home".toList, encode "user".toList], by decide, by decide⟩
  obtain ⟨closed, -, composes⟩ := resolveDir_composes direct
  exact ⟨direct, closed _, composes _ _ (by decide) (by decide)⟩

end CommandShell
