import CommandShell.Proofs.System.Files

/-!
Trees that have grown. Files have been written or made since, and everything else is as it was,
so a path that could be opened still can be, and writing to a path reaches the same place. Two
trees that have grown out of each other, and list the same locations, differ only by
what stands in their files.
-/
namespace CommandShell

/-- What may have become of a node. A file that is written keeps its permissions. -/
inductive Grows : Option Node → Option Node → Prop
  | same (node : Option Node) : Grows node node
  | written (old new : Bytes) (mode : Nat) : Grows (some (.file old mode)) (some (.file new mode))
  | made (data : Bytes) (mode : Nat) : Grows none (some (.file data mode))

namespace Grows

theorem trans {first middle last : Option Node} (early : Grows first middle)
    (late : Grows middle last) : Grows first last := by
  cases early with
  | same => exact late
  | written old new mode =>
      cases late with
      | same => exact .written old new mode
      | written _ newer => exact .written old newer mode
  | made data mode =>
      cases late with
      | same => exact .made data mode
      | written _ newer => exact .made newer mode

theorem eq_some {node : Node} {new : Option Node} (grows : Grows (some node) new)
    (lasting : ∀ data mode, node ≠ .file data mode) : new = some node := by
  cases grows with
  | same => rfl
  | written old new mode => exact absurd rfl (lasting old mode)

end Grows

/-- The file that a walk to write has arrived at, there already or to be made. -/
def Arrival.file? : Arrival → Option Location
  | .absent folder name => some (folder ++ [name])
  | .present location (.file _ _) => some location
  | .present _ _ => none

namespace FileTree

def Grown (before after : FileTree) : Prop :=
  ∀ location, Grows (before.node? location) (after.node? location)

/-- What a walk finds where it ends. A working folder need not be written down. -/
def standing (tree : FileTree) (location : Location) : Node :=
  (tree.node? location).getD (.folder folderMode)

theorem standing_eq {tree : FileTree} {location : Location} {node : Node}
    (known : tree.node? location = some node) : tree.standing location = node := by
  rw [standing, known]
  rfl

/-- Where a walk ends in a tree, and where it ends after the tree has grown. -/
inductive Follows (before after : FileTree) : Arrival → Arrival → Prop
  | stands (location : Location) :
      Follows before after (.present location (before.standing location))
        (.present location (after.standing location))
  | free (folder : Location) (name : Name) :
      Follows before after (.absent folder name) (.absent folder name)
  | made (folder : Location) (name : Name) (data : Bytes) (mode : Nat)
      (free : before.node? (folder ++ [name]) = none)
      (known : after.node? (folder ++ [name]) = some (.file data mode)) :
      Follows before after (.absent folder name) (.present (folder ++ [name]) (.file data mode))

theorem Grown.refl (tree : FileTree) : tree.Grown tree :=
  fun _ => .same _

theorem Grown.file {before after : FileTree} (grown : before.Grown after) {location : Location}
    {data : Bytes} {mode : Nat} (known : before.node? location = some (.file data mode)) :
    ∃ new, after.node? location = some (.file new mode) := by
  have grows := grown location
  rw [known] at grows
  generalize after.node? location = node at grows
  cases grows with
  | same => exact ⟨data, rfl⟩
  | written old new => exact ⟨new, rfl⟩

theorem Grown.trans {first middle last : FileTree} (early : first.Grown middle)
    (late : middle.Grown last) : first.Grown last :=
  fun location => (early location).trans (late location)

variable {before after : FileTree}

/-- A walk that ends somewhere ends there again. It goes through folders and links alone, and
those have stayed. -/
theorem walk_grown (grown : before.Grown after) {errand : Errand} {links : Nat} {here : Location}
    {steps : List Name} {arrival : Arrival}
    (arrived : before.walk errand links here steps = .ok arrival) :
    ∃ again, after.walk errand links here steps = .ok again ∧
      Follows before after arrival again := by
  fun_induction walk before errand links here steps with
  | case1 links place =>
      cases arrived
      exact ⟨_, by rw [walk]; rfl, .stands place⟩
  | case2 _ _ _ _ idle ih =>
      rw [walk, if_pos idle]
      exact ih arrived
  | case3 _ _ _ _ busy up ih =>
      rw [walk, if_neg busy, if_pos up]
      exact ih arrived
  | case4 => cases arrived
  | case5 => cases arrived
  | case6 _ here part rest busy down kept short free ends =>
      cases arrived
      have there := grown (here ++ [part])
      rw [free] at there
      rw [walk, if_neg busy, if_neg down, if_neg kept, if_neg short]
      -- The name may have been given to a new file since.
      generalize known : after.node? (here ++ [part]) = new at there
      cases there with
      | same =>
          rw [if_pos ends]
          exact ⟨_, rfl, .free here part⟩
      | made data mode =>
          simp only [ends, if_true]
          exact ⟨_, rfl, .made here part data mode free known⟩
  | case7 => cases arrived
  | case8 _ here part _ busy down kept short mode folder ih =>
      have there := grown (here ++ [part])
      rw [folder] at there
      rw [walk, if_neg busy, if_neg down, if_neg kept, if_neg short, there.eq_some (by simp)]
      exact ih arrived
  | case9 _ here part rest busy down kept short target link ends =>
      cases arrived
      have there := grown (here ++ [part])
      rw [link] at there
      have same := there.eq_some (by simp)
      rw [walk, if_neg busy, if_neg down, if_neg kept, if_neg short, same]
      simp only [ends, and_self, if_true]
      refine ⟨_, rfl, ?_⟩
      have stands : Follows before after (.present _ (before.standing _))
          (.present _ (after.standing _)) := .stands (here ++ [part])
      rw [standing_eq link, standing_eq same] at stands
      exact stands
  | case10 => cases arrived
  | case11 => cases arrived
  | case12 here part rest busy down kept short target link follow left goes ih =>
      have there := grown (here ++ [part])
      rw [link] at there
      rw [walk, if_neg busy, if_neg down, if_neg kept, if_neg short, there.eq_some (by simp)]
      simp only [follow, goes, if_false]
      exact ih arrived
  | case13 _ here part rest busy down kept short node notFolder notLink known ends =>
      cases arrived
      have there := grown (here ++ [part])
      have stands : Follows before after (.present _ (before.standing _))
          (.present _ (after.standing _)) := .stands (here ++ [part])
      rw [known] at there
      rw [standing_eq known] at stands
      rw [walk, if_neg busy, if_neg down, if_neg kept, if_neg short]
      generalize new : after.node? (here ++ [part]) = other at there
      cases there with
      | same =>
          rw [standing_eq new] at stands
          simp only [ends, if_true]
          exact ⟨_, rfl, stands⟩
      | written old data mode =>
          rw [standing_eq new] at stands
          simp only [ends, if_true]
          exact ⟨_, rfl, stands⟩
  | case14 => cases arrived

theorem arrive_grown (grown : before.Grown after) {cwd : Location} {errand : Errand} {path : Path}
    {arrival : Arrival} (arrived : before.arrive cwd errand path = .ok arrival) :
    ∃ again, after.arrive cwd errand path = .ok again ∧ Follows before after arrival again := by
  obtain ⟨sound, walked⟩ := arrive_eq_ok.mp arrived
  obtain ⟨again, there, follows⟩ := walk_grown grown walked
  exact ⟨again, arrive_eq_ok.mpr ⟨sound, there⟩, follows⟩

theorem open?_eq_ok {tree : FileTree} {cwd location : Location} {path : Path} {node : Node} :
    tree.open? cwd path = .ok (location, node) ↔
      tree.arrive cwd .use path = .ok (.present location node) := by
  unfold open?
  split
  · next failed => simp [failed]
  · next arrived => simp [arrived]
  · next arrived => simp [arrived]

theorem open?_grown (grown : before.Grown after) {cwd location : Location} {path : Path}
    {node : Node} (opened : before.open? cwd path = .ok (location, node)) :
    node = before.standing location ∧
      after.open? cwd path = .ok (location, after.standing location) := by
  obtain ⟨again, there, follows⟩ := arrive_grown grown (open?_eq_ok.mp opened)
  cases follows with
  | stands => exact ⟨rfl, open?_eq_ok.mpr there⟩

theorem enter_eq_ok {tree : FileTree} {cwd folder : Location} {path : Path} :
    tree.enter cwd path = .ok folder ↔ ∃ mode, tree.open? cwd path = .ok (folder, .folder mode) := by
  unfold enter
  split
  · next failed => simp [failed]
  · next opened => simp [opened]
  · next location other opened =>
      rw [opened]
      constructor
      · intro entered
        cases entered
      · rintro ⟨mode, same⟩
        cases same
        exact absurd rfl (other folder mode)

theorem enter_grown (grown : before.Grown after) {cwd folder : Location} {path : Path} {mode : Nat}
    (entered : before.enter cwd path = .ok folder)
    (stands : before.node? folder = some (.folder mode)) : after.enter cwd path = .ok folder := by
  obtain ⟨_, opened⟩ := enter_eq_ok.mp entered
  have there := grown folder
  rw [stands] at there
  have still := standing_eq (there.eq_some (by simp))
  exact enter_eq_ok.mpr ⟨mode, still ▸ (open?_grown grown opened).2⟩

theorem writeTarget_eq_ok {tree : FileTree} {cwd : Location} {path : Path} {arrival : Arrival} :
    tree.writeTarget cwd path = .ok arrival ↔ tree.arrive cwd .write path = .ok arrival ∧
      ∀ location mode, arrival ≠ .present location (.folder mode) := by
  unfold writeTarget
  split
  · next location mode arrived =>
      rw [arrived]
      constructor
      · intro found
        cases found
      · rintro ⟨same, other⟩
        exact absurd (Except.ok.inj same).symm (other location mode)
  · next other =>
      constructor
      · intro arrived
        refine ⟨arrived, ?_⟩
        rintro location mode rfl
        exact other location mode arrived
      · exact fun found => found.1

theorem standing_folder (grown : before.Grown after) {location : Location} {mode : Nat}
    (folder : after.standing location = .folder mode) :
    ∃ old, before.standing location = .folder old := by
  have there := grown location
  unfold standing at folder ⊢
  generalize before.node? location = old at there
  generalize after.node? location = new at there folder
  cases there with
  | same => exact ⟨mode, folder⟩
  | written => cases folder
  | made => cases folder

theorem writeTarget_grown (grown : before.Grown after) {cwd : Location} {path : Path}
    {arrival : Arrival} (target : before.writeTarget cwd path = .ok arrival) :
    ∃ again, after.writeTarget cwd path = .ok again ∧ Follows before after arrival again := by
  obtain ⟨arrived, writable⟩ := writeTarget_eq_ok.mp target
  obtain ⟨again, there, follows⟩ := arrive_grown grown arrived
  refine ⟨again, writeTarget_eq_ok.mpr ⟨there, ?_⟩, follows⟩
  cases follows with
  | stands location =>
      intro _ mode same
      obtain ⟨rfl, folder⟩ := Arrival.present.inj same
      obtain ⟨old, was⟩ := standing_folder grown folder
      exact writable location old (by rw [was])
  | free folder name => exact fun _ _ contra => nomatch contra
  | made folder name data mode => exact fun _ _ contra => nomatch contra

theorem writesAt?_eq {tree : FileTree} {cwd : Location} {path : Path} {arrival : Arrival}
    (target : tree.writeTarget cwd path = .ok arrival) :
    tree.writesAt? cwd path = arrival.file? := by
  unfold writesAt?
  rw [target]
  rcases arrival with ⟨location, node⟩ | ⟨folder, name⟩
  · cases node <;> rfl
  · rfl

theorem writesAt?_grown (grown : before.Grown after) {cwd : Location} {path : Path}
    {arrival : Arrival} (target : before.writeTarget cwd path = .ok arrival) :
    after.writesAt? cwd path = before.writesAt? cwd path := by
  obtain ⟨again, there, follows⟩ := writeTarget_grown grown target
  rw [writesAt?_eq target, writesAt?_eq there]
  cases follows with
  | free folder name => rfl
  | made folder name data mode => rfl
  | stands location =>
      have was := grown location
      have solid := (writeTarget_eq_ok.mp target).2 location
      unfold standing at solid ⊢
      generalize before.node? location = old at was solid
      generalize after.node? location = new at was
      cases was with
      | same => rfl
      | written => rfl
      -- A folder that is not written down cannot be written to, so it has not been made.
      | made => exact absurd rfl (solid folderMode)

/-! Editing a file makes a tree grow at one location. -/

/-- The tree after the file at which a walk has arrived was edited, or made. -/
def edited (tree : FileTree) (edit : Bytes → Bytes) : Arrival → FileTree
  | .absent folder name => tree.put (folder ++ [name]) (.file (edit []) newFileMode)
  | .present location (.file data mode) => tree.put location (.file (edit data) mode)
  | .present _ _ => tree

theorem editFile_eq_ok {tree after : FileTree} {cwd : Location} {path : Path}
    {edit : Bytes → Bytes} :
    tree.editFile cwd path edit = .ok after ↔
      ∃ arrival, tree.writeTarget cwd path = .ok arrival ∧ tree.edited edit arrival = after := by
  unfold editFile
  split
  · next refused => simp [refused]
  · next target => simp [target, edited]
  · next target => simp [target, edited]
  · next location node other target =>
      have same : tree.edited edit (.present location node) = tree := by
        cases node with
        | file data mode => exact absurd rfl (other data mode)
        | folder | link | void => rfl
      simp [target, same]

theorem edited_elsewhere (tree : FileTree) (edit : Bytes → Bytes) {arrival : Arrival}
    {location : Location} (apart : arrival.file? ≠ some location) :
    (tree.edited edit arrival).node? location = tree.node? location := by
  rcases arrival with ⟨place, node⟩ | ⟨folder, name⟩
  · cases node with
    | file data mode =>
        refine node?_put_ne tree _ ?_
        rintro rfl
        exact apart rfl
    | folder | link | void => rfl
  · refine node?_put_ne tree _ ?_
    rintro rfl
    exact apart rfl

theorem editFile_elsewhere {tree after : FileTree} {cwd location : Location} {path : Path}
    {edit : Bytes → Bytes} (done : tree.editFile cwd path edit = .ok after)
    (apart : tree.writesAt? cwd path ≠ some location) :
    after.node? location = tree.node? location := by
  obtain ⟨arrival, target, rfl⟩ := editFile_eq_ok.mp done
  rw [writesAt?_eq target] at apart
  exact edited_elsewhere tree edit apart

theorem grown_editFile {tree after : FileTree} {cwd : Location} {path : Path}
    {edit : Bytes → Bytes} (done : tree.editFile cwd path edit = .ok after) :
    tree.Grown after := by
  intro location
  by_cases here : tree.writesAt? cwd path = some location
  · have below := writesAt?_ne_root here
    obtain ⟨arrival, target, rfl⟩ := editFile_eq_ok.mp done
    have arrived := (writeTarget_eq_ok.mp target).1
    rw [writesAt?_eq target] at here
    rcases arrival with ⟨place, node⟩ | ⟨folder, name⟩
    · cases node with
      | folder | link | void => cases here
      | file data mode =>
          cases here
          rcases arrive_present arrived with known | ⟨mode, isFolder⟩
          · rw [known, edited, node?_put_self tree _ below]
            exact .written _ _ _
          · cases isFolder
    · cases here
      rw [walk_absent (arrive_eq_ok.mp arrived).2, edited, node?_put_self tree _ below]
      exact .made _ _
  · rw [editFile_elsewhere done here]
    exact .same _

end FileTree

end CommandShell
