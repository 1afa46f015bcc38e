import CommandShell.Proofs.System.Growth

/-!
What a file holds. A path that can be written means one file, there already or still to be made,
and reading the path gives what was written last. Links on the way are followed alike for
reading and for writing, so it does not matter where the file really stands.
-/
namespace CommandShell

namespace FileTree

/-- The backing file, if there is one, can be written. -/
def CanWrite (tree : FileTree) (cwd : Location) (file : Option Path) : Prop :=
  ∀ path ∈ file, ∃ arrival, tree.writeTarget cwd path = .ok arrival

theorem editFile_eq_error {tree : FileTree} {cwd : Location} {path : Path}
    {edit : Bytes → Bytes} {failure : Failure} :
    tree.editFile cwd path edit = .error failure ↔
      tree.writeTarget cwd path = .error failure := by
  unfold editFile
  split
  · next refused => simp [refused]
  · next target => simp [target]
  · next target => simp [target]
  · next target => simp [target]

theorem editFile_fails_iff {tree : FileTree} {cwd : Location} {path : Path}
    (edit : Bytes → Bytes) :
    (∃ failure, tree.editFile cwd path edit = .error failure) ↔
      ¬ tree.CanWrite cwd (some path) := by
  simp only [editFile_eq_error, CanWrite, Option.mem_some_iff, forall_eq']
  cases tree.writeTarget cwd path with
  | error failure => simp
  | ok arrival => simp

theorem editFile_written {tree : FileTree} {cwd location : Location} {path : Path}
    (leads : tree.writesAt? cwd path = some location) (edit : Bytes → Bytes) :
    ∃ after old mode, tree.editFile cwd path edit = .ok after ∧
      after.node? location = some (.file (edit old) mode) := by
  have below := writesAt?_ne_root leads
  cases target : tree.writeTarget cwd path with
  | error failure =>
      rw [writesAt?, target] at leads
      cases leads
  | ok arrival =>
      rw [writesAt?_eq target] at leads
      refine ⟨tree.edited edit arrival, ?_⟩
      rcases arrival with ⟨place, node⟩ | ⟨folder, name⟩
      · cases node with
        | folder | link | void => cases leads
        | file data mode =>
            cases leads
            exact ⟨data, mode, editFile_eq_ok.mpr ⟨_, target, rfl⟩, node?_put_self tree _ below⟩
      · cases leads
        exact ⟨[], newFileMode, editFile_eq_ok.mpr ⟨_, target, rfl⟩, node?_put_self tree _ below⟩

/-- The path means a file that can be written, and this stands in it: nothing at all if the file
has still to be made. -/
inductive Holds (tree : FileTree) (cwd : Location) (path : Path) : Option Bytes → Prop
  | missing (folder : Location) (name : Name)
      (target : tree.writeTarget cwd path = .ok (.absent folder name)) : Holds tree cwd path none
  | present (location : Location) (data : Bytes) (mode : Nat)
      (target : tree.writeTarget cwd path = .ok (.present location (.file data mode))) :
      Holds tree cwd path (some data)

theorem missing_target : FileTree.empty.writeTarget [] [104] = .ok (.absent [] [104]) := by
  have walked : FileTree.empty.walk .write mostLinks [] [[104]] = .ok (.absent [] [104]) := by
    rw [FileTree.walk]
    rfl
  exact FileTree.writeTarget_eq_ok.mpr ⟨walked, by simp⟩

theorem missing_held : FileTree.empty.Holds [] [104] none :=
  .missing _ _ missing_target

/-- A tree with one file in it, named `h`. -/
def onlyFile (data : Bytes) : FileTree :=
  ⟨[([[104]], .file data newFileMode)]⟩

theorem onlyFile_held (data : Bytes) : (onlyFile data).Holds [] [104] (some data) := by
  have walked : (onlyFile data).walk .write mostLinks [] [[104]] =
      .ok (.present [[104]] (.file data newFileMode)) := by
    rw [FileTree.walk]
    rfl
  exact .present _ _ _ (FileTree.writeTarget_eq_ok.mpr ⟨walked, by simp⟩)

variable {tree : FileTree} {cwd : Location} {path : Path}

/-- Where a file could be written, a walk to read comes as well. Only a name that a slash ends
is treated otherwise, and such a name cannot be written. -/
theorem walk_use {links : Nat} {here : Location} {steps : List Name} {arrival : Arrival}
    (arrived : tree.walk .write links here steps = .ok arrival) :
    tree.walk .use links here steps = .ok arrival := by
  fun_induction walk tree Errand.write links here steps with
  | case1 =>
      rw [walk]
      exact arrived
  | case2 _ _ _ _ idle ih =>
      rw [walk, if_pos idle]
      exact ih arrived
  | case3 _ _ _ _ busy up ih =>
      rw [walk, if_neg busy, if_pos up]
      exact ih arrived
  | case4 => cases arrived
  | case5 => cases arrived
  | case6 _ _ _ _ busy down _ short free ends =>
      rw [walk, if_neg busy, if_neg down, if_neg (by simp), if_neg short, free]
      simpa only [ends, if_true] using arrived
  | case7 => cases arrived
  | case8 _ _ _ _ busy down _ short mode folder ih =>
      rw [walk, if_neg busy, if_neg down, if_neg (by simp), if_neg short, folder]
      exact ih arrived
  | case9 _ _ _ _ _ _ _ _ _ _ looks => cases looks.2
  | case10 => cases arrived
  | case11 => cases arrived
  | case12 _ _ _ busy down _ short target link _ _ filled ih =>
      rw [walk, if_neg busy, if_neg down, if_neg (by simp), if_neg short, link]
      simp only [filled]
      simpa using ih arrived
  | case13 _ _ _ _ busy down _ short node notFolder notLink known ends =>
      rw [walk, if_neg busy, if_neg down, if_neg (by simp), if_neg short, known]
      simpa only [ends, if_true] using arrived
  | case14 => cases arrived

theorem arrive_use {arrival : Arrival} (target : tree.writeTarget cwd path = .ok arrival) :
    tree.arrive cwd .use path = .ok arrival := by
  obtain ⟨sound, walked⟩ := arrive_eq_ok.mp (writeTarget_eq_ok.mp target).1
  exact arrive_eq_ok.mpr ⟨sound, walk_use walked⟩

namespace Holds

variable {content : Option Bytes}

theorem readContent (holds : tree.Holds cwd path content) :
    tree.readContent cwd path = content.elim (.error .noEntry) .ok := by
  cases holds with
  | missing folder name target =>
      simp only [FileTree.readContent, open?, arrive_use target]
      rfl
  | present location data mode target =>
      simp only [FileTree.readContent, open?, arrive_use target]
      rfl

theorem storeLines {lines : List Text} (holds : tree.Holds cwd path content)
    (read : textLines? (content.getD []) = some lines) :
    tree.storeLines cwd path = .ok lines := by
  rw [FileTree.storeLines, holds.readContent]
  cases content with
  | none =>
      cases read
      rfl
  | some data =>
      rw [Option.getD_some] at read
      simp only [Option.elim_some, read]

theorem editFile (holds : tree.Holds cwd path content) (edit : Bytes → Bytes) :
    ∃ after, tree.editFile cwd path edit = .ok after ∧
      after.Holds cwd path (some (edit (content.getD []))) := by
  cases holds with
  | missing folder name target =>
      have done : tree.editFile cwd path edit =
          .ok (tree.put (folder ++ [name]) (.file (edit []) newFileMode)) :=
        editFile_eq_ok.mpr ⟨_, target, rfl⟩
      have below : folder ++ [name] ≠ [] := by simp
      have written := node?_put_self tree (.file (edit []) newFileMode) below
      refine ⟨_, done, ?_⟩
      obtain ⟨again, there, follows⟩ := writeTarget_grown (grown_editFile done) target
      cases follows with
      | free =>
          have free := walk_absent (arrive_eq_ok.mp (writeTarget_eq_ok.mp there).1).2
          cases written.symm.trans free
      | made _ _ data mode _ known =>
          cases written.symm.trans known
          exact .present _ _ _ there
  | present location data mode target =>
      have done : tree.editFile cwd path edit = .ok (tree.put location (.file (edit data) mode)) :=
        editFile_eq_ok.mpr ⟨_, target, rfl⟩
      have below : location ≠ [] := writesAt?_ne_root (writesAt?_eq target)
      have written := node?_put_self tree (.file (edit data) mode) below
      refine ⟨_, done, ?_⟩
      obtain ⟨again, there, follows⟩ := writeTarget_grown (grown_editFile done) target
      generalize arrived : Arrival.present location (.file data mode) = arrival at follows
      cases follows with
      | free => cases arrived
      | made => cases arrived
      | stands place =>
          obtain ⟨rfl, -⟩ := Arrival.present.inj arrived
          rw [standing_eq written] at there
          exact .present _ _ _ there

theorem writeFile (holds : tree.Holds cwd path content) (data : Bytes) :
    ∃ after, tree.writeFile cwd path data = .ok after ∧ after.Holds cwd path (some data) :=
  holds.editFile fun _ => data

theorem appendFile (holds : tree.Holds cwd path content) (data : Bytes) :
    ∃ after, tree.appendFile cwd path data = .ok after ∧
      after.Holds cwd path (some (content.getD [] ++ data)) :=
  holds.editFile fun old => old ++ data

end Holds

end FileTree

end CommandShell
