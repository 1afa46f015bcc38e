import CommandShell.Proofs.System.Growth

/-!
Trees that differ by what stands in their files, and by nothing else. A folder that can be
entered in one can be entered in the other and has the same names there, and writing to the
same path keeps such trees alike, whatever is written.
-/
namespace CommandShell

namespace FileTree

def locations (tree : FileTree) : List Location :=
  tree.entries.map (·.1)

structure Twins (left right : FileTree) : Prop where
  onward : left.Grown right
  back : right.Grown left
  locations : left.locations = right.locations

theorem locations_put (tree : FileTree) (location : Location) (node : Node) :
    (tree.put location node).locations =
      if location ∈ tree.locations then tree.locations else tree.locations ++ [location] := by
  have known : (tree.entries.any fun entry => entry.1 == location) = true ↔
      location ∈ tree.locations := by
    simp [locations]
  unfold put
  by_cases listed : location ∈ tree.locations
  · rw [if_pos (known.mpr listed), if_pos listed, locations, List.map_map]
    refine List.map_congr_left fun entry _ => ?_
    by_cases here : entry.1 = location
    · simp [here]
    · simp [here]
  · rw [if_neg (mt known.mp listed), if_neg listed, locations, List.map_append]
    rfl

theorem mem_locations {tree : FileTree} {location : Location} {node : Node}
    (below : location ≠ []) (known : tree.node? location = some node) :
    location ∈ tree.locations := by
  unfold node? at known
  rw [if_neg (by simpa using below)] at known
  obtain ⟨entry, found, -⟩ := Option.map_eq_some_iff.mp known
  have here : entry.1 = location := by simpa using List.find?_some found
  exact here ▸ List.mem_map_of_mem (List.mem_of_find?_eq_some found)

theorem names_eq (tree : FileTree) (folder : Location) :
    tree.names folder = NameHash.order (tree.locations.filterMap fun location =>
      match location.getLast? with
      | some name => if location.dropLast == folder then some name else none
      | none => none) := by
  rw [names, locations, List.filterMap_map]
  rfl

/-- Where a walk to write arrives in two trees that are alike. -/
inductive SameTarget : Arrival → Arrival → Prop
  | same (arrival : Arrival) : SameTarget arrival arrival
  | file (location : Location) (left right : Bytes) (mode : Nat) :
      SameTarget (.present location (.file left mode)) (.present location (.file right mode))

namespace Twins

variable {left right : FileTree}

theorem refl (tree : FileTree) : tree.Twins tree :=
  ⟨.refl tree, .refl tree, rfl⟩

theorem symm (twins : left.Twins right) : right.Twins left :=
  ⟨twins.back, twins.onward, twins.locations.symm⟩

theorem standing (twins : left.Twins right) (location : Location) :
    left.standing location = right.standing location ∨ ∃ old new mode,
      left.standing location = .file old mode ∧ right.standing location = .file new mode := by
  have onward := twins.onward location
  have back := twins.back location
  unfold FileTree.standing
  generalize left.node? location = mine at onward back
  generalize right.node? location = other at onward back
  cases onward with
  | same => exact Or.inl rfl
  | written old new mode => exact Or.inr ⟨old, new, mode, rfl, rfl⟩
  | made => cases back

theorem names (twins : left.Twins right) (folder : Location) :
    left.names folder = right.names folder := by
  rw [names_eq, names_eq, twins.locations]

theorem enter (twins : left.Twins right) {cwd folder : Location} {path : Path}
    (entered : left.enter cwd path = .ok folder) : right.enter cwd path = .ok folder := by
  obtain ⟨mode, opened⟩ := enter_eq_ok.mp entered
  obtain ⟨here, there⟩ := open?_grown twins.onward opened
  rcases twins.standing folder with same | ⟨_, _, _, mine, -⟩
  · rw [← same, ← here] at there
    exact enter_eq_ok.mpr ⟨mode, there⟩
  · cases here.trans mine

theorem textNames (twins : left.Twins right) (cwd : Location) (path : Path) :
    left.textNames cwd path = right.textNames cwd path := by
  unfold FileTree.textNames FileTree.list
  cases mine : left.enter cwd path with
  | ok folder => simp only [twins.enter mine, twins.names folder]
  | error failure =>
      cases other : right.enter cwd path with
      | error => rfl
      | ok folder => cases mine.symm.trans (twins.symm.enter other)

theorem writeTarget (twins : left.Twins right) {cwd : Location} {path : Path} {arrival : Arrival}
    (target : left.writeTarget cwd path = .ok arrival) :
    ∃ again, right.writeTarget cwd path = .ok again ∧ SameTarget arrival again := by
  obtain ⟨again, there, follows⟩ := writeTarget_grown twins.onward target
  refine ⟨again, there, ?_⟩
  cases follows with
  | free folder name => exact .same _
  | made folder name data mode free known =>
      have back := twins.back (folder ++ [name])
      rw [free, known] at back
      cases back
  | stands location =>
      rcases twins.standing location with same | ⟨old, new, mode, mine, other⟩
      · rw [same]
        exact .same _
      · rw [mine, other]
        exact .file location old new mode

theorem put (twins : left.Twins right) {location : Location} (below : location ≠ [])
    (old new : Bytes) (mode : Nat) :
    (left.put location (.file old mode)).Twins (right.put location (.file new mode)) := by
  constructor
  case onward =>
    intro other
    by_cases here : other = location
    · rw [here, node?_put_self left _ below, node?_put_self right _ below]
      exact .written old new mode
    · rw [node?_put_ne left _ here, node?_put_ne right _ here]
      exact twins.onward other
  case back =>
    intro other
    by_cases here : other = location
    · rw [here, node?_put_self left _ below, node?_put_self right _ below]
      exact .written new old mode
    · rw [node?_put_ne left _ here, node?_put_ne right _ here]
      exact twins.back other
  case locations => rw [locations_put, locations_put, twins.locations]

theorem editFile (twins : left.Twins right) {cwd : Location} {path : Path}
    {first second : Bytes → Bytes} {one other : FileTree}
    (mine : left.editFile cwd path first = .ok one)
    (theirs : right.editFile cwd path second = .ok other) : one.Twins other := by
  obtain ⟨arrival, target, rfl⟩ := editFile_eq_ok.mp mine
  obtain ⟨again, there, rfl⟩ := editFile_eq_ok.mp theirs
  obtain ⟨found, known, same⟩ := twins.writeTarget target
  cases there.symm.trans known
  have below : ∀ location, arrival.file? = some location → location ≠ [] := by
    intro location here
    exact writesAt?_ne_root ((writesAt?_eq target).trans here)
  cases same with
  | file location old new mode => exact twins.put (below location rfl) _ _ mode
  | same =>
      rcases arrival with ⟨location, node⟩ | ⟨folder, name⟩
      · cases node with
        | file data mode => exact twins.put (below location rfl) _ _ mode
        | folder | link | void => exact twins
      · exact twins.put (below _ rfl) _ _ newFileMode

end Twins

theorem twins_editFile {tree after : FileTree} {cwd : Location} {path : Path}
    {edit : Bytes → Bytes} (done : tree.editFile cwd path edit = .ok after)
    (there : ∀ folder name, tree.writeTarget cwd path ≠ .ok (.absent folder name)) :
    tree.Twins after := by
  have grown := grown_editFile done
  obtain ⟨arrival, target, rfl⟩ := editFile_eq_ok.mp done
  rcases arrival with ⟨location, node⟩ | ⟨folder, name⟩
  · cases node with
    | folder | link | void => exact .refl tree
    | file data mode =>
        have below := writesAt?_ne_root (writesAt?_eq target)
        rcases arrive_present (writeTarget_eq_ok.mp target).1 with known | ⟨mode, isFolder⟩
        · constructor
          case onward => exact grown
          case back =>
            intro other
            by_cases here : other = location
            · rw [here, known, edited, node?_put_self tree _ below]
              exact .written _ _ _
            · rw [edited, node?_put_ne tree _ here]
              exact .same _
          case locations =>
            rw [edited, locations_put, if_pos (mem_locations below known)]
        · cases isFolder
  · exact absurd target (there folder name)

end FileTree

end CommandShell
