import Mathlib.Data.List.Infix
import ScriptDelta.Disk
import ScriptDelta.Proofs.Path.Names

/-! # The route of a path

The names of a path lead from the folder where it begins through a row of locations to the one that
it names. These locations depend on the current folder of a disk and on nothing else, since a name
leads to the same location whether or not something is there. A name that is joined to a folder
leads to that name in the folder (`location_join`), and the route of a folder that a path lies in is
a part of the route of the path (`route_subset_of_mem_ancestors`).
-/

namespace ScriptDelta

namespace Tree

/-- What has something below it is a folder. -/
theorem node?_of_node?_append {tree : Tree} {location inner : Location} {node : Node}
    (inside : inner ≠ []) (found : tree.node? (location ++ inner) = some node) :
    tree.node? location = some .folder := by
  rw [node?, find?_append] at found
  rw [node?]
  cases there : tree.find? location with
  | none => simp [there] at found
  | some below =>
    cases below with
    | folder entries => rfl
    | file bytes =>
      have nothing : (Tree.file bytes).node? inner = none := node?_of_entries_eq_nil rfl inside
      rw [there, Option.bind_some, ← node?, nothing] at found
      contradiction

end Tree

namespace Disk

/-- A trail of names, the last one in front, after one more name. -/
def turn (trail : List String) (name : String) : List String :=
  if name = "." then trail else if name = ".." then trail.tail else name :: trail

/-- The trail to the folder where a path begins. -/
def start (disk : Disk) (path : Path) : List String :=
  if path.isAbsolute then [] else disk.current.reverse

/-- Where some names lead from the beginning of a path. -/
def follow (disk : Disk) (path : Path) (names : List String) : Location :=
  (names.foldl turn (disk.start path)).reverse

/-- Where a path leads. -/
def location (disk : Disk) (path : Path) : Location :=
  disk.follow path path.names

/-- The locations that a path goes through, from where it begins to where it leads. -/
def route (disk : Disk) (path : Path) : List Location :=
  path.names.inits.map (disk.follow path)

/-- There is a folder where relative paths begin. -/
def Grounded (disk : Disk) : Prop :=
  disk.node? disk.current = some .folder

instance (disk : Disk) : Decidable disk.Grounded :=
  inferInstanceAs (Decidable (_ = _))

theorem mem_route_iff {disk : Disk} {path : Path} {location : Location} :
    location ∈ disk.route path ↔ ∃ names, names <+: path.names ∧ disk.follow path names = location := by
  simp only [route, List.mem_map, List.mem_inits]

theorem location_mem_route (disk : Disk) (path : Path) : disk.location path ∈ disk.route path :=
  mem_route_iff.mpr ⟨_, List.prefix_refl _, rfl⟩

section

variable {disk other : Disk} {path : Path}

/-- A route depends on the current folder only. -/
theorem follow_congr (same : other.current = disk.current) :
    other.follow path = disk.follow path := by
  funext names
  simp only [follow, start, same]

theorem location_congr (same : other.current = disk.current) :
    other.location path = disk.location path := by
  rw [location, location, follow_congr same]

theorem route_congr (same : other.current = disk.current) : other.route path = disk.route path := by
  rw [route, route, follow_congr same]

/-- Plain names are followed one after the other. -/
theorem foldl_turn_of_plain {names : List String} (plain : ∀ name ∈ names, Path.Plain name)
    (trail : List String) : names.foldl turn trail = names.reverse ++ trail := by
  induction names generalizing trail with
  | nil => rfl
  | cons name rest ih =>
    obtain ⟨⟨-, here, up⟩, restPlain⟩ := List.forall_mem_cons.mp plain
    rw [List.foldl_cons, ih restPlain, turn, if_neg here, if_neg up, List.reverse_cons,
      List.append_assoc, List.singleton_append]

/-- Plain names that are joined to a folder lead further down from it. -/
theorem location_join_of_plain {inner : Path} (plain : ∀ piece ∈ inner.pieces, Path.Plain piece) :
    disk.location (path.join inner) = disk.location path ++ inner.pieces := by
  have relative := Path.isAbsolute_of_plain plain
  have begins : disk.start (path.join inner) = disk.start path := by
    rw [start, start, Path.isAbsolute_join_of_relative path relative]
  rw [location, follow, begins, Path.names_join_of_relative path relative,
    Path.names_of_plain plain, List.foldl_append, foldl_turn_of_plain plain]
  simp [location, follow]

/-- A name that is joined to a folder leads to that name in the folder. -/
theorem location_join {name : String} (slashFree : Path.SlashFree name) (solid : name ≠ "")
    (here : name ≠ ".") (up : name ≠ "..") :
    disk.location (path.join ⟨name⟩) = disk.location path ++ [name] := by
  rw [location_join_of_plain, Path.pieces_of_slashFree slashFree]
  rw [Path.pieces_of_slashFree slashFree, List.forall_mem_singleton]
  exact ⟨solid, here, up⟩

/-- Periods lead nowhere. -/
theorem foldl_turn_filter (names : List String) (trail : List String) :
    (names.filter fun name => name != ".").foldl turn trail = names.foldl turn trail := by
  rw [List.foldl_filter]
  congr
  funext trail name
  by_cases here : name = "." <;> simp [turn, here]

/-- The route of a folder that a path lies in is a part of the route of the path. -/
theorem route_subset_of_mem_ancestors {ancestor : Path} (member : ancestor ∈ path.ancestors) :
    disk.route ancestor ⊆ disk.route path := by
  obtain ⟨absolute, steps⟩ := Path.steps_of_mem_ancestors member
  intro location onRoute
  obtain ⟨names, isFirst, rfl⟩ := mem_route_iff.mp onRoute
  obtain ⟨front, isFront, same⟩ := List.prefix_filter_iff.mp ((isFirst.filter _).trans steps)
  refine mem_route_iff.mpr ⟨front, isFront, ?_⟩
  rw [follow, follow, start, start, absolute, ← foldl_turn_filter, ← same, foldl_turn_filter]

end

section Grounded

variable {disk : Disk}

theorem isFolder_of_prefix {location inner : Location}
    (there : disk.node? (location ++ inner) = some .folder) :
    disk.node? location = some .folder := by
  cases inner with
  | nil => rwa [List.append_nil] at there
  | cons name rest => exact Tree.node?_of_node?_append (List.cons_ne_nil _ _) there

/-- Going up from a folder leads to a folder. -/
theorem isFolder_tail {trail : List String} (there : disk.node? trail.reverse = some .folder) :
    disk.node? trail.tail.reverse = some .folder := by
  cases trail with
  | nil => exact there
  | cons name rest =>
    rw [List.reverse_cons] at there
    exact isFolder_of_prefix there

theorem Grounded.isFolder_start (grounded : disk.Grounded) (path : Path) :
    disk.node? (disk.start path).reverse = some .folder := by
  rw [start]
  split
  · apply isFolder_of_prefix
    exact grounded
  · rwa [List.reverse_reverse]

end Grounded

end Disk

end ScriptDelta
