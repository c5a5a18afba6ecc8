import ScriptDelta.Proofs.Disk.Route

/-! # Walking along a path

A path is followed up to its last name by what is at the locations of its route, and what it leads
to is what is at the last of them (`find_eq`). Two disks that have the same on the route of a path
therefore find the same (`find_congr`), and a path leads to a folder only if its route is made of
folders (`isFolder_of_find`).
-/

namespace ScriptDelta

section success

variable {ε α β : Type} {outcome : Except ε α}

/-- What goes on after an outcome succeeds only if the outcome does. -/
theorem bind_eq_ok_iff {next : α → Except ε β} {result : β} :
    outcome >>= next = .ok result ↔ ∃ value, outcome = .ok value ∧ next value = .ok result := by
  cases outcome <;> simp [bind, Except.bind]

theorem map_eq_ok_iff {change : α → β} {result : β} :
    outcome.map change = .ok result ↔ ∃ value, outcome = .ok value ∧ change value = result := by
  cases outcome <;> simp [Except.map]

end success

namespace Disk

/-- The trail after one more name, if the name leads from a folder of the disk to a folder. -/
def turn? (disk : Disk) (trail : List String) (name : String) : Except FileError (List String) :=
  if name = "." ∨ name = ".." then .ok (turn trail name)
  else if nameLimit < name.utf8ByteSize then .error .nameTooLong
  else
    match disk.node? (turn trail name).reverse with
    | some .folder => .ok (turn trail name)
    | some (.file _) => .error .notDirectory
    | none => .error .notFound

/-- Why a path is not followed at all. -/
def refusal? (path : Path) : Option FileError :=
  if path.text.isEmpty then some .notFound
  else if path.text.toList.contains '\x00' then some .nullCharacter
  else if pathLimit < path.text.utf8ByteSize then some .nameTooLong
  else none

/-- The trail to the folder that the last name of a path is looked up in. -/
def parent (disk : Disk) (path : Path) : List String :=
  path.names.dropLast.foldl turn (disk.start path)

/-- The last name of a path, unless it leads to a folder that was entered before. -/
def lastName? (path : Path) : Option String :=
  path.names.getLast?.filter fun name => name != "." && name != ".."

/-- The last name of a path that can be followed up to there. -/
def approach (disk : Disk) (path : Path) : Except FileError (Option String) :=
  match refusal? path with
  | some error => .error error
  | none =>
    (path.names.dropLast.foldlM disk.turn? (disk.start path)).map fun _ => lastName? path

section turn?

variable {disk other : Disk} {trail next : List String} {name : String}

theorem turn_eq_cons (here : name ≠ ".") (up : name ≠ "..") : turn trail name = name :: trail := by
  simp [turn, here, up]

theorem turn?_eq_ok (turned : disk.turn? trail name = .ok next) : next = turn trail name := by
  simp only [turn?] at turned
  split at turned
  · exact (Except.ok.inj turned).symm
  · split at turned
    · contradiction
    · split at turned
      · exact (Except.ok.inj turned).symm
      · contradiction
      · contradiction

theorem isFolder_turn? (there : disk.node? trail.reverse = some .folder)
    (turned : disk.turn? trail name = .ok next) : disk.node? next.reverse = some .folder := by
  obtain rfl := turn?_eq_ok turned
  by_cases here : name = "."
  · simpa [turn, here] using there
  · by_cases up : name = ".."
    · simpa [turn, up] using isFolder_tail there
    · simp only [turn?, here, up, or_self, if_false] at turned
      split at turned
      · contradiction
      · split at turned
        · assumption
        · contradiction
        · contradiction

theorem turn?_congr
    (same : other.node? (turn trail name).reverse = disk.node? (turn trail name).reverse) :
    other.turn? trail name = disk.turn? trail name := by
  rw [turn?, turn?, same]

/-- Names that were followed lead to where their turns lead, through folders only. -/
theorem foldlM_turn?_eq_ok {names last : List String}
    (there : disk.node? trail.reverse = some .folder)
    (followed : names.foldlM disk.turn? trail = .ok last) :
    last = names.foldl turn trail ∧
      ∀ front, front <+: names → disk.node? (front.foldl turn trail).reverse = some .folder := by
  induction names generalizing trail with
  | nil =>
    obtain rfl : trail = last := Except.ok.inj followed
    refine ⟨rfl, ?_⟩
    intro front isFront
    rwa [List.prefix_nil.mp isFront]
  | cons name names ih =>
    rw [List.foldlM_cons, bind_eq_ok_iff] at followed
    obtain ⟨next, turned, followed⟩ := followed
    have entered := isFolder_turn? there turned
    obtain rfl := turn?_eq_ok turned
    obtain ⟨rfl, folders⟩ := ih entered followed
    -- A shorter row of names ends at the beginning or after the first name.
    refine ⟨rfl, ?_⟩
    intro front isFront
    obtain rfl | ⟨back, rfl, isBack⟩ := List.prefix_cons_iff.mp isFront
    · exact there
    · exact folders back isBack

/-- Following names looks only at where they lead. -/
theorem foldlM_turn?_congr {names : List String}
    (same : ∀ front, front <+: names →
      other.node? (front.foldl turn trail).reverse = disk.node? (front.foldl turn trail).reverse) :
    names.foldlM other.turn? trail = names.foldlM disk.turn? trail := by
  induction names generalizing trail with
  | nil => rfl
  | cons name names ih =>
    have first : other.turn? trail name = disk.turn? trail name :=
      turn?_congr (same [name] (List.prefix_append [name] names))
    rw [List.foldlM_cons, List.foldlM_cons, first]
    cases turned : disk.turn? trail name with
    | error error => rfl
    | ok next =>
      obtain rfl := turn?_eq_ok turned
      apply ih
      intro front isFront
      exact same (name :: front) (List.prefix_cons_inj name |>.mpr isFront)

end turn?

section approach

variable {disk other : Disk} {path : Path} {name : String} {last : Option String}

/-- Behind the last name of a path there is nothing more. -/
theorem location_of_getLast? (ends : path.names.getLast? = some name) :
    disk.location path = (turn (disk.parent path) name).reverse := by
  have split : path.names.dropLast ++ [name] = path.names := List.dropLast_append_getLast? _ ends
  rw [location, follow, ← split, List.foldl_append]
  simp [parent]

/-- The route of a path comes to its end with the last name. -/
theorem mem_route_cases {location : Location} (onRoute : location ∈ disk.route path) :
    location = disk.location path ∨
      ∃ front, front <+: path.names.dropLast ∧ disk.follow path front = location := by
  obtain ⟨front, isFront, rfl⟩ := mem_route_iff.mp onRoute
  cases ends : path.names.getLast? with
  | none =>
    have empty : path.names = [] := List.getLast?_eq_none_iff.mp ends
    exact .inr ⟨front, by simpa [empty] using isFront, rfl⟩
  | some name =>
    rw [← List.dropLast_append_getLast? _ ends] at isFront
    obtain rfl | isFront := List.prefix_concat_iff.mp isFront
    · left
      rw [List.dropLast_append_getLast? _ ends, location]
    · exact .inr ⟨front, isFront, rfl⟩

theorem approach_eq_ok (grounded : disk.Grounded) (reached : disk.approach path = .ok last) :
    last = lastName? path ∧
      ∀ front, front <+: path.names.dropLast → disk.node? (disk.follow path front) = some .folder := by
  simp only [approach] at reached
  split at reached
  · contradiction
  · obtain ⟨trail, followed, rfl⟩ := map_eq_ok_iff.mp reached
    exact ⟨rfl, (foldlM_turn?_eq_ok (grounded.isFolder_start path) followed).2⟩

theorem isFolder_parent (grounded : disk.Grounded) (reached : disk.approach path = .ok last) :
    disk.node? (disk.parent path).reverse = some .folder :=
  (approach_eq_ok grounded reached).2 _ (List.prefix_refl _)

/-- All of a route but its end is made of folders, once the path was followed. -/
theorem isFolder_of_mem_route (grounded : disk.Grounded) (reached : disk.approach path = .ok last)
    {location : Location} (onRoute : location ∈ disk.route path)
    (inner : location ≠ disk.location path) : disk.node? location = some .folder := by
  obtain rfl | ⟨front, isFront, rfl⟩ := mem_route_cases onRoute
  · contradiction
  · exact (approach_eq_ok grounded reached).2 front isFront

/-- A name of its own is the last one of the location. -/
theorem location_of_lastName? (named : lastName? path = some name) :
    disk.location path = (disk.parent path).reverse ++ [name] := by
  obtain ⟨ends, proper⟩ := Option.filter_eq_some_iff.mp named
  simp only [Bool.and_eq_true, bne_iff_ne] at proper
  rw [location_of_getLast? ends, turn_eq_cons proper.1 proper.2, List.reverse_cons]

theorem location_of_approach (grounded : disk.Grounded)
    (reached : disk.approach path = .ok (some name)) :
    disk.location path = (disk.parent path).reverse ++ [name] :=
  location_of_lastName? (approach_eq_ok grounded reached).1.symm

/-- A path without a last name of its own leads to a folder. -/
theorem isFolder_location (grounded : disk.Grounded) (reached : disk.approach path = .ok none) :
    disk.node? (disk.location path) = some .folder := by
  have there := isFolder_parent grounded reached
  have unnamed := (approach_eq_ok grounded reached).1
  cases ends : path.names.getLast? with
  | none =>
    have empty : path.names = [] := List.getLast?_eq_none_iff.mp ends
    simpa [location, parent, follow, empty] using there
  | some name =>
    rw [location_of_getLast? ends]
    by_cases here : name = "."
    · simpa [turn, here] using there
    · have up : name = ".." := by simpa [lastName?, ends, Option.filter, here] using unnamed
      simpa [turn, up] using isFolder_tail there

/-- Following a path up to its last name looks only at its route. -/
theorem approach_congr (current : other.current = disk.current)
    (same : ∀ location ∈ disk.route path, other.node? location = disk.node? location) :
    other.approach path = disk.approach path := by
  have begins : other.start path = disk.start path := by rw [start, start, current]
  rw [approach, approach, begins]
  have walk : path.names.dropLast.foldlM other.turn? (disk.start path) =
      path.names.dropLast.foldlM disk.turn? (disk.start path) := by
    apply foldlM_turn?_congr
    intro front isFront
    apply same
    exact mem_route_iff.mpr ⟨front, isFront.trans (List.dropLast_prefix _), rfl⟩
  rw [walk]

end approach

section target

variable {disk other : Disk} {path : Path}

@[simp] theorem location_spot (disk : Disk) (trail : List String) :
    (disk.spot trail).location = trail.reverse :=
  rfl

theorem child?_spot {trail : List String} (there : disk.node? trail.reverse = some .folder)
    (name : String) :
    (disk.spot trail).child? name =
      if nameLimit < name.utf8ByteSize then .error .nameTooLong
      else .ok (disk.tree.find? (name :: trail).reverse) := by
  obtain ⟨tree, found, -⟩ := Option.map_eq_some_iff.mp there
  rw [Spot.child?, List.reverse_cons, Tree.find?_append, found]
  simp [spot, found]

theorem enter_spot {trail : List String} (there : disk.node? trail.reverse = some .folder)
    (name : String) : disk.enter (disk.spot trail) name = (disk.turn? trail name).map disk.spot := by
  by_cases here : name = "."
  · simp [enter, turn?, turn, here, Except.map]
  · by_cases up : name = ".."
    · simp [enter, turn?, turn, up, Except.map, spot]
    · rw [enter, if_neg here, if_neg up, child?_spot there, turn?, turn_eq_cons here up]
      simp only [here, up, or_self, if_false]
      split
      · rfl
      · rw [node?, Tree.node?]
        cases found : disk.tree.find? (name :: trail).reverse with
        | none => rfl
        | some tree =>
          cases tree with
          | file bytes => rfl
          | folder entries =>
            have entered : disk.spot (name :: trail) = ⟨name :: trail, .folder entries⟩ := by
              rw [spot, found, Option.getD_some]
            exact congrArg Except.ok entered.symm

theorem foldlM_enter {trail : List String} (there : disk.node? trail.reverse = some .folder)
    (names : List String) :
    names.foldlM disk.enter (disk.spot trail) = (names.foldlM disk.turn? trail).map disk.spot := by
  induction names generalizing trail with
  | nil => rfl
  | cons name names ih =>
    rw [List.foldlM_cons, List.foldlM_cons, enter_spot there]
    cases turned : disk.turn? trail name with
    | error error => rfl
    | ok next => exact ih (isFolder_turn? there turned)

/-- What a path leads to, once its last name but for the folder it is in is known. -/
theorem target_ending (path : Path) (spot : Spot) (onlyFolder : Bool) :
    (match path.names.getLast? with
      | none => pure .folder
      | some name =>
        if name = "." ∨ name = ".." then do
          let _ ← disk.enter spot name
          pure .folder
        else pure (.named spot name onlyFolder) : Except FileError Target) =
      .ok (match lastName? path with
        | none => .folder
        | some name => .named spot name onlyFolder) := by
  cases ends : path.names.getLast? with
  | none => simp [lastName?, ends]; rfl
  | some name =>
    by_cases here : name = "."
    · simp [lastName?, ends, here, enter]; rfl
    · by_cases up : name = ".."
      · simp [lastName?, ends, up, enter]; rfl
      · simp [lastName?, ends, here, up, Option.filter, pure, Except.pure]

theorem target_eq (grounded : disk.Grounded) (path : Path) :
    disk.target path = (disk.approach path).map fun last =>
      match last with
      | none => .folder
      | some name => .named (disk.spot (disk.parent path)) name
          (path.text.toList.getLast? == some '/') := by
  rw [target, approach, refusal?]
  by_cases empty : path.text.isEmpty
  · simp only [empty, if_true]
    rfl
  · by_cases null : path.text.toList.contains '\x00'
    · simp only [empty, null, if_true]
      rfl
    · by_cases long : pathLimit < path.text.utf8ByteSize
      · simp only [empty, null, long, if_true]
        rfl
      · simp only [empty, null, long, if_false]
        have walk := foldlM_enter (grounded.isFolder_start path) path.names.dropLast
        change (path.names.dropLast.foldlM disk.enter (disk.spot (disk.start path)) >>= _) = _
        rw [walk]
        cases followed : path.names.dropLast.foldlM disk.turn? (disk.start path) with
        | error error => rfl
        | ok trail =>
          obtain ⟨rfl, -⟩ := foldlM_turn?_eq_ok (grounded.isFolder_start path) followed
          exact target_ending path _ _

/-- Whatever is seen under the last name of a path is what is at its location. -/
theorem child?_parent_eq_ok (grounded : disk.Grounded) {name : String}
    (reached : disk.approach path = .ok (some name)) {seen : Option Tree}
    (looked : (disk.spot (disk.parent path)).child? name = .ok seen) :
    seen = disk.tree.find? (disk.location path) := by
  rw [child?_spot (isFolder_parent grounded reached), List.reverse_cons,
    ← location_of_approach grounded reached] at looked
  split at looked
  · contradiction
  · exact (Except.ok.inj looked).symm

end target

section find

variable {disk other : Disk} {path : Path}

/-- What is found at the end of a path, given its last name. -/
def findLast (disk : Disk) (path : Path) : Option String → Except FileError Node
  | none => .ok .folder
  | some name =>
    if nameLimit < name.utf8ByteSize then .error .nameTooLong
    else
      match disk.node? (disk.location path) with
      | none => .error .notFound
      | some .folder => .ok .folder
      | some (.file bytes) =>
        if path.text.toList.getLast? == some '/' then .error .notDirectory else .ok (.file bytes)

theorem find_eq (grounded : disk.Grounded) (path : Path) :
    disk.find path = disk.approach path >>= disk.findLast path := by
  rw [find, target_eq grounded]
  cases reached : disk.approach path with
  | error error => rfl
  | ok last =>
    cases last with
    | none => rfl
    | some name =>
      have place := location_of_approach grounded reached
      change (Spot.child? _ name >>= _) = findLast disk path (some name)
      rw [child?_spot (isFolder_parent grounded reached), List.reverse_cons, ← place, findLast]
      split
      · rfl
      · rw [node?, Tree.node?]
        cases found : disk.tree.find? (disk.location path) with
        | none => rfl
        | some tree => cases tree <;> rfl

/-- What a path leads to depends on what is on its route and on nothing else. -/
theorem find_congr (grounded : disk.Grounded) (otherGrounded : other.Grounded)
    (current : other.current = disk.current)
    (same : ∀ location ∈ disk.route path, other.node? location = disk.node? location) :
    other.find path = disk.find path := by
  have ends : other.findLast path = disk.findLast path := by
    funext last
    cases last with
    | none => rfl
    | some name =>
      rw [findLast, findLast, location_congr current, same _ (location_mem_route disk path)]
  rw [find_eq otherGrounded, find_eq grounded, approach_congr current same, ends]

theorem isFolder_of_findLast {last : Option String} (grounded : disk.Grounded)
    (reached : disk.approach path = .ok last) (found : disk.findLast path last = .ok .folder) :
    disk.node? (disk.location path) = some .folder := by
  cases last with
  | none => exact isFolder_location grounded reached
  | some name =>
    rw [findLast] at found
    split at found
    · contradiction
    · split at found
      · contradiction
      · assumption
      · split at found <;> simp at found

/-- All of the route of a path that leads to a folder is made of folders. -/
theorem isFolder_of_find (grounded : disk.Grounded) (found : disk.find path = .ok .folder)
    {location : Location} (onRoute : location ∈ disk.route path) :
    disk.node? location = some .folder := by
  rw [find_eq grounded, bind_eq_ok_iff] at found
  obtain ⟨last, reached, found⟩ := found
  by_cases inner : location = disk.location path
  · subst inner
    exact isFolder_of_findLast grounded reached found
  · exact isFolder_of_mem_route grounded reached onRoute inner

end find

end Disk

end ScriptDelta
