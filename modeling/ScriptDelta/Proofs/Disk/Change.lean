import ScriptDelta.Proofs.Disk.Walk

/-! # Changes of a disk

A file that was written is at the location of its path, and nothing else has changed
(`node?_write`). A folder that was made along with those that it lies in is the end of a row of
folders, of which the missing ones were put in (`makeFolders_spec`). A path whose route has not
changed leads to what it led to before (`ChangedWithin.find_eq`).
-/

namespace ScriptDelta.Disk

section put

variable {disk after : Disk} {path : Path}

/-- Something put where there was no folder is all that has changed. -/
theorem node?_put (grounded : disk.Grounded) {name : String}
    (reached : disk.approach path = .ok (some name)) {inner : Tree} (leaf : inner.entries = [])
    (free : disk.node? (disk.location path) ≠ some .folder) (location : Location) :
    (disk.put (disk.location path) inner).node? location =
      if location = disk.location path then some inner.node else disk.node? location := by
  have place := location_of_approach grounded reached
  apply Tree.node?_put
  · simp [place]
  · rw [place, List.dropLast_concat]
    exact isFolder_parent grounded reached
  · exact leaf
  · intro old found
    cases old with
    | file bytes => rfl
    | folder entries => exact absurd (by simp [node?, Tree.node?, found, Tree.node]) free

theorem write_eq_ok {bytes : List UInt8} (grounded : disk.Grounded)
    (written : disk.write path bytes = .ok after) :
    (∃ name, disk.approach path = .ok (some name)) ∧
      disk.node? (disk.location path) ≠ some .folder ∧
      after = disk.put (disk.location path) (.file bytes) := by
  rw [write, target_eq grounded, bind_eq_ok_iff] at written
  obtain ⟨target, followed, written⟩ := written
  obtain ⟨last, reached, rfl⟩ := map_eq_ok_iff.mp followed
  split at written
  next _ spot name target =>
    cases last with
    | none => contradiction
    | some last =>
      obtain ⟨rfl, rfl, -⟩ := Target.named.inj target
      refine ⟨⟨last, reached⟩, ?_⟩
      obtain ⟨seen, looked, written⟩ := bind_eq_ok_iff.mp written
      have there := child?_parent_eq_ok grounded reached looked
      rw [location_spot, ← location_of_approach grounded reached] at written
      rw [node?, Tree.node?, ← there]
      cases seen with
      | none => exact ⟨by simp, (Except.ok.inj written).symm⟩
      | some tree =>
        cases tree with
        | file old => exact ⟨by simp [Tree.node], (Except.ok.inj written).symm⟩
        | folder entries => contradiction
  next => contradiction

/-- A file that was written is at the location of its path, where there was no folder, and nothing
else has changed. -/
theorem node?_write {bytes : List UInt8} (grounded : disk.Grounded)
    (written : disk.write path bytes = .ok after) :
    after.current = disk.current ∧ disk.node? (disk.location path) ≠ some .folder ∧
      ∀ location, after.node? location =
        if location = disk.location path then some (.file bytes) else disk.node? location := by
  obtain ⟨⟨name, reached⟩, free, rfl⟩ := write_eq_ok grounded written
  exact ⟨rfl, free, node?_put grounded reached rfl free⟩

theorem makeFolder_eq_ok (grounded : disk.Grounded) (made : disk.makeFolder path = .ok after) :
    (∃ name, disk.approach path = .ok (some name)) ∧ disk.node? (disk.location path) = none ∧
      after = disk.put (disk.location path) (.folder []) := by
  rw [makeFolder, target_eq grounded, bind_eq_ok_iff] at made
  obtain ⟨target, followed, made⟩ := made
  obtain ⟨last, reached, rfl⟩ := map_eq_ok_iff.mp followed
  cases last with
  | none => contradiction
  | some name =>
    refine ⟨⟨name, reached⟩, ?_⟩
    obtain ⟨seen, looked, made⟩ := bind_eq_ok_iff.mp made
    have there := child?_parent_eq_ok grounded reached looked
    rw [location_spot, ← location_of_approach grounded reached] at made
    rw [node?, Tree.node?, ← there]
    cases seen with
    | none => exact ⟨rfl, (Except.ok.inj made).symm⟩
    | some tree => contradiction

/-- A folder that was made is at the location of its path, where there was nothing, and nothing else
has changed. -/
theorem node?_makeFolder (grounded : disk.Grounded) (made : disk.makeFolder path = .ok after) :
    after.current = disk.current ∧ disk.node? (disk.location path) = none ∧
      ∀ location, after.node? location =
        if location = disk.location path then some .folder else disk.node? location := by
  obtain ⟨⟨name, reached⟩, nothing, rfl⟩ := makeFolder_eq_ok grounded made
  exact ⟨rfl, nothing, node?_put grounded reached rfl (by simp [nothing])⟩

/-- A folder was made at the end of a row of folders. -/
theorem isFolder_of_makeFolder (grounded : disk.Grounded) (made : disk.makeFolder path = .ok after)
    {location : Location} (onRoute : location ∈ disk.route path) :
    after.node? location = some .folder := by
  obtain ⟨⟨name, reached⟩, -⟩ := makeFolder_eq_ok grounded made
  rw [(node?_makeFolder grounded made).2.2]
  split
  · rfl
  next inner => exact isFolder_of_mem_route grounded reached onRoute inner

end put

section ChangedWithin

/-- Nothing has changed but at some locations, and what was a folder still is one. -/
structure ChangedWithin (locations : List Location) (before after : Disk) : Prop where
  current : after.current = before.current
  folder : ∀ location, before.node? location = some .folder → after.node? location = some .folder
  same : ∀ location, location ∉ locations → after.node? location = before.node? location

namespace ChangedWithin

variable {locations more : List Location} {before middle after : Disk} {path : Path}

theorem refl (locations : List Location) (disk : Disk) : ChangedWithin locations disk disk :=
  ⟨rfl, fun _ there => there, fun _ _ => rfl⟩

theorem trans (first : ChangedWithin locations before middle)
    (second : ChangedWithin locations middle after) : ChangedWithin locations before after where
  current := second.current.trans first.current
  folder location there := second.folder location (first.folder location there)
  same location outside := (second.same location outside).trans (first.same location outside)

theorem mono (changed : ChangedWithin locations before after) (within : locations ⊆ more) :
    ChangedWithin more before after where
  current := changed.current
  folder := changed.folder
  same location outside := changed.same location fun inside => outside (within inside)

theorem grounded (changed : ChangedWithin locations before after) (grounded : before.Grounded) :
    after.Grounded := by
  rw [Grounded, changed.current]
  exact changed.folder _ grounded

/-- A path whose route has not changed leads to what it led to before. -/
theorem find_eq (changed : ChangedWithin locations before after) (grounded : before.Grounded)
    (apart : ∀ location ∈ before.route path, location ∉ locations) :
    after.find path = before.find path := by
  apply find_congr grounded (changed.grounded grounded) changed.current
  intro location onRoute
  exact changed.same location (apart location onRoute)

end ChangedWithin

end ChangedWithin

section Wrote

/-- What is at a location after some files were written, one after the other. -/
def overwritten (location : Location) (node : Option Node)
    (writes : List (Location × List UInt8)) : Option Node :=
  writes.foldl (fun node write => if location = write.1 then some (.file write.2) else node) node

/-- Some files have been written, one after the other, and none in the place of a folder. -/
structure Wrote (writes : List (Location × List UInt8)) (before after : Disk) : Prop where
  current : after.current = before.current
  free : ∀ write ∈ writes, before.node? write.1 ≠ some .folder
  node? : ∀ location, after.node? location = overwritten location (before.node? location) writes

/-- Where nothing was written there is what there was. -/
theorem overwritten_of_not_mem {location : Location} {writes : List (Location × List UInt8)}
    (outside : location ∉ writes.map Prod.fst) (node : Option Node) :
    overwritten location node writes = node := by
  induction writes generalizing node with
  | nil => rfl
  | cons write rest ih =>
    rw [List.map_cons, List.mem_cons, not_or] at outside
    rw [overwritten, List.foldl_cons, if_neg outside.1]
    exact ih outside.2 node

theorem overwritten_append (location : Location) (node : Option Node)
    (first second : List (Location × List UInt8)) :
    overwritten location node (first ++ second) =
      overwritten location (overwritten location node first) second := by
  rw [overwritten, List.foldl_append]
  rfl

/-- A file that was written to a place of its own is there. -/
theorem overwritten_of_mem {writes : List (Location × List UInt8)} {location : Location}
    {bytes : List UInt8} (distinct : (writes.map Prod.fst).Nodup)
    (member : (location, bytes) ∈ writes) (node : Option Node) :
    overwritten location node writes = some (.file bytes) := by
  obtain ⟨front, back, rfl⟩ := List.append_of_mem member
  rw [List.map_append, List.map_cons] at distinct
  have behind : location ∉ back.map Prod.fst :=
    (List.nodup_cons.mp (List.nodup_append.mp distinct).2.1).1
  rw [overwritten_append, overwritten, List.foldl_cons, if_pos rfl]
  exact overwritten_of_not_mem behind _

namespace Wrote

variable {writes more : List (Location × List UInt8)} {before middle after : Disk}

theorem nil (disk : Disk) : Wrote [] disk disk :=
  ⟨rfl, fun _ member => absurd member List.not_mem_nil, fun _ => rfl⟩

theorem single {path : Path} {bytes : List UInt8} (grounded : before.Grounded)
    (written : before.write path bytes = .ok after) :
    Wrote [(before.location path, bytes)] before after := by
  obtain ⟨current, free, node?⟩ := node?_write grounded written
  exact ⟨current, List.forall_mem_singleton.mpr free, node?⟩

theorem folder (wrote : Wrote writes before after) {location : Location}
    (there : before.node? location = some .folder) : after.node? location = some .folder := by
  rw [wrote.node?, overwritten_of_not_mem, there]
  intro inside
  obtain ⟨write, member, rfl⟩ := List.mem_map.mp inside
  exact wrote.free write member there

theorem changedWithin (wrote : Wrote writes before after) :
    ChangedWithin (writes.map Prod.fst) before after where
  current := wrote.current
  folder _ there := wrote.folder there
  same location outside := by rw [wrote.node?, overwritten_of_not_mem outside]

theorem append (first : Wrote writes before middle) (second : Wrote more middle after) :
    Wrote (writes ++ more) before after where
  current := second.current.trans first.current
  free := by
    rw [List.forall_mem_append]
    refine ⟨first.free, ?_⟩
    intro write member there
    exact second.free write member (first.folder there)
  node? location := by rw [second.node?, first.node?, overwritten_append]

end Wrote

end Wrote

section FoldersMade

/-- Folders have been put in at some of the given locations, where nothing was. -/
structure FoldersMade (locations : List Location) (before after : Disk) : Prop where
  current : after.current = before.current
  node? : ∀ location, after.node? location = before.node? location ∨
    location ∈ locations ∧ before.node? location = none ∧ after.node? location = some .folder

namespace FoldersMade

variable {locations more : List Location} {before middle after : Disk}

theorem refl (locations : List Location) (disk : Disk) : FoldersMade locations disk disk :=
  ⟨rfl, fun _ => .inl rfl⟩

theorem trans (first : FoldersMade locations before middle)
    (second : FoldersMade locations middle after) : FoldersMade locations before after where
  current := second.current.trans first.current
  node? location := by
    obtain same | ⟨inside, nothing, there⟩ := second.node? location
    · rw [same]
      exact first.node? location
    · obtain same | ⟨-, -, there⟩ := first.node? location
      · exact .inr ⟨inside, same.symm.trans nothing, there⟩
      · rw [nothing] at there
        contradiction

theorem mono (made : FoldersMade locations before after) (within : locations ⊆ more) :
    FoldersMade more before after where
  current := made.current
  node? location := (made.node? location).imp_right fun ⟨inside, rest⟩ => ⟨within inside, rest⟩

theorem folder (made : FoldersMade locations before after) {location : Location}
    (there : before.node? location = some .folder) : after.node? location = some .folder := by
  obtain same | ⟨-, nothing, -⟩ := made.node? location
  · rw [same, there]
  · rw [nothing] at there
    contradiction

theorem changedWithin (made : FoldersMade locations before after) :
    ChangedWithin (locations.filter fun location => before.node? location = none) before after where
  current := made.current
  folder _ there := made.folder there
  same location outside := by
    obtain same | ⟨inside, nothing, -⟩ := made.node? location
    · exact same
    · exact absurd (List.mem_filter.mpr ⟨inside, by simpa using nothing⟩) outside

theorem grounded (made : FoldersMade locations before after) (grounded : before.Grounded) :
    after.Grounded :=
  made.changedWithin.grounded grounded

end FoldersMade

variable {disk after : Disk} {path : Path} {outcome : Except FileError Unit}

theorem foldersMade_makeFolder (grounded : disk.Grounded)
    (made : disk.makeFolder path = .ok after) : FoldersMade (disk.route path) disk after := by
  obtain ⟨current, nothing, node?⟩ := node?_makeFolder grounded made
  refine ⟨current, ?_⟩
  intro location
  rw [node?]
  split
  next here =>
    subst here
    exact .inr ⟨location_mem_route disk path, nothing, rfl⟩
  next => exact .inl rfl

theorem isFolder_iff : disk.isFolder path = true ↔ disk.find path = .ok .folder := by
  rw [isFolder]
  split
  next found => simp [found]
  next other => simpa using other

/-- An attempt to make a folder that is settled puts in nothing else, and leaves a row of folders if
it succeeds. -/
theorem settle_makeFolder (grounded : disk.Grounded)
    (settled : disk.settle path (disk.makeFolder path) = (outcome, after)) :
    FoldersMade (disk.route path) disk after ∧
      (outcome = .ok () → ∀ location ∈ disk.route path, after.node? location = some .folder) := by
  cases made : disk.makeFolder path with
  | ok next =>
    rw [made] at settled
    obtain ⟨rfl, rfl⟩ := Prod.mk.inj settled
    refine ⟨foldersMade_makeFolder grounded made, ?_⟩
    intro _ location onRoute
    exact isFolder_of_makeFolder grounded made onRoute
  | error error =>
    rw [made] at settled
    obtain ⟨rfl, rfl⟩ := Prod.mk.inj settled
    refine ⟨.refl _ _, ?_⟩
    intro success location onRoute
    have isFolder : disk.isFolder path = true := by
      by_contra missing
      simp [missing] at success
    exact isFolder_of_find grounded (isFolder_iff.mp isFolder) onRoute

/-- Making a folder and those that it lies in puts in folders on the routes of their paths and
nothing else, and leaves a row of folders if it succeeds. -/
theorem makeNested_spec {paths : List Path} {locations : List Location}
    (grounded : disk.Grounded) (within : ∀ path ∈ paths, disk.route path ⊆ locations)
    (ran : disk.makeNested paths = (outcome, after)) :
    FoldersMade locations disk after ∧
      (outcome = .ok () → ∀ path ∈ paths.head?, ∀ location ∈ disk.route path,
        after.node? location = some .folder) := by
  induction paths generalizing outcome after with
  | nil =>
    obtain ⟨rfl, rfl⟩ := Prod.mk.inj ran
    exact ⟨.refl _ _, fun _ _ none => by simp at none⟩
  | cons path ancestors ih =>
    obtain ⟨here, above⟩ := List.forall_mem_cons.mp within
    rw [makeNested] at ran
    split at ran
    · split at ran
      next middle nested =>
        -- The folders above were missing, so the attempt is repeated on the disk that has them.
        obtain ⟨made, -⟩ := ih above nested
        obtain ⟨settled, paved⟩ := settle_makeFolder (made.grounded grounded) ran
        rw [route_congr made.current] at settled paved
        refine ⟨made.trans (settled.mono here), ?_⟩
        intro success
        simpa using paved success
      next error middle nested =>
        obtain ⟨rfl, rfl⟩ := Prod.mk.inj ran
        exact ⟨(ih above nested).1, by simp⟩
    · obtain ⟨settled, paved⟩ := settle_makeFolder grounded ran
      refine ⟨settled.mono here, ?_⟩
      intro success
      simpa using paved success

theorem route_of_isEmpty (disk : Disk) {path : Path} (empty : path.text.isEmpty) :
    disk.route path = [disk.current] := by
  obtain ⟨text⟩ := path
  obtain rfl : text = "" := String.isEmpty_iff.mp empty
  simp [route, Path.names_empty, follow, start, Path.isAbsolute]

/-- Making the folder of a path puts in folders on its route and nothing else, and leaves a row of
folders if it succeeds. -/
theorem makeFolders_spec (grounded : disk.Grounded)
    (ran : disk.makeFolders path = (outcome, after)) :
    FoldersMade (disk.route path) disk after ∧
      (outcome = .ok () → ∀ location ∈ disk.route path, after.node? location = some .folder) := by
  rw [makeFolders] at ran
  split at ran
  next empty =>
    obtain ⟨rfl, rfl⟩ := Prod.mk.inj ran
    refine ⟨.refl _ _, ?_⟩
    rw [route_of_isEmpty disk empty]
    intro _ location here
    rw [List.mem_singleton.mp here]
    exact grounded
  next =>
    have within : ∀ nested ∈ path :: path.ancestors, disk.route nested ⊆ disk.route path := by
      rw [List.forall_mem_cons]
      exact ⟨List.Subset.refl _, fun _ member => route_subset_of_mem_ancestors member⟩
    obtain ⟨made, paved⟩ := makeNested_spec grounded within ran
    refine ⟨made, ?_⟩
    intro success
    exact paved success path rfl

end FoldersMade

end ScriptDelta.Disk
