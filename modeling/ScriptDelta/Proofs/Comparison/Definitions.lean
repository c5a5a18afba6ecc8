import ScriptDelta.Proofs.Comparison.Partition

/-! # The definitions behind a comparison

Every key in a list of a comparison has its definitions in the catalogs. So the definitions that are
added, removed and changed have the keys of these lists, in the same order, and there are as many as
the tally says (`Revision.accounted`).
-/

namespace ScriptDelta

/-- What is found under some keys, and tells its key, tells the keys. -/
theorem map_filterMap_eq {α β : Type} {find? : α → Option β} {key : β → α} {keys : List α}
    (tells : ∀ k item, find? k = some item → key item = k)
    (held : ∀ k ∈ keys, (find? k).isSome = true) : (keys.filterMap find?).map key = keys := by
  induction keys with
  | nil => rfl
  | cons k keys ih =>
    obtain ⟨here, further⟩ := List.forall_mem_cons.mp held
    obtain ⟨item, found⟩ := Option.isSome_iff_exists.mp here
    rw [List.filterMap_cons_some found, List.map_cons, ih further, tells k item found]

/-- What is found under some keys of a catalog is what the catalog has under its own key. -/
theorem Catalog.mem_filterMap_get?_iff {catalog : Catalog} {keys : List String}
    {definition : Definition} : definition ∈ keys.filterMap catalog.get? ↔
      definition.key ∈ keys ∧ catalog.get? definition.key = some definition := by
  rw [List.mem_filterMap]
  constructor
  · rintro ⟨key, member, found⟩
    rw [Table.key_of_get? found]
    exact ⟨member, found⟩
  · rintro ⟨member, found⟩
    exact ⟨definition.key, member, found⟩

theorem Catalog.get?_of_mem_filterMap {catalog : Catalog} {keys : List String}
    {definition : Definition} (member : definition ∈ keys.filterMap catalog.get?) :
    catalog.get? definition.key = some definition :=
  (mem_filterMap_get?_iff.mp member).2

namespace Revision

variable (revision : Revision)

theorem map_key_added : revision.added.map Definition.key = revision.comparison.added := by
  apply map_filterMap_eq
  · exact fun _ _ found => Table.key_of_get? found
  · exact fun key member => ((revision.classifies.mem_added_iff key).mp member).2

theorem map_key_removed : revision.removed.map Definition.key = revision.comparison.removed := by
  apply map_filterMap_eq
  · exact fun _ _ found => Table.key_of_get? found
  · exact fun key member => ((revision.classifies.mem_removed_iff key).mp member).1

/-- Both versions of a changed definition are what the catalogs have under one key, and their
digests are different. -/
theorem of_mem_changed {old new : Definition} (member : (old, new) ∈ revision.changed) :
    revision.old.get? old.key = some old ∧ revision.new.get? old.key = some new ∧
      old.digest ≠ new.digest := by
  obtain ⟨key, isChanged, found⟩ := List.mem_filterMap.mp member
  simp only [bind, Option.bind_eq_some_iff] at found
  obtain ⟨before, foundOld, after, foundNew, same⟩ := found
  obtain ⟨rfl, rfl⟩ := Prod.mk.inj (Option.some.inj same)
  obtain ⟨old, new, isOld, isNew, differ⟩ := (revision.classifies.mem_changed_iff key).mp isChanged
  rw [foundOld, Option.some.injEq] at isOld
  rw [foundNew, Option.some.injEq] at isNew
  subst isOld isNew
  rw [Table.key_of_get? foundOld]
  exact ⟨foundOld, foundNew, differ⟩

theorem map_key_changed :
    revision.changed.map (fun both => both.1.key) = revision.comparison.changed := by
  apply map_filterMap_eq
  · intro key both found
    simp only [bind, Option.bind_eq_some_iff] at found
    obtain ⟨before, foundOld, after, -, same⟩ := found
    obtain rfl := Option.some.inj same
    exact Table.key_of_get? foundOld
  · intro key member
    obtain ⟨before, after, old, new, -⟩ := (revision.classifies.mem_changed_iff key).mp member
    simp [old, new]

/-- The definitions that are added, removed and changed are as many as are counted, in strictly
increasing order of their keys, and those that the catalogs have under these keys. -/
structure Accounted : Prop where
  length_added : revision.added.length = revision.tally.added
  length_removed : revision.removed.length = revision.tally.removed
  length_changed : revision.changed.length = revision.tally.changed
  sorted_added : revision.added.Pairwise fun earlier later => earlier.key < later.key
  sorted_removed : revision.removed.Pairwise fun earlier later => earlier.key < later.key
  sorted_changed : revision.changed.Pairwise fun earlier later => earlier.1.key < later.1.key
  mem_added_iff : ∀ definition, definition ∈ revision.added ↔
    revision.new.get? definition.key = some definition ∧
      revision.old.contains definition.key = false
  mem_removed_iff : ∀ definition, definition ∈ revision.removed ↔
    revision.old.get? definition.key = some definition ∧
      revision.new.contains definition.key = false
  mem_changed_iff : ∀ old new, (old, new) ∈ revision.changed ↔
    revision.old.get? old.key = some old ∧ revision.new.get? old.key = some new ∧
      old.digest ≠ new.digest

theorem accounted : revision.Accounted where
  length_added := by rw [← List.length_map Definition.key, map_key_added]; rfl
  length_removed := by rw [← List.length_map Definition.key, map_key_removed]; rfl
  length_changed := by
    rw [← List.length_map fun both : Definition × Definition => both.1.key, map_key_changed]
    rfl
  sorted_added := List.pairwise_map.mp (revision.map_key_added ▸ revision.classifies.sorted_added)
  sorted_removed :=
    List.pairwise_map.mp (revision.map_key_removed ▸ revision.classifies.sorted_removed)
  sorted_changed :=
    List.pairwise_map.mp (revision.map_key_changed ▸ revision.classifies.sorted_changed)
  mem_added_iff definition := by
    rw [added, Catalog.mem_filterMap_get?_iff, revision.classifies.mem_added_iff]
    constructor
    · rintro ⟨⟨absent, -⟩, found⟩
      exact ⟨found, absent⟩
    · rintro ⟨found, absent⟩
      exact ⟨⟨absent, Option.isSome_iff_exists.mpr ⟨definition, found⟩⟩, found⟩
  mem_removed_iff definition := by
    rw [removed, Catalog.mem_filterMap_get?_iff, revision.classifies.mem_removed_iff]
    constructor
    · rintro ⟨⟨-, absent⟩, found⟩
      exact ⟨found, absent⟩
    · rintro ⟨found, absent⟩
      exact ⟨⟨Option.isSome_iff_exists.mpr ⟨definition, found⟩, absent⟩, found⟩
  mem_changed_iff old new := by
    refine ⟨revision.of_mem_changed, ?_⟩
    rintro ⟨foundOld, foundNew, differ⟩
    have isChanged := (revision.classifies.mem_changed_iff old.key).mpr
      ⟨old, new, foundOld, foundNew, differ⟩
    exact List.mem_filterMap.mpr ⟨old.key, isChanged, by simp [foundOld, foundNew]⟩

end Revision

end ScriptDelta
