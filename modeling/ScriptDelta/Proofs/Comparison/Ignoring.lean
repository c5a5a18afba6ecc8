import ScriptDelta.Proofs.Comparison.Partition
import ScriptDelta.Proofs.Run.Steps

/-! # Ignored definitions

Definitions are ignored by their keys, on both sides of a comparison. So a lookup of a key that is
kept finds what it found before, and the comparison is the one of all definitions with the ignored
keys taken out of its lists (`Revision.comparison_without`). What matters of some patterns is only
which keys one of them accepts.
-/

namespace ScriptDelta

namespace Table

variable {α κ : Type} [LT κ] {key : α → κ}

theorem filter_eq_iff {table other : Table key} {keep : α → Bool} :
    table.filter keep = other ↔ other.rows = table.rows.filter keep := by
  constructor
  · rintro rfl
    rfl
  · intro kept
    exact ext_rows kept.symm

/-- Rows kept by their keys have the keys that are kept. -/
theorem keys_filter_key (table : Table key) (keep : κ → Bool) :
    (table.filter fun row => keep (key row)).keys = table.keys.filter keep := by
  rw [keys, keys, filter, List.filter_map]
  rfl

variable [LE κ] [Std.LawfulOrderLT κ] [DecidableEq κ]

/-- A lookup of a key that is kept finds what it found before. -/
theorem get?_filter_key (table : Table key) (keep : κ → Bool) (k : κ) :
    (table.filter fun row => keep (key row)).get? k = if keep k then table.get? k else none := by
  rw [get?_filter]
  cases found : table.get? k with
  | none => simp
  | some row =>
    rw [Option.filter_some, key_of_get? found]

theorem contains_filter_key (table : Table key) (keep : κ → Bool) (k : κ) :
    (table.filter fun row => keep (key row)).contains k = (keep k && table.contains k) := by
  rw [contains, get?_filter_key]
  cases keep k <;> rfl

end Table

/-- The comparison without the ignored keys, in the same order. -/
def Comparison.without (comparison : Comparison) (ignored : String → Bool) : Comparison where
  added := comparison.added.filter fun key => !ignored key
  removed := comparison.removed.filter fun key => !ignored key
  changed := comparison.changed.filter fun key => !ignored key
  unchanged := comparison.unchanged.filter fun key => !ignored key

theorem Comparison.listed_without (comparison : Comparison) (ignored : String → Bool) :
    (comparison.without ignored).listed = comparison.listed.filter fun key => !ignored key := by
  simp only [listed, without, List.filter_append]

namespace Revision

variable (revision : Revision) (ignored : String → Bool)

/-- Digests are compared under the keys that are kept, as before. -/
theorem agree?_without (key : String) : (revision.without ignored).agree? key =
    if ignored key then none else revision.agree? key := by
  have old := revision.old.get?_filter_key (fun key => !ignored key) key
  have new := revision.new.get?_filter_key (fun key => !ignored key) key
  simp only [agree?, without, old, new]
  cases ignored key <;> rfl

/-- Taking out the ignored definitions before the comparison is taking out their keys after it. -/
theorem comparison_without :
    (revision.without ignored).comparison = revision.comparison.without ignored := by
  have keys (catalog : Catalog) := catalog.keys_filter_key fun key => !ignored key
  have contains (catalog : Catalog) := catalog.contains_filter_key fun key => !ignored key
  have others (one other : Catalog) :
      ((one.keys.filter fun key => !ignored key).filter fun key =>
          !(other.filter fun definition => !ignored definition.key).contains key) =
        (one.keys.filter fun key => !other.contains key).filter fun key => !ignored key := by
    rw [List.filter_filter, List.filter_filter]
    apply List.filter_congr
    intro key _
    rw [contains]
    cases ignored key <;> simp
  have agree (agreed : Bool) :
      ((revision.old.keys.filter fun key => !ignored key).filter fun key =>
          (revision.without ignored).agree? key == some agreed) =
        (revision.old.keys.filter fun key => revision.agree? key == some agreed).filter fun key =>
          !ignored key := by
    rw [List.filter_filter, List.filter_filter]
    apply List.filter_congr
    intro key _
    rw [agree?_without]
    cases ignored key <;> simp
  have old : (revision.without ignored).old.keys = revision.old.keys.filter fun key =>
    !ignored key := keys revision.old
  have new : (revision.without ignored).new.keys = revision.new.keys.filter fun key =>
    !ignored key := keys revision.new
  simp only [comparison, Comparison.without, old, new, agree]
  congr 1
  · exact others revision.new revision.old
  · exact others revision.old revision.new

/-- If nothing is ignored, nothing is taken out. -/
theorem without_of_forall {revision : Revision} {ignored : String → Bool}
    (kept : ∀ key, ignored key = false) : revision.without ignored = revision := by
  have whole (catalog : Catalog) :
      catalog.filter (fun definition => !ignored definition.key) = catalog := by
    apply Table.ext_rows
    exact List.filter_eq_self.mpr fun definition _ => by simp [kept]
  rw [without, whole, whole]

end Revision

/-- Some pattern of a list accepts the key. -/
def ignoredBy {π : Type} (accepts : π → String → Bool) (patterns : List π) (key : String) : Bool :=
  patterns.any fun pattern => accepts pattern key

/-- The order of patterns, and how often one is given, does not matter. -/
theorem ignoredBy_congr {π : Type} (accepts : π → String → Bool) {patterns others : List π}
    (same : ∀ pattern, pattern ∈ others ↔ pattern ∈ patterns) :
    ignoredBy accepts others = ignoredBy accepts patterns := by
  funext key
  rw [Bool.eq_iff_iff, ignoredBy, ignoredBy, List.any_eq_true, List.any_eq_true]
  simp only [same]

/-- The text of the file that a path leads to, if there is one. -/
def Disk.text? (disk : Disk) (path : Path) : Option String :=
  (disk.bytes? path).map fun bytes => String.ofList (Text.decode bytes)

theorem Disk.catalog?_eq (disk : Disk) (path : Path) :
    disk.catalog? path = (disk.text? path).map Catalog.ofText := by
  simp only [catalog?, text?, Option.map_map, Function.comp_def]

theorem Disk.catalog?_of_text? {disk : Disk} {path : Path} {text : String}
    (found : disk.text? path = some text) : disk.catalog? path = some (.ofText text) := by
  rw [catalog?_eq, found, Option.map_some]

/-- A run ignores the keys that some pattern of its plan accepts. -/
theorem Plan.ignores_eq (plan : Plan) : plan.ignores = ignoredBy Glob.accepts plan.ignore :=
  rfl

/-- Two files are compared without the definitions whose keys some pattern accepts; in a run these
are the patterns of its plan. That comparison is the one of all definitions without these keys. So
no ignored key is in a list, every other key stays in the list where it is, and it makes no
difference in which order or how often the patterns are given. Without patterns the comparison is
that of all definitions. -/
theorem ignoring_commutes {π : Type} (accepts : π → String → Bool) (patterns : List π)
    (oldText newText : String) :
    let full : Revision := ⟨.ofText oldText, .ofText newText⟩
    let ignored := ignoredBy accepts patterns
    let kept := full.without ignored
    (∀ (disk : Disk) (pair : FilePair),
      disk.text? pair.old = some oldText → disk.text? pair.new = some newText →
        World.Ends (Run.compare pair ignored) disk (.ok kept) disk) ∧
    (∀ plan : Plan, plan.ignores = ignoredBy Glob.accepts plan.ignore) ∧
    kept.comparison = full.comparison.without ignored ∧
    (∀ key, ignored key = true → key ∉ kept.comparison.listed) ∧
    (∀ key, ignored key = false →
      (key ∈ kept.comparison.added ↔ key ∈ full.comparison.added) ∧
      (key ∈ kept.comparison.removed ↔ key ∈ full.comparison.removed) ∧
      (key ∈ kept.comparison.changed ↔ key ∈ full.comparison.changed) ∧
      (key ∈ kept.comparison.unchanged ↔ key ∈ full.comparison.unchanged)) ∧
    (∀ others : List π, (∀ pattern, pattern ∈ others ↔ pattern ∈ patterns) →
      full.without (ignoredBy accepts others) = kept) ∧
    (if patterns.isEmpty then full else kept) = kept := by
  intro full ignored kept
  have commutes : kept.comparison = full.comparison.without ignored :=
    full.comparison_without ignored
  refine ⟨?_, Plan.ignores_eq, commutes, ?_, ?_, ?_, ?_⟩
  · intro disk pair old new
    exact ends_compare_without (Disk.catalog?_of_text? old) (Disk.catalog?_of_text? new) ignored
  · intro key isIgnored member
    rw [commutes, Comparison.listed_without, List.mem_filter, isIgnored] at member
    exact absurd member.2 (by decide)
  · intro key isKept
    rw [commutes]
    simp only [Comparison.without, List.mem_filter, isKept, Bool.not_false, and_true]
  · intro others same
    rw [ignoredBy_congr accepts same]
  · cases patterns with
    | nil => exact (Revision.without_of_forall fun _ => rfl).symm
    | cons pattern patterns => rfl

end ScriptDelta
