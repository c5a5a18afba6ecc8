import Mathlib.Data.List.Count
import Mathlib.Data.List.Nodup
import Mathlib.Data.List.Perm.Basic
import ScriptDelta.Comparison
import ScriptDelta.Proofs.Catalog.Lookup

/-! # A comparison is a partition

What the two lookups of a key find decides in which of the four lists the key is, and how often: once
in one of them if some catalog has it, and nowhere otherwise. Each list is a part of the keys of one
catalog, which are in strictly increasing order, so a list is known once it is known what is in it.
The sizes of the lists and the comparison in the other direction follow from that.
-/

namespace ScriptDelta

namespace Table

variable {α κ : Type} [LT κ] [LE κ] [Std.IsLinearOrder κ] [Std.LawfulOrderLT κ] {key : α → κ}

omit [Std.IsLinearOrder κ] in
/-- A key that is kept is listed once. -/
theorem count_filter_keys [DecidableEq κ] (table : Table key) (keep : κ → Bool) (k : κ) :
    (table.keys.filter keep).count k = if table.contains k && keep k then 1 else 0 := by
  rw [List.Nodup.count (table.nodup_keys.filter keep)]
  simp only [List.mem_filter, mem_keys_iff, Bool.and_eq_true]

/-- Lists in strictly increasing order in which every key is as often are equal. -/
theorem eq_of_sorted_of_count [DecidableEq κ] {left right : List κ}
    (leftSorted : left.Pairwise (· < ·)) (rightSorted : right.Pairwise (· < ·))
    (same : ∀ k, left.count k = right.count k) : left = right := by
  apply (List.perm_iff_count.mpr same).eq_of_pairwise _ leftSorted rightSorted
  intro a b _ _ below above
  exact absurd (Std.lt_trans below above) Std.lt_irrefl

end Table

/-- Every definition of a text has the digest of its body. -/
theorem Catalog.digest_of_get? {text key : String} {definition : Definition}
    (found : (ofText text).get? key = some definition) :
    definition.digest = Text.digest (Text.normalize definition.body) := by
  obtain ⟨finding, -, -, rfl⟩ := exists_finding_of_get? found
  rfl

/-- The comparison in the other direction. -/
def Comparison.swap (comparison : Comparison) : Comparison where
  added := comparison.removed
  removed := comparison.added
  changed := comparison.changed
  unchanged := comparison.unchanged

/-- All keys that a comparison lists. -/
def Comparison.listed (comparison : Comparison) : List String :=
  comparison.added ++ comparison.removed ++ comparison.changed ++ comparison.unchanged

/-- The four lists are in strictly increasing order, every key of either catalog is listed exactly
once and no other key is, and what the catalogs have under a key decides in which list it is. -/
structure Comparison.Classifies (comparison : Comparison) (old new : Catalog) : Prop where
  sorted_added : comparison.added.Pairwise (· < ·)
  sorted_removed : comparison.removed.Pairwise (· < ·)
  sorted_changed : comparison.changed.Pairwise (· < ·)
  sorted_unchanged : comparison.unchanged.Pairwise (· < ·)
  count_listed : ∀ key,
    comparison.listed.count key = if old.contains key || new.contains key then 1 else 0
  mem_added_iff : ∀ key,
    key ∈ comparison.added ↔ old.contains key = false ∧ new.contains key = true
  mem_removed_iff : ∀ key,
    key ∈ comparison.removed ↔ old.contains key = true ∧ new.contains key = false
  mem_changed_iff : ∀ key, key ∈ comparison.changed ↔
    ∃ before after, old.get? key = some before ∧ new.get? key = some after ∧
      before.digest ≠ after.digest
  mem_unchanged_iff : ∀ key, key ∈ comparison.unchanged ↔
    ∃ before after, old.get? key = some before ∧ new.get? key = some after ∧
      before.digest = after.digest

namespace Revision

variable (revision : Revision) (key : String)

theorem count_added : revision.comparison.added.count key =
    if revision.new.contains key && !revision.old.contains key then 1 else 0 :=
  Table.count_filter_keys ..

theorem count_removed : revision.comparison.removed.count key =
    if revision.old.contains key && !revision.new.contains key then 1 else 0 :=
  Table.count_filter_keys ..

/-- Digests are compared under the keys that both catalogs have. -/
theorem isSome_agree? : (revision.agree? key).isSome =
    (revision.old.contains key && revision.new.contains key) := by
  simp only [agree?, Table.contains]
  cases revision.old.get? key with
  | none => rfl
  | some before => cases revision.new.get? key <;> rfl

theorem count_keys_agree (agreed : Bool) :
    (revision.old.keys.filter fun key => revision.agree? key == some agreed).count key =
      if revision.agree? key = some agreed then 1 else 0 := by
  rw [Table.count_filter_keys]
  have both := revision.isSome_agree? key
  cases compared : revision.agree? key with
  | none => simp
  | some found =>
    have held : revision.old.contains key = true := by simp_all
    simp [held]

theorem count_changed : revision.comparison.changed.count key =
    if revision.agree? key = some false then 1 else 0 :=
  revision.count_keys_agree key false

theorem count_unchanged : revision.comparison.unchanged.count key =
    if revision.agree? key = some true then 1 else 0 :=
  revision.count_keys_agree key true

/-- Every key is listed once if one of the catalogs has it, and otherwise not at all. -/
theorem count_listed : revision.comparison.listed.count key =
    if revision.old.contains key || revision.new.contains key then 1 else 0 := by
  simp only [Comparison.listed, List.count_append, count_added, count_removed, count_changed,
    count_unchanged]
  have both := revision.isSome_agree? key
  cases compared : revision.agree? key with
  | none =>
    cases old : revision.old.contains key <;> cases new : revision.new.contains key <;> simp_all
  | some agreed => cases agreed <;> simp_all

theorem agree?_eq_some_iff (agreed : Bool) : revision.agree? key = some agreed ↔
    ∃ before after, revision.old.get? key = some before ∧ revision.new.get? key = some after ∧
      (before.digest == after.digest) = agreed := by
  simp [agree?, Option.bind_eq_some_iff]

/-- The keys of the new catalog are those added, changed and unchanged. -/
theorem perm_keys_new : (revision.comparison.added ++ (revision.comparison.changed ++
    revision.comparison.unchanged)).Perm revision.new.keys := by
  apply List.perm_iff_count.mpr
  intro key
  rw [List.Nodup.count revision.new.nodup_keys]
  simp only [List.count_append, count_added, count_changed, count_unchanged, Table.mem_keys_iff]
  have both := revision.isSome_agree? key
  cases compared : revision.agree? key with
  | none =>
    cases old : revision.old.contains key <;> cases new : revision.new.contains key <;> simp_all
  | some agreed => cases agreed <;> simp_all

/-- In the other direction a key agrees just the same. -/
theorem agree?_swap : (mk revision.new revision.old).agree? key = revision.agree? key := by
  simp only [agree?]
  cases revision.old.get? key with
  | none => cases revision.new.get? key <;> rfl
  | some before =>
    cases revision.new.get? key with
    | none => rfl
    | some after => simp [Bool.beq_comm]

theorem classifies : revision.comparison.Classifies revision.old revision.new where
  sorted_added := revision.new.sorted_keys.filter _
  sorted_removed := revision.old.sorted_keys.filter _
  sorted_changed := revision.old.sorted_keys.filter _
  sorted_unchanged := revision.old.sorted_keys.filter _
  count_listed := revision.count_listed
  mem_added_iff key := by
    rw [← List.count_pos_iff, count_added]
    cases revision.old.contains key <;> cases revision.new.contains key <;> simp
  mem_removed_iff key := by
    rw [← List.count_pos_iff, count_removed]
    cases revision.old.contains key <;> cases revision.new.contains key <;> simp
  mem_changed_iff key := by
    rw [← List.count_pos_iff, count_changed]
    simpa [Nat.pos_iff_ne_zero] using revision.agree?_eq_some_iff key false
  mem_unchanged_iff key := by
    rw [← List.count_pos_iff, count_unchanged]
    simpa [Nat.pos_iff_ne_zero] using revision.agree?_eq_some_iff key true

/-- The comparison in the other direction has added and removed exchanged. -/
theorem comparison_swap :
    (mk revision.new revision.old).comparison = revision.comparison.swap := by
  have sorted := revision.classifies
  have sortedBack := (mk revision.new revision.old).classifies
  have changed : (mk revision.new revision.old).comparison.changed =
      revision.comparison.changed := by
    apply Table.eq_of_sorted_of_count sortedBack.sorted_changed sorted.sorted_changed
    intro key
    rw [count_changed, count_changed, agree?_swap]
  have unchanged : (mk revision.new revision.old).comparison.unchanged =
      revision.comparison.unchanged := by
    apply Table.eq_of_sorted_of_count sortedBack.sorted_unchanged sorted.sorted_unchanged
    intro key
    rw [count_unchanged, count_unchanged, agree?_swap]
  calc (mk revision.new revision.old).comparison
      = ⟨revision.comparison.removed, revision.comparison.added,
          (mk revision.new revision.old).comparison.changed,
          (mk revision.new revision.old).comparison.unchanged⟩ := rfl
    _ = revision.comparison.swap := by rw [changed, unchanged, Comparison.swap]

end Revision

/-- A comparison puts every key of two catalogs in the one list where it belongs, in order; so the
lists add up to the sizes of the catalogs, and in the other direction what was added is removed.
For the catalogs of two texts, a key that both have is unchanged exactly if the normalized bodies
have the same digest. -/
theorem comparison_partitions :
    (∀ revision : Revision,
      revision.comparison.Classifies revision.old revision.new ∧
      revision.tally.added + revision.tally.changed + revision.tally.unchanged =
        revision.new.size ∧
      revision.tally.removed + revision.tally.changed + revision.tally.unchanged =
        revision.old.size ∧
      (Revision.mk revision.new revision.old).comparison = revision.comparison.swap) ∧
    ∀ oldText newText key,
      key ∈ (Revision.mk (.ofText oldText) (.ofText newText)).comparison.unchanged ↔
        ∃ before after, (Catalog.ofText oldText).get? key = some before ∧
          (Catalog.ofText newText).get? key = some after ∧
          Text.digest (Text.normalize before.body) = Text.digest (Text.normalize after.body) := by
  have newSize (revision : Revision) : revision.tally.added + revision.tally.changed +
      revision.tally.unchanged = revision.new.size := by
    have length := revision.perm_keys_new.length_eq
    simp only [List.length_append, Table.keys, List.length_map] at length
    simp only [Revision.tally, Comparison.tally, Table.size]
    omega
  refine ⟨fun revision => ⟨revision.classifies, newSize revision, ?_, revision.comparison_swap⟩, ?_⟩
  · have oldSize := newSize ⟨revision.new, revision.old⟩
    rwa [Revision.tally, Revision.comparison_swap] at oldSize
  · intro oldText newText key
    have classified := Revision.classifies ⟨.ofText oldText, .ofText newText⟩
    apply (classified.mem_unchanged_iff key).trans
    dsimp only
    apply exists_congr
    intro before
    apply exists_congr
    intro after
    apply and_congr_right
    intro found
    apply and_congr_right
    intro foundNew
    exact Eq.congr (Catalog.digest_of_get? found) (Catalog.digest_of_get? foundNew)

end ScriptDelta
