import Mathlib.Algebra.Ring.Nat
import Mathlib.Data.List.Nodup
import Mathlib.Data.List.Perm.Basic
import ScriptDelta.Proofs.Catalog.Lookup
import ScriptDelta.Proofs.Run.Forecast

/-! # The summary of a run

The summary that the files of some pairs make has a row for every pair with both versions and an
entry for every other one, in the order of the plan. A plan that arguments make names every tag
once (`nodup_tags`), so no row replaces another: every tag of the plan is in the summary exactly
once (`perm_tags_account`). The total adds up the rows field by field (`total_eq`).
-/

namespace ScriptDelta

namespace Table

variable {α κ : Type} [LT κ] [LE κ] [Std.IsLinearOrder κ] [Std.LawfulOrderLT κ] [DecidableLT κ]
  [DecidableEq κ] {key : α → κ}

/-- Rows with different keys are all kept. -/
theorem mem_rows_ofList {rows : List α} (distinct : (rows.map key).Nodup) {row : α} :
    row ∈ (ofList rows : Table key).rows ↔ row ∈ rows := by
  have found : row ∈ (ofList rows : Table key).rows ↔
      (ofList rows : Table key).get? (key row) = some row := by
    rw [get?_eq_some_iff]
    exact ⟨fun member => ⟨member, rfl⟩, And.left⟩
  rw [found, get?_ofList]
  constructor
  · intro isLast
    exact List.mem_reverse.mp (List.mem_of_find?_eq_some isLast)
  · intro member
    have isThere : (rows.reverse.find? fun other => key other = key row).isSome := by
      rw [List.find?_isSome]
      exact ⟨row, List.mem_reverse.mpr member, by simp⟩
    obtain ⟨other, isLast⟩ := Option.isSome_iff_exists.mp isThere
    have sameKey : key other = key row := by simpa using List.find?_some isLast
    have otherMember := List.mem_reverse.mp (List.mem_of_find?_eq_some isLast)
    rw [isLast, List.inj_on_of_nodup_map distinct otherMember member sameKey]

/-- The keys of a table are those of the rows that were written, each once. -/
theorem perm_keys_ofList {rows : List α} (distinct : (rows.map key).Nodup) :
    (ofList rows : Table key).keys.Perm (rows.map key) := by
  apply (List.perm_ext_iff_of_nodup (nodup_keys _) distinct).mpr
  intro k
  simp only [keys, List.mem_map, mem_rows_ofList distinct]

end Table

namespace Tally

/-- Tallies are added up field by field. -/
theorem sum_eq (tallies : List Tally) :
    sum tallies = ⟨(tallies.map Tally.added).sum, (tallies.map Tally.removed).sum,
      (tallies.map Tally.changed).sum, (tallies.map Tally.unchanged).sum⟩ := by
  have onward (start : Tally) : tallies.foldl (· + ·) start =
      ⟨start.added + (tallies.map Tally.added).sum, start.removed + (tallies.map Tally.removed).sum,
        start.changed + (tallies.map Tally.changed).sum,
        start.unchanged + (tallies.map Tally.unchanged).sum⟩ := by
    induction tallies generalizing start with
    | nil => rfl
    | cons tally rest ih =>
      rw [List.foldl_cons, ih]
      change (⟨start.added + tally.added + _, start.removed + tally.removed + _,
        start.changed + tally.changed + _, start.unchanged + tally.unchanged + _⟩ : Tally) = _
      simp only [List.map_cons, List.sum_cons, Nat.add_assoc]
  rw [sum, onward]
  simp [zero]

end Tally

namespace Plan

/-- No tag is found a second time if all are different, and different from those seen before. -/
theorem firstRepeated?_eq_none_iff {seen tags : List String} :
    firstRepeated? seen tags = none ↔ tags.Nodup ∧ ∀ tag ∈ tags, tag ∉ seen := by
  induction tags generalizing seen with
  | nil => simp [firstRepeated?]
  | cons tag rest ih =>
    rw [firstRepeated?]
    by_cases known : tag ∈ seen
    · simp [known]
    · simp only [List.contains_iff_mem, known, if_false, ih, List.nodup_cons,
        List.forall_mem_cons, not_false_eq_true, true_and]
      constructor
      · rintro ⟨distinct, fresh⟩
        refine ⟨⟨?_, distinct⟩, ?_⟩
        · intro again
          exact fresh tag again (List.mem_cons_self ..)
        · intro other member seenBefore
          exact fresh other member (List.mem_cons_of_mem _ seenBefore)
      · rintro ⟨⟨once, distinct⟩, fresh⟩
        refine ⟨distinct, ?_⟩
        intro other member known
        obtain rfl | seenBefore := List.mem_cons.mp known
        · exact once member
        · exact fresh other member seenBefore

/-- The pairs of a plan that arguments make have different tags. -/
theorem nodup_tags {arguments : Arguments} {plan : Plan}
    (planned : ofArguments arguments = .ok plan) : (plan.pairs.map FilePair.tag).Nodup := by
  rw [ofArguments] at planned
  split at planned
  · contradiction
  · obtain ⟨ignore, -, planned⟩ := bind_eq_ok_iff.mp planned
    obtain ⟨pairs, -, planned⟩ := bind_eq_ok_iff.mp planned
    split at planned
    · contradiction
    next unrepeated =>
      obtain rfl := Except.ok.inj planned
      exact (firstRepeated?_eq_none_iff.mp (Option.eq_none_iff_forall_ne_some.mpr unrepeated)).1

theorem map_tag_rows (plan : Plan) (disk : Disk) (pairs : List FilePair) :
    (pairs.filterMap (plan.row? disk)).map Prod.fst =
      (pairs.filter fun pair => (disk.missing? pair).isNone).map FilePair.tag := by
  induction pairs with
  | nil => rfl
  | cons pair pairs ih =>
    have both := plan.isSome_revision? disk pair
    rw [List.filter_cons, ← both]
    cases found : plan.revision? disk pair <;> simp [row?, found, ih]

theorem map_tag_skipped (disk : Disk) (pairs : List FilePair) :
    (pairs.filterMap disk.skipped?).map Skipped.tag =
      (pairs.filter fun pair => !(disk.missing? pair).isNone).map FilePair.tag := by
  induction pairs with
  | nil => rfl
  | cons pair pairs ih =>
    rw [List.filter_cons]
    cases lacks : disk.missing? pair <;> simp [Disk.skipped?, lacks, ih]

/-- The summary that the files of some pairs make. -/
theorem account_empty (plan : Plan) (disk : Disk) (pairs : List FilePair) :
    plan.account disk .empty pairs =
      ⟨.ofList (pairs.filterMap (plan.row? disk)), pairs.filterMap disk.skipped?⟩ := by
  rw [account, Summary.empty, List.nil_append, Table.ofList]

variable {pairs : List FilePair} (distinct : (pairs.map FilePair.tag).Nodup)

include distinct

theorem nodup_tags_rows (plan : Plan) (disk : Disk) :
    ((pairs.filterMap (plan.row? disk)).map Prod.fst).Nodup := by
  rw [map_tag_rows]
  exact distinct.sublist (List.filter_sublist.map FilePair.tag)

/-- The summary has a row exactly for the pairs with both versions. -/
theorem mem_rows_account (plan : Plan) (disk : Disk) {row : String × Tally} :
    row ∈ (plan.account disk .empty pairs).pairs.rows ↔
      ∃ pair ∈ pairs, ∃ revision, plan.revision? disk pair = some revision ∧
        row = (pair.tag, revision.tally) := by
  rw [account_empty, Table.mem_rows_ofList (nodup_tags_rows distinct plan disk)]
  simp only [List.mem_filterMap, row?, Option.map_eq_some_iff, @eq_comm _ row]

/-- Every tag is in the summary once, with a row or among the skipped pairs. -/
theorem perm_tags_account (plan : Plan) (disk : Disk) :
    ((plan.account disk .empty pairs).pairs.keys ++
      (plan.account disk .empty pairs).skipped.map Skipped.tag).Perm (pairs.map FilePair.tag) := by
  rw [account_empty]
  have rows := Table.perm_keys_ofList (nodup_tags_rows distinct plan disk)
  refine (rows.append_right _).trans ?_
  rw [map_tag_rows, map_tag_skipped, ← List.map_append]
  exact (List.filter_append_perm _ pairs).map FilePair.tag

end Plan

end ScriptDelta
