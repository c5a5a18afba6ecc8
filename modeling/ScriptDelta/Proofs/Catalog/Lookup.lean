import Mathlib.Data.List.Basic
import Mathlib.Data.List.Induction
import ScriptDelta.Catalog

/-! # The last finding of a key

Written one after the other, rows of one key replace each other, so a lookup finds the last. In a
catalog a lookup therefore finds the definition of the last finding with the key. The first
letter of a key tells the kind of its definition, so the findings of one search decide.
-/

namespace ScriptDelta

namespace Table

variable {α κ : Type} [LT κ] [LE κ] [Std.IsLinearOrder κ] [Std.LawfulOrderLT κ] [DecidableLT κ]
  [DecidableEq κ] {key : α → κ}

/-- A lookup among rows written in order finds the last one with the key. -/
theorem get?_ofList (rows : List α) (k : κ) :
    (ofList rows : Table key).get? k = rows.reverse.find? fun row => key row = k := by
  induction rows using List.reverseRecOn with
  | nil => rfl
  | append_singleton rows row ih =>
    rw [ofList, List.foldl_append, List.foldl_cons, List.foldl_nil, get?_insert, ← ofList, ih,
      List.reverse_append, List.reverse_singleton, List.singleton_append, List.find?_cons]
    by_cases same : key row = k <;> simp [same]

omit [Std.IsLinearOrder κ] [DecidableLT κ] in
/-- The rows of a table have different keys, so it is the same to look from the end. -/
theorem find?_reverse_rows (table : Table key) (k : κ) :
    (table.rows.reverse.find? fun row => key row = k) = table.get? k := by
  cases found : table.rows.reverse.find? fun row => key row = k with
  | none =>
    rw [List.find?_eq_none] at found
    refine (List.find?_eq_none.mpr fun row member => ?_).symm
    exact found row (List.mem_reverse.mpr member)
  | some row =>
    have member := List.mem_reverse.mp (List.mem_of_find?_eq_some found)
    have same : key row = k := by simpa using List.find?_some found
    exact (get?_eq_some_iff.mpr ⟨member, same⟩).symm

end Table

/-- A lookup finds the definition of the last finding with the key. -/
theorem Catalog.get?_ofFindings (findings : List Finding) (k : String) :
    (ofFindings findings).get? k =
      (findings.reverse.find? fun finding => finding.key = k).map Finding.definition := by
  have keys : ((fun row => decide (Definition.key row = k)) ∘ Finding.definition) =
      fun finding => decide (finding.key = k) := rfl
  rw [ofFindings, Table.get?_ofList, ← List.map_reverse, List.find?_map, keys,
    Table.find?_reverse_rows, Table.get?_ofList]

/-- Every definition of a text was found in it. -/
theorem Catalog.exists_finding_of_get? {text key : String} {definition : Definition}
    (found : (ofText text).get? key = some definition) :
    ∃ finding ∈ Finding.all text.toList, finding.key = key ∧ finding.definition = definition := by
  rw [ofText, get?_ofFindings] at found
  obtain ⟨finding, isLast, made⟩ := Option.map_eq_some_iff.mp found
  have member := List.mem_reverse.mp (List.mem_of_find?_eq_some isLast)
  exact ⟨finding, member, by simpa using List.find?_some isLast, made⟩

namespace Identity

/-- The kinds have key words with different first letters. -/
theorem kind_eq_of_key_eq {identity other : Identity} (same : identity.key = other.key) :
    identity.kind = other.kind := by
  have first (identity : Identity) :
      identity.key.toList.head? = identity.kind.keyWord.toList.head? := by
    obtain ⟨kind, container, name⟩ := identity
    cases kind <;> cases container <;> simp [key, Kind.keyWord, String.toList_append]
  have letters : identity.kind.keyWord.toList.head? = other.kind.keyWord.toList.head? := by
    rw [← first, ← first, same]
  cases own : identity.kind <;> cases others : other.kind <;>
    simp_all [Kind.keyWord]

end Identity

end ScriptDelta
