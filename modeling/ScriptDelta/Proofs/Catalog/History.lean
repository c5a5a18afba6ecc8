import ScriptDelta.Proofs.Catalog.Searches

/-! # The history of a catalog

Definitions are filed in a catalog and dropped from it again. What a lookup finds at any time was
filed under the key last and has been kept ever since; a definition that was replaced does not come
back when the one in its place is dropped (`get?_after_eq_some_iff`). What a catalog already held at
the beginning counts as filed before everything else, since a catalog is its own definitions filed
one after the other.
-/

namespace ScriptDelta

namespace Table

variable {α κ : Type} [LT κ] [DecidableLT κ] {key : α → κ}

/-- The row that makes way when another is put in its place among sorted rows. -/
def displaced (key : α → κ) (row : α) : List α → Option α
  | [] => none
  | first :: rest =>
    if key row < key first then none
    else if key first < key row then displaced key row rest
    else some first

/-- The new row stands where the row that made way stood, and all others stay. -/
theorem exists_insertRow (key : α → κ) (row : α) (rows : List α) :
    ∃ before after, rows = before ++ ((displaced key row rows).toList ++ after) ∧
      insertRow key row rows = before ++ row :: after := by
  induction rows with
  | nil => exact ⟨[], [], rfl, rfl⟩
  | cons first rest ih =>
    simp only [displaced, insertRow]
    split_ifs with smaller larger
    · exact ⟨[], first :: rest, rfl, rfl⟩
    · obtain ⟨before, after, split, written⟩ := ih
      exact ⟨first :: before, after, congrArg (first :: ·) split, congrArg (first :: ·) written⟩
    · exact ⟨[], rest, rfl, rfl⟩

variable [LE κ] [Std.IsLinearOrder κ] [Std.LawfulOrderLT κ] [DecidableEq κ]

/-- The row that makes way is the one that a lookup has found. -/
theorem displaced_rows (table : Table key) (row : α) :
    displaced key row table.rows = table.get? (key row) := by
  obtain ⟨rows, sorted⟩ := table
  simp only [get?]
  induction rows with
  | nil => rfl
  | cons first rest ih =>
    obtain ⟨below, sorted⟩ := List.pairwise_cons.mp sorted
    simp only [displaced]
    split_ifs with smaller larger
    · refine (List.find?_eq_none.mpr fun other member same => ?_).symm
      have same : key other = key row := of_decide_eq_true same
      rcases List.mem_cons.mp member with rfl | member
      · exact Std.lt_irrefl (same ▸ smaller)
      · exact Std.lt_irrefl (same ▸ Std.lt_trans smaller (below other member))
    · have other : key first ≠ key row := fun same => Std.lt_irrefl (same ▸ larger)
      rw [List.find?_cons_of_neg (by simpa using other), ih sorted]
    · have same := Std.le_antisymm (Std.not_lt.mp smaller) (Std.not_lt.mp larger)
      rw [List.find?_cons_of_pos (by simpa using same)]

/-- A table is its rows, written one after the other. -/
theorem ofList_rows (table : Table key) : ofList table.rows = table := by
  apply ext_get?
  intro k
  rw [get?_ofList, find?_reverse_rows]

end Table

namespace Catalog

/-- What is done to a catalog. -/
inductive Operation where
  /-- A definition is filed under its key. -/
  | insert (definition : Definition)
  /-- The definitions are dropped that fail a condition on the key and the definition. -/
  | retain (keep : String → Definition → Bool)

namespace Operation

/-- The catalog after the operation. -/
def apply (catalog : Catalog) : Operation → Catalog
  | insert definition => Table.insert catalog definition
  | retain keep => catalog.filter fun definition => keep definition.key definition

/-- What the operation answers: the definition that made way for one that is filed. -/
def answer (catalog : Catalog) : Operation → Option Definition
  | insert definition => Table.displaced Definition.key definition catalog.rows
  | retain _ => none

/-- The operation neither drops the definition nor files another one under its key. -/
def Spares (definition : Definition) : Operation → Prop
  | insert other => other.key ≠ definition.key
  | retain keep => keep definition.key definition = true

end Operation

/-- The catalog after some operations. -/
def after (catalog : Catalog) (history : List Operation) : Catalog :=
  history.foldl Operation.apply catalog

/-- Of the definitions filed under the key, this one came last, and it has been kept ever since. -/
def Survives (key : String) (history : List Operation) (definition : Definition) : Prop :=
  ∃ earlier later, history = earlier ++ .insert definition :: later ∧ definition.key = key ∧
    ∀ operation ∈ later, operation.Spares definition

theorem after_append (catalog : Catalog) (history more : List Operation) :
    catalog.after (history ++ more) = (catalog.after history).after more :=
  List.foldl_append ..

/-- What survives one operation more: the definition that it files, or what has survived before if
the operation spares it. -/
theorem survives_snoc_iff {key : String} {history : List Operation} {operation : Operation}
    {definition : Definition} :
    Survives key (history ++ [operation]) definition ↔
      (operation = .insert definition ∧ definition.key = key) ∨
        (Survives key history definition ∧ operation.Spares definition) := by
  constructor
  · rintro ⟨earlier, later, split, own, spared⟩
    rcases List.eq_nil_or_concat later with rfl | ⟨later, last, rfl⟩
    · obtain ⟨-, same⟩ := List.append_inj' split rfl
      exact .inl ⟨(List.cons.inj same).1, own⟩
    · rw [List.concat_eq_append, ← List.cons_append, ← List.append_assoc] at split
      obtain ⟨rfl, same⟩ := List.append_inj' split rfl
      obtain rfl := (List.cons.inj same).1
      refine .inr ⟨⟨earlier, later, rfl, own, fun other member => spared other ?_⟩, spared _ ?_⟩
      · simp [member]
      · simp
  · rintro (⟨rfl, own⟩ | ⟨⟨earlier, later, rfl, own, spared⟩, spares⟩)
    · exact ⟨history, [], rfl, own, by simp⟩
    · refine ⟨earlier, later ++ [operation], by simp, own, fun other member => ?_⟩
      rcases List.mem_append.mp member with member | member
      · exact spared other member
      · exact List.mem_singleton.mp member ▸ spares

/-- The step that the history is followed by: a lookup after one operation. -/
theorem get?_apply_eq_some_iff {catalog : Catalog} {operation : Operation} {key : String}
    {definition : Definition} :
    (operation.apply catalog).get? key = some definition ↔
      (operation = .insert definition ∧ definition.key = key) ∨
        (catalog.get? key = some definition ∧ operation.Spares definition) := by
  cases operation with
  | insert other =>
    simp only [Operation.apply, Table.get?_insert, Operation.Spares, Operation.insert.injEq]
    by_cases same : other.key = key
    · rw [if_pos same, Option.some.injEq]
      constructor
      · rintro rfl
        exact .inl ⟨rfl, same⟩
      · rintro (⟨rfl, -⟩ | ⟨found, differ⟩)
        · rfl
        · exact absurd (same.trans (Table.key_of_get? found).symm) differ
    · rw [if_neg same]
      constructor
      · intro found
        exact .inr ⟨found, fun equal => same (equal.trans (Table.key_of_get? found))⟩
      · rintro (⟨rfl, own⟩ | ⟨found, -⟩)
        · exact absurd own same
        · exact found
  | retain keep =>
    simp only [Operation.apply, Table.get?_filter, Option.filter_eq_some_iff, Operation.Spares,
      reduceCtorEq, false_and, false_or]

/-- From the empty catalog a lookup finds what has survived. -/
theorem get?_after_empty {history : List Operation} {key : String} {definition : Definition} :
    (after .empty history).get? key = some definition ↔ Survives key history definition := by
  induction history using List.reverseRecOn with
  | nil =>
    refine iff_of_false (by rintro ⟨⟩) ?_
    rintro ⟨earlier, later, split, -⟩
    simp at split
  | append_singleton history operation ih =>
    rw [after_append, survives_snoc_iff, ← ih]
    exact get?_apply_eq_some_iff

/-- A catalog is what it holds, filed one after the other. -/
theorem after_rows (catalog : Catalog) (history : List Operation) :
    after .empty (catalog.rows.map .insert ++ history) = catalog.after history := by
  have filed : after .empty (catalog.rows.map .insert) = catalog := by
    rw [after, List.foldl_map]
    exact catalog.ofList_rows
  rw [after_append, filed]

/-- A lookup finds what was filed under the key last and has been kept ever since; what the catalog
held at the beginning was filed first. -/
theorem get?_after_eq_some_iff {catalog : Catalog} {history : List Operation} {key : String}
    {definition : Definition} :
    (catalog.after history).get? key = some definition ↔
      Survives key (catalog.rows.map .insert ++ history) definition := by
  rw [← get?_after_empty, after_rows]

/-- The catalog of a text has been filled with what was found, in the order of discovery. -/
theorem after_findings (text : String) :
    after .empty ((Finding.all text.toList).map fun finding => .insert finding.definition) =
      ofText text := by
  rw [after, List.foldl_map, ← file_empty_all]
  rfl

/-- The catalog is what a history has led to, and filing goes on in the same way. -/
structure Keeps (catalog : Catalog) (history : List Operation) : Prop where
  sorted_keys : catalog.keys.Pairwise (· < ·)
  key_eq : ∀ key definition, catalog.get? key = some definition → definition.key = key
  get?_eq_some_iff : ∀ key definition,
    catalog.get? key = some definition ↔ Survives key history definition
  contains_iff : ∀ key, catalog.contains key = true ↔ ∃ definition, Survives key history definition
  mem_keys_iff : ∀ key, key ∈ catalog.keys ↔ catalog.contains key = true
  size_eq : catalog.size = catalog.keys.length
  /-- A definition that is filed takes the place of what a lookup has found. -/
  insert : ∀ definition : Definition, ∃ before later,
    (Operation.insert definition).answer catalog = catalog.get? definition.key ∧
      catalog.rows = before ++ ((catalog.get? definition.key).toList ++ later) ∧
        ((Operation.insert definition).apply catalog).rows = before ++ definition :: later
  /-- Nothing changes under other keys. -/
  get?_insert : ∀ definition key,
    ((Operation.insert definition).apply catalog).get? key =
      if definition.key = key then some definition else catalog.get? key

/-- After any history the keys are in strictly increasing order, each definition is filed under its
own key, a lookup finds what was filed last under the key if it has been kept ever since, and
filing answers what a lookup has found and leaves all else as it is. What a catalog held at the
beginning counts as filed first; the catalog of a text was filled in the order of discovery. -/
theorem catalog_keeps_history :
    (∀ (catalog : Catalog) (history : List Operation),
      (catalog.after history).Keeps (catalog.rows.map .insert ++ history)) ∧
    (∀ history : List Operation, (after .empty history).Keeps history) ∧
    ∀ text : String, ofText text =
      after .empty ((Finding.all text.toList).map fun finding => .insert finding.definition) := by
  have keeps (catalog : Catalog) (history : List Operation) :
      (catalog.after history).Keeps (catalog.rows.map .insert ++ history) := by
    refine ⟨Table.sorted_keys _, fun key definition => Table.key_of_get?,
      fun key definition => get?_after_eq_some_iff, fun key => ?_, fun key => Table.mem_keys_iff,
      (List.length_map ..).symm, fun definition => ?_, fun definition key => Table.get?_insert ..⟩
    · simp only [Table.contains, Option.isSome_iff_exists, get?_after_eq_some_iff]
    · obtain ⟨before, later, split, written⟩ :=
        Table.exists_insertRow Definition.key definition (catalog.after history).rows
      rw [Table.displaced_rows] at split
      exact ⟨before, later, Table.displaced_rows .., split, written⟩
  exact ⟨keeps, fun history => keeps .empty history, fun text => (after_findings text).symm⟩

/-- A method `c` of a class `a.b` and a method `b.c` of a class `a` share a key. Dropping the second
does not bring the first one back. -/
example :
    let first : Definition := ⟨⟨.method, some "a.b", "c"⟩, "", "", false, "1"⟩
    let second : Definition := ⟨⟨.method, some "a", "b.c"⟩, "", "", false, "2"⟩
    (after .empty [.insert first, .insert second, .retain fun _ kept => kept.body = "1"]).rows = [] := by
  decide

end Catalog

end ScriptDelta
