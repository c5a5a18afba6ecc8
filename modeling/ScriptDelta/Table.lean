/-! # Tables sorted by a key

A table is a list of rows in strictly increasing order of a key that each row carries, so that a
key names at most one row. Writing a row replaces the row of its key. `get?_insert` and
`get?_filter` say what a lookup finds afterwards; everything else about a table follows from
its lookups, since tables in which every lookup agrees are equal.
-/

namespace ScriptDelta

variable {α κ : Type}

/-- Rows in strictly increasing order of their keys. -/
structure Table [LT κ] (key : α → κ) where
  rows : List α
  sorted : rows.Pairwise fun earlier later => key earlier < key later

namespace Table

section

variable [LT κ] {key : α → κ}

theorem ext_rows {s t : Table key} (rows : s.rows = t.rows) : s = t := by
  cases s
  cases t
  cases rows
  rfl

instance [DecidableEq α] : DecidableEq (Table key) := fun s t =>
  if same : s.rows = t.rows then isTrue (ext_rows same)
  else isFalse fun equal => same (congrArg rows equal)

/-- The table without rows. -/
def empty : Table key :=
  ⟨[], .nil⟩

/-- The keys in increasing order. -/
def keys (table : Table key) : List κ :=
  table.rows.map key

/-- The number of rows. -/
def size (table : Table key) : Nat :=
  table.rows.length

/-- The row with the given key. -/
def get? [DecidableEq κ] (table : Table key) (k : κ) : Option α :=
  table.rows.find? fun row => key row = k

/-- Some row has the given key. -/
def contains [DecidableEq κ] (table : Table key) (k : κ) : Bool :=
  (table.get? k).isSome

/-- The rows that satisfy `keep`. -/
def filter (table : Table key) (keep : α → Bool) : Table key :=
  ⟨table.rows.filter keep, table.sorted.filter keep⟩

/-- A row put in its place among sorted rows; a row with the same key makes way for it. -/
def insertRow [DecidableLT κ] (key : α → κ) (row : α) : List α → List α
  | [] => [row]
  | first :: rest =>
    if key row < key first then row :: first :: rest
    else if key first < key row then first :: insertRow key row rest
    else row :: rest

theorem mem_insertRow [DecidableLT κ] {row other : α} {rows : List α}
    (member : other ∈ insertRow key row rows) : other = row ∨ other ∈ rows := by
  induction rows with
  | nil => simpa [insertRow] using member
  | cons first rest ih =>
    simp only [insertRow] at member
    split at member
    · simpa using member
    · split at member
      · rcases List.mem_cons.mp member with rfl | member
        · exact .inr (List.mem_cons_self ..)
        · exact (ih member).imp_right (List.mem_cons_of_mem _)
      · rcases List.mem_cons.mp member with rfl | member
        · exact .inl rfl
        · exact .inr (List.mem_cons_of_mem _ member)

/-- The keys are listed in strictly increasing order. -/
theorem sorted_keys (table : Table key) : table.keys.Pairwise (· < ·) :=
  List.pairwise_map.mpr table.sorted

end

section

variable [LT κ] [LE κ] [Std.IsLinearOrder κ] [Std.LawfulOrderLT κ] [DecidableLT κ] {key : α → κ}

theorem sorted_insertRow {row : α} {rows : List α}
    (sorted : rows.Pairwise fun earlier later => key earlier < key later) :
    (insertRow key row rows).Pairwise fun earlier later => key earlier < key later := by
  induction rows with
  | nil => simp [insertRow]
  | cons first rest ih =>
    obtain ⟨below, sorted⟩ := List.pairwise_cons.mp sorted
    simp only [insertRow]
    split
    next smaller =>
      refine List.pairwise_cons.mpr ⟨fun other member => ?_, List.pairwise_cons.mpr ⟨below, sorted⟩⟩
      rcases List.mem_cons.mp member with rfl | member
      · exact smaller
      · exact Std.lt_trans smaller (below other member)
    next notSmaller =>
      split
      next larger =>
        refine List.pairwise_cons.mpr ⟨fun other member => ?_, ih sorted⟩
        rcases mem_insertRow member with rfl | member
        · exact larger
        · exact below other member
      next notLarger =>
        have same := Std.le_antisymm (Std.not_lt.mp notLarger) (Std.not_lt.mp notSmaller)
        exact List.pairwise_cons.mpr ⟨fun other member => same ▸ below other member, sorted⟩

/-- The table with a row written; a row with the same key is replaced. -/
def insert (table : Table key) (row : α) : Table key :=
  ⟨insertRow key row table.rows, sorted_insertRow table.sorted⟩

/-- The rows written one after the other. -/
def ofList (rows : List α) : Table key :=
  rows.foldl insert empty

end

section

variable [LT κ] [LE κ] [Std.LawfulOrderLT κ] [DecidableEq κ] {key : α → κ}

/-- A lookup finds a row exactly if the row is there under that key. -/
theorem get?_eq_some_iff {table : Table key} {k : κ} {row : α} :
    table.get? k = some row ↔ row ∈ table.rows ∧ key row = k := by
  obtain ⟨rows, sorted⟩ := table
  simp only [get?]
  induction rows with
  | nil => simp
  | cons first rest ih =>
    obtain ⟨below, sorted⟩ := List.pairwise_cons.mp sorted
    rw [List.find?_cons]
    split
    next atFirst =>
      have atFirst : key first = k := by simpa using atFirst
      constructor
      · rintro ⟨⟩
        exact ⟨List.mem_cons_self .., atFirst⟩
      · rintro ⟨member, atRow⟩
        rcases List.mem_cons.mp member with rfl | member
        · rfl
        · exact absurd (atFirst.trans atRow.symm ▸ below row member) Std.lt_irrefl
    next notFirst =>
      have notFirst : key first ≠ k := by simpa using notFirst
      rw [ih sorted]
      constructor
      · rintro ⟨member, atRow⟩
        exact ⟨List.mem_cons_of_mem _ member, atRow⟩
      · rintro ⟨member, atRow⟩
        rcases List.mem_cons.mp member with rfl | member
        · exact absurd atRow notFirst
        · exact ⟨member, atRow⟩

/-- A lookup in the kept rows finds what it found before, if that is kept. -/
theorem get?_filter (table : Table key) (keep : α → Bool) (k : κ) :
    (table.filter keep).get? k = (table.get? k).filter keep := by
  apply Option.ext
  intro row
  rw [get?_eq_some_iff, Option.filter_eq_some_iff, get?_eq_some_iff]
  simp only [filter, List.mem_filter]
  exact ⟨fun h => ⟨⟨h.1.1, h.2⟩, h.1.2⟩, fun h => ⟨⟨h.1.1, h.2⟩, h.1.2⟩⟩

/-- The keys are those under which a lookup finds a row. -/
theorem mem_keys_iff {table : Table key} {k : κ} : k ∈ table.keys ↔ table.contains k = true := by
  simp only [keys, contains, List.mem_map, Option.isSome_iff_exists, get?_eq_some_iff]

omit [DecidableEq κ] in
/-- No key is listed twice. -/
theorem nodup_keys (table : Table key) : table.keys.Nodup := by
  apply table.sorted_keys.imp
  intro earlier later below same
  exact Std.lt_irrefl (same ▸ below)

/-- A row is filed under its own key. -/
theorem key_of_get? {table : Table key} {k : κ} {row : α} (found : table.get? k = some row) :
    key row = k :=
  (get?_eq_some_iff.mp found).2

end

/-- Once a row is put in its place, it is the first of its key, and the first of any other key is
the same as before. -/
theorem find?_insertRow [LT κ] [LE κ] [Std.IsLinearOrder κ] [Std.LawfulOrderLT κ] [DecidableLT κ]
    [DecidableEq κ] (key : α → κ) (row : α) (rows : List α) (k : κ) :
    (insertRow key row rows).find? (fun other => key other = k) =
      if key row = k then some row else rows.find? fun other => key other = k := by
  induction rows with
  | nil => by_cases atRow : key row = k <;> simp [insertRow, atRow]
  | cons first rest ih =>
    simp only [insertRow]
    split
    next smaller => by_cases atRow : key row = k <;> simp [List.find?_cons, atRow]
    next notSmaller =>
      split
      next larger =>
        by_cases atFirst : key first = k
        · have notRow : key row ≠ k := fun atRow =>
            Std.lt_irrefl (a := k) (by rw [atFirst, atRow] at larger; exact larger)
          simp [atFirst, notRow]
        · simpa [List.find?_cons, atFirst] using ih
      next notLarger =>
        have same := Std.le_antisymm (Std.not_lt.mp notLarger) (Std.not_lt.mp notSmaller)
        by_cases atRow : key row = k
        · simp [atRow]
        · have notFirst : key first ≠ k := same ▸ atRow
          simp [atRow, notFirst]

/-- After a write, a lookup finds the row written under its key and what was there elsewhere. -/
theorem get?_insert [LT κ] [LE κ] [Std.IsLinearOrder κ] [Std.LawfulOrderLT κ] [DecidableLT κ]
    [DecidableEq κ] {key : α → κ} (table : Table key) (row : α) (k : κ) :
    (table.insert row).get? k = if key row = k then some row else table.get? k :=
  find?_insertRow key row table.rows k

/-- Tables in which every lookup agrees are equal. -/
theorem ext_get? [LT κ] [LE κ] [Std.IsLinearOrder κ] [Std.LawfulOrderLT κ] [DecidableEq κ]
    {key : α → κ} {s t : Table key} (agree : ∀ k, s.get? k = t.get? k) : s = t := by
  have member (row : α) : row ∈ s.rows ↔ row ∈ t.rows := by
    have found := congrArg (· = some row) (agree (key row))
    simpa [get?_eq_some_iff] using found
  apply ext_rows
  obtain ⟨left, leftSorted⟩ := s
  obtain ⟨right, rightSorted⟩ := t
  dsimp only at member ⊢
  clear agree
  induction left generalizing right with
  | nil =>
    exact (List.eq_nil_iff_forall_not_mem.mpr fun row h => by simpa using (member row).mpr h).symm
  | cons first left ih =>
    cases right with
    | nil => simpa using (member first).mp (List.mem_cons_self ..)
    | cons other right =>
      obtain ⟨leftBelow, leftRest⟩ := List.pairwise_cons.mp leftSorted
      obtain ⟨rightBelow, rightRest⟩ := List.pairwise_cons.mp rightSorted
      have same : first = other := by
        rcases List.mem_cons.mp ((member first).mp (List.mem_cons_self ..)) with same | later
        · exact same
        · rcases List.mem_cons.mp ((member other).mpr (List.mem_cons_self ..)) with same | earlier
          · exact same.symm
          · have below := Std.lt_trans (rightBelow first later) (leftBelow other earlier)
            exact absurd below Std.lt_irrefl
      subst same
      congr 1
      refine ih leftRest right rightRest fun row => ⟨fun h => ?_, fun h => ?_⟩
      · rcases List.mem_cons.mp ((member row).mp (List.mem_cons_of_mem _ h)) with same | h'
        · exact absurd (same ▸ leftBelow row h) Std.lt_irrefl
        · exact h'
      · rcases List.mem_cons.mp ((member row).mpr (List.mem_cons_of_mem _ h)) with same | h'
        · exact absurd (same ▸ rightBelow row h) Std.lt_irrefl
        · exact h'

end Table

end ScriptDelta
