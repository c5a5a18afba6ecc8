/-! # Edit scripts

A script turns one list into another by keeping, deleting and inserting runs of items. Its old
side is what it keeps and deletes, its new side what it keeps and inserts, both in order; a script
between two lists has the one as its old and the other as its new side.
-/

namespace ScriptDelta.Edit

/-- What a script does with a run of items. -/
inductive Mark where
  | keep
  | delete
  | insert
deriving DecidableEq

/-- A run of items that are treated alike. -/
structure Hunk (α : Type) where
  mark : Mark
  items : List α
deriving DecidableEq

/-- The runs of a script, in order. -/
abbrev Script (α : Type) :=
  List (Hunk α)

variable {α : Type}

/-- The items of a run that belong to the old list. -/
def Hunk.oldSide (hunk : Hunk α) : List α :=
  if hunk.mark = .insert then [] else hunk.items

/-- The items of a run that belong to the new list. -/
def Hunk.newSide (hunk : Hunk α) : List α :=
  if hunk.mark = .delete then [] else hunk.items

/-- The list that the script starts from. -/
def Script.oldSide (script : Script α) : List α :=
  script.flatMap Hunk.oldSide

/-- The list that the script arrives at. -/
def Script.newSide (script : Script α) : List α :=
  script.flatMap Hunk.newSide

/-- The script turns the list `old` into the list `new`. -/
def Script.Between (script : Script α) (old new : List α) : Prop :=
  script.oldSide = old ∧ script.newSide = new

/-- A script of one run, or of none if the run is empty. -/
def Script.single (mark : Mark) (items : List α) : Script α :=
  if items.isEmpty then [] else [⟨mark, items⟩]

namespace Script

@[simp] theorem oldSide_nil : oldSide ([] : Script α) = [] := rfl

@[simp] theorem newSide_nil : newSide ([] : Script α) = [] := rfl

@[simp] theorem oldSide_cons (hunk : Hunk α) (script : Script α) :
    oldSide (hunk :: script) = hunk.oldSide ++ oldSide script := rfl

@[simp] theorem newSide_cons (hunk : Hunk α) (script : Script α) :
    newSide (hunk :: script) = hunk.newSide ++ newSide script := rfl

@[simp] theorem oldSide_append (script later : Script α) :
    oldSide (script ++ later) = oldSide script ++ oldSide later :=
  List.flatMap_append

@[simp] theorem newSide_append (script later : Script α) :
    newSide (script ++ later) = newSide script ++ newSide later :=
  List.flatMap_append

@[simp] theorem oldSide_single (mark : Mark) (items : List α) :
    oldSide (single mark items) = Hunk.oldSide ⟨mark, items⟩ := by
  cases items <;> simp [single, Hunk.oldSide]

@[simp] theorem newSide_single (mark : Mark) (items : List α) :
    newSide (single mark items) = Hunk.newSide ⟨mark, items⟩ := by
  cases items <;> simp [single, Hunk.newSide]

/-- Scripts between parts of two lists, put together, lead from the one list to the other. -/
theorem Between.append {script later : Script α} {old new oldRest newRest : List α}
    (first : script.Between old new) (second : later.Between oldRest newRest) :
    Between (script ++ later) (old ++ oldRest) (new ++ newRest) := by
  obtain ⟨rfl, rfl⟩ := first
  obtain ⟨rfl, rfl⟩ := second
  exact ⟨oldSide_append script later, newSide_append script later⟩

/-- Keeping a run leads from it to itself. -/
theorem between_keep (items : List α) : (single .keep items).Between items items := by
  simp [Between, Hunk.oldSide, Hunk.newSide]

/-- Deleting one run and inserting another leads from the one to the other. -/
theorem between_replace (old new : List α) :
    Between (single .delete old ++ single .insert new) old new := by
  simp [Between, Hunk.oldSide, Hunk.newSide]

end Script

/-- What a script does with each item, in order. Between two kept items all deletions come first
and all insertions after them. -/
def Script.marked (script : Script α) : List (Mark × α) :=
  go [] [] script
where
  go (deleted inserted : List α) : Script α → List (Mark × α)
    | [] => flush deleted inserted
    | ⟨.keep, items⟩ :: rest =>
      flush deleted inserted ++ items.map (Prod.mk .keep) ++ go [] [] rest
    | ⟨.delete, items⟩ :: rest => go (deleted ++ items) inserted rest
    | ⟨.insert, items⟩ :: rest => go deleted (inserted ++ items) rest
  flush (deleted inserted : List α) : List (Mark × α) :=
    deleted.map (Prod.mk .delete) ++ inserted.map (Prod.mk .insert)

/-- Of items with one mark all are picked out, or none is. -/
theorem filterMap_marked (mark other : Mark) (items : List α) :
    ((items.map (Prod.mk mark)).filterMap fun (mark, item) =>
      if mark = other then none else some item) = if mark = other then [] else items := by
  induction items with
  | nil => simp
  | cons item items ih =>
    rw [List.map_cons, List.filterMap_cons, ih]
    by_cases same : mark = other <;> simp [same]

/-- What is not inserted is the old side of the script. -/
theorem Script.old_marked (script : Script α) :
    (script.marked.filterMap fun (mark, item) => if mark = .insert then none else some item) =
      script.oldSide := by
  have gone (deleted inserted : List α) :
      ((marked.go deleted inserted script).filterMap fun (mark, item) =>
        if mark = .insert then none else some item) = deleted ++ script.oldSide := by
    induction script generalizing deleted inserted with
    | nil =>
      simp only [marked.go, marked.flush, List.filterMap_append, filterMap_marked]
      simp
    | cons hunk script ih =>
      obtain ⟨mark, items⟩ := hunk
      cases mark with
      | keep =>
        simp only [marked.go, marked.flush, List.filterMap_append, filterMap_marked, ih]
        simp [Hunk.oldSide]
      | delete => simp [marked.go, ih, Hunk.oldSide]
      | insert => simp [marked.go, ih, Hunk.oldSide]
  simpa [marked] using gone [] []

/-- What is not deleted is the new side of the script. -/
theorem Script.new_marked (script : Script α) :
    (script.marked.filterMap fun (mark, item) => if mark = .delete then none else some item) =
      script.newSide := by
  have gone (deleted inserted : List α) :
      ((marked.go deleted inserted script).filterMap fun (mark, item) =>
        if mark = .delete then none else some item) = inserted ++ script.newSide := by
    induction script generalizing deleted inserted with
    | nil =>
      simp only [marked.go, marked.flush, List.filterMap_append, filterMap_marked]
      simp
    | cons hunk script ih =>
      obtain ⟨mark, items⟩ := hunk
      cases mark with
      | keep =>
        simp only [marked.go, marked.flush, List.filterMap_append, filterMap_marked, ih]
        simp [Hunk.newSide]
      | delete => simp [marked.go, ih, Hunk.newSide]
      | insert => simp [marked.go, ih, Hunk.newSide]
  simpa [marked] using gone [] []

end ScriptDelta.Edit
