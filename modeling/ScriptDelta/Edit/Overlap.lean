/-! # Common beginnings and ends

Two lists are taken apart into the items with which both begin, those with which both then end, and
what is left of either in between.
-/

namespace ScriptDelta.Edit

variable {α : Type} [DecidableEq α]

/-- The longest list with which both lists begin, and what follows it in either. -/
def commonStart : List α → List α → List α × List α × List α
  | a :: old, b :: new =>
    if a = b then
      let (common, old, new) := commonStart old new
      (a :: common, old, new)
    else ([], a :: old, b :: new)
  | old, new => ([], old, new)

/-- The longest list with which both lists end, and what precedes it in either. -/
def commonEnd (old new : List α) : List α × List α × List α :=
  let (common, old, new) := commonStart old.reverse new.reverse
  (common.reverse, old.reverse, new.reverse)

/-- Both lists are their common beginning and what follows it. -/
theorem commonStart_append (old new : List α) :
    (commonStart old new).1 ++ (commonStart old new).2.1 = old ∧
      (commonStart old new).1 ++ (commonStart old new).2.2 = new := by
  induction old generalizing new with
  | nil => simp [commonStart]
  | cons a old ih =>
    cases new with
    | nil => simp [commonStart]
    | cons b new =>
      by_cases same : a = b
      · subst same
        simpa [commonStart] using ih new
      · simp [commonStart, same]

/-- Both lists are what precedes their common end and that end. -/
theorem append_commonEnd (old new : List α) :
    (commonEnd old new).2.1 ++ (commonEnd old new).1 = old ∧
      (commonEnd old new).2.2 ++ (commonEnd old new).1 = new := by
  have apart := commonStart_append old.reverse new.reverse
  constructor
  · simpa [commonEnd] using congrArg List.reverse apart.1
  · simpa [commonEnd] using congrArg List.reverse apart.2

/-- Two lists taken apart. -/
structure Overlap (α : Type) where
  /-- What both begin with. -/
  start : List α
  /-- The middle of the old list. -/
  old : List α
  /-- The middle of the new list. -/
  new : List α
  /-- What both end with. -/
  stop : List α

/-- The overlap of two lists, the beginning first and the end of what follows it second. -/
def Overlap.ofLists (old new : List α) : Overlap α :=
  let after := commonStart old new
  let before := commonEnd after.2.1 after.2.2
  ⟨after.1, before.2.1, before.2.2, before.1⟩

/-- The old list is put together from its parts. -/
theorem Overlap.old_eq (old new : List α) :
    (ofLists old new).start ++ (ofLists old new).old ++ (ofLists old new).stop = old := by
  simp [ofLists, append_commonEnd, commonStart_append]

/-- The new list is put together from its parts. -/
theorem Overlap.new_eq (old new : List α) :
    (ofLists old new).start ++ (ofLists old new).new ++ (ofLists old new).stop = new := by
  simp [ofLists, append_commonEnd, commonStart_append]

/-- The middles are no longer than the lists. -/
theorem Overlap.length_le (old new : List α) :
    (ofLists old new).old.length ≤ old.length ∧ (ofLists old new).new.length ≤ new.length := by
  have left := congrArg List.length (old_eq old new)
  have right := congrArg List.length (new_eq old new)
  simp only [List.length_append] at left right
  omega

end ScriptDelta.Edit
