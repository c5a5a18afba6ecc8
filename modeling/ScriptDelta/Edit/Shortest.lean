import ScriptDelta.Edit.Overlap
import ScriptDelta.Edit.Script

/-! # Shortest scripts by divide and conquer

A path through the grid of two lists steps right for a deletion, down for an insertion and along a
diagonal for a kept item. Paths are grown from both corners in turn, by one step off the diagonal in
each round, and the place where they first meet divides the problem. What two lists have in common
at their beginning and end is set aside before each search. The result leads from the one list to
the other wherever the search divides them (`between_shortest`).
-/

namespace ScriptDelta.Edit

variable {α : Type}

/-- The number of places in which the arrays agree from columns `x` and `y` on. -/
def agreement [DecidableEq α] (old new : Array α) (x y : Nat) : Nat :=
  if inside : x < old.size ∧ y < new.size then
    have left := inside.1
    have right := inside.2
    if old[x] = new[y] then agreement old new (x + 1) (y + 1) + 1 else 0
  else 0
termination_by old.size - x

/-- How far the paths from one corner have come: the last column reached on each diagonal, where
diagonal `k` holds the places whose column exceeds their row by `k`. -/
structure Frontier where
  columns : Array Nat
  /-- The position of diagonal 0 among the columns. -/
  middle : Nat

namespace Frontier

/-- The frontier before the first round, with room for diagonals up to `reach` on either side. -/
def start (reach : Nat) : Frontier :=
  ⟨Array.replicate (2 * reach + 1) 0, reach⟩

/-- The column reached on a diagonal. -/
def column (frontier : Frontier) (k : Int) : Nat :=
  frontier.columns.getD (frontier.middle + k).toNat 0

/-- The frontier after a path has reached a column on a diagonal. -/
def reach (frontier : Frontier) (k : Int) (column : Nat) : Frontier :=
  { frontier with columns := frontier.columns.setIfInBounds (frontier.middle + k).toNat column }

/-- The column at which the path of round `d` enters diagonal `k`: by a step down from the diagonal
above or by a step right from the one below, whichever has come further. -/
def entry (frontier : Frontier) (d : Nat) (k : Int) : Nat :=
  if k = -d ∨ (k ≠ d ∧ frontier.column (k - 1) < frontier.column (k + 1)) then
    frontier.column (k + 1)
  else
    frontier.column (k - 1) + 1

end Frontier

/-- The diagonals on which paths of round `d` end. -/
def diagonals (d : Nat) : List Int :=
  (List.range (d + 1)).map fun (step : Nat) => (d - 2 * step : Int)

/-- A search for the middle of a path: both lists, the same lists reversed for the paths from the
end, and the two frontiers. -/
structure Search (α : Type) where
  old : Array α
  new : Array α
  oldReversed : Array α
  newReversed : Array α
  forward : Frontier
  backward : Frontier

namespace Search

/-- The diagonal that passes through the last corner. -/
def corner (search : Search α) : Int :=
  search.old.size - search.new.size

variable [DecidableEq α]

/-- Extends the path from the beginning on diagonal `k`; the error is the place where that path met
one from the end. -/
def advance (d : Nat) (search : Search α) (k : Int) : Except (Nat × Nat) (Search α) :=
  let x := search.forward.entry d k
  let y := x - k
  let column := if 0 ≤ y then x + agreement search.old search.new x y.toNat else x
  let opposite := search.corner - k
  if search.corner % 2 ≠ 0 ∧ opposite.natAbs < d ∧
      search.old.size ≤ column + search.backward.column opposite then
    .error (x, y.toNat)
  else
    .ok { search with forward := search.forward.reach k column }

/-- Extends the path from the end on diagonal `k`, columns and rows counted from there; the error is
the place where that path met one from the beginning. -/
def retreat (d : Nat) (search : Search α) (k : Int) : Except (Nat × Nat) (Search α) :=
  let x := search.backward.entry d k
  let y := x - k
  let column :=
    if 0 ≤ y then x + agreement search.oldReversed search.newReversed x y.toNat else x
  let opposite := search.corner - k
  if search.corner % 2 = 0 ∧ opposite.natAbs ≤ d ∧
      search.old.size ≤ column + search.forward.column opposite then
    .error (search.old.size - column, (search.new.size - (column - k)).toNat)
  else
    .ok { search with backward := search.backward.reach k column }

/-- One round of paths from the beginning and then from the end. -/
def round (search : Search α) (d : Nat) : Except (Nat × Nat) (Search α) := do
  let search ← (diagonals d).foldlM (advance d) search
  (diagonals d).foldlM (retreat d) search

end Search

/-- A place in the middle of a shortest path, as the number of items before it in either list. -/
def middle? [DecidableEq α] (old new : List α) : Option (Nat × Nat) :=
  let rounds := (old.length + new.length + 1) / 2 + 1
  let search : Search α :=
    ⟨old.toArray, new.toArray, old.reverse.toArray, new.reverse.toArray,
      .start (rounds + 1), .start (rounds + 1)⟩
  match (List.range rounds).foldlM Search.round search with
  | .error place => some place
  | .ok _ => none

/-- A script between two lists: their common beginning and end are kept, and what lies between is
divided at a middle place until nothing is left of one of them. -/
def shortest [DecidableEq α] (old new : List α) : Script α :=
  let parts := Overlap.ofLists old new
  let replaced := Script.single .delete parts.old ++ Script.single .insert parts.new
  let changed :=
    if parts.old.isEmpty || parts.new.isEmpty then replaced
    else
      match middle? parts.old parts.new with
      | none => replaced
      | some (x, y) =>
        if _ : 0 < x + y ∧ x + y < parts.old.length + parts.new.length ∧
            x ≤ parts.old.length ∧ y ≤ parts.new.length then
          shortest (parts.old.take x) (parts.new.take y) ++
            shortest (parts.old.drop x) (parts.new.drop y)
        else replaced
  Script.single .keep parts.start ++ changed ++ Script.single .keep parts.stop
termination_by old.length + new.length
decreasing_by
  all_goals
    have shorter := Overlap.length_le old new
    simp only [parts] at *
    simp only [List.length_take, List.length_drop]
    omega

/-- The script leads from the old list to the new one. -/
theorem between_shortest [DecidableEq α] (old new : List α) :
    (shortest old new).Between old new := by
  fun_induction shortest old new with
  | case1 old new parts replaced changed before after =>
    have between : changed.Between parts.old parts.new := by
      have whole : replaced.Between parts.old parts.new := Script.between_replace ..
      simp only [changed]
      split
      · exact whole
      · split
        · exact whole
        next x y _ =>
          split
          next inside =>
            simpa using (before x y inside).append (after x y inside)
          next => exact whole
    have joined := ((Script.between_keep parts.start).append between).append
      (Script.between_keep parts.stop)
    rwa [Overlap.old_eq, Overlap.new_eq] at joined

end ScriptDelta.Edit
