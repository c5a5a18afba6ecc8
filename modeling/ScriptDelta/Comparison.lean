import ScriptDelta.Catalog

/-! # Comparison of two catalogs

Every key of two catalogs is in exactly one of four lists: added if only the new catalog has it,
removed if only the old one has it, and otherwise unchanged or changed as the digests under it agree
or not. The lists are in the order of the keys.
-/

namespace ScriptDelta

/-- How many keys are in each of the four lists. -/
structure Tally where
  added : Nat
  removed : Nat
  changed : Nat
  unchanged : Nat
deriving DecidableEq

namespace Tally

/-- The tally of nothing. -/
def zero : Tally :=
  ⟨0, 0, 0, 0⟩

/-- The tally of two comparisons together. -/
def add (x y : Tally) : Tally :=
  ⟨x.added + y.added, x.removed + y.removed, x.changed + y.changed, x.unchanged + y.unchanged⟩

instance : Add Tally := ⟨add⟩

/-- The tally of several comparisons together. -/
def sum (tallies : List Tally) : Tally :=
  tallies.foldl (· + ·) zero

end Tally

/-- The keys of two catalogs in four lists. -/
structure Comparison where
  added : List String
  removed : List String
  changed : List String
  unchanged : List String
deriving DecidableEq

/-- The length of each list. -/
def Comparison.tally (comparison : Comparison) : Tally :=
  ⟨comparison.added.length, comparison.removed.length, comparison.changed.length,
    comparison.unchanged.length⟩

/-- An old and a new catalog of the same source. -/
structure Revision where
  old : Catalog
  new : Catalog
deriving DecidableEq

namespace Revision

/-- Whether the digests under a key agree, for a key of both catalogs. -/
def agree? (revision : Revision) (key : String) : Option Bool := do
  return (← revision.old.get? key).digest == (← revision.new.get? key).digest

/-- The keys of both catalogs in four lists. -/
def comparison (revision : Revision) : Comparison where
  added := revision.new.keys.filter fun key => !revision.old.contains key
  removed := revision.old.keys.filter fun key => !revision.new.contains key
  changed := revision.old.keys.filter fun key => revision.agree? key == some false
  unchanged := revision.old.keys.filter fun key => revision.agree? key == some true

/-- How many keys are in each list. -/
def tally (revision : Revision) : Tally :=
  revision.comparison.tally

/-- The definitions under the added keys. -/
def added (revision : Revision) : List Definition :=
  revision.comparison.added.filterMap revision.new.get?

/-- The definitions under the removed keys. -/
def removed (revision : Revision) : List Definition :=
  revision.comparison.removed.filterMap revision.old.get?

/-- The old and the new definitions under the changed keys. -/
def changed (revision : Revision) : List (Definition × Definition) :=
  revision.comparison.changed.filterMap fun key => do
    return (← revision.old.get? key, ← revision.new.get? key)

/-- The revision without the definitions whose keys are ignored. -/
def without (revision : Revision) (ignored : String → Bool) : Revision :=
  ⟨revision.old.filter fun d => !ignored d.key, revision.new.filter fun d => !ignored d.key⟩

end Revision

end ScriptDelta
