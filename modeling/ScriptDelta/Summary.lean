import ScriptDelta.Comparison
import ScriptDelta.Path
import ScriptDelta.Report.Patch

/-! # Summaries

The summary of a run has the tally of every pair that was compared, in the order of the tags, and
the pairs that were skipped, in the order of the plan.
-/

namespace ScriptDelta

/-- A pair that was not compared, and the file that it lacks. -/
structure Skipped where
  tag : String
  missing : Path
deriving DecidableEq

/-- What a run has to show. -/
structure Summary where
  pairs : Table (Prod.fst : String × Tally → String)
  skipped : List Skipped
deriving DecidableEq

namespace Summary

/-- The summary of no pairs. -/
def empty : Summary :=
  ⟨.empty, []⟩

/-- The summary with the tally of a pair. -/
def record (summary : Summary) (tag : String) (tally : Tally) : Summary :=
  { summary with pairs := summary.pairs.insert (tag, tally) }

/-- The summary with a pair skipped. -/
def skip (summary : Summary) (skipped : Skipped) : Summary :=
  { summary with skipped := summary.skipped ++ [skipped] }

/-- The tally of all pairs together. -/
def total (summary : Summary) : Tally :=
  .sum (summary.pairs.rows.map (·.2))

/-- The tallies as a document. -/
def document (summary : Summary) : Json :=
  .object (summary.pairs.rows.map fun (tag, tally) => (tag, tally.document))

end Summary

end ScriptDelta
