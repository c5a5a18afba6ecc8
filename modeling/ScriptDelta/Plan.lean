import ScriptDelta.CommandLine
import ScriptDelta.FilePair
import ScriptDelta.Glob
import ScriptDelta.Report.Brief

/-! # Plans

A plan is what is left of a command line once it has been checked: the pairs to compare, the
patterns of keys to ignore, and where and how to report. The checks are made in a fixed order, and
the first that fails is reported: the directories, the patterns, the pairs, the tags.
-/

namespace ScriptDelta

/-- What a run does. -/
structure Plan where
  outputDir : Path
  pairs : List FilePair
  ignore : List Glob
  detail : Report.Detail
  /-- Nothing is written. -/
  dryRun : Bool
deriving DecidableEq

namespace Plan

/-- Why arguments make no plan. -/
inductive Fault where
  /-- Both directories are the same. -/
  | sameDirectory
  /-- A text is no pattern. -/
  | pattern (text : String) (fault : Glob.Fault)
  /-- A text names no pair. -/
  | pair (text : String) (fault : FilePair.Fault)
  /-- A tag is used a second time. -/
  | duplicateTag (tag : String)
deriving DecidableEq

namespace Fault

/-- What went wrong. -/
def headline : Fault → String
  | .sameDirectory => "old and new directories cannot be the same directory."
  | .pattern text _ => "Invalid glob pattern: " ++ text
  | .pair text fault => "Invalid pair '" ++ text ++ "': " ++ fault.description
  | .duplicateTag tag => "Duplicate pair tag: " ++ tag

/-- The reason for it, if there is more to say. -/
def cause? : Fault → Option String
  | .pattern _ fault => some fault.message
  | _ => none

end Fault

/-- The first element that an earlier one of the list, or of those seen before, is equal to. -/
def firstRepeated? (seen : List String) : List String → Option String
  | [] => none
  | tag :: rest => if seen.contains tag then some tag else firstRepeated? (tag :: seen) rest

/-- The pairs that the arguments ask for. -/
def pairs? (arguments : Arguments) : Except Fault (List FilePair) :=
  if arguments.pairs.isEmpty then
    .ok (FilePair.defaultPairs arguments.oldDir arguments.newDir)
  else
    arguments.pairs.mapM fun text =>
      (FilePair.parse arguments.oldDir arguments.newDir text).mapError (.pair text)

/-- The plan that the arguments make. -/
def ofArguments (arguments : Arguments) : Except Fault Plan := do
  if arguments.oldDir.components = arguments.newDir.components then throw .sameDirectory
  let ignore ← arguments.ignore.mapM fun text => (Glob.parse text).mapError (.pattern text)
  let pairs ← pairs? arguments
  if let some tag := firstRepeated? [] (pairs.map (·.tag)) then throw (.duplicateTag tag)
  return ⟨arguments.outputDir, pairs, ignore, ⟨arguments.maxListed, arguments.bodyDiff⟩,
    arguments.dryRun⟩

/-- A pattern of the plan accepts the key. -/
def ignores (plan : Plan) (key : String) : Bool :=
  plan.ignore.any (·.accepts key)

end Plan

end ScriptDelta
