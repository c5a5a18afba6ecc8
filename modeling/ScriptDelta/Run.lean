import ScriptDelta.Host
import ScriptDelta.Plan
import ScriptDelta.Summary
import ScriptDelta.Text.Decoding

/-! # Runs

A run goes through the pairs of a plan. A pair that lacks a file is skipped; of every other the two
files are compared, without the ignored definitions, and the patch and the brief are written as soon
as they are there. The summary is written last. A dry run does the same and writes nothing. The
first file operation that fails ends the run.
-/

namespace ScriptDelta

/-- What ended a run. -/
inductive Failure where
  /-- The folder of the reports could not be made. -/
  | makeFolders (path : Path) (error : FileError)
  /-- A file could not be read. -/
  | read (path : Path) (error : FileError)
  /-- A report could not be written. -/
  | write (path : Path) (error : FileError)
deriving DecidableEq

namespace Failure

/-- What was not done. -/
def headline : Failure → String
  | .makeFolders path _ => "Failed to create output dir " ++ path.text
  | .read path _ => "Failed to read " ++ path.text
  | .write path _ => "Failed to write " ++ path.text

/-- Why it was not done. -/
def cause : Failure → String
  | .makeFolders _ error | .read _ error | .write _ error => error.message

end Failure

/-- The path of a patch. -/
def FilePair.patchPath (pair : FilePair) (folder : Path) : Path :=
  folder.join ⟨pair.tag ++ "_patch.json"⟩

/-- The path of a brief. -/
def FilePair.briefPath (pair : FilePair) (folder : Path) : Path :=
  folder.join ⟨pair.tag ++ "_patch.md"⟩

/-- The path of a summary. -/
def Summary.path (folder : Path) : Path :=
  folder.join ⟨"summary.json"⟩

/-- What the log says of a finding. -/
def Finding.event? (finding : Finding) : Option Event :=
  if finding.block.closed then none
  else some (.bodyNotClosed finding.key finding.place.offset)

namespace Run

variable {m : Type → Type} [Monad m] [Host m]

/-- The definitions of a text; the log names those that are not closed. -/
def search (text : String) : m Catalog := do
  let findings := Finding.all text.toList
  (findings.filterMap Finding.event?).forM Host.log
  let catalog := Catalog.ofFindings findings
  Host.log (.scanFinished catalog.size (Text.byteSize text.toList))
  return catalog

/-- The first file of a pair that does not exist. -/
def missing? (pair : FilePair) : m (Option Path) := do
  if !(← Host.isFile pair.old) then return some pair.old
  if !(← Host.isFile pair.new) then return some pair.new
  return none

variable [MonadExceptOf Failure m]

/-- The text of a file. -/
def readText (path : Path) : m String := do
  match ← Host.read path with
  | .ok bytes => return String.ofList (Text.decode bytes)
  | .error error => throw (Failure.read path error)

/-- Writes a report. -/
def write (path : Path) (text : String) : m Unit := do
  match ← Host.write path text with
  | .ok () => return
  | .error error => throw (Failure.write path error)

/-- Both versions of a pair, without the definitions whose keys are ignored. -/
def compare (pair : FilePair) (ignored : String → Bool) : m Revision := do
  let old ← readText pair.old
  let new ← readText pair.new
  let found : Revision := ⟨← search old, ← search new⟩
  let revision := found.without ignored
  Host.log (.scannedPair pair.tag revision.old.size revision.new.size)
  return revision

/-- Writes the patch and the brief of a pair. -/
def writeReports (plan : Plan) (pair : FilePair) (revision : Revision) : m Unit := do
  let patchPath := pair.patchPath plan.outputDir
  let briefPath := pair.briefPath plan.outputDir
  write patchPath (Report.patch pair revision).pretty
  write briefPath (Report.brief pair revision plan.detail)
  Host.log (.wroteReports pair.tag patchPath briefPath)

/-- Goes through one pair. -/
def step (plan : Plan) (summary : Summary) (pair : FilePair) : m Summary := do
  match ← missing? pair with
  | some path =>
    Host.log (.missingFile pair.tag path)
    return summary.skip ⟨pair.tag, path⟩
  | none =>
    let revision ← compare pair plan.ignores
    unless plan.dryRun do writeReports plan pair revision
    return summary.record pair.tag revision.tally

/-- Makes the folder of the reports. -/
def makeFolders (path : Path) : m Unit := do
  match ← Host.makeFolders path with
  | .ok () => return
  | .error error => throw (Failure.makeFolders path error)

/-- Writes the summary. -/
def writeSummary (folder : Path) (summary : Summary) : m Unit := do
  write (Summary.path folder) summary.document.pretty
  Host.log (.wroteSummary (Summary.path folder))

end Run

/-- Carries out a plan. -/
def Plan.run {m : Type → Type} [Monad m] [Host m] [MonadExceptOf Failure m] (plan : Plan) :
    m Summary := do
  unless plan.dryRun do Run.makeFolders plan.outputDir
  let summary ← plan.pairs.foldlM (Run.step plan) .empty
  unless plan.dryRun do Run.writeSummary plan.outputDir summary
  return summary

end ScriptDelta
