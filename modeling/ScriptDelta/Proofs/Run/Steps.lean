import ScriptDelta.Proofs.Run.Ending

/-! # Runs step by step

A step of a run skips a pair, compares it, or reports it, and one of its two reports may fail
(`Step`). The steps of a plan go on until one fails (`Steps`), between making the folder of the
reports and writing the summary (`Runs`). A run ends in one of these ways and in no other
(`exists_runs`, `Runs.perform_eq`).
-/

namespace ScriptDelta

/-- The bytes of the file that a path leads to, if there is one. -/
def Disk.bytes? (disk : Disk) (path : Path) : Option (List UInt8) :=
  match disk.find path with
  | .ok (.file bytes) => some bytes
  | _ => none

/-- The definitions in the file that a path leads to, if there is one. -/
def Disk.catalog? (disk : Disk) (path : Path) : Option Catalog :=
  (disk.bytes? path).map fun bytes => Catalog.ofText (String.ofList (Text.decode bytes))

/-- The first file of a pair that does not exist. -/
def Disk.missing? (disk : Disk) (pair : FilePair) : Option Path :=
  [pair.old, pair.new].find? fun path => (disk.bytes? path).isNone

/-- Both versions of a pair without the ignored definitions, if both files exist. -/
def Plan.revision? (plan : Plan) (disk : Disk) (pair : FilePair) : Option Revision := do
  let found : Revision := ⟨← disk.catalog? pair.old, ← disk.catalog? pair.new⟩
  return found.without plan.ignores

/-- What the patch of a pair holds. -/
def FilePair.patchBytes (pair : FilePair) (revision : Revision) : List UInt8 :=
  World.bytes (Report.patch pair revision).pretty

/-- What the brief of a pair holds. -/
def FilePair.briefBytes (pair : FilePair) (revision : Revision) (detail : Report.Detail) :
    List UInt8 :=
  World.bytes (Report.brief pair revision detail)

/-- What the summary of a run holds. -/
def Summary.bytes (summary : Summary) : List UInt8 :=
  World.bytes summary.document.pretty

section reading

variable {disk : Disk} {path : Path} {pair : FilePair}

theorem Disk.isFile_eq (disk : Disk) (path : Path) :
    disk.isFile path = (disk.bytes? path).isSome := by
  rw [isFile, bytes?]
  cases disk.find path with
  | error error => rfl
  | ok node => cases node <;> rfl

theorem Disk.read_of_bytes? {bytes : List UInt8} (found : disk.bytes? path = some bytes) :
    disk.read path = .ok bytes := by
  rw [bytes?] at found
  split at found
  next there =>
    obtain rfl := Option.some.inj found
    rw [read, there]
    rfl
  next => contradiction

theorem Disk.missing?_eq (disk : Disk) (pair : FilePair) :
    disk.missing? pair =
      if !disk.isFile pair.old then some pair.old
      else if !disk.isFile pair.new then some pair.new else none := by
  rw [isFile_eq, isFile_eq, missing?]
  cases old : disk.bytes? pair.old <;> cases new : disk.bytes? pair.new <;> simp [old, new]

/-- A pair has both versions exactly if it lacks no file. -/
theorem Plan.isSome_revision? (plan : Plan) (disk : Disk) (pair : FilePair) :
    (plan.revision? disk pair).isSome = (disk.missing? pair).isNone := by
  rw [revision?, Disk.missing?, Disk.catalog?, Disk.catalog?]
  cases old : disk.bytes? pair.old <;> cases new : disk.bytes? pair.new <;> simp [old, new]

end reading

open World

section ends

variable {disk after : Disk}

theorem ends_search (text : String) (disk : Disk) :
    Ends (Run.search text) disk (.ok (Catalog.ofText text)) disk := by
  apply Ends.bind (Ends.forM_log _ disk)
  apply Ends.bind (Ends.log _ disk)
  exact Ends.pure _ disk

theorem ends_missing (pair : FilePair) (disk : Disk) :
    Ends (Run.missing? pair) disk (.ok (disk.missing? pair)) disk := by
  rw [Disk.missing?_eq]
  apply Ends.bind (Ends.isFile pair.old disk)
  cases disk.isFile pair.old with
  | false => exact Ends.pure _ disk
  | true =>
    apply Ends.bind (Ends.isFile pair.new disk)
    cases disk.isFile pair.new with
    | false => exact Ends.pure _ disk
    | true => exact Ends.pure _ disk

theorem ends_readText {path : Path} {bytes : List UInt8} (found : disk.bytes? path = some bytes) :
    Ends (Run.readText path) disk (.ok (String.ofList (Text.decode bytes))) disk := by
  apply Ends.bind (Ends.read path disk)
  rw [Disk.read_of_bytes? found]
  exact Ends.pure _ disk

/-- Of two files that are there the definitions are compared, without those that are ignored. -/
theorem ends_compare_without {pair : FilePair} {old new : Catalog}
    (oldFound : disk.catalog? pair.old = some old) (newFound : disk.catalog? pair.new = some new)
    (ignored : String → Bool) :
    Ends (Run.compare pair ignored) disk (.ok ((Revision.mk old new).without ignored)) disk := by
  simp only [Disk.catalog?, Option.map_eq_some_iff] at oldFound newFound
  obtain ⟨oldBytes, oldFound, rfl⟩ := oldFound
  obtain ⟨newBytes, newFound, rfl⟩ := newFound
  apply Ends.bind (ends_readText oldFound)
  apply Ends.bind (ends_readText newFound)
  apply Ends.bind (ends_search _ disk)
  apply Ends.bind (ends_search _ disk)
  apply Ends.bind (Ends.log _ disk)
  exact Ends.pure _ disk

theorem ends_compare {plan : Plan} {pair : FilePair} {revision : Revision}
    (found : plan.revision? disk pair = some revision) :
    Ends (Run.compare pair plan.ignores) disk (.ok revision) disk := by
  simp only [Plan.revision?, bind, Option.bind_eq_some_iff] at found
  obtain ⟨old, oldFound, new, newFound, found⟩ := found
  obtain rfl := Option.some.inj found
  exact ends_compare_without oldFound newFound plan.ignores

theorem ends_write {path : Path} {text : String}
    (written : disk.write path (World.bytes text) = .ok after) :
    Ends (Run.write path text) disk (.ok ()) after := by
  apply Ends.bind (Ends.write written)
  exact Ends.pure _ after

theorem ends_write_error {path : Path} {text : String} {error : FileError}
    (failed : disk.write path (World.bytes text) = .error error) :
    Ends (Run.write path text) disk (.error (.write path error)) disk := by
  apply Ends.bind (Ends.write_error failed)
  exact Ends.throw _ disk

end ends

/-- The ways that a step through a pair may end. -/
inductive Step (plan : Plan) (disk : Disk) (summary : Summary) (pair : FilePair) :
    Except Failure Summary → Disk → Prop where
  /-- A file is missing. -/
  | skipped {path : Path} (lacks : disk.missing? pair = some path) :
      Step plan disk summary pair (.ok (summary.skip ⟨pair.tag, path⟩)) disk
  /-- Nothing is to be written. -/
  | compared {revision : Revision} (found : plan.revision? disk pair = some revision)
      (dry : plan.dryRun = true) :
      Step plan disk summary pair (.ok (summary.record pair.tag revision.tally)) disk
  /-- Both reports are written. -/
  | reported {revision : Revision} {middle after : Disk}
      (found : plan.revision? disk pair = some revision) (wet : plan.dryRun = false)
      (patch : disk.write (pair.patchPath plan.outputDir) (pair.patchBytes revision) = .ok middle)
      (brief : middle.write (pair.briefPath plan.outputDir)
        (pair.briefBytes revision plan.detail) = .ok after) :
      Step plan disk summary pair (.ok (summary.record pair.tag revision.tally)) after
  /-- The patch cannot be written. -/
  | patchFailed {revision : Revision} {error : FileError}
      (found : plan.revision? disk pair = some revision) (wet : plan.dryRun = false)
      (patch : disk.write (pair.patchPath plan.outputDir) (pair.patchBytes revision) =
        .error error) :
      Step plan disk summary pair (.error (.write (pair.patchPath plan.outputDir) error)) disk
  /-- The patch is written and the brief cannot be. -/
  | briefFailed {revision : Revision} {middle : Disk} {error : FileError}
      (found : plan.revision? disk pair = some revision) (wet : plan.dryRun = false)
      (patch : disk.write (pair.patchPath plan.outputDir) (pair.patchBytes revision) = .ok middle)
      (brief : middle.write (pair.briefPath plan.outputDir)
        (pair.briefBytes revision plan.detail) = .error error) :
      Step plan disk summary pair (.error (.write (pair.briefPath plan.outputDir) error)) middle

/-- Steps through some pairs, up to the first that fails. -/
inductive Steps (plan : Plan) :
    Disk → Summary → List FilePair → Except Failure Summary → Disk → Prop where
  | done {disk : Disk} {summary : Summary} : Steps plan disk summary [] (.ok summary) disk
  | more {disk middle after : Disk} {summary next : Summary} {pair : FilePair}
      {pairs : List FilePair} {result : Except Failure Summary}
      (first : Step plan disk summary pair (.ok next) middle)
      (rest : Steps plan middle next pairs result after) :
      Steps plan disk summary (pair :: pairs) result after
  | stopped {disk after : Disk} {summary : Summary} {pair : FilePair} {pairs : List FilePair}
      {failure : Failure} (first : Step plan disk summary pair (.error failure) after) :
      Steps plan disk summary (pair :: pairs) (.error failure) after

/-- The ways that a run of a plan may end. -/
inductive Runs (plan : Plan) (disk : Disk) : Except Failure Summary → Disk → Prop where
  /-- Nothing is to be written. -/
  | dry {result : Except Failure Summary} {after : Disk} (dry : plan.dryRun = true)
      (steps : Steps plan disk .empty plan.pairs result after) : Runs plan disk result after
  /-- The folder of the reports cannot be made. -/
  | notMade {after : Disk} {error : FileError} (wet : plan.dryRun = false)
      (made : disk.makeFolders plan.outputDir = (.error error, after)) :
      Runs plan disk (.error (.makeFolders plan.outputDir error)) after
  /-- A step fails. -/
  | stopped {start after : Disk} {failure : Failure} (wet : plan.dryRun = false)
      (made : disk.makeFolders plan.outputDir = (.ok (), start))
      (steps : Steps plan start .empty plan.pairs (.error failure) after) :
      Runs plan disk (.error failure) after
  /-- The summary cannot be written. -/
  | notSummarized {start after : Disk} {summary : Summary} {error : FileError}
      (wet : plan.dryRun = false) (made : disk.makeFolders plan.outputDir = (.ok (), start))
      (steps : Steps plan start .empty plan.pairs (.ok summary) after)
      (failed : after.write (Summary.path plan.outputDir) summary.bytes = .error error) :
      Runs plan disk (.error (.write (Summary.path plan.outputDir) error)) after
  /-- The summary is written. -/
  | finished {start middle after : Disk} {summary : Summary} (wet : plan.dryRun = false)
      (made : disk.makeFolders plan.outputDir = (.ok (), start))
      (steps : Steps plan start .empty plan.pairs (.ok summary) middle)
      (written : middle.write (Summary.path plan.outputDir) summary.bytes = .ok after) :
      Runs plan disk (.ok summary) after

section steps

variable {plan : Plan} {disk after : Disk} {summary : Summary} {pair : FilePair}
  {result : Except Failure Summary}

/-- A pair without a missing file has both versions. -/
theorem missing?_of_revision? {revision : Revision}
    (found : plan.revision? disk pair = some revision) : disk.missing? pair = none := by
  have both := plan.isSome_revision? disk pair
  rw [found] at both
  exact Option.isNone_iff_eq_none.mp both.symm

theorem Step.ends (step : Step plan disk summary pair result after) :
    Ends (Run.step plan summary pair) disk result after := by
  apply Ends.bind (ends_missing pair disk)
  cases step with
  | skipped lacks =>
    rw [lacks]
    apply Ends.bind (Ends.log _ disk)
    exact Ends.pure _ disk
  | compared found dry =>
    rw [missing?_of_revision? found]
    apply Ends.bind (ends_compare found)
    rw [dry]
    exact Ends.pure _ disk
  | reported found wet patch brief =>
    rw [missing?_of_revision? found]
    apply Ends.bind (ends_compare found)
    rw [wet]
    apply Ends.bind
    · apply Ends.bind (ends_write patch)
      apply Ends.bind (ends_write brief)
      exact Ends.log _ _
    · exact Ends.pure _ _
  | patchFailed found wet patch =>
    rw [missing?_of_revision? found]
    apply Ends.bind (ends_compare found)
    rw [wet]
    apply Ends.bind_error
    exact Ends.bind_error (ends_write_error patch)
  | briefFailed found wet patch brief =>
    rw [missing?_of_revision? found]
    apply Ends.bind (ends_compare found)
    rw [wet]
    apply Ends.bind_error
    apply Ends.bind (ends_write patch)
    exact Ends.bind_error (ends_write_error brief)

/-- A step ends in some way. -/
theorem exists_step (plan : Plan) (disk : Disk) (summary : Summary) (pair : FilePair) :
    ∃ result after, Step plan disk summary pair result after := by
  cases lacks : disk.missing? pair with
  | some path => exact ⟨_, _, .skipped lacks⟩
  | none =>
    have both := plan.isSome_revision? disk pair
    rw [lacks] at both
    obtain ⟨revision, found⟩ := Option.isSome_iff_exists.mp both
    cases mode : plan.dryRun with
    | true => exact ⟨_, _, .compared found mode⟩
    | false =>
      cases patch : disk.write (pair.patchPath plan.outputDir) (pair.patchBytes revision) with
      | error error => exact ⟨_, _, .patchFailed found mode patch⟩
      | ok middle =>
        cases brief : middle.write (pair.briefPath plan.outputDir)
          (pair.briefBytes revision plan.detail) with
        | error error => exact ⟨_, _, .briefFailed found mode patch brief⟩
        | ok after => exact ⟨_, _, .reported found mode patch brief⟩

theorem Steps.ends {pairs : List FilePair} (steps : Steps plan disk summary pairs result after) :
    Ends (pairs.foldlM (Run.step plan) summary) disk result after := by
  induction steps with
  | done => exact Ends.pure _ _
  | more first rest ih =>
    rw [List.foldlM_cons]
    exact Ends.bind first.ends ih
  | stopped first =>
    rw [List.foldlM_cons]
    exact Ends.bind_error first.ends

/-- Steps through some pairs end in some way. -/
theorem exists_steps (plan : Plan) (disk : Disk) (summary : Summary) (pairs : List FilePair) :
    ∃ result after, Steps plan disk summary pairs result after := by
  induction pairs generalizing disk summary with
  | nil => exact ⟨_, _, .done⟩
  | cons pair pairs ih =>
    obtain ⟨result, middle, first⟩ := exists_step plan disk summary pair
    cases result with
    | error failure => exact ⟨_, _, .stopped first⟩
    | ok next =>
      obtain ⟨result, after, rest⟩ := ih middle next
      exact ⟨_, _, .more first rest⟩

theorem ends_makeFolders {path : Path} (made : disk.makeFolders path = (.ok (), after)) :
    Ends (Run.makeFolders path) disk (.ok ()) after := by
  apply Ends.bind (Ends.makeFolders made)
  exact Ends.pure _ _

theorem ends_makeFolders_error {path : Path} {error : FileError}
    (failed : disk.makeFolders path = (.error error, after)) :
    Ends (Run.makeFolders path) disk (.error (.makeFolders path error)) after := by
  apply Ends.bind (Ends.makeFolders failed)
  exact Ends.throw _ _

/-- A dry run is its steps. -/
theorem ends_run_dry (dry : plan.dryRun = true)
    (steps : Steps plan disk .empty plan.pairs result after) : Ends plan.run disk result after := by
  rw [Plan.run, dry, if_pos rfl]
  cases result with
  | error failure => exact Ends.bind_error steps.ends
  | ok summary =>
    apply Ends.bind steps.ends
    exact Ends.pure _ _

theorem Runs.ends (runs : Runs plan disk result after) : Ends plan.run disk result after := by
  cases runs with
  | dry dry steps => exact ends_run_dry dry steps
  | notMade wet made =>
    rw [Plan.run, wet]
    exact Ends.bind_error (ends_makeFolders_error made)
  | stopped wet made steps =>
    rw [Plan.run, wet]
    apply Ends.bind (ends_makeFolders made)
    exact Ends.bind_error steps.ends
  | notSummarized wet made steps failed =>
    rw [Plan.run, wet]
    apply Ends.bind (ends_makeFolders made)
    apply Ends.bind steps.ends
    apply Ends.bind_error
    exact Ends.bind_error (ends_write_error failed)
  | finished wet made steps written =>
    rw [Plan.run, wet]
    apply Ends.bind (ends_makeFolders made)
    apply Ends.bind steps.ends
    apply Ends.bind
    · apply Ends.bind (ends_write written)
      exact Ends.log _ _
    · exact Ends.pure _ _

/-- A run ends in some way. -/
theorem exists_runs (plan : Plan) (disk : Disk) : ∃ result after, Runs plan disk result after := by
  cases mode : plan.dryRun with
  | true =>
    obtain ⟨result, after, steps⟩ := exists_steps plan disk .empty plan.pairs
    exact ⟨_, _, .dry mode steps⟩
  | false =>
    cases made : disk.makeFolders plan.outputDir with
    | mk outcome start =>
      cases outcome with
      | error error => exact ⟨_, _, .notMade mode made⟩
      | ok =>
        obtain ⟨result, middle, steps⟩ := exists_steps plan start .empty plan.pairs
        cases result with
        | error failure => exact ⟨_, _, .stopped mode made steps⟩
        | ok summary =>
          cases written : middle.write (Summary.path plan.outputDir) summary.bytes with
          | error error => exact ⟨_, _, .notSummarized mode made steps written⟩
          | ok after => exact ⟨_, _, .finished mode made steps written⟩

/-- What a run in a world does is one of the ways that a run may end. -/
theorem runs_of_perform (plan : Plan) (world : World) :
    Runs plan world.disk (perform plan.run world).1 (perform plan.run world).2.disk := by
  obtain ⟨result, after, runs⟩ := exists_runs plan world.disk
  obtain ⟨sameResult, sameDisk⟩ := runs.ends.perform_eq
  rwa [sameResult, sameDisk]

end steps

end ScriptDelta
