import ScriptDelta.Proofs.Disk.Change
import ScriptDelta.Proofs.Run.Steps

/-! # What a run comes to, from the disk it begins with

The files of the pairs decide which pairs are skipped, what the others have to report, and so the
summary. A dry run comes to that summary and leaves the disk alone (`Steps.dry`). A run that writes
comes to it as well (`Steps.wrote`), as long as no file of a pair is looked up by way of a folder or
a file that the run puts there (`Plan.Undisturbed`): then every later look-up finds what it would
have found at first. A dry run therefore predicts the run (`dryRun_predicts_run`).
-/

namespace ScriptDelta

open World

/-- The entry of a pair among the skipped ones, if it lacks a file. -/
def Disk.skipped? (disk : Disk) (pair : FilePair) : Option Skipped :=
  (disk.missing? pair).map fun path => ⟨pair.tag, path⟩

/-- Neither file of a pair is looked up by way of any of the locations. -/
def Disk.Apart (disk : Disk) (pair : FilePair) (locations : List Location) : Prop :=
  ∀ path ∈ [pair.old, pair.new], ∀ location ∈ disk.route path, location ∉ locations

instance (disk : Disk) (pair : FilePair) (locations : List Location) :
    Decidable (disk.Apart pair locations) :=
  inferInstanceAs (Decidable (∀ path ∈ [pair.old, pair.new],
    ∀ location ∈ disk.route path, location ∉ locations))

namespace Plan

/-- The row of a pair in the summary, if both files exist. -/
def row? (plan : Plan) (disk : Disk) (pair : FilePair) : Option (String × Tally) :=
  (plan.revision? disk pair).map fun revision => (pair.tag, revision.tally)

/-- A summary with some more pairs, one after the other. -/
def account (plan : Plan) (disk : Disk) (summary : Summary) (pairs : List FilePair) : Summary :=
  ⟨(pairs.filterMap (plan.row? disk)).foldl Table.insert summary.pairs,
    summary.skipped ++ pairs.filterMap disk.skipped?⟩

/-- The reports of a pair, with the locations that they go to. -/
def reports (plan : Plan) (disk : Disk) (pair : FilePair) : List (Location × List UInt8) :=
  match plan.revision? disk pair with
  | none => []
  | some revision =>
    [(disk.location (pair.patchPath plan.outputDir), pair.patchBytes revision),
      (disk.location (pair.briefPath plan.outputDir), pair.briefBytes revision plan.detail)]

/-- The locations at which a run makes a folder or writes a file. -/
def touched (plan : Plan) (disk : Disk) : List Location :=
  ((disk.route plan.outputDir).filter fun location => disk.node? location = none) ++
    (plan.pairs.flatMap (plan.reports disk)).map Prod.fst ++
    [disk.location (Summary.path plan.outputDir)]

theorem folders_subset_touched (plan : Plan) (disk : Disk) :
    ((disk.route plan.outputDir).filter fun location => disk.node? location = none) ⊆
      plan.touched disk := by
  rw [touched, List.append_assoc]
  exact List.subset_append_left ..

theorem files_subset_touched (plan : Plan) (disk : Disk) :
    (plan.pairs.flatMap (plan.reports disk)).map Prod.fst ++
      [disk.location (Summary.path plan.outputDir)] ⊆ plan.touched disk := by
  rw [touched, List.append_assoc]
  exact List.subset_append_right ..

/-- No file of a pair is looked up by way of a folder or a file that a run puts there. -/
def Undisturbed (plan : Plan) (disk : Disk) : Prop :=
  ∀ pair ∈ plan.pairs, disk.Apart pair (plan.touched disk)

instance (plan : Plan) (disk : Disk) : Decidable (plan.Undisturbed disk) :=
  inferInstanceAs (Decidable (∀ pair ∈ plan.pairs, disk.Apart pair (plan.touched disk)))

end Plan

section account

variable {plan : Plan} {disk : Disk} {pair : FilePair}

theorem Plan.account_nil (plan : Plan) (disk : Disk) (summary : Summary) :
    plan.account disk summary [] = summary := by
  simp [account]

theorem Plan.account_cons (plan : Plan) (disk : Disk) (summary : Summary) (pair : FilePair)
    (pairs : List FilePair) :
    plan.account disk summary (pair :: pairs) =
      plan.account disk (plan.account disk summary [pair]) pairs := by
  simp only [account, Summary.mk.injEq]
  constructor
  · rw [← List.foldl_append, ← List.filterMap_append, List.singleton_append]
  · rw [List.append_assoc, ← List.filterMap_append, List.singleton_append]

/-- A pair with a missing file does not have both versions. -/
theorem Plan.revision?_skipped {path : Path} (lacks : disk.missing? pair = some path) :
    plan.revision? disk pair = none := by
  have both := plan.isSome_revision? disk pair
  rw [lacks] at both
  simpa using both

theorem Plan.account_skipped {path : Path} (lacks : disk.missing? pair = some path)
    (summary : Summary) :
    plan.account disk summary [pair] = summary.skip ⟨pair.tag, path⟩ := by
  simp [account, row?, revision?_skipped lacks, Disk.skipped?, lacks, Summary.skip]

theorem Plan.reports_skipped {path : Path} (lacks : disk.missing? pair = some path) :
    plan.reports disk pair = [] := by
  rw [reports, revision?_skipped lacks]

theorem Plan.account_recorded {revision : Revision}
    (found : plan.revision? disk pair = some revision) (summary : Summary) :
    plan.account disk summary [pair] = summary.record pair.tag revision.tally := by
  simp [account, row?, found, Disk.skipped?, missing?_of_revision? found, Summary.record]

theorem Plan.reports_recorded {revision : Revision}
    (found : plan.revision? disk pair = some revision) :
    plan.reports disk pair =
      [(disk.location (pair.patchPath plan.outputDir), pair.patchBytes revision),
        (disk.location (pair.briefPath plan.outputDir), pair.briefBytes revision plan.detail)] := by
  rw [reports, found]

end account

section dry

variable {plan : Plan} {disk after : Disk} {summary : Summary} {result : Except Failure Summary}

/-- The steps of a dry run come to the summary that the files of the disk make, and leave the disk
alone. -/
theorem Steps.dry {pairs : List FilePair} (dry : plan.dryRun = true)
    (steps : Steps plan disk summary pairs result after) :
    result = .ok (plan.account disk summary pairs) ∧ after = disk := by
  induction steps with
  | done => exact ⟨by rw [Plan.account_nil], rfl⟩
  | more first rest ih =>
    cases first with
    | skipped lacks =>
      rw [Plan.account_cons, Plan.account_skipped lacks]
      exact ih
    | compared found =>
      rw [Plan.account_cons, Plan.account_recorded found]
      exact ih
    | reported found wet => simp [dry] at wet
  | stopped first =>
    cases first with
    | patchFailed found wet => simp [dry] at wet
    | briefFailed found wet => simp [dry] at wet

/-- A dry run comes to the summary that the files of the disk make, and leaves the disk alone. -/
theorem Runs.of_dry (dry : plan.dryRun = true) (runs : Runs plan disk result after) :
    result = .ok (plan.account disk .empty plan.pairs) ∧ after = disk := by
  cases runs with
  | dry _ steps => exact steps.dry dry
  | notMade wet | stopped wet | notSummarized wet | finished wet => simp [dry] at wet

end dry

section wet

variable {plan : Plan} {base now after : Disk} {locations : List Location} {summary next : Summary}

/-- Where nothing has changed on the way to a file, its bytes are the same. -/
theorem bytes?_eq {path : Path} (grounded : base.Grounded)
    (changed : Disk.ChangedWithin locations base now)
    (apart : ∀ location ∈ base.route path, location ∉ locations) :
    now.bytes? path = base.bytes? path := by
  rw [Disk.bytes?, Disk.bytes?, changed.find_eq grounded apart]

theorem missing?_eq {pair : FilePair} (grounded : base.Grounded)
    (changed : Disk.ChangedWithin locations base now) (apart : base.Apart pair locations) :
    now.missing? pair = base.missing? pair := by
  have old := bytes?_eq grounded changed (apart pair.old (by simp))
  have new := bytes?_eq grounded changed (apart pair.new (by simp))
  simp only [Disk.missing?, List.find?_cons, List.find?_nil, old, new]

theorem revision?_eq {pair : FilePair} (plan : Plan) (grounded : base.Grounded)
    (changed : Disk.ChangedWithin locations base now) (apart : base.Apart pair locations) :
    plan.revision? now pair = plan.revision? base pair := by
  have old := bytes?_eq grounded changed (apart pair.old (by simp))
  have new := bytes?_eq grounded changed (apart pair.new (by simp))
  simp only [Plan.revision?, Disk.catalog?, old, new]

/-- A step writes the reports that its pair has at first, if nothing has changed where its files are
looked up. -/
theorem Step.wrote {pair : FilePair} (wet : plan.dryRun = false) (grounded : base.Grounded)
    (changed : Disk.ChangedWithin locations base now) (apart : base.Apart pair locations)
    (step : Step plan now summary pair (.ok next) after) :
    Disk.Wrote (plan.reports base pair) now after ∧
      next = plan.account base summary [pair] := by
  cases step with
  | skipped lacks =>
    rw [missing?_eq grounded changed apart] at lacks
    rw [Plan.account_skipped lacks, Plan.reports_skipped lacks]
    exact ⟨.nil now, rfl⟩
  | compared found dry => simp [wet] at dry
  | reported found _ patch brief =>
    rw [revision?_eq plan grounded changed apart] at found
    rw [Plan.account_recorded found, Plan.reports_recorded found]
    refine ⟨?_, rfl⟩
    have nowGrounded := changed.grounded grounded
    have wrotePatch := Disk.Wrote.single nowGrounded patch
    have wroteBrief := Disk.Wrote.single (wrotePatch.changedWithin.grounded nowGrounded) brief
    rw [Disk.location_congr wrotePatch.current] at wroteBrief
    rw [← Disk.location_congr changed.current, ← Disk.location_congr changed.current]
    exact wrotePatch.append wroteBrief

/-- The steps of a run that writes come to the summary that the files make at first, and write the
reports that the pairs have at first. -/
theorem Steps.wrote {pairs : List FilePair} (wet : plan.dryRun = false) (grounded : base.Grounded)
    (changed : Disk.ChangedWithin locations base now)
    (apart : ∀ pair ∈ pairs, base.Apart pair locations)
    (within : (pairs.flatMap (plan.reports base)).map Prod.fst ⊆ locations)
    (steps : Steps plan now summary pairs (.ok next) after) :
    Disk.Wrote (pairs.flatMap (plan.reports base)) now after ∧
      next = plan.account base summary pairs := by
  generalize ended : Except.ok next = result at steps
  induction steps with
  | done =>
    obtain rfl := Except.ok.inj ended
    exact ⟨.nil _, (Plan.account_nil ..).symm⟩
  | stopped first => contradiction
  | more first rest ih =>
    -- The reports of the first pair go to the locations, so the other files are not affected.
    obtain ⟨here, further⟩ := List.forall_mem_cons.mp apart
    rw [List.flatMap_cons, List.map_append, List.append_subset] at within
    obtain ⟨wroteFirst, rfl⟩ := first.wrote wet grounded changed here
    have stillChanged := changed.trans (wroteFirst.changedWithin.mono within.1)
    obtain ⟨wroteRest, rfl⟩ := ih stillChanged further within.2 ended
    exact ⟨wroteFirst.append wroteRest, (Plan.account_cons ..).symm⟩

/-- A run that writes makes the folder of the reports, comes to the summary that the files make at
first, and writes the reports that the pairs have at first and the summary. -/
theorem Runs.wrote (wet : plan.dryRun = false) (grounded : base.Grounded)
    (undisturbed : plan.Undisturbed base) (runs : Runs plan base (.ok summary) after) :
    summary = plan.account base .empty plan.pairs ∧
      ∃ start, Disk.FoldersMade (base.route plan.outputDir) base start ∧
        (∀ location ∈ base.route plan.outputDir, start.node? location = some .folder) ∧
        Disk.Wrote (plan.pairs.flatMap (plan.reports base) ++
          [(base.location (Summary.path plan.outputDir), summary.bytes)]) start after := by
  cases runs with
  | dry dry => simp [wet] at dry
  | @finished start middle _ _ _ made steps written =>
    obtain ⟨foldersMade, paved⟩ := Disk.makeFolders_spec grounded made
    have changed := foldersMade.changedWithin.mono (plan.folders_subset_touched base)
    have within := List.Subset.trans (List.subset_append_left ..) (plan.files_subset_touched base)
    obtain ⟨wroteReports, rfl⟩ := steps.wrote wet grounded changed undisturbed within
    have startGrounded := foldersMade.grounded grounded
    have middleGrounded := wroteReports.changedWithin.grounded startGrounded
    have wroteSummary := Disk.Wrote.single middleGrounded written
    rw [Disk.location_congr wroteReports.current, Disk.location_congr foldersMade.current]
      at wroteSummary
    exact ⟨rfl, start, foldersMade, paved rfl, wroteReports.append wroteSummary⟩

end wet

/-- A dry run leaves the disk as it is, and comes to the summary of any run that writes and
succeeds. -/
theorem dryRun_predicts_run (plan : Plan) (world : World) :
    (perform { plan with dryRun := true }.run world).2.disk = world.disk ∧
      (world.disk.Grounded → plan.Undisturbed world.disk → ∀ summary,
        (perform { plan with dryRun := false }.run world).1 = .ok summary →
        (perform { plan with dryRun := true }.run world).1 = .ok summary) := by
  obtain ⟨forecast, untouched⟩ := (runs_of_perform { plan with dryRun := true } world).of_dry rfl
  refine ⟨untouched, ?_⟩
  intro grounded apart summary success
  -- Neither what a run touches nor its summary depends on whether it is dry.
  have undisturbed : { plan with dryRun := false }.Undisturbed world.disk := apart
  have runs := runs_of_perform { plan with dryRun := false } world
  rw [success] at runs
  obtain ⟨rfl, -⟩ := runs.wrote rfl grounded undisturbed
  exact forecast

/-- Of two pairs one lacks a file, and the folder of the reports and the one it lies in are new. -/
theorem dryRun_predicts_run_skipping :
    let pairs : List FilePair := [⟨⟨"a.js"⟩, ⟨"b.js"⟩, "t"⟩, ⟨⟨"a.js"⟩, ⟨"c.js"⟩, "u"⟩]
    let plan : Plan := ⟨⟨"out/r"⟩, pairs, [], {}, false⟩
    let world : World :=
      ⟨⟨.folder [("a.js", .file (bytes "function f() \x7b\x7d")), ("b.js", .file [])], []⟩, #[]⟩
    let summary : Summary := ⟨.ofList [("t", ⟨0, 1, 0, 0⟩)], [⟨"u", ⟨"c.js"⟩⟩]⟩
    world.disk.Grounded ∧ plan.Undisturbed world.disk ∧
      (perform { plan with dryRun := false }.run world).1 = .ok summary ∧
      (perform { plan with dryRun := true }.run world).1 = .ok summary := by
  intro pairs plan world summary
  have grounded : world.disk.Grounded := by decide +kernel
  have undisturbed : plan.Undisturbed world.disk := by decide +kernel
  have success : (perform { plan with dryRun := false }.run world).1 = .ok summary := by
    decide +kernel
  refine ⟨grounded, undisturbed, success, ?_⟩
  exact (dryRun_predicts_run plan world).2 grounded undisturbed summary success

end ScriptDelta
