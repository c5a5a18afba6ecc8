import ScriptDelta.Proofs.Comparison.Ignoring
import ScriptDelta.Proofs.Json.Reading
import ScriptDelta.Proofs.Run.Account
import ScriptDelta.Proofs.Run.Reports

/-! # The effect of a successful run

A successful run makes the folder of the reports, writes the reports of the pairs whose files both
exist and the summary, and changes nothing else (`effect_of_run`). The reports are those of the
files as they were before the run, without the definitions that a pattern of the plan accepts
(`Plan.Compares`). The file of the summary reads back as the counts of these pairs under their tags
(`Plan.Summarizes`).
-/

namespace ScriptDelta

open World

/-- The file at the location holds the text in UTF-8. -/
def Disk.Holds (disk : Disk) (location : Location) (text : String) : Prop :=
  disk.node? location = some (.file text.toUTF8.data.toList)

/-- How many keys are in each of the four lists, as an object in JSON. -/
def Comparison.counts (comparison : Comparison) : Json :=
  .object [("added", .number comparison.added.length),
    ("removed", .number comparison.removed.length),
    ("changed", .number comparison.changed.length),
    ("unchanged", .number comparison.unchanged.length)]

namespace Plan

/-- The catalog has the definitions of the text whose keys no pattern of the plan accepts. -/
def Keeps (plan : Plan) (text : String) (catalog : Catalog) : Prop :=
  catalog.rows = (Catalog.ofText text).rows.filter fun definition =>
    !ignoredBy Glob.accepts plan.ignore definition.key

/-- Both files of the pair exist, and the revision has the definitions kept of their texts. -/
structure Compares (plan : Plan) (disk : Disk) (pair : FilePair) (revision : Revision) : Prop where
  old : ∃ text, disk.text? pair.old = some text ∧ plan.Keeps text revision.old
  new : ∃ text, disk.text? pair.new = some text ∧ plan.Keeps text revision.new

/-- The text is an object in JSON with a member for every pair that is compared, in the order of the
tags: the tag of the pair, and how many keys are in each of its four lists. -/
def Summarizes (plan : Plan) (disk : Disk) (text : String) : Prop :=
  ∃ members, Json.read? text = some (.object members) ∧
    (members.map Prod.fst).Pairwise (· < ·) ∧
    ∀ member, member ∈ members ↔ ∃ pair ∈ plan.pairs, ∃ revision,
      plan.Compares disk pair revision ∧ member = (pair.tag, revision.comparison.counts)

/-- What a successful run leaves behind, as the disk before it says. -/
structure Effect (plan : Plan) (before after : Disk) (summary : Summary) : Prop where
  current : after.current = before.current
  /-- The folder of the reports is there, at the end of a row of folders that were there or missing. -/
  folders : ∀ location ∈ before.route plan.outputDir, after.node? location = some .folder ∧
    (before.node? location = none ∨ before.node? location = some .folder)
  /-- A pair whose files both exist has its reports in the folder. -/
  reports : ∀ pair ∈ plan.pairs, before.isFile pair.old = true → before.isFile pair.new = true →
    ∃ revision, plan.Compares before pair revision ∧
      after.Holds (before.location plan.outputDir ++ [pair.patchName])
        (Report.patch pair revision).pretty ∧
      after.Holds (before.location plan.outputDir ++ [pair.briefName])
        (Report.brief pair revision plan.detail)
  /-- The file of the summary is in the folder, and it has the counts of the pairs compared. -/
  summarized : ∃ text, after.Holds (before.location plan.outputDir ++ ["summary.json"]) text ∧
    plan.Summarizes before text
  /-- Anywhere else there is what there was. -/
  elsewhere : ∀ location, location ∉ before.route plan.outputDir →
    location ≠ before.location plan.outputDir ++ ["summary.json"] →
    (∀ pair ∈ plan.pairs, before.isFile pair.old = true → before.isFile pair.new = true →
      location ≠ before.location plan.outputDir ++ [pair.patchName] ∧
        location ≠ before.location plan.outputDir ++ [pair.briefName]) →
    after.node? location = before.node? location
  /-- The summary itself has the same counts. -/
  rows : ∀ row, row ∈ summary.pairs.rows ↔
    ∃ pair ∈ plan.pairs, ∃ revision, plan.Compares before pair revision ∧
      row = (pair.tag, ⟨revision.comparison.added.length, revision.comparison.removed.length,
        revision.comparison.changed.length, revision.comparison.unchanged.length⟩)
  /-- The other pairs are skipped, in the order of the plan, each with its first missing file. -/
  skipped : summary.skipped = plan.pairs.filterMap before.skipped?
  /-- Every tag is in the summary once. -/
  tags : (summary.pairs.keys ++ summary.skipped.map Skipped.tag).Perm (plan.pairs.map FilePair.tag)
  distinct : (plan.pairs.map FilePair.tag).Nodup
  total : summary.total =
    ⟨(summary.pairs.rows.map fun row => row.2.added).sum,
      (summary.pairs.rows.map fun row => row.2.removed).sum,
      (summary.pairs.rows.map fun row => row.2.changed).sum,
      (summary.pairs.rows.map fun row => row.2.unchanged).sum⟩

end Plan

/-- The total of a summary is the sum of its rows. -/
theorem Summary.total_eq (summary : Summary) :
    summary.total =
      ⟨(summary.pairs.rows.map fun row => row.2.added).sum,
        (summary.pairs.rows.map fun row => row.2.removed).sum,
        (summary.pairs.rows.map fun row => row.2.changed).sum,
        (summary.pairs.rows.map fun row => row.2.unchanged).sum⟩ := by
  simp only [total, Tally.sum_eq, List.map_map, Function.comp_def]

theorem Plan.exists_revision_iff (plan : Plan) (disk : Disk) (pair : FilePair) :
    (∃ revision, plan.revision? disk pair = some revision) ↔
      disk.isFile pair.old = true ∧ disk.isFile pair.new = true := by
  rw [← Option.isSome_iff_exists, plan.isSome_revision?, Disk.missing?_eq]
  cases disk.isFile pair.old <;> cases disk.isFile pair.new <;> simp

/-- What is kept is what is not ignored. -/
theorem Plan.keeps_iff {plan : Plan} {text : String} {catalog : Catalog} :
    plan.Keeps text catalog ↔
      (Catalog.ofText text).filter (fun definition => !plan.ignores definition.key) = catalog := by
  rw [Keeps, plan.ignores_eq, Table.filter_eq_iff]

/-- A pair is compared exactly if a run finds both versions of it. -/
theorem Plan.revision?_eq_some_iff {plan : Plan} {disk : Disk} {pair : FilePair}
    {revision : Revision} :
    plan.revision? disk pair = some revision ↔ plan.Compares disk pair revision := by
  obtain ⟨old, new⟩ := revision
  simp only [revision?, Disk.catalog?_eq, bind, Option.bind_eq_some_iff, Option.map_eq_some_iff,
    Revision.without, pure, Option.some.injEq, Revision.mk.injEq]
  constructor
  · rintro ⟨_, ⟨oldText, oldFound, rfl⟩, _, ⟨newText, newFound, rfl⟩, oldKept, newKept⟩
    exact ⟨⟨oldText, oldFound, keeps_iff.mpr oldKept⟩, ⟨newText, newFound, keeps_iff.mpr newKept⟩⟩
  · rintro ⟨⟨oldText, oldFound, oldKept⟩, ⟨newText, newFound, newKept⟩⟩
    exact ⟨_, ⟨oldText, oldFound, rfl⟩, _, ⟨newText, newFound, rfl⟩, keeps_iff.mp oldKept,
      keeps_iff.mp newKept⟩

/-- The summary that the files make reads back as the counts of the pairs that are compared. -/
theorem Plan.summarizes_account {plan : Plan} (distinct : (plan.pairs.map FilePair.tag).Nodup)
    (disk : Disk) : plan.Summarizes disk (plan.account disk .empty plan.pairs).document.pretty := by
  refine ⟨_, Json.read?_write (.indented 0) _, ?_, ?_⟩
  · rw [List.map_map]
    exact (plan.account disk .empty plan.pairs).pairs.sorted_keys
  · intro member
    simp only [List.mem_map, Plan.mem_rows_account distinct plan disk, revision?_eq_some_iff]
    constructor
    · rintro ⟨_, ⟨pair, isPair, revision, compared, rfl⟩, rfl⟩
      exact ⟨pair, isPair, revision, compared, rfl⟩
    · rintro ⟨pair, isPair, revision, compared, rfl⟩
      exact ⟨_, ⟨pair, isPair, revision, compared, rfl⟩, rfl⟩

section effect

variable {plan : Plan} {before start after : Disk} {summary : Summary}
  {writes : List (Location × List UInt8)}

/-- A file that is written to a place of its own is there after the run. -/
theorem node?_of_wrote (distinct : (writes.map Prod.fst).Nodup)
    (wrote : Disk.Wrote writes start after) {location : Location} {bytes : List UInt8}
    (member : (location, bytes) ∈ writes) : after.node? location = some (.file bytes) := by
  rw [wrote.node?, Disk.overwritten_of_mem distinct member]

/-- Where no folder is made and no file is written there is what there was. -/
theorem node?_elsewhere {locations : List Location}
    (foldersMade : Disk.FoldersMade locations before start)
    (wrote : Disk.Wrote writes start after) {location : Location} (offRoute : location ∉ locations)
    (notWritten : location ∉ writes.map Prod.fst) :
    after.node? location = before.node? location := by
  rw [wrote.node?, Disk.overwritten_of_not_mem notWritten]
  obtain same | ⟨onRoute, -, -⟩ := foldersMade.node? location
  · exact same
  · contradiction

/-- Once the folder of the reports is made and the reports are written, a run has its effect. -/
theorem effect_of_wrote (distinct : (plan.pairs.map FilePair.tag).Nodup)
    (slashFree : ∀ pair ∈ plan.pairs, Path.SlashFree pair.tag)
    (foldersMade : Disk.FoldersMade (before.route plan.outputDir) before start)
    (paved : ∀ location ∈ before.route plan.outputDir, start.node? location = some .folder)
    (counted : summary = plan.account before .empty plan.pairs)
    (wrote : Disk.Wrote (plan.pairs.flatMap (plan.reports before) ++
      [(before.location (Summary.path plan.outputDir), summary.bytes)]) start after) :
    plan.Effect before after summary where
  current := wrote.current.trans foldersMade.current
  folders location onRoute := by
    refine ⟨wrote.folder (paved location onRoute), ?_⟩
    obtain same | ⟨-, nothing, -⟩ := foldersMade.node? location
    · exact .inr (same ▸ paved location onRoute)
    · exact .inl nothing
  reports := by
    intro pair member old new
    obtain ⟨revision, found⟩ := (plan.exists_revision_iff before pair).mpr ⟨old, new⟩
    have apart := plan.nodup_locations before distinct slashFree summary.bytes
    have written {location : Location} {bytes : List UInt8}
        (isReport : (location, bytes) ∈ plan.reports before pair) :
        after.node? location = some (.file bytes) := by
      apply node?_of_wrote apart wrote
      exact List.mem_append_left _ (List.mem_flatMap.mpr ⟨pair, member, isReport⟩)
    refine ⟨revision, Plan.revision?_eq_some_iff.mp found, written ?_, written ?_⟩
    · exact (Plan.mem_reports_iff (slashFree pair member)).mpr ⟨revision, found, .inl ⟨rfl, rfl⟩⟩
    · exact (Plan.mem_reports_iff (slashFree pair member)).mpr ⟨revision, found, .inr ⟨rfl, rfl⟩⟩
  summarized := by
    refine ⟨summary.document.pretty, ?_, counted ▸ Plan.summarizes_account distinct before⟩
    rw [← Summary.location_path]
    apply node?_of_wrote (plan.nodup_locations before distinct slashFree summary.bytes) wrote
    exact List.mem_append_right _ (List.mem_singleton_self _)
  elsewhere := by
    intro location offRoute noSummary noReport
    apply node?_elsewhere foldersMade wrote offRoute
    apply Plan.not_mem_locations slashFree summary.bytes noSummary
    intro pair member revision found
    obtain ⟨old, new⟩ := (plan.exists_revision_iff before pair).mp ⟨revision, found⟩
    exact noReport pair member old new
  rows row := by
    rw [counted, Plan.mem_rows_account distinct]
    simp only [Plan.revision?_eq_some_iff]
    rfl
  skipped := by rw [counted, Plan.account_empty]
  tags := by
    rw [counted]
    exact Plan.perm_tags_account distinct plan before
  distinct := distinct
  total := Summary.total_eq summary

end effect

/-- A successful run of a plan that arguments make writes the reports of the pairs whose files both
exist, and the summary, into the folder of the reports, and changes nothing else. -/
theorem effect_of_run {arguments : Arguments} {plan : Plan} {world after : World}
    {summary : Summary} (planned : Plan.ofArguments arguments = .ok plan)
    (wet : plan.dryRun = false) (slashFree : ∀ pair ∈ plan.pairs, Path.SlashFree pair.tag)
    (grounded : world.disk.Grounded) (undisturbed : plan.Undisturbed world.disk)
    (ran : perform plan.run world = (.ok summary, after)) :
    plan.Effect world.disk after.disk summary := by
  have runs := runs_of_perform plan world
  rw [ran] at runs
  obtain ⟨counted, start, foldersMade, paved, wrote⟩ := runs.wrote wet grounded undisturbed
  exact effect_of_wrote (Plan.nodup_tags planned) slashFree foldersMade paved counted wrote

/-- Of two pairs one lacks a file, and the folder of the reports and the one it lies in are new. -/
theorem effect_of_run_skipping :
    let arguments : Arguments :=
      { outputDir := ⟨"out/r"⟩, pairs := ["a.js:b.js:t", "a.js:c.js:u"] }
    let pairs : List FilePair :=
      [⟨⟨"mv/a.js"⟩, ⟨"mz/b.js"⟩, "t"⟩, ⟨⟨"mv/a.js"⟩, ⟨"mz/c.js"⟩, "u"⟩]
    let plan : Plan := ⟨⟨"out/r"⟩, pairs, [], {}, false⟩
    let old : Tree := .folder [("a.js", .file (bytes "function f() \x7b\x7d"))]
    let new : Tree := .folder [("b.js", .file [])]
    let world : World := ⟨⟨.folder [("mv", old), ("mz", new)], []⟩, #[]⟩
    let summary : Summary := ⟨.ofList [("t", ⟨0, 1, 0, 0⟩)], [⟨"u", ⟨"mz/c.js"⟩⟩]⟩
    Plan.ofArguments arguments = .ok plan ∧ (∀ pair ∈ plan.pairs, Path.SlashFree pair.tag) ∧
      world.disk.Grounded ∧ plan.Undisturbed world.disk ∧
      ∃ after, perform plan.run world = (.ok summary, after) ∧
        plan.Effect world.disk after.disk summary := by
  intro arguments pairs plan old new world summary
  have planned : Plan.ofArguments arguments = .ok plan := by decide +kernel
  have slashFree : ∀ pair ∈ plan.pairs, Path.SlashFree pair.tag := by decide +kernel
  have grounded : world.disk.Grounded := by decide +kernel
  have undisturbed : plan.Undisturbed world.disk := by decide +kernel
  have success : (perform plan.run world).1 = .ok summary := by decide +kernel
  have ran : perform plan.run world = (.ok summary, (perform plan.run world).2) :=
    Prod.ext success rfl
  refine ⟨planned, slashFree, grounded, undisturbed, _, ran, ?_⟩
  exact effect_of_run planned rfl slashFree grounded undisturbed ran

end ScriptDelta
