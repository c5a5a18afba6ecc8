import Mathlib.Data.List.Nodup
import ScriptDelta.Proofs.Run.Forecast

/-! # The files of the reports

A tag without a slash makes a file name, so the reports of a pair lie directly in the folder of the
reports (`location_patchPath`, `location_briefPath`), as the summary does. The names end differently
and begin with the tag, so pairs with different tags have different files (`nodup_locations`).
-/

namespace ScriptDelta

/-- The file name of a patch. -/
def FilePair.patchName (pair : FilePair) : String :=
  pair.tag ++ "_patch.json"

/-- The file name of a brief. -/
def FilePair.briefName (pair : FilePair) : String :=
  pair.tag ++ "_patch.md"

/-- The file names of both reports. -/
def FilePair.reportNames (pair : FilePair) : List String :=
  [pair.patchName, pair.briefName]

namespace FilePair

variable {pair other : FilePair}

/-- A tag without slashes makes a name in a folder, with a proper ending behind it. -/
theorem location_join_tag {tag ending : String} {last : Char} (slashFree : Path.SlashFree tag)
    (endingFree : Path.SlashFree ending) (ends : ending.toList.getLast? = some last)
    (noPeriod : last ≠ '.') (disk : Disk) (folder : Path) :
    disk.location (folder.join ⟨tag ++ ending⟩) = disk.location folder ++ [tag ++ ending] := by
  have endsName : (tag ++ ending).toList.getLast? = some last := by
    rw [String.toList_append, List.getLast?_append, ends, Option.some_or]
  have other (name : String) (endsOther : name.toList.getLast? ≠ some last) : tag ++ ending ≠ name :=
    fun same => endsOther (same ▸ endsName)
  apply Disk.location_join
  · rw [Path.SlashFree, String.toList_append, List.mem_append, not_or]
    exact ⟨slashFree, endingFree⟩
  · exact other "" (by simp)
  · exact other "." (by simpa using noPeriod.symm)
  · exact other ".." (by simpa using noPeriod.symm)

theorem location_patchPath (slashFree : Path.SlashFree pair.tag) (disk : Disk) (folder : Path) :
    disk.location (pair.patchPath folder) = disk.location folder ++ [pair.patchName] :=
  location_join_tag slashFree (by decide) rfl (by decide) disk folder

theorem location_briefPath (slashFree : Path.SlashFree pair.tag) (disk : Disk) (folder : Path) :
    disk.location (pair.briefPath folder) = disk.location folder ++ [pair.briefName] :=
  location_join_tag slashFree (by decide) rfl (by decide) disk folder

theorem patchName_ne_briefName (pair other : FilePair) : pair.patchName ≠ other.briefName := by
  intro same
  have last := congrArg (fun name => name.toList.getLast?) same
  simp [patchName, briefName, String.toList_append] at last

theorem nodup_reportNames (pair : FilePair) : pair.reportNames.Nodup := by
  simp [reportNames, patchName_ne_briefName]

/-- The tag can be read off the name of a report. -/
theorem disjoint_reportNames (distinct : pair.tag ≠ other.tag) :
    List.Disjoint pair.reportNames other.reportNames := by
  have patches : other.patchName ≠ pair.patchName :=
    fun same => distinct ((String.append_left_inj _).mp same.symm)
  have briefs : other.briefName ≠ pair.briefName :=
    fun same => distinct ((String.append_left_inj _).mp same.symm)
  have mixed := (patchName_ne_briefName pair other).symm
  simp [reportNames, patches, briefs, mixed, patchName_ne_briefName]

/-- A summary has one letter before an ending that is as long as that of a patch and differs. -/
theorem patchName_ne_summary (pair : FilePair) : pair.patchName ≠ "summary.json" := by
  intro same
  have texts : pair.tag.toList ++ "_patch.json".toList = "s".toList ++ "ummary.json".toList := by
    simpa [patchName, String.toList_append] using congrArg String.toList same
  have long : "_patch.json".toList.length = "ummary.json".toList.length := by decide
  have ends := (List.append_inj' texts long).2
  exact absurd ends (by decide)

theorem briefName_ne_summary (pair : FilePair) : pair.briefName ≠ "summary.json" := by
  intro same
  have last := congrArg (fun name => name.toList.getLast?) same
  simp [briefName, String.toList_append] at last

theorem summary_not_mem_reportNames (pair : FilePair) : "summary.json" ∉ pair.reportNames := by
  simp [reportNames, (patchName_ne_summary pair).symm, (briefName_ne_summary pair).symm]

end FilePair

theorem Summary.location_path (disk : Disk) (folder : Path) :
    disk.location (path folder) = disk.location folder ++ ["summary.json"] :=
  Disk.location_join (by decide) (by decide) (by decide) (by decide)

namespace Plan

variable {plan : Plan} {disk : Disk} {pair : FilePair}

/-- The reports of a pair lie directly in the folder of the reports. -/
theorem mem_reports_iff (slashFree : Path.SlashFree pair.tag) {location : Location}
    {bytes : List UInt8} :
    (location, bytes) ∈ plan.reports disk pair ↔
      ∃ revision, plan.revision? disk pair = some revision ∧
        (location = disk.location plan.outputDir ++ [pair.patchName] ∧
            bytes = pair.patchBytes revision ∨
          location = disk.location plan.outputDir ++ [pair.briefName] ∧
            bytes = pair.briefBytes revision plan.detail) := by
  rw [reports, FilePair.location_patchPath slashFree, FilePair.location_briefPath slashFree]
  cases found : plan.revision? disk pair with
  | none => simp
  | some revision => simp

theorem injective_concat (folder : Location) :
    Function.Injective fun name => folder ++ [name] :=
  fun _ _ same => List.singleton_inj.mp (List.append_cancel_left same)

/-- A pair has both reports or none. -/
theorem locations_sublist (slashFree : Path.SlashFree pair.tag) :
    List.Sublist ((plan.reports disk pair).map Prod.fst)
      (pair.reportNames.map fun name => disk.location plan.outputDir ++ [name]) := by
  rw [reports, FilePair.location_patchPath slashFree, FilePair.location_briefPath slashFree]
  cases plan.revision? disk pair with
  | none => exact List.nil_sublist _
  | some revision => exact List.Sublist.refl _

/-- All files that a run writes are different. -/
theorem nodup_locations {pairs : List FilePair} (plan : Plan) (disk : Disk)
    (distinct : (pairs.map FilePair.tag).Nodup)
    (slashFree : ∀ pair ∈ pairs, Path.SlashFree pair.tag) (bytes : List UInt8) :
    ((pairs.flatMap (plan.reports disk) ++
      [(disk.location (Summary.path plan.outputDir), bytes)]).map Prod.fst).Nodup := by
  have injective := injective_concat (disk.location plan.outputDir)
  rw [List.map_append, List.map_flatMap, List.nodup_append]
  refine ⟨List.nodup_flatMap.mpr ⟨?_, ?_⟩, List.nodup_singleton _, ?_⟩
  · intro pair member
    exact (pair.nodup_reportNames.map injective).sublist (locations_sublist (slashFree pair member))
  · apply (List.pairwise_map.mp distinct).imp_of_mem
    intro pair other member otherMember differ
    have apart := List.disjoint_map injective (FilePair.disjoint_reportNames differ)
    apply List.disjoint_of_subset_left (locations_sublist (slashFree pair member)).subset
    exact List.disjoint_of_subset_right
      (locations_sublist (slashFree other otherMember)).subset apart
  · intro location member summary isSummary same
    obtain ⟨pair, isPair, member⟩ := List.mem_flatMap.mp member
    have named := (locations_sublist (slashFree pair isPair)).subset member
    rw [same, List.mem_singleton.mp isSummary, Summary.location_path,
      List.mem_map_of_injective injective] at named
    exact pair.summary_not_mem_reportNames named

/-- Nothing is written under other names than those of the reports and of the summary. -/
theorem not_mem_locations {pairs : List FilePair} {location : Location}
    (slashFree : ∀ pair ∈ pairs, Path.SlashFree pair.tag) (bytes : List UInt8)
    (noSummary : location ≠ disk.location plan.outputDir ++ ["summary.json"])
    (noReport : ∀ pair ∈ pairs, ∀ revision, plan.revision? disk pair = some revision →
      location ≠ disk.location plan.outputDir ++ [pair.patchName] ∧
        location ≠ disk.location plan.outputDir ++ [pair.briefName]) :
    location ∉ (pairs.flatMap (plan.reports disk) ++
      [(disk.location (Summary.path plan.outputDir), bytes)]).map Prod.fst := by
  intro member
  obtain ⟨⟨_, written⟩, isWritten, rfl⟩ := List.mem_map.mp member
  obtain isReport | isSummary := List.mem_append.mp isWritten
  · obtain ⟨pair, isPair, isReport⟩ := List.mem_flatMap.mp isReport
    obtain ⟨revision, found, place⟩ := (mem_reports_iff (slashFree pair isPair)).mp isReport
    obtain ⟨noPatch, noBrief⟩ := noReport pair isPair revision found
    exact place.elim (fun patch => noPatch patch.1) (fun brief => noBrief brief.1)
  · rw [Summary.location_path] at isSummary
    exact noSummary (congrArg Prod.fst (List.mem_singleton.mp isSummary))

end Plan

end ScriptDelta
