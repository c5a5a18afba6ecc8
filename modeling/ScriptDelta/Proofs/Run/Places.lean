import ScriptDelta.Proofs.Path.Endings
import ScriptDelta.Proofs.Run.Reports

/-! # Where tags lead

A tag may hold slashes, so the reports of a pair lie where the tag leads from the folder of the
reports, under names that differ in their endings (`Disk.exists_location_append`). What decides
between the files of two pairs is where their tags lead, not how they are written: the four files
are different exactly if the stems are (`FilePair.nodup_places_iff`). Tags that lead through plain
names only have different stems if they are different (`Disk.stem_inj`).
-/

namespace ScriptDelta

/-- Where the reports under a tag are, up to the endings of their names. -/
def Disk.stem (disk : Disk) (folder : Path) (tag : String) : Location :=
  disk.location (folder.join ⟨tag ++ "_patch"⟩)

/-- The files of both reports of a pair. -/
def FilePair.places (pair : FilePair) (disk : Disk) (folder : Path) : List Location :=
  [disk.location (pair.patchPath folder), disk.location (pair.briefPath folder)]

/-- An ending makes a name of its own out of what stands before it. -/
structure Path.Ending (ending : String) : Prop where
  slashFree : SlashFree ending
  long : 2 < ending.length

namespace Path.Ending

theorem stem : Ending "_patch" :=
  ⟨by decide, by decide⟩

theorem patch : Ending "_patch.json" :=
  ⟨by decide, by decide⟩

theorem brief : Ending "_patch.md" :=
  ⟨by decide, by decide⟩

/-- A text with an ending is too long to be no name. -/
theorem plain {ending : String} (isEnding : Ending ending) (last : String) :
    Plain (last ++ ending) := by
  have long : 2 < (last ++ ending).length := by
    rw [String.length_append]
    exact Nat.lt_add_left _ isEnding.long
  refine ⟨?_, ?_, ?_⟩ <;> intro same <;> rw [same] at long <;> exact absurd long (by decide)

end Path.Ending

namespace Disk

variable (disk : Disk) (folder : Path)

/-- Where a path leads is told by the last of its names, if that is a name of its own. -/
theorem location_of_names {path : Path} {lead : List String} {name : String}
    (names : path.names = lead ++ [name]) (here : name ≠ ".") (up : name ≠ "..") :
    disk.location path = disk.follow path lead ++ [name] := by
  rw [location, follow, names, List.foldl_append, List.foldl_cons, List.foldl_nil,
    turn_eq_cons here up, List.reverse_cons, follow]

/-- Paths that differ in their endings lead to one folder. -/
theorem exists_location_append (text : String) :
    ∃ place last, ∀ ending, Path.Ending ending →
      disk.location ⟨text ++ ending⟩ = place ++ [last ++ ending] := by
  obtain ⟨lead, last, -, pieces⟩ := Path.exists_pieces_append text
  refine ⟨disk.follow ⟨text⟩ (lead.filter fun piece => !piece.isEmpty), last, ?_⟩
  intro ending isEnding
  obtain ⟨solid, here, up⟩ := isEnding.plain last
  have names : Path.names ⟨text ++ ending⟩ =
      lead.filter (fun piece => !piece.isEmpty) ++ [last ++ ending] := by
    rw [Path.names, pieces ending isEnding.slashFree, List.filter_append]
    simp [solid]
  rw [disk.location_of_names names here up, follow, follow, start, start,
    Path.isAbsolute_append_ending text isEnding.slashFree]

/-- The reports under a tag lie in one folder, under names that differ in their endings. -/
theorem exists_location_join (tag : String) :
    ∃ place last, ∀ ending, Path.Ending ending →
      disk.location (folder.join ⟨tag ++ ending⟩) = place ++ [last ++ ending] := by
  obtain ⟨place, last, there⟩ := disk.exists_location_append (folder.join ⟨tag⟩).text
  refine ⟨place, last, ?_⟩
  intro ending isEnding
  rw [folder.join_append tag isEnding.slashFree]
  exact there ending isEnding

/-- Two tags lead to the same file under one ending as they do under any other. -/
theorem location_join_eq_iff {ending : String} (isEnding : Path.Ending ending)
    (tag other : String) :
    disk.location (folder.join ⟨tag ++ ending⟩) = disk.location (folder.join ⟨other ++ ending⟩) ↔
      disk.stem folder tag = disk.stem folder other := by
  obtain ⟨place, last, there⟩ := disk.exists_location_join folder tag
  obtain ⟨otherPlace, otherLast, otherThere⟩ := disk.exists_location_join folder other
  have inj (ending : String) : place ++ [last ++ ending] = otherPlace ++ [otherLast ++ ending] ↔
      place = otherPlace ∧ last = otherLast := by
    constructor
    · intro same
      obtain ⟨samePlace, sameName⟩ := List.append_inj' same rfl
      exact ⟨samePlace, (String.append_left_inj _).mp (List.singleton_inj.mp sameName)⟩
    · rintro ⟨rfl, rfl⟩
      rfl
  rw [stem, stem, there _ isEnding, otherThere _ isEnding, there _ .stem, otherThere _ .stem, inj,
    inj]

section Direct

variable {tag other : String}

/-- A tag that leads through plain names is followed one piece after the other. -/
theorem location_join_of_direct (direct : Path.Direct tag) {ending : String}
    (isEnding : Path.Ending ending) :
    disk.location (folder.join ⟨tag ++ ending⟩) =
      disk.location folder ++ Path.pieces ⟨tag ++ ending⟩ :=
  location_join_of_plain (direct.plain isEnding.slashFree isEnding.plain)

/-- Different tags that lead through plain names lead to different files. -/
theorem stem_inj (direct : Path.Direct tag) (otherDirect : Path.Direct other)
    (same : disk.stem folder tag = disk.stem folder other) : tag = other := by
  rw [stem, stem, disk.location_join_of_direct folder direct .stem,
    disk.location_join_of_direct folder otherDirect .stem] at same
  have samePath := Path.pieces_injective (List.append_cancel_left same)
  exact (String.append_left_inj _).mp (congrArg Path.text samePath)

end Direct

end Disk

namespace FilePair

variable (pair other : FilePair) (disk : Disk) (folder : Path)

/-- The file names of a patch and a brief end differently. -/
theorem patchPlace_ne_briefPlace :
    disk.location (pair.patchPath folder) ≠ disk.location (other.briefPath folder) := by
  obtain ⟨place, last, there⟩ := disk.exists_location_join folder pair.tag
  obtain ⟨otherPlace, otherLast, otherThere⟩ := disk.exists_location_join folder other.tag
  rw [patchPath, briefPath, there _ .patch, otherThere _ .brief]
  intro same
  have sameName := List.singleton_inj.mp (List.append_inj' same rfl).2
  exact patchName_ne_briefName { pair with tag := last } { other with tag := otherLast } sameName

/-- No report has the file name of a summary. -/
theorem ne_summaryPlace :
    ∀ place ∈ pair.places disk folder, place ≠ disk.location (Summary.path folder) := by
  obtain ⟨place, last, there⟩ := disk.exists_location_join folder pair.tag
  rw [places, patchPath, briefPath, there _ .patch, there _ .brief, Summary.location_path]
  have named (name : String) (other : name ≠ "summary.json") :
      place ++ [name] ≠ disk.location folder ++ ["summary.json"] :=
    fun same => other (List.singleton_inj.mp (List.append_inj' same rfl).2)
  rw [List.forall_mem_cons, List.forall_mem_singleton]
  exact ⟨named _ (patchName_ne_summary { pair with tag := last }),
    named _ (briefName_ne_summary { pair with tag := last })⟩

/-- The four files of two pairs are different exactly if their tags lead to different places. -/
theorem nodup_places_iff :
    (pair.places disk folder ++ other.places disk folder).Nodup ↔
      disk.stem folder pair.tag ≠ disk.stem folder other.tag := by
  have patches :
      disk.location (pair.patchPath folder) = disk.location (other.patchPath folder) ↔ _ :=
    disk.location_join_eq_iff folder .patch pair.tag other.tag
  have briefs :
      disk.location (pair.briefPath folder) = disk.location (other.briefPath folder) ↔ _ :=
    disk.location_join_eq_iff folder .brief pair.tag other.tag
  have crossed := (other.patchPlace_ne_briefPlace pair disk folder).symm
  simp [places, patches, briefs, crossed, patchPlace_ne_briefPlace]

end FilePair

end ScriptDelta
