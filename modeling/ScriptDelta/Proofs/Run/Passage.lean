import ScriptDelta.Proofs.Run.Forecast
import ScriptDelta.Proofs.Run.Places

/-! # The passage through the pairs

A run that goes through some pairs writes the reports of each that lacks no file, as they are when
it comes to the pair (`Plan.Passes`). Nothing changes but the files of the reports
(`Plan.Passes.changedWithin`), so what a pair has reported is still there unless the tag of a later
one leads to the same place (`Plan.Passes.node?_place`).
-/

namespace ScriptDelta

section places

variable {disk other : Disk} {plan : Plan} {pair : FilePair}

theorem Disk.stem_congr (same : other.current = disk.current) : other.stem = disk.stem := by
  funext folder tag
  rw [stem, stem, location_congr same]

theorem FilePair.places_congr (same : other.current = disk.current) (pair : FilePair) :
    pair.places other = pair.places disk := by
  funext folder
  simp only [places, Disk.location_congr same]

/-- A pair has both reports or none. -/
theorem Plan.reports_subset_places (plan : Plan) (disk : Disk) (pair : FilePair) :
    (plan.reports disk pair).map Prod.fst ⊆ pair.places disk plan.outputDir := by
  rw [reports]
  cases plan.revision? disk pair with
  | none => exact List.nil_subset _
  | some revision => exact List.Subset.refl _

end places

/-- Some pairs are gone through, each from the disk that those before it leave. -/
inductive Plan.Passes (plan : Plan) : Disk → List FilePair → Disk → Prop where
  | nil {disk : Disk} : Passes plan disk [] disk
  | cons {disk middle after : Disk} {pair : FilePair} {pairs : List FilePair}
      (first : Disk.Wrote (plan.reports disk pair) disk middle)
      (rest : Passes plan middle pairs after) : Passes plan disk (pair :: pairs) after

namespace Plan.Passes

variable {plan : Plan} {disk after : Disk} {pairs : List FilePair}

/-- Only the files of the reports change. -/
theorem changedWithin (passes : plan.Passes disk pairs after) :
    Disk.ChangedWithin (pairs.flatMap fun pair => pair.places disk plan.outputDir) disk after := by
  induction passes with
  | nil => exact .refl _ _
  | @cons disk middle after pair pairs first rest ih =>
    rw [List.flatMap_cons]
    have here := first.changedWithin.mono (plan.reports_subset_places disk pair)
    simp only [FilePair.places_congr first.current] at ih
    exact (here.mono (List.subset_append_left ..)).trans (ih.mono (List.subset_append_right ..))

/-- A file that belongs to none of the pairs stays as it is. -/
theorem node?_of_not_mem (passes : plan.Passes disk pairs after) {location : Location}
    (foreign : ∀ pair ∈ pairs, location ∉ pair.places disk plan.outputDir) :
    after.node? location = disk.node? location := by
  apply passes.changedWithin.same
  intro member
  obtain ⟨pair, isPair, isPlace⟩ := List.mem_flatMap.mp member
  exact foreign pair isPair isPlace

/-- The reports of a pair stay as they are while no tag leads to the same place. -/
theorem node?_place (passes : plan.Passes disk pairs after) {pair : FilePair} {location : Location}
    (isPlace : location ∈ pair.places disk plan.outputDir)
    (apart : ∀ later ∈ pairs,
      disk.stem plan.outputDir pair.tag ≠ disk.stem plan.outputDir later.tag) :
    after.node? location = disk.node? location := by
  apply passes.node?_of_not_mem
  intro later isLater
  have distinct := (pair.nodup_places_iff later disk plan.outputDir).mpr (apart later isLater)
  exact List.disjoint_of_nodup_append distinct isPlace

end Plan.Passes

section steps

variable {plan : Plan} {disk after : Disk} {summary next : Summary} {pairs : List FilePair}

/-- A step writes the reports that its pair has when the run comes to it. -/
theorem Step.wroteReports {pair : FilePair} (wet : plan.dryRun = false) (grounded : disk.Grounded)
    (step : Step plan disk summary pair (.ok next) after) :
    Disk.Wrote (plan.reports disk pair) disk after :=
  (step.wrote wet grounded (.refl [] disk) (by simp [Disk.Apart])).1

theorem Steps.passes (wet : plan.dryRun = false) (grounded : disk.Grounded)
    (steps : Steps plan disk summary pairs (.ok next) after) : plan.Passes disk pairs after := by
  generalize ended : Except.ok next = result at steps
  induction steps with
  | done => exact .nil
  | stopped first => contradiction
  | more first rest ih =>
    have wrote := first.wroteReports wet grounded
    exact .cons wrote (ih (wrote.changedWithin.grounded grounded) ended)

/-- Steps through two rows of pairs are steps through one and then through the other. -/
theorem Steps.split {front back : List FilePair} {result : Except Failure Summary}
    (success : result = .ok next) (steps : Steps plan disk summary (front ++ back) result after) :
    ∃ between middle, Steps plan disk summary front (.ok between) middle ∧
      Steps plan middle between back (.ok next) after := by
  induction front generalizing disk summary with
  | nil => exact ⟨summary, disk, .done, success ▸ steps⟩
  | cons pair front ih =>
    cases steps with
    | more first rest =>
      obtain ⟨between, middle, through, further⟩ := ih rest
      exact ⟨between, middle, .more first through, further⟩
    | stopped first => contradiction

end steps

end ScriptDelta
