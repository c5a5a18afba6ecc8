import ScriptDelta.Proofs.Run.Account
import ScriptDelta.Proofs.Run.Passage

/-! # Which reports a run keeps

The tags of a plan are different as texts, and a report is overwritten if a later tag leads to the
same place. Tags that lead through plain names keep their reports apart, and any report that no
later pair has a claim to is kept to the end of a successful run (`keepsReports_of_arguments`). A
tag with a period before a slash does share its files with another one (`lost_report`).
-/

namespace ScriptDelta

open World

/-- The disk as a run finds it once it has gone through some pairs. -/
def Plan.diskAfter (plan : Plan) (world : World) (pairs : List FilePair) : Disk :=
  let passage : Action Summary :=
    Run.makeFolders plan.outputDir >>= fun _ => pairs.foldlM (Run.step plan) .empty
  (perform passage world).2.disk

/-- Which reports of a plan have a file of their own, and which are there at the end. -/
structure Plan.KeepsReports (plan : Plan) : Prop where
  /-- The reports of two pairs go to four files exactly if the tags lead to different places. -/
  apart : ∀ disk : Disk, plan.pairs.Pairwise fun pair other =>
    ((pair.places disk plan.outputDir ++ other.places disk plan.outputDir).Nodup ↔
      disk.stem plan.outputDir pair.tag ≠ disk.stem plan.outputDir other.tag)
  /-- Tags that lead through plain names lead to different places. -/
  direct : ∀ disk : Disk, plan.pairs.Pairwise fun pair other =>
    Path.Direct pair.tag → Path.Direct other.tag →
      (pair.places disk plan.outputDir ++ other.places disk plan.outputDir).Nodup
  /-- A successful run keeps the reports of a pair if no later tag leads to the same place. -/
  kept : ∀ (world after : World) (summary : Summary) (front back : List FilePair) (pair : FilePair)
    (revision : Revision), plan.dryRun = false → world.disk.Grounded →
    perform plan.run world = (.ok summary, after) → plan.pairs = front ++ pair :: back →
    plan.revision? (plan.diskAfter world front) pair = some revision →
    (∀ later ∈ back, world.disk.stem plan.outputDir pair.tag ≠
      world.disk.stem plan.outputDir later.tag) →
    after.disk.node? (world.disk.location (pair.patchPath plan.outputDir)) =
        some (.file (pair.patchBytes revision)) ∧
      after.disk.node? (world.disk.location (pair.briefPath plan.outputDir)) =
        some (.file (pair.briefBytes revision plan.detail))

section kept

variable {plan : Plan} {disk start middle after : Disk} {pair : FilePair} {revision : Revision}

/-- The reports of a pair, once they are written. -/
theorem node?_of_wroteReports (found : plan.revision? disk pair = some revision)
    (wrote : Disk.Wrote (plan.reports disk pair) disk after) :
    after.node? (disk.location (pair.patchPath plan.outputDir)) =
        some (.file (pair.patchBytes revision)) ∧
      after.node? (disk.location (pair.briefPath plan.outputDir)) =
        some (.file (pair.briefBytes revision plan.detail)) := by
  have distinct : ((plan.reports disk pair).map Prod.fst).Nodup := by
    rw [Plan.reports_recorded found]
    simpa using pair.patchPlace_ne_briefPlace pair disk plan.outputDir
  constructor <;> rw [wrote.node?] <;> apply Disk.overwritten_of_mem distinct <;>
    simp [Plan.reports_recorded found]

/-- What is done after the folder of the reports is there begins with the steps through any first
pairs of the plan. -/
theorem Plan.diskAfter_eq {world : World} {pairs : List FilePair} {summary : Summary}
    (made : world.disk.makeFolders plan.outputDir = (.ok (), start))
    (steps : Steps plan start .empty pairs (.ok summary) middle) :
    plan.diskAfter world pairs = middle := by
  apply And.right
  apply Ends.perform_eq
  apply Ends.bind (ends_makeFolders made)
  exact steps.ends

/-- Neither a later pair with a place of its own nor the summary overwrites the reports of a
pair. -/
theorem Plan.Passes.node?_of_wroteSummary {pairs : List FilePair} {bytes : List UInt8}
    {location : Location} (passes : plan.Passes disk pairs middle)
    (wrote : Disk.Wrote [(middle.location (Summary.path plan.outputDir), bytes)] middle after)
    (isPlace : location ∈ pair.places disk plan.outputDir)
    (apart : ∀ later ∈ pairs,
      disk.stem plan.outputDir pair.tag ≠ disk.stem plan.outputDir later.tag) :
    after.node? location = disk.node? location := by
  rw [← passes.node?_place isPlace apart]
  apply wrote.changedWithin.same
  rw [Disk.location_congr passes.changedWithin.current]
  exact fun member => pair.ne_summaryPlace disk _ _ isPlace (List.mem_singleton.mp member)

theorem Runs.keepsReports {world : World} {summary : Summary} {front back : List FilePair}
    (wet : plan.dryRun = false) (grounded : world.disk.Grounded)
    (pairs : plan.pairs = front ++ pair :: back)
    (found : plan.revision? (plan.diskAfter world front) pair = some revision)
    (apart : ∀ later ∈ back, world.disk.stem plan.outputDir pair.tag ≠
      world.disk.stem plan.outputDir later.tag)
    (runs : Runs plan world.disk (.ok summary) after) :
    after.node? (world.disk.location (pair.patchPath plan.outputDir)) =
        some (.file (pair.patchBytes revision)) ∧
      after.node? (world.disk.location (pair.briefPath plan.outputDir)) =
        some (.file (pair.briefBytes revision plan.detail)) := by
  cases runs with
  | dry dry => simp [wet] at dry
  | @finished start last _ _ _ made steps written =>
    rw [pairs] at steps
    obtain ⟨between, middle, through, steps⟩ := steps.split rfl
    rw [Plan.diskAfter_eq made through] at found
    obtain ⟨foldersMade, -⟩ := Disk.makeFolders_spec grounded made
    have startGrounded := foldersMade.grounded grounded
    have passed := through.passes wet startGrounded
    have middleGrounded := passed.changedWithin.grounded startGrounded
    cases steps with
    | @more _ next _ _ _ _ _ _ first rest =>
      have wroteReports := first.wroteReports wet middleGrounded
      have nextGrounded := wroteReports.changedWithin.grounded middleGrounded
      have passes := rest.passes wet nextGrounded
      have lastGrounded := passes.changedWithin.grounded nextGrounded
      have wroteSummary := Disk.Wrote.single lastGrounded written
      have current : next.current = world.disk.current :=
        (wroteReports.current.trans passed.changedWithin.current).trans foldersMade.current
      rw [← Disk.stem_congr current] at apart
      have kept {location : Location} (isPlace : location ∈ pair.places next plan.outputDir) :=
        passes.node?_of_wroteSummary wroteSummary isPlace apart
      have own := node?_of_wroteReports found wroteReports
      rw [← Disk.location_congr wroteReports.current, ← Disk.location_congr wroteReports.current]
        at own
      rw [← Disk.location_congr current, ← Disk.location_congr current,
        kept (List.mem_cons_self ..), kept (List.mem_cons_of_mem _ (List.mem_singleton_self _))]
      exact own

end kept

/-- The reports of a plan that arguments make are kept as far as their tags lead to different
places. -/
theorem keepsReports_of_arguments {arguments : Arguments} {plan : Plan}
    (planned : Plan.ofArguments arguments = .ok plan) : plan.KeepsReports where
  apart disk := by
    apply List.pairwise_of_forall
    intro pair other
    exact pair.nodup_places_iff other disk plan.outputDir
  direct disk := by
    apply (List.pairwise_map.mp (Plan.nodup_tags planned)).imp
    intro pair other differ direct otherDirect
    apply (pair.nodup_places_iff other disk plan.outputDir).mpr
    exact fun same => differ (disk.stem_inj plan.outputDir direct otherDirect same)
  kept := by
    intro world after summary front back pair revision wet grounded ran pairs found apart
    have runs := runs_of_perform plan world
    rw [ran] at runs
    exact runs.keepsReports wet grounded pairs found apart

/-- Two tags end alike and lead to different folders. -/
theorem keepsReports_of_arguments_nested :
    let arguments : Arguments :=
      { outputDir := ⟨"out"⟩, pairs := ["a.js:b.js:t", "b.js:a.js:v/t"] }
    let first : FilePair := ⟨⟨"mv/a.js"⟩, ⟨"mz/b.js"⟩, "t"⟩
    let second : FilePair := ⟨⟨"mv/b.js"⟩, ⟨"mz/a.js"⟩, "v/t"⟩
    let plan : Plan := ⟨⟨"out"⟩, [first, second], [], {}, false⟩
    let old : Tree := .folder [("a.js", .file (bytes "function f() \x7b\x7d")), ("b.js", .file [])]
    let new : Tree := .folder [("a.js", .file []), ("b.js", .file [])]
    let out : Tree := .folder [("v", .folder [])]
    let world : World := ⟨⟨.folder [("mv", old), ("mz", new), ("out", out)], []⟩, #[]⟩
    let summary : Summary := ⟨.ofList [("t", ⟨0, 1, 0, 0⟩), ("v/t", .zero)], []⟩
    let revision : Revision := ⟨.ofText "function f() \x7b\x7d", .ofText ""⟩
    Plan.ofArguments arguments = .ok plan ∧ world.disk.Grounded ∧
      plan.revision? (plan.diskAfter world []) first = some revision ∧
      (first.places world.disk plan.outputDir ++ second.places world.disk plan.outputDir).Nodup ∧
      ∃ after, perform plan.run world = (.ok summary, after) ∧
        after.disk.node? (world.disk.location (first.patchPath plan.outputDir)) =
          some (.file (first.patchBytes revision)) ∧
        after.disk.node? (world.disk.location (first.briefPath plan.outputDir)) =
          some (.file (first.briefBytes revision plan.detail)) := by
  intro arguments first second plan old new out world summary revision
  have planned : Plan.ofArguments arguments = .ok plan := by decide +kernel
  have grounded : world.disk.Grounded := by decide +kernel
  have found : plan.revision? (plan.diskAfter world []) first = some revision := by decide +kernel
  have success : (perform plan.run world).1 = .ok summary := by decide +kernel
  have ran : perform plan.run world = (.ok summary, (perform plan.run world).2) :=
    Prod.ext success rfl
  have keeps := keepsReports_of_arguments planned
  have distinct : (first.places world.disk plan.outputDir ++
      second.places world.disk plan.outputDir).Nodup :=
    List.rel_of_pairwise_cons (keeps.direct world.disk) (List.mem_singleton_self second)
      (by decide +kernel) (by decide +kernel)
  have apart := (first.nodup_places_iff second world.disk plan.outputDir).mp distinct
  refine ⟨planned, grounded, found, distinct, _, ran, ?_⟩
  exact keeps.kept world _ summary [] [second] first revision rfl grounded ran rfl found
    (List.forall_mem_singleton.mpr apart)

/-- Two different tags lead to one place, and the reports of the first pair are not there at the
end of the run. -/
theorem lost_report :
    let arguments : Arguments :=
      { outputDir := ⟨"out"⟩, pairs := ["a.js:b.js:t", "b.js:a.js:./t"] }
    let first : FilePair := ⟨⟨"mv/a.js"⟩, ⟨"mz/b.js"⟩, "t"⟩
    let second : FilePair := ⟨⟨"mv/b.js"⟩, ⟨"mz/a.js"⟩, "./t"⟩
    let plan : Plan := ⟨⟨"out"⟩, [first, second], [], {}, false⟩
    let old : Tree := .folder [("a.js", .file (bytes "function f() \x7b\x7d")), ("b.js", .file [])]
    let new : Tree := .folder [("a.js", .file []), ("b.js", .file [])]
    let world : World := ⟨⟨.folder [("mv", old), ("mz", new)], []⟩, #[]⟩
    let summary : Summary := ⟨.ofList [("./t", .zero), ("t", ⟨0, 1, 0, 0⟩)], []⟩
    let revision : Revision := ⟨.ofText "function f() \x7b\x7d", .ofText ""⟩
    Plan.ofArguments arguments = .ok plan ∧ first ≠ second ∧
      first.places world.disk plan.outputDir = second.places world.disk plan.outputDir ∧
      world.disk.Grounded ∧ plan.revision? (plan.diskAfter world []) first = some revision ∧
      (perform plan.run world).1 = .ok summary ∧
      (perform plan.run world).2.disk.node? ["out", "t_patch.json"] ≠
        some (.file (first.patchBytes revision)) ∧
      (perform plan.run world).2.disk.node? ["out", "t_patch.md"] ≠
        some (.file (first.briefBytes revision plan.detail)) := by
  decide +kernel

end ScriptDelta
