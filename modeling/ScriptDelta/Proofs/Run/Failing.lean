import ScriptDelta.Proofs.Run.Hosting
import ScriptDelta.Proofs.Run.Passage

/-! # What a failing run leaves behind

A step that fails has written the patch of its pair or nothing (`Plan.Broken`), and every pair
before it has been gone through (`Plan.Halts`). A run fails before the first pair, at a pair or
after the last one (`Plan.Remains`), and in none of these cases has there been a summary
(`remains_of_failure`). Any operation of the host may be the one that fails.
-/

namespace ScriptDelta

/-- What is left of a pair at which a run fails. -/
inductive Plan.Broken (plan : Plan) (before : Disk) (pair : FilePair) : Failure → Disk → Prop where
  /-- One of the files could not be read. -/
  | unread {path : Path} {error : FileError} (own : path ∈ [pair.old, pair.new]) :
      Broken plan before pair (.read path error) before
  /-- The patch could not be written. -/
  | noPatch {error : FileError} :
      Broken plan before pair (.write (pair.patchPath plan.outputDir) error) before
  /-- The patch was written and the brief could not be. -/
  | noBrief {revision : Revision} {error : FileError} {after : Disk}
      (found : plan.revision? before pair = some revision)
      (patch : Disk.Wrote
        [(before.location (pair.patchPath plan.outputDir), pair.patchBytes revision)] before
        after) :
      Broken plan before pair (.write (pair.briefPath plan.outputDir) error) after

/-- Some pairs are gone through up to one that lacks no file, at which the run fails. -/
inductive Plan.Halts (plan : Plan) (before : Disk) (pairs : List FilePair) (failure : Failure)
    (after : Disk) : Prop where
  | within {front back : List FilePair} {pair : FilePair} {middle : Disk}
      (split : pairs = front ++ pair :: back) (passes : plan.Passes before front middle)
      (complete : middle.missing? pair = none) (broken : plan.Broken middle pair failure after)

/-- What is left of a run that fails. -/
inductive Plan.Remains (plan : Plan) (before : Disk) : Failure → Disk → Prop where
  /-- The folder of the reports could not be made. -/
  | noFolder {error : FileError} {after : Disk}
      (made : Disk.FoldersMade (before.route plan.outputDir) before after) :
      Remains plan before (.makeFolders plan.outputDir error) after
  /-- The run came to a pair and did not get past it. -/
  | halted {failure : Failure} {start after : Disk}
      (made : Disk.FoldersMade (before.route plan.outputDir) before start)
      (halts : plan.Halts start plan.pairs failure after) : Remains plan before failure after
  /-- The run got past all pairs, and the summary could not be written. -/
  | noSummary {error : FileError} {start after : Disk}
      (made : Disk.FoldersMade (before.route plan.outputDir) before start)
      (passes : plan.Passes start plan.pairs after) :
      Remains plan before (.write (Summary.path plan.outputDir) error) after

section summary

variable {plan : Plan} {before start after : Disk} {pair : FilePair} {failure : Failure}

/-- The same file is at a location, or none before and after. -/
def Disk.SameFile (location : Location) (before after : Disk) : Prop :=
  ∀ bytes, after.node? location = some (.file bytes) ↔ before.node? location = some (.file bytes)

theorem Disk.SameFile.trans {location : Location} {middle : Disk}
    (first : SameFile location before middle) (second : SameFile location middle after) :
    SameFile location before after :=
  fun bytes => (second bytes).trans (first bytes)

theorem Disk.SameFile.of_eq {location : Location}
    (same : after.node? location = before.node? location) : SameFile location before after :=
  fun _ => by rw [same]

/-- Where a folder is made there is no file before or after. -/
theorem Disk.FoldersMade.sameFile {locations : List Location}
    (made : FoldersMade locations before after) (location : Location) :
    SameFile location before after := by
  obtain same | ⟨-, nothing, there⟩ := made.node? location
  · exact .of_eq same
  · intro bytes
    simp [nothing, there]

theorem Plan.Passes.sameFile {pairs : List FilePair} (passes : plan.Passes before pairs after) :
    Disk.SameFile (before.location (Summary.path plan.outputDir)) before after := by
  apply Disk.SameFile.of_eq
  apply passes.node?_of_not_mem
  intro pair _ isPlace
  exact pair.ne_summaryPlace before plan.outputDir _ isPlace rfl

theorem Plan.Broken.sameFile (broken : plan.Broken before pair failure after) :
    Disk.SameFile (before.location (Summary.path plan.outputDir)) before after := by
  cases broken with
  | unread | noPatch => exact .of_eq rfl
  | noBrief found patch =>
    apply Disk.SameFile.of_eq
    apply patch.changedWithin.same
    have apart := pair.ne_summaryPlace before plan.outputDir _ (List.mem_cons_self ..)
    exact fun member => apart (List.mem_singleton.mp member).symm

/-- A run that fails neither makes nor changes a summary. -/
theorem Plan.Remains.sameFile (remains : plan.Remains before failure after) :
    Disk.SameFile (before.location (Summary.path plan.outputDir)) before after := by
  cases remains with
  | noFolder made => exact made.sameFile _
  | halted made halts =>
    obtain ⟨-, passes, -, broken⟩ := halts
    have passed := passes.sameFile
    have left := broken.sameFile
    rw [Disk.location_congr passes.changedWithin.current] at left
    rw [Disk.location_congr made.current] at passed left
    exact ((made.sameFile _).trans passed).trans left
  | noSummary made passes =>
    have passed := passes.sameFile
    rw [Disk.location_congr made.current] at passed
    exact (made.sameFile _).trans passed

end summary

section leads

open Host

variable {σ : Type} [Host (StateM σ)] {disk : σ → Disk} (faithful : Faithful disk) {plan : Plan}

include faithful

/-- The reports of a pair are both written, or the patch alone, or none of them. -/
theorem leads_writeReports (plan : Plan) (pair : FilePair) (revision : Revision) :
    Leads disk (Run.writeReports plan pair revision) fun before result after =>
      plan.revision? before pair = some revision → match result with
        | .ok () => Disk.Wrote (plan.reports before pair) before after
        | .error failure => plan.Broken before pair failure after := by
  apply Leads.bind (leads_write faithful _ _)
  · rintro before failure after ⟨rfl, error, rfl⟩ -
    exact .noPatch
  · intro _
    apply Leads.bind (leads_write faithful _ _)
    · rintro middle failure after ⟨rfl, error, rfl⟩ before patch found
      exact .noBrief found patch
    · intro _
      apply (leads_log faithful _).mono
      rintro last _ after ⟨rfl, rfl⟩ middle brief before patch found
      rw [Disk.location_congr patch.current] at brief
      rw [Plan.reports_recorded found]
      exact patch.append brief

/-- A step writes what its pair has to report, or it fails at it. -/
theorem leads_step (wet : plan.dryRun = false) (summary : Summary) (pair : FilePair) :
    Leads disk (Run.step plan summary pair) fun before result after => match result with
      | .ok _ => Disk.Wrote (plan.reports before pair) before after
      | .error failure => before.missing? pair = none ∧ plan.Broken before pair failure after := by
  apply Leads.bind_look (leads_missing faithful pair)
  rintro (_ | path)
  · apply Leads.bind (leads_compare faithful plan pair)
    · rintro before failure after ⟨rfl, path, own, error, rfl⟩ complete
      exact ⟨complete, .unread own⟩
    · intro revision
      rw [wet]
      apply Leads.bind (leads_writeReports faithful plan pair revision)
      · rintro middle failure after broken before ⟨rfl, found⟩ complete
        exact ⟨complete, broken found⟩
      · intro _
        apply Leads.pure
        rintro last middle wrote before ⟨rfl, found⟩ -
        exact wrote found
  · apply Leads.bind_value (leads_log faithful _)
    apply Leads.pure
    rintro disk lacks
    rw [Plan.reports_skipped lacks]
    exact .nil disk

/-- The steps through some pairs come past all of them, or halt at one. -/
theorem leads_steps (wet : plan.dryRun = false) (summary : Summary) (pairs : List FilePair) :
    Leads disk (pairs.foldlM (Run.step plan) summary) fun before result after => match result with
      | .ok _ => plan.Passes before pairs after
      | .error failure => plan.Halts before pairs failure after := by
  induction pairs generalizing summary with
  | nil => exact .pure fun _ => .nil
  | cons pair pairs ih =>
    rw [List.foldlM_cons]
    apply Leads.bind (leads_step faithful wet summary pair)
    · rintro before failure after ⟨complete, broken⟩
      exact .within rfl .nil complete broken
    · intro next
      apply (ih next).mono
      rintro middle (failure | last) after further before wrote
      · obtain ⟨rfl, passes, complete, broken⟩ := further
        exact .within rfl (.cons wrote passes) complete broken
      · exact .cons wrote further

theorem leads_writeSummary (folder : Path) (summary : Summary) :
    Leads disk (Run.writeSummary folder summary) fun before result after =>
      ∀ failure, result = .error failure →
        after = before ∧ ∃ error, failure = .write (Summary.path folder) error := by
  apply Leads.bind (leads_write faithful _ _)
  · rintro before failure after unchanged _ ⟨⟩
    exact unchanged
  · intro _
    apply (leads_log faithful _).mono
    rintro middle _ after ⟨rfl, -⟩ before - failure ⟨⟩

/-- A run that fails leaves something behind in one of three ways. -/
theorem leads_run (wet : plan.dryRun = false) :
    Leads disk plan.run fun before result after =>
      ∀ failure, result = .error failure → plan.Remains before failure after := by
  rw [Plan.run, wet]
  apply Leads.bind (leads_makeFolders faithful _)
  · rintro before failure after ⟨made, failed⟩ _ ⟨⟩
    obtain ⟨error, rfl⟩ := failed failure rfl
    exact .noFolder made
  · intro _
    apply Leads.bind (leads_steps faithful wet _ _)
    · rintro start failure after halts before ⟨made, -⟩ _ ⟨⟩
      exact .halted made halts
    · intro summary
      apply Leads.bind (leads_writeSummary faithful _ summary)
      · rintro middle failure after unchanged start passes before ⟨made, -⟩ _ ⟨⟩
        obtain ⟨rfl, error, rfl⟩ := unchanged failure rfl
        exact .noSummary made passes
      · intro _
        exact .pure fun _ _ _ _ _ _ _ _ failed => by contradiction

end leads

/-- A run that fails leaves the reports of the pairs before its failure, at most the patch of the
pair at which it fails, no report of a later pair, and no summary. -/
theorem remains_of_failure {σ : Type} [Host (StateM σ)] {disk : σ → Disk}
    (faithful : Host.Faithful disk) {plan : Plan} (wet : plan.dryRun = false) {state after : σ}
    (grounded : (disk state).Grounded) {failure : Failure}
    (ran : Host.perform plan.run state = (.error failure, after)) :
    plan.Remains (disk state) failure (disk after) ∧
      Disk.SameFile ((disk state).location (Summary.path plan.outputDir)) (disk state)
        (disk after) := by
  obtain ⟨-, left⟩ := leads_run faithful wet state grounded
  rw [ran] at left
  have remains := left failure rfl
  exact ⟨remains, remains.sameFile⟩

/-- Of three pairs the second has a file that may not be read. -/
theorem remains_of_failure_locked :
    let pairs : List FilePair :=
      [⟨⟨"a.js"⟩, ⟨"b.js"⟩, "t"⟩, ⟨⟨"b.js"⟩, ⟨"c.js"⟩, "u"⟩, ⟨⟨"a.js"⟩, ⟨"a.js"⟩, "v"⟩]
    let plan : Plan := ⟨⟨"out"⟩, pairs, [], {}, false⟩
    let files : List (String × Tree) :=
      [("a.js", .file (World.bytes "function f() \x7b\x7d")), ("b.js", .file []),
        ("c.js", .file [])]
    let state : Guarded := ⟨⟨⟨.folder files, []⟩, #[]⟩, [⟨"c.js"⟩]⟩
    let failure : Failure := .read ⟨"c.js"⟩ (.other "Permission denied (os error 13)")
    plan.dryRun = false ∧ state.world.disk.Grounded ∧
      ∃ after, Host.perform plan.run state = (.error failure, after) ∧
        plan.Remains state.world.disk failure after.world.disk ∧
        Disk.SameFile (state.world.disk.location (Summary.path plan.outputDir)) state.world.disk
          after.world.disk := by
  intro pairs plan files state failure
  have grounded : state.world.disk.Grounded := by decide +kernel
  have failed : (Host.perform plan.run state).1 = .error failure := by decide +kernel
  have ran : Host.perform plan.run state = (.error failure, (Host.perform plan.run state).2) :=
    Prod.ext failed rfl
  refine ⟨rfl, grounded, _, ran, ?_⟩
  exact remains_of_failure Guarded.faithful rfl grounded ran

end ScriptDelta
