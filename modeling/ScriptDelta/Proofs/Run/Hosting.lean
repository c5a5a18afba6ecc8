import ScriptDelta.Proofs.Disk.Change
import ScriptDelta.Proofs.Run.Steps

/-! # Runs on any host

A host is faithful to the disk that is seen in its state if whatever succeeds is what the disk says
and does what it is meant to do (`Host.Faithful`). Any operation on files may fail, for any reason,
and then it leaves the disk as it is, but for folders that were made on the way. What an action
leads to on a faithful host is told by relations between the disks before and after
(`Host.Leads`), which are put together as the action is (`Host.Leads.bind`).
-/

namespace ScriptDelta

theorem Disk.bytes?_of_read {disk : Disk} {path : Path} {bytes : List UInt8}
    (success : disk.read path = .ok bytes) : disk.bytes? path = some bytes := by
  rw [read, bind_eq_ok_iff] at success
  obtain ⟨node, there, success⟩ := success
  cases node with
  | folder => contradiction
  | file found =>
    obtain rfl : found = bytes := Except.ok.inj success
    rw [bytes?, there]

namespace Host

/-- An action on a host whose state is a value. -/
abbrev Action (σ α : Type) : Type :=
  ExceptT Failure (StateM σ) α

/-- The result of an action, and the state after it. -/
def perform {σ α : Type} (action : Action σ α) (state : σ) : Except Failure α × σ :=
  action.run.run state

/-- Whatever succeeds on a host is what the disk says, and whatever fails leaves the disk as it is;
only of a row of folders a part may have been made. -/
structure Faithful {σ : Type} [Host (StateM σ)] (disk : σ → Disk) : Prop where
  isFile : ∀ path state, ((Host.isFile path : StateM σ Bool).run state).1 = (disk state).isFile path
  isFile_disk : ∀ path state, disk ((Host.isFile path : StateM σ Bool).run state).2 = disk state
  read : ∀ path state bytes, ((Host.read path : StateM σ _).run state).1 = .ok bytes →
    (disk state).read path = .ok bytes
  read_disk : ∀ path state, disk ((Host.read path : StateM σ _).run state).2 = disk state
  makeFolders : ∀ path state, (disk state).Grounded →
    Disk.FoldersMade ((disk state).route path) (disk state)
      (disk ((Host.makeFolders path : StateM σ _).run state).2)
  write : ∀ path text state, ((Host.write path text : StateM σ _).run state).1 = .ok () →
    (disk state).write path (World.bytes text) =
      .ok (disk ((Host.write path text : StateM σ _).run state).2)
  write_error : ∀ path text state error,
    ((Host.write path text : StateM σ _).run state).1 = .error error →
    disk ((Host.write path text : StateM σ _).run state).2 = disk state
  log_disk : ∀ event state, disk ((Host.log event : StateM σ Unit).run state).2 = disk state

/-- What an action does from a disk with a current folder, in terms of the disk before, the result
and the disk after. -/
def Leads {σ α : Type} (disk : σ → Disk) (action : Action σ α)
    (spec : Disk → Except Failure α → Disk → Prop) : Prop :=
  ∀ state, (disk state).Grounded →
    (disk (perform action state).2).Grounded ∧
      spec (disk state) (perform action state).1 (disk (perform action state).2)

theorem perform_bind {σ α β : Type} (action : Action σ α) (next : α → Action σ β) (state : σ) :
    perform (action >>= next) state =
      match perform action state with
      | (.ok value, middle) => perform (next value) middle
      | (.error failure, after) => (.error failure, after) := by
  have ran : StateT.run (ExceptT.run action) state = perform action state := rfl
  rw [perform, ExceptT.run_bind, StateT.run_bind, ran]
  cases perform action state with
  | mk result after => cases result <;> rfl

namespace Leads

variable {σ α β : Type} {disk : σ → Disk} {action : Action σ α} {next : α → Action σ β}
  {first spec : Disk → Except Failure α → Disk → Prop}
  {whole : Disk → Except Failure β → Disk → Prop}

theorem mono (leads : Leads disk action first)
    (within : ∀ before result after, first before result after → spec before result after) :
    Leads disk action spec := by
  intro state grounded
  obtain ⟨stays, holds⟩ := leads state grounded
  exact ⟨stays, within _ _ _ holds⟩

theorem pure {value : α} (holds : ∀ disk, spec disk (.ok value) disk) :
    Leads disk (pure value) spec :=
  fun state grounded => ⟨grounded, holds (disk state)⟩

theorem throw {failure : Failure} (holds : ∀ disk, spec disk (.error failure) disk) :
    Leads disk (throw failure : Action σ α) spec :=
  fun state grounded => ⟨grounded, holds (disk state)⟩

/-- Of two actions in a row the first fails, or the second begins where the first ended. -/
theorem bind (head : Leads disk action first)
    (stopped : ∀ before failure after, first before (.error failure) after →
      whole before (.error failure) after)
    (tail : ∀ value, Leads disk (next value) fun middle result after =>
      ∀ before, first before (.ok value) middle → whole before result after) :
    Leads disk (action >>= next) whole := by
  intro state grounded
  obtain ⟨stays, holds⟩ := head state grounded
  rw [perform_bind]
  cases ran : perform action state with
  | mk result middle =>
    rw [ran] at stays holds
    cases result with
    | error failure => exact ⟨stays, stopped _ _ _ holds⟩
    | ok value =>
      obtain ⟨last, follows⟩ := tail value middle stays
      exact ⟨last, follows _ holds⟩

/-- The first of two actions only looks at the disk. -/
theorem bind_look {seen : Disk → α}
    (head : Leads disk action fun before result after =>
      result = .ok (seen before) ∧ after = before)
    (tail : ∀ value, Leads disk (next value) fun before result after =>
      seen before = value → whole before result after) : Leads disk (action >>= next) whole := by
  apply bind head
  · intro before failure after ⟨success, _⟩
    contradiction
  · intro value
    apply (tail value).mono
    rintro _ result after holds before ⟨success, rfl⟩
    exact holds (Except.ok.inj success).symm

/-- The result of the first of two actions is known. -/
theorem bind_value {value : α}
    (head : Leads disk action fun before result after => result = .ok value ∧ after = before)
    (tail : Leads disk (next value) whole) : Leads disk (action >>= next) whole := by
  intro state grounded
  obtain ⟨stays, success, same⟩ := head state grounded
  rw [perform_bind]
  cases ran : perform action state with
  | mk result middle =>
    rw [ran] at stays success same
    obtain rfl : result = .ok value := success
    obtain ⟨last, follows⟩ := tail middle stays
    exact ⟨last, same ▸ follows⟩

end Leads

section operations

variable {σ : Type} [Host (StateM σ)] {disk : σ → Disk} (faithful : Faithful disk)

include faithful

theorem leads_log (event : Event) : Leads disk (Host.log event) fun before result after =>
    result = .ok () ∧ after = before := by
  intro state grounded
  have same := faithful.log_disk event state
  refine ⟨?_, rfl, same⟩
  exact same.symm ▸ grounded

theorem leads_forM_log (events : List Event) :
    Leads disk (events.forM Host.log) fun before result after =>
      result = .ok () ∧ after = before := by
  induction events with
  | nil => exact .pure fun _ => ⟨rfl, rfl⟩
  | cons event rest ih => exact .bind_value (leads_log faithful event) ih

theorem leads_search (text : String) : Leads disk (Run.search text) fun before result after =>
    result = .ok (Catalog.ofText text) ∧ after = before := by
  apply Leads.bind_value (leads_forM_log faithful _)
  apply Leads.bind_value (leads_log faithful _)
  exact .pure fun _ => ⟨rfl, rfl⟩

theorem leads_isFile (path : Path) : Leads disk (Host.isFile path) fun before result after =>
    result = .ok (before.isFile path) ∧ after = before := by
  intro state grounded
  have same := faithful.isFile_disk path state
  refine ⟨?_, congrArg Except.ok (faithful.isFile path state), same⟩
  exact same.symm ▸ grounded

theorem leads_missing (pair : FilePair) :
    Leads disk (Run.missing? pair) fun before result after =>
      result = .ok (before.missing? pair) ∧ after = before := by
  simp only [Disk.missing?_eq]
  apply Leads.bind_look (leads_isFile faithful pair.old)
  rintro (_ | _)
  · exact .pure fun _ lacks => by simp [lacks]
  · apply Leads.bind_look (leads_isFile faithful pair.new)
    rintro (_ | _)
    · exact .pure fun _ lacks there => by simp [lacks, there]
    · exact .pure fun _ there oldThere => by simp [there, oldThere]

theorem leads_readText (path : Path) : Leads disk (Run.readText path) fun before result after =>
    after = before ∧ match result with
      | .ok text =>
        ∃ bytes, before.bytes? path = some bytes ∧ text = String.ofList (Text.decode bytes)
      | .error failure => ∃ error, failure = .read path error := by
  have looked : Leads disk (Host.read path) fun before result after =>
      after = before ∧ ∃ outcome, result = .ok outcome ∧
        ∀ bytes, outcome = .ok bytes → before.bytes? path = some bytes := by
    intro state grounded
    have same := faithful.read_disk path state
    refine ⟨same.symm ▸ grounded, same, _, rfl, ?_⟩
    intro bytes success
    exact Disk.bytes?_of_read (faithful.read path state bytes success)
  apply Leads.bind looked
  · rintro before failure after ⟨-, outcome, success, -⟩
    contradiction
  · rintro (error | bytes)
    · apply Leads.throw
      rintro disk before ⟨rfl, -⟩
      exact ⟨rfl, error, rfl⟩
    · apply Leads.pure
      rintro disk before ⟨rfl, outcome, success, found⟩
      exact ⟨rfl, bytes, found bytes (Except.ok.inj success).symm, rfl⟩

/-- Two files that can be read are compared, and one that cannot ends the comparison. -/
theorem leads_compare (plan : Plan) (pair : FilePair) :
    Leads disk (Run.compare pair plan.ignores) fun before result after =>
      after = before ∧ match result with
        | .ok revision => plan.revision? before pair = some revision
        | .error failure => ∃ path ∈ [pair.old, pair.new], ∃ error, failure = .read path error := by
  apply Leads.bind (leads_readText faithful pair.old)
  · rintro before failure after ⟨same, error, rfl⟩
    exact ⟨same, pair.old, by simp, error, rfl⟩
  · intro old
    apply Leads.bind (leads_readText faithful pair.new)
    · rintro middle failure after ⟨rfl, error, rfl⟩ before ⟨rfl, -⟩
      exact ⟨rfl, pair.new, by simp, error, rfl⟩
    · intro new
      apply Leads.bind_value (leads_search faithful old)
      apply Leads.bind_value (leads_search faithful new)
      apply Leads.bind_value (leads_log faithful _)
      apply Leads.pure
      rintro disk middle ⟨rfl, newBytes, newFound, rfl⟩ before ⟨rfl, oldBytes, oldFound, rfl⟩
      refine ⟨rfl, ?_⟩
      simp [Plan.revision?, Disk.catalog?, oldFound, newFound]

theorem leads_write (path : Path) (text : String) :
    Leads disk (Run.write path text) fun before result after => match result with
      | .ok () => Disk.Wrote [(before.location path, World.bytes text)] before after
      | .error failure => after = before ∧ ∃ error, failure = .write path error := by
  have tried : Leads disk (Host.write path text) fun before result after =>
      (result = .ok (.ok ()) ∧
        Disk.Wrote [(before.location path, World.bytes text)] before after) ∨
      (∃ error, result = .ok (.error error)) ∧ after = before := by
    intro state grounded
    cases success : ((Host.write path text : StateM σ _).run state).1 with
    | ok =>
      have wrote := Disk.Wrote.single grounded (faithful.write path text state success)
      have stays := wrote.changedWithin.grounded grounded
      exact ⟨stays, .inl ⟨congrArg Except.ok success, wrote⟩⟩
    | error error =>
      have same := faithful.write_error path text state error success
      refine ⟨?_, .inr ⟨⟨error, congrArg Except.ok success⟩, same⟩⟩
      exact same.symm ▸ grounded
  apply Leads.bind tried
  · rintro before failure after (⟨success, -⟩ | ⟨⟨_, failed⟩, -⟩) <;> contradiction
  · rintro (error | _)
    · apply Leads.throw
      rintro disk before (⟨success, -⟩ | ⟨-, same⟩)
      · simp at success
      · exact ⟨same, error, rfl⟩
    · apply Leads.pure
      rintro disk before (⟨-, wrote⟩ | ⟨⟨_, failed⟩, -⟩)
      · exact wrote
      · simp at failed

theorem leads_makeFolders (path : Path) :
    Leads disk (Run.makeFolders path) fun before result after =>
      Disk.FoldersMade (before.route path) before after ∧
        ∀ failure, result = .error failure → ∃ error, failure = .makeFolders path error := by
  have tried : Leads disk (Host.makeFolders path) fun before result after =>
      (∃ outcome, result = .ok outcome) ∧ Disk.FoldersMade (before.route path) before after := by
    intro state grounded
    have made := faithful.makeFolders path state grounded
    exact ⟨made.grounded grounded, ⟨_, rfl⟩, made⟩
  apply Leads.bind tried
  · rintro before failure after ⟨⟨outcome, success⟩, -⟩
    contradiction
  · rintro (error | _)
    · apply Leads.throw
      rintro disk before ⟨-, made⟩
      refine ⟨made, ?_⟩
      rintro failure failed
      exact ⟨error, (Except.error.inj failed).symm⟩
    · apply Leads.pure
      rintro disk before ⟨-, made⟩
      exact ⟨made, fun _ failed => by contradiction⟩

end operations

end Host

/-- A world in which some files may be neither read nor written. -/
structure Guarded where
  world : World
  locked : List Path

namespace Guarded

/-- What is done to the world of a guarded one, unless the path is locked. -/
def unlocked {α : Type} (path : Path) (action : StateM World (Except FileError α)) :
    StateM Guarded (Except FileError α) := fun state =>
  if path ∈ state.locked then (.error (.other "Permission denied (os error 13)"), state)
  else
    let (outcome, world) := action.run state.world
    (outcome, { state with world })

instance : Host (StateM Guarded) where
  isFile path := return (← get).world.disk.isFile path
  read path := unlocked path (Host.read path)
  makeFolders path := unlocked path (Host.makeFolders path)
  write path text := unlocked path (Host.write path text)
  log event := modify fun state =>
    { state with world := { state.world with events := state.world.events.push event } }

end Guarded

theorem World.faithful : Host.Faithful World.disk where
  isFile _ _ := rfl
  isFile_disk _ _ := rfl
  read _ _ _ success := success
  read_disk _ _ := rfl
  makeFolders _ _ grounded := (Disk.makeFolders_spec grounded rfl).1
  write path text world success := by
    change (World.write path text world).1 = .ok () at success
    change _ = Except.ok (World.write path text world).2.disk
    rw [World.write] at success ⊢
    cases written : world.disk.write path (World.bytes text) with
    | ok disk => rfl
    | error error => simp [written] at success
  write_error path text world error failed := by
    change (World.write path text world).1 = .error error at failed
    change (World.write path text world).2.disk = _
    rw [World.write] at failed ⊢
    cases written : world.disk.write path (World.bytes text) with
    | ok disk => simp [written] at failed
    | error error => rfl
  log_disk _ _ := rfl

namespace Guarded

variable {α : Type}

/-- An operation on a locked path fails, and on any other it does what it does in the world. -/
theorem unlocked_cases (operation : StateM Guarded (Except FileError α)) {path : Path}
    {action : StateM World (Except FileError α)} (guards : operation = unlocked path action)
    (state : Guarded) :
    (∃ error, operation.run state = (.error error, state)) ∨
      operation.run state =
        ((action.run state.world).1, { state with world := (action.run state.world).2 }) := by
  subst guards
  by_cases closed : path ∈ state.locked
  · exact .inl ⟨_, if_pos closed⟩
  · exact .inr (if_neg closed)

theorem faithful : Host.Faithful fun state : Guarded => state.world.disk where
  isFile _ _ := rfl
  isFile_disk _ _ := rfl
  read path state bytes success := by
    obtain ⟨error, ran⟩ | ran := unlocked_cases (Host.read path) rfl state
    · rw [ran] at success
      contradiction
    · rw [ran] at success
      exact World.faithful.read path state.world bytes success
  read_disk path state := by
    obtain ⟨error, ran⟩ | ran := unlocked_cases (Host.read path) rfl state
    · rw [ran]
    · rw [ran]
      exact World.faithful.read_disk path state.world
  makeFolders path state grounded := by
    obtain ⟨error, ran⟩ | ran := unlocked_cases (Host.makeFolders path) rfl state
    · rw [ran]
      exact .refl _ _
    · rw [ran]
      exact World.faithful.makeFolders path state.world grounded
  write path text state success := by
    obtain ⟨error, ran⟩ | ran := unlocked_cases (Host.write path text) rfl state
    · rw [ran] at success
      contradiction
    · rw [ran] at success ⊢
      exact World.faithful.write path text state.world success
  write_error path text state error failed := by
    obtain ⟨error, ran⟩ | ran := unlocked_cases (Host.write path text) rfl state
    · rw [ran]
    · rw [ran] at failed ⊢
      exact World.faithful.write_error path text state.world error failed
  log_disk _ _ := rfl

end Guarded

end ScriptDelta
