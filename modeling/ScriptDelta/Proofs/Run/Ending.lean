import ScriptDelta.Run

/-! # How an action ends

In a world an action is a function. Its result, and what it does to the disk, do not depend on what
was logged before (`Ends`); actions in a row end as the last of them, or as the first that fails.
-/

namespace ScriptDelta

namespace World

/-- A run in a world. -/
abbrev Action (α : Type) : Type :=
  ExceptT Failure (StateM World) α

/-- The result of a run in a world, and the world after it. -/
def perform {α : Type} (action : Action α) (world : World) : Except Failure α × World :=
  action.run.run world

/-- From a disk an action has a result and leaves a disk, whatever was logged before. -/
def Ends {α : Type} (action : Action α) (disk : Disk) (result : Except Failure α) (after : Disk) :
    Prop :=
  ∀ events, ∃ later, perform action ⟨disk, events⟩ = (result, ⟨after, later⟩)

theorem perform_bind {α β : Type} (action : Action α) (next : α → Action β) (world : World) :
    perform (action >>= next) world =
      match perform action world with
      | (.ok value, world) => perform (next value) world
      | (.error failure, world) => (.error failure, world) := by
  have ran : StateT.run (ExceptT.run action) world = perform action world := rfl
  rw [perform, ExceptT.run_bind, StateT.run_bind, ran]
  cases perform action world with
  | mk result after => cases result <;> rfl

namespace Ends

variable {α β : Type} {action : Action α} {next : α → Action β} {disk middle after : Disk}

theorem pure (value : α) (disk : Disk) : Ends (pure value) disk (.ok value) disk :=
  fun events => ⟨events, rfl⟩

theorem throw (failure : Failure) (disk : Disk) :
    Ends (throw failure : Action α) disk (.error failure) disk :=
  fun events => ⟨events, rfl⟩

theorem bind {value : α} {result : Except Failure β} (first : Ends action disk (.ok value) middle)
    (second : Ends (next value) middle result after) : Ends (action >>= next) disk result after := by
  intro events
  obtain ⟨between, ran⟩ := first events
  obtain ⟨later, ranOn⟩ := second between
  refine ⟨later, ?_⟩
  rw [perform_bind, ran]
  exact ranOn

theorem bind_error {failure : Failure} (first : Ends action disk (.error failure) after) :
    Ends (action >>= next) disk (.error failure) after := by
  intro events
  obtain ⟨later, ran⟩ := first events
  refine ⟨later, ?_⟩
  rw [perform_bind, ran]

/-- An action in a world ends as it does from its disk. -/
theorem perform_eq {result : Except Failure α} {world : World}
    (ends : Ends action world.disk result after) :
    (perform action world).1 = result ∧ (perform action world).2.disk = after := by
  obtain ⟨later, ran⟩ := ends world.events
  change perform action world = _ at ran
  rw [ran]
  exact ⟨rfl, rfl⟩

theorem log (event : Event) (disk : Disk) :
    Ends (Host.log event : Action Unit) disk (.ok ()) disk :=
  fun events => ⟨events.push event, rfl⟩

theorem forM_log (events : List Event) (disk : Disk) :
    Ends (events.forM Host.log : Action Unit) disk (.ok ()) disk := by
  induction events with
  | nil => exact pure () disk
  | cons event rest ih => exact bind (log event disk) ih

theorem isFile (path : Path) (disk : Disk) :
    Ends (Host.isFile path : Action Bool) disk (.ok (disk.isFile path)) disk :=
  fun events => ⟨events, rfl⟩

theorem read (path : Path) (disk : Disk) :
    Ends (Host.read path : Action _) disk (.ok (disk.read path)) disk :=
  fun events => ⟨events, rfl⟩

theorem makeFolders {path : Path} {outcome : Except FileError Unit}
    (ran : disk.makeFolders path = (outcome, after)) :
    Ends (Host.makeFolders path : Action _) disk (.ok outcome) after := by
  intro events
  refine ⟨events, ?_⟩
  change (let (outcome, world) := World.makeFolders path ⟨disk, events⟩; (Except.ok outcome, world)) = _
  rw [World.makeFolders, ran]

theorem write {path : Path} {text : String} (written : disk.write path (bytes text) = .ok after) :
    Ends (Host.write path text : Action _) disk (.ok (.ok ())) after := by
  intro events
  refine ⟨events, ?_⟩
  change (let (outcome, world) := World.write path text ⟨disk, events⟩; (Except.ok outcome, world)) = _
  rw [World.write, written]

theorem write_error {path : Path} {text : String} {error : FileError}
    (failed : disk.write path (bytes text) = .error error) :
    Ends (Host.write path text : Action _) disk (.ok (.error error)) disk := by
  intro events
  refine ⟨events, ?_⟩
  change (let (outcome, world) := World.write path text ⟨disk, events⟩; (Except.ok outcome, world)) = _
  rw [World.write, failed]

end Ends

end World

end ScriptDelta
