import ScriptDelta.Disk
import ScriptDelta.Event

/-! # Hosts

A host is what a run needs around it: files to read and write, and a log. Nothing else of a run
depends on where it takes place. A world is a host that is a plain value, a disk with the events
logged so far, so that a run in a world is a function.
-/

namespace ScriptDelta

/-- The surroundings of a run. -/
class Host (m : Type → Type) where
  /-- The path leads to a file. -/
  isFile : Path → m Bool
  /-- The bytes of a file. -/
  read : Path → m (Except FileError (List UInt8))
  /-- Makes a folder and those that it lies in. -/
  makeFolders : Path → m (Except FileError Unit)
  /-- Writes a file in UTF-8. -/
  write : Path → String → m (Except FileError Unit)
  /-- Logs an event. -/
  log : Event → m Unit

/-- A run that may fail has the surroundings of one that does not. -/
instance {m : Type → Type} {ε : Type} [Monad m] [Host m] : Host (ExceptT ε m) where
  isFile path := ExceptT.lift (Host.isFile path)
  read path := ExceptT.lift (Host.read path)
  makeFolders path := ExceptT.lift (Host.makeFolders path)
  write path text := ExceptT.lift (Host.write path text)
  log event := ExceptT.lift (Host.log event)

/-- A disk and the events logged so far, in order. -/
structure World where
  disk : Disk
  events : Array Event

namespace World

/-- The bytes of a text in UTF-8. -/
def bytes (text : String) : List UInt8 :=
  text.toUTF8.data.toList

/-- A file written. -/
def write (path : Path) (text : String) (world : World) : Except FileError Unit × World :=
  match world.disk.write path (bytes text) with
  | .ok disk => (.ok (), { world with disk })
  | .error error => (.error error, world)

/-- Folders made. -/
def makeFolders (path : Path) (world : World) : Except FileError Unit × World :=
  let (outcome, disk) := world.disk.makeFolders path
  (outcome, { world with disk })

instance : Host (StateM World) where
  isFile path := return (← get).disk.isFile path
  read path := return (← get).disk.read path
  makeFolders := makeFolders
  write := write
  log event := modify fun world => { world with events := world.events.push event }

end World

end ScriptDelta
