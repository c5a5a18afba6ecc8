import ScriptDelta.Disk.Tree
import ScriptDelta.Path

/-! # Disks

A disk is a tree of folders and files, seen from a current folder. A path is followed one name at a
time; every name but the last must be that of a folder, and a slash at the end demands a folder too.
Neither a name nor a path may be too long. Writing a file replaces what it held. A failed operation
leaves the disk as it is, except that making several folders keeps those made before the failure.
-/

namespace ScriptDelta

/-- Why a file operation failed. -/
inductive FileError where
  /-- A name on the way does not exist. -/
  | notFound
  /-- Something of that name exists already. -/
  | alreadyExists
  /-- A name on the way is that of a file. -/
  | notDirectory
  /-- The path leads to a folder. -/
  | isDirectory
  /-- The path, or a name on the way, is too long. -/
  | nameTooLong
  /-- The path holds a null character. -/
  | nullCharacter
  /-- Any other failure, in the words of the system. -/
  | other (text : String)
deriving DecidableEq

/-- The failure as shown to a user. -/
def FileError.message : FileError → String
  | .notFound => "No such file or directory (os error 2)"
  | .alreadyExists => "File exists (os error 17)"
  | .notDirectory => "Not a directory (os error 20)"
  | .isDirectory => "Is a directory (os error 21)"
  | .nameTooLong => "File name too long (os error 36)"
  | .nullCharacter => "file name contained an unexpected NUL byte"
  | .other text => text

/-- The folders and files of a disk, and the folder that relative paths begin at. -/
structure Disk where
  tree : Tree
  current : Location

namespace Disk

/-- The greatest number of bytes in a name. -/
def nameLimit : Nat :=
  255

/-- The greatest number of bytes in a path. -/
def pathLimit : Nat :=
  4095

/-- What is at a location. -/
def node? (disk : Disk) (location : Location) : Option Node :=
  disk.tree.node? location

/-- The disk with something put at a location. -/
def put (disk : Disk) (location : Location) (inner : Tree) : Disk :=
  { disk with tree := disk.tree.put location inner }

/-- A folder on the way along a path: the names that lead to it, the last one in front, and what
lies in it. -/
structure Spot where
  trail : List String
  folder : Tree

namespace Spot

/-- The names that lead to the folder. -/
def location (spot : Spot) : Location :=
  spot.trail.reverse

/-- What lies under a name in the folder. -/
def child? (spot : Spot) (name : String) : Except FileError (Option Tree) :=
  if nameLimit < name.utf8ByteSize then .error .nameTooLong else .ok (spot.folder.child? name)

end Spot

/-- What a trail of names leads to. -/
def spot (disk : Disk) (trail : List String) : Spot :=
  ⟨trail, (disk.tree.find? trail.reverse).getD disk.tree⟩

/-- The folder to which a name leads from a folder. -/
def enter (disk : Disk) (spot : Spot) (name : String) : Except FileError Spot :=
  if name = "." then .ok spot
  else if name = ".." then .ok (disk.spot spot.trail.tail)
  else do
    match ← spot.child? name with
    | some (.folder entries) => return ⟨name :: spot.trail, .folder entries⟩
    | some (.file _) => throw .notDirectory
    | none => throw .notFound

/-- Where a path leads. -/
inductive Target where
  /-- To a folder that is reached without a name of its own. -/
  | folder
  /-- To a name in a folder that exists. The flag says that only a folder of the name will do. -/
  | named (spot : Spot) (name : String) (onlyFolder : Bool)

/-- Follows a path up to its last name. -/
def target (disk : Disk) (path : Path) : Except FileError Target := do
  if path.text.isEmpty then throw .notFound
  if path.text.toList.contains '\x00' then throw .nullCharacter
  if pathLimit < path.text.utf8ByteSize then throw .nameTooLong
  let names := path.pieces.filter fun piece => !piece.isEmpty
  let start := disk.spot (if path.isAbsolute then [] else disk.current.reverse)
  let spot ← names.dropLast.foldlM disk.enter start
  match names.getLast? with
  | none => return .folder
  | some name =>
    if name = "." ∨ name = ".." then
      let _ ← disk.enter spot name
      return .folder
    else return .named spot name (path.text.toList.getLast? == some '/')

/-- What a path leads to. -/
def find (disk : Disk) (path : Path) : Except FileError Node := do
  match ← disk.target path with
  | .folder => return .folder
  | .named spot name onlyFolder =>
    match ← spot.child? name with
    | none => throw .notFound
    | some (.file bytes) => if onlyFolder then throw .notDirectory else return .file bytes
    | some (.folder _) => return .folder

/-- The path leads to a file. -/
def isFile (disk : Disk) (path : Path) : Bool :=
  match disk.find path with
  | .ok (.file _) => true
  | _ => false

/-- The path leads to a folder. -/
def isFolder (disk : Disk) (path : Path) : Bool :=
  match disk.find path with
  | .ok .folder => true
  | _ => false

/-- The bytes of the file that a path leads to. -/
def read (disk : Disk) (path : Path) : Except FileError (List UInt8) := do
  match ← disk.find path with
  | .file bytes => return bytes
  | .folder => throw .isDirectory

/-- The disk with a file written. -/
def write (disk : Disk) (path : Path) (bytes : List UInt8) : Except FileError Disk := do
  match ← disk.target path with
  | .named spot name false =>
    match ← spot.child? name with
    | some (.folder _) => throw .isDirectory
    | _ => return disk.put (spot.location ++ [name]) (.file bytes)
  | _ => throw .isDirectory

/-- The disk with a folder made in a folder that exists. -/
def makeFolder (disk : Disk) (path : Path) : Except FileError Disk := do
  match ← disk.target path with
  | .folder => throw .alreadyExists
  | .named spot name _ =>
    match ← spot.child? name with
    | some _ => throw .alreadyExists
    | none => return disk.put (spot.location ++ [name]) (.folder [])

/-- The outcome of an attempt to make a folder, where one that exists already will do. -/
def settle (disk : Disk) (path : Path) : Except FileError Disk → Except FileError Unit × Disk
  | .ok made => (.ok (), made)
  | .error error => (if disk.isFolder path then .ok () else .error error, disk)

/-- Makes the first of some folders, each of which lies in the next; the others are made only where
they are missing. -/
def makeNested (disk : Disk) : List Path → Except FileError Unit × Disk
  | [] => (.ok (), disk)
  | path :: ancestors =>
    match disk.makeFolder path with
    | .error .notFound =>
      match disk.makeNested ancestors with
      | (.ok (), disk) => disk.settle path (disk.makeFolder path)
      | (.error error, disk) => (.error error, disk)
    | made => disk.settle path made

/-- Makes the folder that a path leads to, and those that it lies in. The empty path leads to the
current folder. -/
def makeFolders (disk : Disk) (path : Path) : Except FileError Unit × Disk :=
  if path.text.isEmpty then (.ok (), disk) else disk.makeNested (path :: path.ancestors)

end Disk

end ScriptDelta
