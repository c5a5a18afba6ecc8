import ScriptDelta.Session

/-! # The program

The command line on the files of the machine. Events up to the level that the variable
`METHODDIFF_LOG` names, or up to the informative ones without it, go to the standard error.
-/

namespace ScriptDelta.Program

/-- The outcome of a file operation as a value. -/
def attempt {α : Type} (operation : IO α) : IO (Except FileError α) := do
  try
    return .ok (← operation)
  catch error =>
    return .error <|
      match error with
      | .noFileOrDirectory .. => .notFound
      | .alreadyExists .. => .alreadyExists
      | .inappropriateType _ 21 _ => .isDirectory
      | .inappropriateType .. => .notDirectory
      | .invalidArgument _ 36 _ | .invalidArgument _ 0xffffffdc _ => .nameTooLong
      | error => .other (toString error)

/-- A path of the machine leads to a file. -/
def isFile (path : Path) : IO Bool := do
  try
    let file := (← IO.currentDir) / path.text
    return (← file.metadata).type == .file
  catch _ => return false

/-- File operations with the events up to a level shown; without a level none are. -/
abbrev Machine :=
  ReaderT (Option Level) IO

instance : Host Machine where
  isFile path := isFile path
  read path := attempt do return (← IO.FS.readBinFile path.text).data.toList
  makeFolders path := attempt (IO.FS.createDirAll path.text)
  write path text := attempt (IO.FS.writeFile path.text text)
  log event := do
    if (← read).any event.isShownAt then IO.eprintln event.line

/-- The level that a setting names. -/
def level : Option String → Option Level
  | some name => Level.ofName? name
  | none => some .info

end ScriptDelta.Program

open ScriptDelta in
def main (words : List String) : IO UInt32 := do
  let level := Program.level (← IO.getEnv "METHODDIFF_LOG")
  let outcome ← ReaderT.run (Session.ofWords (m := Program.Machine) words) level
  IO.print outcome.output
  IO.eprint outcome.error
  return outcome.code.toUInt32
