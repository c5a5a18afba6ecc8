import ScriptDelta.Path
import ScriptDelta.Text.Blank

/-! # File pairs

A pair names the old and the new file of one source and the tag under which they are reported.
Without other instructions six pairs are compared; a pair is otherwise written as the two files and
the tag with colons between them.
-/

namespace ScriptDelta

/-- Two files to compare, and the tag of their reports. -/
structure FilePair where
  old : Path
  new : Path
  tag : String
deriving DecidableEq

namespace FilePair

/-- The old file, the new file and the tag of each pair compared by default. -/
def defaults : List (String × String × String) :=
  [("rpg_core.js", "rmmz_core.js", "core"),
   ("rpg_managers.js", "rmmz_managers.js", "managers"),
   ("rpg_objects.js", "rmmz_objects.js", "objects"),
   ("rpg_scenes.js", "rmmz_scenes.js", "scenes"),
   ("rpg_sprites.js", "rmmz_sprites.js", "sprites"),
   ("rpg_windows.js", "rmmz_windows.js", "windows")]

/-- The files `old` and `new` of two directories. -/
def within (oldDir newDir : Path) (old new tag : String) : FilePair :=
  ⟨oldDir.join ⟨old⟩, newDir.join ⟨new⟩, tag⟩

/-- The pairs compared by default. -/
def defaultPairs (oldDir newDir : Path) : List FilePair :=
  defaults.map fun (old, new, tag) => within oldDir newDir old new tag

/-- Why a text names no pair. -/
inductive Fault where
  /-- There are not two colons in it. -/
  | partCount
  /-- One of its parts is blank. -/
  | emptyPart
deriving DecidableEq

/-- What a text should have been to name a pair. -/
def Fault.description : Fault → String
  | .partCount => "expected OLD:NEW:TAG"
  | .emptyPart => "empty component"

/-- The parts between the colons of a text, without the blanks around them. -/
def parts (text : String) : List String :=
  (text.toList.splitOnP (· == ':')).map fun part => String.ofList (Text.trim part)

/-- The pair that a text names, with its files in the given directories. -/
def parse (oldDir newDir : Path) (text : String) : Except Fault FilePair :=
  match parts text with
  | [old, new, tag] =>
    if old.isEmpty || new.isEmpty || tag.isEmpty then .error .emptyPart
    else .ok (within oldDir newDir old new tag)
  | _ => .error .partCount

end FilePair

end ScriptDelta
