import ScriptDelta.Edit.Compaction
import ScriptDelta.Edit.Shortest
import ScriptDelta.Text.Line

/-! # Annotated line diffs

Two texts are shown as one: the lines of a script between them, each with a sign in front that says
whether it is common to both, only in the old text or only in the new one.
-/

namespace ScriptDelta.Edit

/-- The sign in front of a line. -/
def Mark.sign : Mark → Char
  | .keep => ' '
  | .delete => '-'
  | .insert => '+'

/-- The script between the lines of two texts. -/
def lineScript (old new : List Char) : Script (List Char) :=
  compact (shortest (Text.lines old) (Text.lines new))

/-- The script leads from the lines of the old text to those of the new one. -/
theorem between_lineScript (old new : List Char) :
    (lineScript old new).Between (Text.lines old) (Text.lines new) :=
  between_compact (between_shortest ..)

/-- The lines of both texts with their signs; a line without a line end is given one. -/
def annotate (old new : String) : String :=
  String.ofList <| (lineScript old.toList new.toList).marked.flatMap fun (mark, line) =>
    mark.sign :: Text.ended line

end ScriptDelta.Edit
