import ScriptDelta.Comparison
import ScriptDelta.Edit.Annotated
import ScriptDelta.FilePair

/-! # Briefs

The brief of a pair is a Markdown text for a reader: the tally, and a section each for what was
added, removed and changed. A section lists its first entries up to a limit and says how many more
there are; one without entries is left out. On demand a changed entry shows the annotated line diff
of its two bodies in a fenced block.
-/

namespace ScriptDelta.Report

/-- How much a brief shows. -/
structure Detail where
  /-- The number of entries listed in each section. -/
  maxListed : Nat := 20000
  /-- Changed entries show the line diff of their bodies. -/
  bodyDiff : Bool := false
deriving DecidableEq

/-- The line that stands for the entries beyond the limit, if there are any. -/
def more (count limit : Nat) : List String :=
  if limit < count then ["- … (+" ++ toString (count - limit) ++ " more)"] else []

/-- A section with the given heading, unless it has no entries. -/
def sectionOf {α : Type} (title : String) (entries : List α) (limit : Nat)
    (entryLines : α → List String) : List String :=
  if entries.isEmpty then []
  else
    ["## " ++ title ++ "\n"] ++ (entries.take limit).flatMap entryLines ++
      more entries.length limit ++ [""]

/-- The entry of a definition that only one side has. -/
def listed (definition : Definition) : List String :=
  ["- `" ++ definition.key ++ "` — " ++ definition.signature ++
    if definition.truncated then " (truncated)" else ""]

/-- The line diff of two bodies without the blanks at its end, between fences. -/
def fenced (old new : Definition) : List String :=
  let annotated := (Edit.annotate old.body new.body).toList
  ["", "```diff", String.ofList (Text.trimEnd annotated), "```", ""]

/-- The entry of a definition that both sides have. -/
def changedEntry (detail : Detail) : Definition × Definition → List String
  | (old, new) => ["- `" ++ old.key ++ "`"] ++ if detail.bodyDiff then fenced old new else []

/-- The lines of a brief. Some of them end with a line feed of their own, and so are followed by an
empty line. -/
def briefLines (pair : FilePair) (revision : Revision) (detail : Detail) : List String :=
  let tally := revision.tally
  ["# " ++ pair.tag ++ ": " ++ pair.old.fileName ++ " ↔ " ++ pair.new.fileName ++ "\n",
    "- Added in new: **" ++ toString tally.added ++ "**",
    "- Removed from old: **" ++ toString tally.removed ++ "**",
    "- Changed: **" ++ toString tally.changed ++ "**\n"] ++
  sectionOf "Added in new" revision.added detail.maxListed listed ++
  sectionOf "Removed from old" revision.removed detail.maxListed listed ++
  sectionOf "Changed" revision.changed detail.maxListed (changedEntry detail)

/-- The brief of a pair. -/
def brief (pair : FilePair) (revision : Revision) (detail : Detail) : String :=
  "\n".intercalate (briefLines pair revision detail)

end ScriptDelta.Report
