import ScriptDelta.Comparison
import ScriptDelta.FilePair
import ScriptDelta.Json

/-! # Patch documents

The patch of a pair is a JSON document with everything that a comparison found out except the
bodies: the pair, the tally, the definitions added and removed, and both versions of those changed.
A member is left out where a definition has no container and where it is not truncated.
-/

namespace ScriptDelta

/-- What a report says of a definition. -/
def Definition.members (definition : Definition) : List (String × Json) :=
  [("kind", .text definition.kind.label)] ++
    (definition.container.map fun container => ("container", Json.text container)).toList ++
    [("name", .text definition.name), ("sig", .text definition.signature),
      ("hash", .text definition.digest)] ++
    if definition.truncated then [("truncated", .flag true)] else []

/-- A definition in a report. -/
def Definition.document (definition : Definition) : Json :=
  .object definition.members

/-- A definition in a report with its key in front. -/
def Definition.keyedDocument (definition : Definition) : Json :=
  .object (("key", .text definition.key) :: definition.members)

/-- A catalog as an object with a member for each key. -/
def Catalog.document (catalog : Catalog) : Json :=
  .object (catalog.rows.map fun definition => (definition.key, definition.document))

/-- A tally in a report. -/
def Tally.document (tally : Tally) : Json :=
  .object [("added", .number tally.added), ("removed", .number tally.removed),
    ("changed", .number tally.changed), ("unchanged", .number tally.unchanged)]

/-- A pair in a report. -/
def FilePair.document (pair : FilePair) : Json :=
  .object [("old", .text pair.old.text), ("new", .text pair.new.text), ("tag", .text pair.tag)]

namespace Report

/-- Both versions of a changed definition. -/
def change (old new : Definition) : Json :=
  .object [("key", .text old.key), ("old", old.document), ("new", new.document)]

/-- The patch of a pair. -/
def patch (pair : FilePair) (revision : Revision) : Json :=
  .object
    [("pair", pair.document), ("counts", revision.tally.document),
      ("added", .array (revision.added.map Definition.keyedDocument)),
      ("removed", .array (revision.removed.map Definition.keyedDocument)),
      ("changed", .array (revision.changed.map fun (old, new) => change old new))]

end Report

end ScriptDelta
