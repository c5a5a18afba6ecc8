import ScriptDelta.Header
import ScriptDelta.Table

/-! # The definitions of a text

A text is searched four times, once for each kind of definition. A search takes the headers of its
form in the order of the text, and the body of each is the block that follows the start of the
header. What is found is filed under its key, so of two headers with one key the later one counts.
-/

namespace ScriptDelta

/-- A header that was found in a text. -/
structure Finding where
  /-- Where the header begins. -/
  place : Place
  identity : Identity
deriving DecidableEq

namespace Finding

/-- The key of the definition. -/
def key (finding : Finding) : String :=
  finding.identity.key

/-- The body of the definition. -/
def block (finding : Finding) : Block :=
  .following finding.place

/-- The definition that the header begins. -/
def definition (finding : Finding) : Definition :=
  .ofBlock finding.identity finding.block

/-- The definitions whose headers stand for themselves. -/
def search (read? : Place → Option (Identity × Place)) (text : List Char) : List Finding :=
  (Header.occurrences read? (.start text)).map fun (place, identity) => ⟨place, identity⟩

/-- The function declarations of a text. -/
def functions (text : List Char) : List Finding :=
  search Header.function? text

/-- The functions that a text assigns to members of prototypes. -/
def prototypes (text : List Char) : List Finding :=
  search Header.prototype? text

/-- The functions that a text assigns to members of objects. -/
def assigned (text : List Char) : List Finding :=
  search Header.assigned? text

/-- The methods of the class whose header begins at the place. Their headers are looked for
between the braces of the class, as if nothing stood around it; their blocks may reach beyond. -/
def ofClass (place : Place) (name : String) : List Finding :=
  let block := Block.following place
  let inner : Place := ⟨block.interior.start, block.inner⟩
  (Header.occurrences Header.method? inner).filterMap fun (start, method) =>
    if method.isDefinition then
      let identity : Identity := ⟨.method, some name, String.ofList method.name⟩
      some ⟨place.seek start.offset, identity⟩
    else
      none

/-- The methods of the classes of a text. -/
def methods (text : List Char) : List Finding :=
  (Header.occurrences Header.class? (.start text)).flatMap fun (place, name) => ofClass place name

/-- Everything found in a text, in the order of discovery. -/
def all (text : List Char) : List Finding :=
  functions text ++ prototypes text ++ assigned text ++ methods text

end Finding

/-- Definitions filed under their keys. -/
abbrev Catalog :=
  Table Definition.key

namespace Catalog

/-- The definitions of some findings; of findings with one key the last one counts. -/
def ofFindings (findings : List Finding) : Catalog :=
  let latest : Table Finding.key := .ofList findings
  .ofList (latest.rows.map Finding.definition)

/-- The definitions of a text. -/
def ofText (text : String) : Catalog :=
  .ofFindings (Finding.all text.toList)

end Catalog

end ScriptDelta
