import ScriptDelta.Definition

/-! # Definition headers

A header is the text that announces a definition, from the start of a line up to the bracket that
opens its parameters or its body. Blanks before its first word, line ends included, belong to it.
Each reader below begins at the first word. It takes the longest name it can and decides by the next
character, so a text has at most one reading as a header of a given form; the one exception, the
word `extends` run into the name of a class, is read in its own case.
-/

namespace ScriptDelta

namespace Header

/-- Reads `function NAME (`. -/
def function? (place : Place) : Option (Identity × Place) := do
  let place ← place.skip? "function"
  let place ← place.skipBlanks?
  let (name, place) ← place.name?
  let place ← place.skipBlanks.skip? "("
  return (⟨.function, none, String.ofList name⟩, place)

/-- Reads `= function (`. -/
def assignment? (place : Place) : Option Place := do
  let place ← place.skipBlanks.skip? "="
  let place ← place.skipBlanks.skip? "function"
  place.skipBlanks.skip? "("

/-- Reads `CONTAINER.prototype.NAME = function (`. -/
def prototype? (place : Place) : Option (Identity × Place) := do
  let (container, place) ← place.name?
  let place ← place.skip? ".prototype."
  let (name, place) ← place.name?
  let place ← assignment? place
  return (⟨.prototype, some (String.ofList container), String.ofList name⟩, place)

/-- Reads `OBJECT.NAME = function (`. -/
def assigned? (place : Place) : Option (Identity × Place) := do
  let (object, place) ← place.name?
  let place ← place.skip? "."
  let (name, place) ← place.name?
  let place ← assignment? place
  return (⟨.assigned, some (String.ofList object), String.ofList name⟩, place)

/-- Reads the parent of a class, a name that may hold periods, and the brace after it. -/
def parent? (place : Place) : Option Place := do
  let place ← place.skipBlanks?
  let (_, place) ← place.name?
  (place.skipWhile fun c => Text.isNamePart c || c == '.').skipBlanks.skip? "\x7b"

/-- The part of a name before a final `extends`, which must not be the whole name. -/
def stem? (name : List Char) : Option (List Char) :=
  let stem := name.take (name.length - "extends".length)
  if stem ++ "extends".toList = name && !stem.isEmpty then some stem else none

/-- Reads `class NAME {` or `class NAME extends PARENT {`, and returns the name. No blank needs to
stand between the name and the word `extends`. -/
def class? (place : Place) : Option (String × Place) := do
  let place ← place.skip? "class"
  let place ← place.skipBlanks?
  let (name, place) ← place.name?
  let base := place.skipBlanks.skip? "\x7b"
  let derived := (place.skipBlanks.skip? "extends").bind parent?
  match base.or derived with
  | some place => return (String.ofList name, place)
  | none =>
    let stem ← stem? name
    let place ← parent? place
    return (String.ofList stem, place)

/-- What the header of a method says: its name and the text of its parameters. -/
structure Method where
  name : List Char
  parameters : List Char
deriving DecidableEq

/-- Reads `NAME (PARAMETERS) {`, where the parameters end at the first closing parenthesis. -/
def named? (place : Place) : Option (Method × Place) := do
  let (name, place) ← place.name?
  let place ← place.skipBlanks.skip? "("
  let parameters := place.rest.takeWhile (· != ')')
  let place ← (place.skipWhile (· != ')')).skip? ")"
  let place ← place.skipBlanks.skip? "\x7b"
  return (⟨name, parameters⟩, place)

/-- Reads `NAME (PARAMETERS) {`, with or without `async` in front. -/
def method? (place : Place) : Option (Method × Place) :=
  let marked := do named? (← (← place.skip? "async").skipBlanks?)
  marked.or (named? place)

/-- Words that stand before a parenthesis and a brace without naming a method. -/
def reservedWords : List String :=
  ["constructor", "get", "set", "static", "if", "for", "while", "switch", "catch", "with",
   "function", "return"]

/-- The text contains the word somewhere. -/
def mentions (word : List Char) : List Char → Bool
  | [] => word.isEmpty
  | c :: rest => word.isPrefixOf (c :: rest) || mentions word rest

/-- A method is neither a statement with a condition nor a call that is passed a function. -/
def Method.isDefinition (method : Method) : Bool :=
  !reservedWords.contains (String.ofList method.name) &&
    !mentions "function".toList method.parameters && !mentions "=>".toList method.parameters

/-- The headers of one form that begin at a line start, each with its place. A line start inside a
header that was read already is passed over, and so is one among blanks before a word that begins
no header. -/
def occurrences {α : Type} (read? : Place → Option (α × Place)) (place : Place) :
    List (Place × α) :=
  go place.offset place.lineStarts
where
  go (resume : Nat) : List Place → List (Place × α)
    | [] => []
    | start :: later =>
      if start.offset < resume then go resume later
      else
        let word := start.skipBlanks
        match read? word with
        | some (header, stop) => (start, header) :: go stop.offset later
        | none => go (word.offset + 1) later

end Header

end ScriptDelta
